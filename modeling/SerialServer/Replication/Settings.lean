import Mathlib.Data.List.DropRight
import SerialServer.Replication.Status

/-!
# SerialServer.Replication.Settings

When the calls of an event leave the server's settings those of the reporter.

Of the calls that change a setting only `mysavestop` broadcasts the record, and it
broadcasts the one `myport2sn` names. What an event writes to a slot after the last such
call for it stays with the reporter; the server's record is then still right only if the
last value written to each field is one the field had at that call (`Carried`). Which
events make such calls is the subject of `Replication.Requests`.

Each field of each slot is a register of the calls in the sense of `Core.LastWriter`, so
what an event leaves in it is what its last writer wrote.
-/

namespace SerialServer

open Dataxfer Mrs2s Run

/-- The fields of a record but `stat`. -/
inductive Field
  | baud
  | bits
  | parity
  | stop
  | flowctrl
  | ip
  deriving Repr, DecidableEq

/-- The field of a record. -/
def Field.get (r : PortStat) : Field → Word
  | .baud => r.baud
  | .bits => r.bits
  | .parity => r.parity
  | .stop => r.stop
  | .flowctrl => r.flowctrl
  | .ip => r.ip

/-- The server has the reporter's settings. -/
def SettingsAgree (x : Tables) : Prop :=
  ∀ (k : Fin 8) (f : Field), f.get (x.2 k) = f.get (x.1 (k : Nat))

/-! ### What the calls write -/

/-- The value a call gives a field of its record, if it is one the call assigns. -/
def Dataxfer.Call.assigns (f : Field) : Call → Option Word
  | .myinitGd => some (f.get initRecord)
  | .mySaveIpRemote inp => if f = .ip then some inp else none
  | .prnspeed s => if f = .baud then some (Dataxfer.baud2n s) else none
  | .mysavebits v => if f = .bits then some (Dataxfer.bits2n v) else none
  | .mysaveparity v => if f = .parity then some (parity2n v) else none
  | .mysavestop v => if f = .stop then some (stop2n v) else none
  | .mysaveflowc _ => if f = .flowctrl then some 0 else none
  | .myChangeStat _ => none

/-- The value a call writes to field `f` of slot `k`, if it writes it. -/
def Dataxfer.Call.writes (pname : PortName) (k : Int) (f : Field) (c : Call) : Option Word :=
  if k = c.slot pname then c.assigns f else none

/-- The last value a sequence of calls writes to field `f` of slot `k`. -/
def lastWritten (pname : PortName) (k : Int) (f : Field) (cs : List Call) : Option Word :=
  (cs.filter fun c => (c.writes pname k f).isSome).getLast?.bind fun c => c.writes pname k f

theorem Dataxfer.Call.get_update (f : Field) (c : Call) (r : PortStat) :
    f.get (c.update r) = (c.assigns f).getD (f.get r) := by
  cases c <;> cases f <;> rfl

theorem Dataxfer.Call.get_table (pname : PortName) (t : PortTable) (c : Call) (k : Int)
    (f : Field) : f.get (c.table pname t k) = (c.writes pname k f).getD (f.get (t k)) := by
  rw [Call.table_apply, Call.writes]
  split
  · exact Call.get_update f c _
  · rfl

/-- A field of a slot is a register of the calls. -/
theorem field_register (pname : PortName) (k : Int) (f : Field) :
    Register (Call.table pname) (fun t => f.get (t k)) (fun c => (c.writes pname k f).isSome)
      (fun c => (c.writes pname k f).getD 0) where
  write := by
    intro t c hc
    obtain ⟨v, hv⟩ := Option.isSome_iff_exists.1 hc
    simp only [Call.get_table, hv, Option.getD_some]
  keep := by
    intro t c hc
    simp only [Call.get_table, Option.not_isSome_iff_eq_none.1 (Bool.not_eq_true _ ▸ hc),
      Option.getD_none]

/-- **What a sequence of calls leaves in a field** is the last value written to it. -/
theorem foldl_field (pname : PortName) (t : PortTable) (cs : List Call) (k : Int) (f : Field) :
    f.get (cs.foldl (Call.table pname) t k) = (lastWritten pname k f cs).getD (f.get (t k)) := by
  rw [(field_register pname k f).foldl t cs, lastWritten]
  cases hlast : (cs.filter fun c => (c.writes pname k f).isSome).getLast? with
  | none => rfl
  | some c =>
    have hmem := List.mem_of_getLast? hlast
    obtain ⟨v, hv⟩ := Option.isSome_iff_exists.1 (List.mem_filter.1 hmem).2
    simp only [Option.elim_some, Option.bind_some, hv, Option.getD_some]

/-! ### What the calls broadcast -/

/-- The call broadcasts the record of slot `k`. -/
def Dataxfer.Call.carries (pname : PortName) (k : Fin 8) : Call → Bool
  | .mysavestop _ => decide (k = portSlot pname)
  | _ => false

/-- The calls up to the last that broadcasts slot `k`. -/
def sent (pname : PortName) (k : Fin 8) (cs : List Call) : List Call :=
  cs.rdropWhile fun c => !c.carries pname k

/-- The calls after it. -/
def unsent (pname : PortName) (k : Fin 8) (cs : List Call) : List Call :=
  cs.rtakeWhile fun c => !c.carries pname k

theorem sent_append_unsent (pname : PortName) (k : Fin 8) (cs : List Call) :
    sent pname k cs ++ unsent pname k cs = cs :=
  List.rdropWhile_append_rtakeWhile

/-- A call that broadcasts slot `k` brings the server what it has left there. -/
theorem relay_carries {pname : PortName} {k : Fin 8} {c : Call} (hc : c.carries pname k = true)
    (x : Tables) : (relay pname x c).2 k = (relay pname x c).1 (k : Nat) := by
  cases c with
  | mysavestop v =>
    have hk : k = portSlot pname := of_decide_eq_true hc
    rw [hk]
    simp only [relay, Call.delivered, Function.update_self, portSlot_val]
  | _ => exact absurd hc (by simp [Call.carries])

/-- Any other call leaves the server's settings of the slot alone. -/
theorem relay_not_carries {pname : PortName} {k : Fin 8} {c : Call}
    (hc : c.carries pname k = false) (x : Tables) (f : Field) :
    f.get ((relay pname x c).2 k) = f.get (x.2 k) := by
  cases c with
  | myChangeStat stat => cases f <;> rfl
  | mysavestop v =>
    have hk : k ≠ portSlot pname := of_decide_eq_false hc
    simp only [relay, Call.delivered, Function.update_of_ne hk]
  | _ => rfl

/-- **What a sequence of calls leaves with the server**: the reporter's record as it was
when it was last broadcast. -/
theorem foldl_relay_snd {x : Tables} (h : SettingsAgree x) (pname : PortName) (cs : List Call)
    (k : Fin 8) (f : Field) : f.get ((cs.foldl (relay pname) x).2 k) =
      f.get ((sent pname k cs).foldl (Call.table pname) x.1 (k : Nat)) := by
  induction cs using List.reverseRecOn with
  | nil => exact h k f
  | append_singleton cs c ih =>
    rw [List.foldl_append, List.foldl_cons, List.foldl_nil]
    cases hc : c.carries pname k with
    | true =>
      have hsent : sent pname k (cs ++ [c]) = cs ++ [c] :=
        List.rdropWhile_concat_neg _ _ _ (by simp [hc])
      rw [relay_carries hc, hsent, List.foldl_append, ← foldl_relay_fst]
      rfl
    | false =>
      have hsent : sent pname k (cs ++ [c]) = sent pname k cs :=
        List.rdropWhile_concat_pos _ _ _ (by simp [hc])
      rw [relay_not_carries hc, hsent, ih]

/-! ### What is left behind -/

/-- Every value the calls of port `pname` write last to a field after the last broadcast of
its slot is the one that broadcast carried, `t` being the table before the calls. -/
def Carried (pname : PortName) (t : PortTable) (cs : List Call) : Prop :=
  ∀ (k : Fin 8) (f : Field) (v : Word), lastWritten pname (k : Nat) f (unsent pname k cs) = some v →
    (lastWritten pname (k : Nat) f (sent pname k cs)).getD (f.get (t (k : Nat))) = v

theorem carried_iff {x : Tables} (h : SettingsAgree x) (pname : PortName) (cs : List Call) :
    SettingsAgree (cs.foldl (relay pname) x) ↔ Carried pname x.1 cs := by
  have hfield : ∀ (k : Fin 8) (f : Field),
      f.get ((cs.foldl (relay pname) x).2 k) = f.get ((cs.foldl (relay pname) x).1 (k : Nat)) ↔
        ∀ v, lastWritten pname (k : Nat) f (unsent pname k cs) = some v →
          (lastWritten pname (k : Nat) f (sent pname k cs)).getD (f.get (x.1 (k : Nat))) = v := by
    intro k f
    have hlast : f.get ((cs.foldl (relay pname) x).1 (k : Nat)) =
        (lastWritten pname (k : Nat) f (unsent pname k cs)).getD
          ((lastWritten pname (k : Nat) f (sent pname k cs)).getD (f.get (x.1 (k : Nat)))) := by
      rw [foldl_relay_fst, ← foldl_field, ← foldl_field, ← List.foldl_append, sent_append_unsent]
    rw [foldl_relay_snd h, hlast, foldl_field]
    cases lastWritten pname (k : Nat) f (unsent pname k cs) with
    | none => simp
    | some v => simp
  exact forall_congr' fun k => forall_congr' fun f => hfield k f

end SerialServer
