import SerialServer.Replication.System

/-!
# SerialServer.Replication.Status

The server's statuses follow the reporter's.

Two kinds of broadcast carry a status, and `myinit_gd`, which resets one, is followed by
none. That does no harm because it resets the slot of a port without a connection, and
such a slot is at `0x00` already (`StatusInv.idle`): `finish_shutdown_port` has put it
there and no other port uses it.
-/

namespace SerialServer

open Dataxfer Mrs2s Run

/-- The server has the reporter's statuses. -/
def StatAgree (x : Tables) : Prop := ∀ k : Fin 8, (x.2 k).stat = (x.1 (k : Nat)).stat

/-! ### Calls -/

theorem foldl_relay_fst (pname : PortName) (x : Tables) (cs : List Call) :
    (cs.foldl (relay pname) x).1 = cs.foldl (Call.table pname) x.1 := by
  induction cs generalizing x with
  | nil => rfl
  | cons c cs ih => exact ih _

/-- A call keeps the statuses in agreement, unless it resets one that is not 0. -/
theorem StatAgree.call {x : Tables} (h : StatAgree x) (pname : PortName) {c : Call}
    (hc : c = .myinitGd → (x.1 (digitSlot pname)).stat = 0) : StatAgree (relay pname x c) := by
  intro k
  have hkeep : c.statAfter (x.1 (k : Nat)).stat = (x.1 (k : Nat)).stat →
      (x.2 k).stat = (c.table pname x.1 (k : Nat)).stat := by
    intro hst
    rw [Call.table_stat, hst, ite_self]
    exact h k
  cases c with
  | myChangeStat stat => rfl
  | myinitGd =>
    show (x.2 k).stat = (Call.table pname x.1 .myinitGd (k : Nat)).stat
    rw [Call.table_stat]
    split
    · rename_i hk
      rw [h k, hk]
      exact hc rfl
    · exact h k
  | mysavestop v =>
    by_cases hk : k = portSlot pname
    · rw [hk]
      simp only [relay, Call.delivered, Function.update_self, portSlot_val]
    · simp only [relay, Call.delivered, Function.update_of_ne hk]
      exact hkeep rfl
  | _ => exact hkeep rfl

/-! ### Moves of a connection -/

/-- What holds of a port with connection `s` and of the two tables. -/
structure StatusInv (pname : PortName) (s : Session) (x : Tables) : Prop where
  agree : StatAgree x
  idle : s.connected = false → (x.1 (digitSlot pname)).stat = 0

theorem Dataxfer.Move.statusInv {silent : Prop} {s s' : Session} {cs : List Call}
    (hm : Move silent s cs s') {pname : PortName} {x : Tables} (h : StatusInv pname s x) :
    StatusInv pname s' (cs.foldl (relay pname) x) := by
  have hfirst : StatAgree (s.first.foldl (relay pname) x) := by
    unfold Session.first
    split
    · exact h.agree.call pname (by simp)
    · exact h.agree
  cases hm with
  | @setting c hconn hset =>
    refine ⟨h.agree.call pname ?_, fun hd => absurd hconn (by simp [hd])⟩
    rintro rfl
    exact absurd hset (by simp [Call.IsSetting])
  | deferred hconn hn => exact ⟨h.agree, fun hd => absurd hconn (by simpa using hd)⟩
  | received hconn hpos => exact ⟨hfirst, fun hd => absurd hconn (by simpa using hd)⟩
  | sent hconn hpos => exact ⟨hfirst, fun hd => absurd hconn (by simpa using hd)⟩
  | finished =>
    refine ⟨h.agree.call pname (by simp), fun _ => ?_⟩
    show (Call.table pname x.1 (.myChangeStat 0x00) (digitSlot pname)).stat = 0
    rw [Call.table_stat, if_pos rfl]
    rfl
  | refused hconn =>
    refine ⟨h.agree.call pname fun _ => h.idle hconn, fun _ => ?_⟩
    show (Call.table pname x.1 .myinitGd (digitSlot pname)).stat = 0
    rw [Call.table_stat, if_pos rfl]
    rfl
  | opened inp hconn =>
    -- The reset comes first, and is the only one.
    have hreset := h.agree.call pname (c := .myinitGd) fun _ => h.idle hconn
    refine ⟨?_, fun hd => absurd hd (by simp)⟩
    exact (hreset.call pname (by simp)).call pname (by simp)

theorem Dataxfer.Moves.statusInv {silent : Prop} {bound : Nat} {s s' : Session} {cs : List Call}
    (hm : Moves silent bound s cs s') {pname : PortName} {x : Tables}
    (h : StatusInv pname s x) : StatusInv pname s' (cs.foldl (relay pname) x) := by
  induction hm generalizing x with
  | refl s => exact h
  | step hmove _ _ ih =>
    rw [List.foldl_append]
    exact ih (hmove.statusInv h)

/-! ### Runs -/

variable {n : Nat}

/-- What a run keeps. -/
structure Replicated (cfg : Config n) (x : System n) : Prop where
  sound : x.Sound
  agree : StatAgree x.tables
  idle : ∀ i, (x.net.ports i).tcpToDevState = .unconnected →
    (x.net.table (cfg.slot i)).stat = 0

theorem Replicated.step {cfg : Config n} (hslot : ∀ i j, i ≠ j → cfg.slot i ≠ cfg.slot j)
    {x : System n} (h : Replicated cfg x) (m : Machine) (connected : Bool) (ev : Event n) :
    Replicated cfg (System.step cfg m connected x ev) := by
  obtain ⟨j, a⟩ := ev
  have hport : StatusInv (cfg.name j) ((x.net.ports j).session 0) x.tables := by
    refine ⟨h.agree, fun hd => h.idle j ?_⟩
    simpa [Port.session] using hd
  have hmoves := (callback_moves (cfg.port j) (isDeviceAlreadyInuse cfg x.net j)
    (h.sound.wellFormed j) 0 a).moves
  have hafter := hmoves.statusInv hport
  have htables : (System.step cfg m connected x (j, a)).tables = _ :=
    System.step_relay h.sound (j, a)
  refine ⟨h.sound.step _, ?_, fun i hi => ?_⟩
  · rw [htables]
    exact hafter.agree
  · by_cases hij : i = j
    · rw [hij] at hi ⊢
      have hnet : (System.step cfg m connected x (j, a)).net.table =
          ((eventResult cfg x.net (j, a)).calls.foldl (relay (cfg.name j)) x.tables).1 :=
        congrArg Prod.fst htables
      rw [hnet]
      refine hafter.idle ?_
      have hi' : (eventResult cfg x.net (j, a)).port.tcpToDevState = .unconnected := by
        simpa [System.step, Dataxfer.step] using hi
      simpa [Port.session, eventResult] using hi'
    · have hkeep : (System.step cfg m connected x (j, a)).net.ports i = x.net.ports i := by
        simp [System.step, Dataxfer.step, hij]
      rw [hkeep] at hi
      have hstat : ((Dataxfer.step cfg x.net (j, a)).table (cfg.slot i)).stat =
          (x.net.table (cfg.slot i)).stat := step_stat_ne _ _ (hslot i j hij)
      exact hstat.trans (h.idle i hi)

/-- **Status replication.** Over ports with pairwise different slots, a server that starts
with all statuses 0 has the reporter's eight statuses after every event of every run. -/
theorem status_replicated (cfg : Config n) (hslot : ∀ i j, i ≠ j → cfg.slot i ≠ cfg.slot j)
    (m : Machine) (connected : Bool) (state : Fin n → PortState) (thread : UdpThread)
    (hzero : ∀ k, (thread.srv.gportStat k).stat = 0) (evs : List (Event n)) :
    Always (System.step cfg m connected)
      (fun x => ∀ k : Fin 8, (x.thread.srv.gportStat k).stat = (x.net.table (k : Nat)).stat)
      ⟨start state, thread⟩ evs := by
  have hstart : Replicated cfg ⟨start state, thread⟩ :=
    ⟨System.sound_start state thread, hzero, fun _ _ => rfl⟩
  refine .of_invariant hstart (fun x ev hx _ => hx.step hslot m connected ev) ?_
    (.of_forall fun _ _ => trivial)
  exact fun x hx => hx.agree

/-- Ports 3001 and 3005 with a server that has just started. -/
theorem status_replicated_start :
    let setup : SetupEnv := ⟨true, true, true, true, true, true, true, true, 7⟩
    let m : Machine := ⟨.big, .unsigned⟩
    let cfg : Config 2 := ⟨m, fun i =>
      ⟨if i = 0 then "3001".toList else "3005".toList, "/dev/ttyS1".toList, true, none, none, none,
        ⟨false, [], 256⟩, 31⟩⟩
    let thread : UdpThread := ⟨Buf.ofList [], Buf.ofList [], 0,
      Mrs2lib.initGd m ⟨0, 0⟩ ⟨fun _ => Mrs2lib.initRecord, 0, 0, [], [], none, none, []⟩, []⟩
    Always (System.step cfg m true)
      (fun x => ∀ k : Fin 8, (x.thread.srv.gportStat k).stat = (x.net.table (k : Nat)).stat)
      ⟨start fun _ => .raw, thread⟩
      [(0, .accept setup), (1, .accept { setup with openOk := false }),
        (0, .devRead (.data [1, 2]) (.wrote 2)), (0, .except)] :=
  status_replicated _ (by decide +kernel) _ _ _ _ (fun _ => rfl) _

end SerialServer
