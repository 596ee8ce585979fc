import SerialServer.Relay
import SerialServer.Reporter.Ser2net
import SerialServer.Server.TableHistory

/-!
# SerialServer.Replication.System

The reporter and the server together.

An event is a callback of the reporter; the datagrams it broadcasts are delivered to the
server in order before the next (`System.step`). The bytes on the wire then drop out:
on both sides a call of the reporter acts on the two tables as `relay` says, which knows
nothing of messages (`System.step_relay`). What is proved of runs is proved of `relay`.

The fields of a record travel as one byte each, so this rests on an invariant of the
reporter: its table holds nothing larger (`TableInBytes`).
-/

namespace SerialServer

open Dataxfer Mrs2s
open Mrs2lib (Server udpFields isPortIndex portIndex udpApply udpApply_af udpApply_portFrame)

/-! ### What the datagrams do -/

theorem Buf.ofList_eq_store (d : List Byte) : Buf.ofList d = Buf.store (fun _ => 0) 0 d := by
  funext i
  simp [Buf.ofList, Buf.store]

theorem udpFields_le (m : Machine) (b : Buf) : udpFields m b ≤ 10 := by
  unfold udpFields
  repeat' split
  all_goals omega

theorem longEnough_portFrame (m : Machine) (idx : Byte) (r : PortStat) :
    LongEnough m (portFrame idx r) :=
  fun _ => ⟨Nat.le_refl 14, fun _ => Nat.le_succ_of_le (Nat.add_le_add_left (udpFields_le m _) 3)⟩

theorem longEnough_statFrame (m : Machine) (stat : Fin 8 → Word) :
    LongEnough m (statFrame 0xaf stat) := by
  intro _
  refine ⟨Nat.le_refl 12, fun _ => ?_⟩
  have htype : ¬ m.lowByte (Buf.ofList (statFrame 0xaf stat) 0) = 0xa0 := by
    rw [Mrs2lib.lowByte_eq_a0]
    exact (by decide : (0xaf : Byte) ≠ 0xa0)
  rw [statFrame_length]
  unfold udpFields
  rw [if_neg htype]
  split <;> omega

/-- A record that is delivered replaces that of its port. -/
theorem deliver_portFrame (m : Machine) (s : Server) (i : Fin 8) {r : PortStat} (h : r.InBytes) :
    (deliver m s (portFrame (portIndex i) r)).gportStat = Function.update s.gportStat i r := by
  have hcrc : crcOk m (Buf.ofList (portFrame (portIndex i) r)) = true := by
    have h' := crcOk_of_isFrame m (fun _ => 0) [] (isFrame_portFrame (portIndex i) r)
    rwa [List.append_nil, ← Buf.ofList_eq_store] at h'
  unfold deliver
  rw [if_pos ⟨by simp, hcrc⟩, Buf.ofList_eq_store]
  exact udpApply_portFrame m s _ i h

/-- A status message that is delivered replaces the status of every port. -/
theorem deliver_statFrame (m : Machine) (s : Server) {stat : Fin 8 → Word}
    (h : ∀ i, (stat i).toNat < 256) (i : Fin 8) :
    (deliver m s (statFrame 0xaf stat)).gportStat i = { s.gportStat i with stat := stat i } := by
  have hcrc : crcOk m (Buf.ofList (statFrame 0xaf stat)) = true := by
    have h' := crcOk_of_isFrame m (fun _ => 0) [] (isFrame_statFrame 0xaf stat)
    rwa [List.append_nil, ← Buf.ofList_eq_store] at h'
  have hbyte : Buf.ofList (statFrame 0xaf stat) (3 + i) = chr (stat i) :=
    statFrame_getD 0xaf stat i
  unfold deliver
  rw [if_pos ⟨by simp, hcrc⟩, udpApply_af rfl, hbyte, Machine.lowByte_eq, setWidth_chr (h i)]

/-! ### The table keeps to bytes -/

/-- Every field of the table that travels as a byte fits in one. -/
def TableInBytes (t : PortTable) : Prop := ∀ k, (t k).InBytes

/-- The status a call writes fits in a byte. -/
def Dataxfer.Call.InBytes : Call → Prop
  | .myChangeStat stat => stat.toNat < 256
  | _ => True

/-- One of two codes. -/
theorem toNat_ite_lt {P : Prop} [Decidable P] {a b : Word} (ha : a.toNat < 256) (hb : b.toNat < 256) :
    (if P then a else b).toNat < 256 := by
  split
  · exact ha
  · exact hb

theorem baud2n_lt (s : Speed) : (Dataxfer.baud2n s).toNat < 256 := by
  unfold Dataxfer.baud2n
  repeat refine toNat_ite_lt (by decide) ?_
  decide

theorem bits2n_lt (v : Word) : (Dataxfer.bits2n v).toNat < 256 := by
  unfold Dataxfer.bits2n
  repeat refine toNat_ite_lt (by decide) ?_
  decide

theorem parity2n_lt (v : Word) : (parity2n v).toNat < 256 := by
  unfold parity2n
  repeat refine toNat_ite_lt (by decide) ?_
  decide

theorem stop2n_lt (v : Word) : (stop2n v).toNat < 256 := by
  unfold stop2n
  repeat refine toNat_ite_lt (by decide) ?_
  decide

theorem initRecord_inBytes : Dataxfer.initRecord.InBytes :=
  ⟨by decide, by decide, by decide, by decide, by decide, by decide⟩

/-- What a call leaves of a record fits in bytes. -/
theorem Dataxfer.Call.update_inBytes {c : Call} (hc : c.InBytes) {r : PortStat} (hr : r.InBytes) :
    (c.update r).InBytes := by
  cases c with
  | myinitGd => exact initRecord_inBytes
  | myChangeStat stat => exact { hr with stat := hc }
  | mySaveIpRemote inp => exact { hr with }
  | prnspeed s => exact { hr with baud := baud2n_lt s }
  | mysavebits v => exact { hr with bits := bits2n_lt v }
  | mysaveparity v => exact { hr with parity := parity2n_lt v }
  | mysavestop v => exact { hr with stop := stop2n_lt v }
  | mysaveflowc v => exact { hr with flowctrl := (by decide : (0 : Word).toNat < 256) }

theorem TableInBytes.call {t : PortTable} (ht : TableInBytes t) (pname : PortName) {c : Call}
    (hc : c.InBytes) : TableInBytes (c.table pname t) := by
  intro k
  rw [Call.table_apply]
  split
  · exact Call.update_inBytes hc (ht k)
  · exact ht k

/-! ### The two tables -/

/-- The tables of the reporter and of the server. -/
abbrev Tables := PortTable × (Fin 8 → PortStat)

/-- What reaches the server's table of a call that has left the reporter's as `t`. -/
def Dataxfer.Call.delivered (pname : PortName) (t : PortTable) (g : Fin 8 → PortStat) :
    Call → Fin 8 → PortStat
  | .myChangeStat _ => fun k => { g k with stat := (t (k : Nat)).stat }
  | .mysavestop _ => Function.update g (portSlot pname) (t (myport2sn pname))
  | _ => g

/-- **One call of the reporter, on both tables.** -/
def relay (pname : PortName) (x : Tables) (c : Call) : Tables :=
  (c.table pname x.1, c.delivered pname (c.table pname x.1) x.2)

/-- The datagrams of a call do to the server's table what `relay` says. -/
theorem deliver_sends {t : PortTable} (ht : TableInBytes t) (mr m : Machine) (pname : PortName)
    (s : Server) (c : Call) :
    ((c.sends mr pname t).foldl (deliver m) s).gportStat = c.delivered pname t s.gportStat := by
  cases c with
  | myChangeStat stat =>
    funext k
    simp only [Call.sends, Call.delivered, List.foldl_cons, List.foldl_nil, udpAf20_eq]
    exact deliver_statFrame m s (fun i => (ht _).stat) k
  | mysavestop v =>
    simp only [Call.sends, Call.delivered, List.foldl_cons, List.foldl_nil, udpA010_portFrame]
    exact deliver_portFrame m s _ (ht _)
  | _ => rfl

theorem longEnough_sends {mr m : Machine} {pname : PortName} {t : PortTable} {c : Call}
    {d : Datagram} (hd : d ∈ c.sends mr pname t) : LongEnough m d := by
  cases c with
  | myChangeStat stat =>
    rw [List.mem_singleton.1 hd, udpAf20_eq]
    exact longEnough_statFrame m _
  | mysavestop v =>
    rw [List.mem_singleton.1 hd, udpA010_eq]
    exact longEnough_portFrame m _ _
  | _ => exact absurd hd List.not_mem_nil

theorem longEnough_execCalls {mr m : Machine} {pname : PortName} {t : PortTable} {cs : List Call} :
    ∀ d ∈ (execCalls mr pname t cs).2, LongEnough m d := by
  induction cs generalizing t with
  | nil =>
    intro d hd
    exact absurd hd List.not_mem_nil
  | cons c cs ih =>
    intro d hd
    rcases List.mem_append.1 hd with hown | hrest
    · exact longEnough_sends hown
    · exact ih d hrest

/-- A sequence of calls with its datagrams delivered, as `relay` of one after the other. -/
theorem execCalls_relay {t : PortTable} (ht : TableInBytes t) (mr m : Machine) (pname : PortName)
    {cs : List Call} (hcs : ∀ c ∈ cs, c.InBytes) (s : Server) :
    ((execCalls mr pname t cs).1, ((execCalls mr pname t cs).2.foldl (deliver m) s).gportStat) =
      cs.foldl (relay pname) (t, s.gportStat) := by
  induction cs generalizing t s with
  | nil => rfl
  | cons c cs ih =>
    have ht' := ht.call pname (hcs c List.mem_cons_self)
    have hrest := ih ht' (fun c' hc' => hcs c' (List.mem_cons_of_mem _ hc'))
      ((c.sends mr pname (c.table pname t)).foldl (deliver m) s)
    rw [deliver_sends ht', ← List.foldl_append] at hrest
    exact hrest

theorem TableInBytes.execCalls {t : PortTable} (ht : TableInBytes t) (mr : Machine)
    (pname : PortName) {cs : List Call} (hcs : ∀ c ∈ cs, c.InBytes) :
    TableInBytes (execCalls mr pname t cs).1 := by
  induction cs generalizing t with
  | nil => exact ht
  | cons c cs ih =>
    exact ih (ht.call pname (hcs c List.mem_cons_self))
      fun c' hc' => hcs c' (List.mem_cons_of_mem _ hc')

/-! ### The calls of a callback -/

theorem Dataxfer.Move.inBytes {silent : Prop} {s s' : Session} {cs : List Call} (h : Move silent s cs s') :
    ∀ c ∈ cs, c.InBytes := by
  have hfirst : ∀ c ∈ s.first, c.InBytes := by
    intro c hc
    unfold Session.first at hc
    split at hc
    · rw [List.mem_singleton.1 hc]
      exact (by decide : (0x11 : Word).toNat < 256)
    · exact absurd hc List.not_mem_nil
  cases h with
  | @setting c hconn hset =>
    intro c' hc'
    rw [List.mem_singleton.1 hc']
    cases c with
    | myChangeStat stat => exact absurd hset (by simp [Call.IsSetting])
    | _ => trivial
  | deferred hconn hn =>
    intro c hc
    exact absurd hc List.not_mem_nil
  | received hconn hpos => exact hfirst
  | sent hconn hpos => exact hfirst
  | finished =>
    intro c hc
    rw [List.mem_singleton.1 hc]
    exact (by decide : (0x00 : Word).toNat < 256)
  | refused hconn =>
    intro c hc
    rw [List.mem_singleton.1 hc]
    trivial
  | opened inp hconn =>
    intro c hc
    simp only [List.mem_cons, List.not_mem_nil, or_false] at hc
    rcases hc with rfl | rfl | rfl
    · trivial
    · exact (by decide : (0x10 : Word).toNat < 256)
    · trivial

theorem Dataxfer.Moves.inBytes {silent : Prop} {bound : Nat} {s s' : Session} {cs : List Call}
    (h : Moves silent bound s cs s') : ∀ c ∈ cs, c.InBytes := by
  induction h with
  | refl s =>
    intro c hc
    exact absurd hc List.not_mem_nil
  | step hm _ _ ih =>
    intro c hc
    rcases List.mem_append.1 hc with hown | hrest
    · exact hm.inBytes c hown
    · exact ih c hrest

/-! ### Runs of both -/

/-- The reporter and the server's receive loop. -/
structure System (n : Nat) where
  net : Ser2net n
  thread : UdpThread

namespace System

variable {n : Nat}

/-- The two tables. -/
def tables (x : System n) : Tables := (x.net.table, x.thread.srv.gportStat)

/-- An event of the reporter, with everything it broadcasts delivered to the server on
machine `m`. `connected` says whether the server has a client. -/
def step (cfg : Config n) (m : Machine) (connected : Bool) (x : System n) (ev : Event n) :
    System n where
  net := Dataxfer.step cfg x.net ev
  thread := (broadcasts cfg x.net ev).foldl (threadUDPr m connected) x.thread

/-- What every reachable reporter has. -/
structure Sound (x : System n) : Prop where
  wellFormed : x.net.WellFormed
  inBytes : TableInBytes x.net.table

variable {cfg : Config n} {m : Machine} {connected : Bool} {x : System n}

/-- A reporter that has just started, with any server. -/
theorem sound_start (state : Fin n → PortState) (thread : UdpThread) :
    Sound ⟨start state, thread⟩ := by
  have hzero : PortStat.InBytes ⟨0, 0, 0, 0, 0, 0, 0⟩ :=
    ⟨by decide, by decide, by decide, by decide, by decide, by decide⟩
  exact ⟨start_wellFormed state, fun _ => hzero⟩

/-- The calls of an event write nothing larger than a byte. -/
theorem Sound.calls (h : x.Sound) (ev : Event n) :
    ∀ c ∈ (eventResult cfg x.net ev).calls, c.InBytes :=
  (callback_moves (cfg.port ev.1) (isDeviceAlreadyInuse cfg x.net ev.1) (h.wellFormed ev.1) 0
    ev.2).moves.inBytes

theorem Sound.step (h : x.Sound) (ev : Event n) : (step cfg m connected x ev).Sound :=
  ⟨step_wellFormed h.wellFormed ev, h.inBytes.execCalls cfg.m _ (h.calls ev)⟩

/-- **An event acts on the two tables by the calls it makes**, whatever the machines, the
receive buffer and the summaries are. -/
theorem step_relay (h : x.Sound) (ev : Event n) :
    (System.step cfg m connected x ev).tables =
      (eventResult cfg x.net ev).calls.foldl (relay (cfg.name ev.1)) x.tables := by
  have hcalls : ∀ c ∈ (eventResult cfg x.net ev).calls, c.InBytes := h.calls ev
  have hall := execCalls_relay h.inBytes cfg.m m (cfg.name ev.1) hcalls x.thread.srv
  have hthread : ((broadcasts cfg x.net ev).foldl (threadUDPr m connected) x.thread).srv =
      (broadcasts cfg x.net ev).foldl (deliver m) x.thread.srv :=
    foldl_threadUDPr_srv connected longEnough_execCalls x.thread
  unfold tables System.step
  rw [hthread]
  exact hall

end System

end SerialServer
