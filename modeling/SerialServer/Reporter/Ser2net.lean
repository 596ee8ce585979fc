import SerialServer.Core.Run
import SerialServer.Reporter.Session

/-!
# SerialServer.Reporter.Ser2net

The reporter as a whole: the configured ports, the table they share, and one callback
after the other.

An event is a port and a callback of it. The state `Watched` adds to the reporter what
the results about a port's status speak of: the bytes that have gone through its device
since the connection was set up, and the values `myChangeStat` has written to each slot.
-/

namespace SerialServer.Dataxfer

/-- The configuration: `ports` in the order of the file. -/
structure Config (n : Nat) where
  m : Machine
  port : Fin n → PortConfig

variable {n : Nat}

/-- The name of port `i`. -/
def Config.name (cfg : Config n) (i : Fin n) : PortName := (cfg.port i).portname

/-- The slot of the status and the settings of port `i`. -/
def Config.slot (cfg : Config n) (i : Fin n) : Int := digitSlot (cfg.name i)

/-- The globals `ports` and `gport_stat`. -/
structure Ser2net (n : Nat) where
  ports : Fin n → Port
  table : PortTable

/-- `is_device_already_inuse`. -/
def isDeviceAlreadyInuse (cfg : Config n) (s : Ser2net n) (i : Fin n) : Bool :=
  (List.finRange n).any fun j =>
    j ≠ i && (cfg.port j).devname = (cfg.port i).devname &&
      (s.ports j).tcpToDevState ≠ .unconnected

/-- A port and a callback of it. -/
abbrev Event (n : Nat) := Fin n × Action

/-- What the callback of an event returns. -/
def eventResult (cfg : Config n) (s : Ser2net n) (ev : Event n) : Result :=
  callback (cfg.port ev.1) (isDeviceAlreadyInuse cfg s ev.1) (s.ports ev.1) ev.2

/-- The reporter after an event. -/
def step (cfg : Config n) (s : Ser2net n) (ev : Event n) : Ser2net n where
  ports := Function.update s.ports ev.1 (eventResult cfg s ev).port
  table := (execCalls cfg.m (cfg.name ev.1) s.table (eventResult cfg s ev).calls).1

/-- The datagrams an event broadcasts. -/
def broadcasts (cfg : Config n) (s : Ser2net n) (ev : Event n) : List Datagram :=
  (execCalls cfg.m (cfg.name ev.1) s.table (eventResult cfg s ev).calls).2

/-- The program has read its configuration; `gport_stat` is zero. -/
def start (state : Fin n → PortState) : Ser2net n where
  ports := fun i => initPortData (state i)
  table := fun _ => ⟨0, 0, 0, 0, 0, 0, 0⟩

/-- Every port is well formed. -/
def Ser2net.WellFormed (s : Ser2net n) : Prop := ∀ i, (s.ports i).WellFormed

theorem start_wellFormed (state : Fin n → PortState) : (start state).WellFormed :=
  fun i => initPortData_wellFormed (state i)

theorem step_wellFormed {cfg : Config n} {s : Ser2net n} (hs : s.WellFormed) (ev : Event n) :
    (step cfg s ev).WellFormed := by
  intro i
  by_cases hi : i = ev.1
  · rw [hi]
    have h := (callback_moves (cfg.port ev.1) (isDeviceAlreadyInuse cfg s ev.1) (hs ev.1) 0
      ev.2).wellFormed
    simpa [step, eventResult] using h
  · simpa [step, hi] using hs i

/-- An event changes the status of its own slot only. -/
theorem step_stat_ne {cfg : Config n} (s : Ser2net n) (ev : Event n) {k : Int}
    (hk : k ≠ cfg.slot ev.1) : ((step cfg s ev).table k).stat = (s.table k).stat :=
  (execCalls_stat ..).trans (if_neg hk)

theorem step_stat_slot (cfg : Config n) (s : Ser2net n) (ev : Event n) :
    ((step cfg s ev).table (cfg.slot ev.1)).stat =
      (eventResult cfg s ev).calls.foldl Call.statAfter (s.table (cfg.slot ev.1)).stat :=
  (execCalls_stat ..).trans (if_pos rfl)

/-! ### Watching a run -/

/-- The values `myChangeStat` writes in a sequence of calls. -/
def statWords (cs : List Call) : List Word :=
  cs.filterMap fun
    | .myChangeStat stat => some stat
    | _ => none

/-- The reporter with, for every port, the bytes that have gone through its device since
the connection was set up, and, for every slot, the values `myChangeStat` has written. -/
structure Watched (n : Nat) where
  net : Ser2net n
  moved : Fin n → Nat
  written : Int → List Word

/-- An event under observation. -/
def watch (cfg : Config n) (w : Watched n) (ev : Event n) : Watched n :=
  let r := eventResult cfg w.net ev
  { net := step cfg w.net ev
    moved := Function.update w.moved ev.1 (sinceSetup (w.moved ev.1) (w.net.ports ev.1) r)
    written := Function.update w.written (cfg.slot ev.1)
      (w.written (cfg.slot ev.1) ++ statWords r.calls) }

/-- The observation of a reporter that has just started. -/
def watchStart (state : Fin n → PortState) : Watched n where
  net := start state
  moved := fun _ => 0
  written := fun _ => []

/-- Events of ports with other slots do not show in slot `i`, nor in its port. -/
theorem watch_other {cfg : Config n} {i : Fin n}
    (hslot : ∀ j ≠ i, cfg.slot j ≠ cfg.slot i) (w : Watched n) {ev : Event n} (hev : ev.1 ≠ i) :
    (watch cfg w ev).net.ports i = w.net.ports i ∧ (watch cfg w ev).moved i = w.moved i ∧
      ((watch cfg w ev).net.table (cfg.slot i)).stat = (w.net.table (cfg.slot i)).stat ∧
      (watch cfg w ev).written (cfg.slot i) = w.written (cfg.slot i) := by
  refine ⟨?_, ?_, step_stat_ne _ _ (hslot _ hev).symm, ?_⟩
  · simp [watch, step, hev.symm]
  · simp [watch, hev.symm]
  · exact Function.update_of_ne (hslot _ hev).symm _ _

/-- The connection of port `i`. -/
def Watched.session (w : Watched n) (i : Fin n) : Session := (w.net.ports i).session (w.moved i)

theorem watch_session_other {cfg : Config n} {i : Fin n} (w : Watched n) {ev : Event n}
    (hev : ev.1 ≠ i) : (watch cfg w ev).session i = w.session i := by
  simp [Watched.session, watch, step, hev.symm]

/-- **An event of port `i`, as moves of its connection.** -/
theorem watch_moves {cfg : Config n} {w : Watched n} (hw : w.net.WellFormed) (i : Fin n)
    (a : Action) :
    Moves (SilentWrite (w.net.ports i) (w.moved i) a) ((watch cfg w (i, a)).moved i)
      (w.session i) (eventResult cfg w.net (i, a)).calls ((watch cfg w (i, a)).session i) := by
  have h := (callback_moves (cfg.port i) (isDeviceAlreadyInuse cfg w.net i) (hw i) (w.moved i)
    a).moves
  simpa [watch, step, Watched.session, eventResult] using h

end SerialServer.Dataxfer
