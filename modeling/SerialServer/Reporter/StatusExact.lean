import SerialServer.Reporter.Ser2net

/-!
# SerialServer.Reporter.StatusExact

When the status of a port is true.

A status should be `0x00` without a connection, `0x10` with one, and `0x11` once data has
gone through the device (`Session.status`). Every move keeps it true but one: data that
could not be written at once is written by `handle_dev_fd_write` later, which neither
counts it nor changes the status. If those are the first bytes of a connection and the
connection lives on, the status is wrong from there (`Missed`); nothing else makes it wrong.
-/

namespace SerialServer.Dataxfer

open Run

variable {n : Nat}

/-- What the status of a connection should be. -/
def Session.status (s : Session) : Word :=
  if s.connected then (if 0 < s.moved then 0x11 else 0x10) else 0x00

/-- A connection through which nothing has gone has counted nothing. -/
def Session.Counted (s : Session) : Prop := s.connected = true → s.moved = 0 → s.fresh

/-! ### Moves -/

theorem Move.counted {silent : Prop} {s s' : Session} {cs : List Call} (hm : Move silent s cs s')
    (h : s.Counted) : s'.Counted := by
  cases hm with
  | setting hc hset => exact h
  | @deferred k hc hk =>
    intro _ hz
    have hz' : s.moved + k = 0 := hz
    exact h hc (by omega)
  | @received k hc hpos =>
    intro _ hz
    have hz' : s.moved + k = 0 := hz
    omega
  | @sent k hc hpos =>
    intro _ hz
    have hz' : s.moved + k = 0 := hz
    omega
  | finished => exact fun hc => absurd hc (by simp)
  | refused hc => exact h
  | opened inp hc => exact fun _ _ => ⟨rfl, rfl⟩

theorem Moves.counted {silent : Prop} {bound : Nat} {s s' : Session} {cs : List Call}
    (hm : Moves silent bound s cs s') (h : s.Counted) : s'.Counted := by
  induction hm with
  | refl s => exact h
  | step hmove _ _ ih => exact ih (hmove.counted h)

theorem statAfter_setting {c : Call} (h : c.IsSetting = true) (st : Word) :
    c.statAfter st = st := by
  cases c with
  | myinitGd => exact absurd h (by simp [Call.IsSetting])
  | myChangeStat stat => exact absurd h (by simp [Call.IsSetting])
  | _ => rfl

/-- Counted data leaves the status at `0x11`. -/
theorem Session.first_status {s : Session} (hc : s.connected = true) (h : s.Counted) :
    s.first.foldl Call.statAfter s.status = 0x11 := by
  unfold Session.first
  by_cases hf : s.fresh
  · rw [if_pos hf]
    rfl
  · rw [if_neg hf]
    have hmoved : 0 < s.moved := by
      rcases Nat.eq_zero_or_pos s.moved with hz | hpos
      · exact absurd (h hc hz) hf
      · exact hpos
    simp [Session.status, hc, hmoved]

/-- **Every move keeps the status true**, unless it writes the first bytes silently. -/
theorem Move.status {s s' : Session} {cs : List Call} (hm : Move False s cs s')
    (h : s.Counted) : cs.foldl Call.statAfter s.status = s'.status := by
  cases hm with
  | setting hc hset => exact statAfter_setting hset _
  | @deferred k hc hk =>
    rcases hk with rfl | hpos | hfalse
    · rfl
    · have hpos' : 0 < s.moved + k := by omega
      simp [Session.status, hc, hpos, hpos']
    · exact hfalse.elim
  | @received k hc hpos =>
    rw [Session.first_status hc h]
    have hpos' : 0 < s.moved + k := by omega
    simp [Session.status, hc, hpos']
  | @sent k hc hpos =>
    rw [Session.first_status hc h]
    have hpos' : 0 < s.moved + k := by omega
    simp [Session.status, hc, hpos']
  | finished => simp [Session.status, Call.statAfter]
  | refused hc => simp [Session.status, hc, Call.statAfter]
  | opened inp hc => simp [Session.status, Call.statAfter]

theorem Moves.status {bound : Nat} {s s' : Session} {cs : List Call}
    (hm : Moves False bound s cs s') (h : s.Counted) :
    cs.foldl Call.statAfter s.status = s'.status := by
  have hstart : s.Counted ∧ ([] : List Call).foldl Call.statAfter s.status = s.status := ⟨h, rfl⟩
  refine (hm.invariant (I := fun s' cs => s'.Counted ∧
    cs.foldl Call.statAfter s.status = s'.status) hstart ?_).2
  rintro s₁ cs₁ s₂ done hmove - ⟨hcounted, hst⟩
  refine ⟨hmove.counted hcounted, ?_⟩
  rw [List.foldl_append, hst]
  exact hmove.status hcounted

/-! ### The exception -/

/-- The callback writes the first bytes of a connection that are moved, without counting
them, and does not end the connection by it. -/
def Missed (p : Port) (g : Nat) : Action → Prop
  | .devWrite w =>
      (Action.devWrite w).ready p = true ∧ SilentWrite p g (.devWrite w) ∧
        (w.failed = true → (p.closestr.isSome && p.devfd) = true)
  | _ => False

theorem Missed.silent {p : Port} {g : Nat} {a : Action} (h : Missed p g a) :
    SilentWrite p g a := by
  cases a with
  | devWrite w => exact h.2.1
  | _ => exact h.elim

/-- The write handler for deferred data, when it writes the first bytes: it either is
`Missed` or ends the connection. -/
theorem handleDevFdWrite_silent {p : Port} {w : BufferWrite}
    (hc : p.tcpToDevState ≠ .unconnected) :
    (handleDevFdWrite w p).moved = min w.written p.tcpToDev ∧
      if w.failed = true ∧ (p.closestr.isSome && p.devfd) = false then
        (handleDevFdWrite w p).calls = [.myChangeStat 0x00] ∧
          (handleDevFdWrite w p).port.tcpToDevState = .unconnected
      else
        (handleDevFdWrite w p).calls = [] ∧
          (handleDevFdWrite w p).port.tcpToDevState ≠ .unconnected := by
  unfold handleDevFdWrite
  cases hfail : w.failed with
  | true =>
    cases hclose : p.closestr.isSome && p.devfd with
    | true => simp [Result.andThen, shutdownPort, hclose]
    | false => simp [Result.andThen, shutdownPort, hclose, finishShutdownPort]
  | false =>
    simp only [Bool.false_eq_true, if_false, false_and]
    split
    · simp
    · exact ⟨rfl, rfl, hc⟩

/-! ### Runs -/

/-- The status of port `i` is what it should be. -/
def StatusExact (cfg : Config n) (i : Fin n) (w : Watched n) : Prop :=
  (w.net.table (cfg.slot i)).stat = (w.session i).status

instance (cfg : Config n) (i : Fin n) : DecidablePred (StatusExact cfg i) :=
  fun _ => inferInstanceAs (Decidable (_ = _))

theorem watch_stat (cfg : Config n) (w : Watched n) (i : Fin n) (a : Action) :
    ((watch cfg w (i, a)).net.table (cfg.slot i)).stat =
      (eventResult cfg w.net (i, a)).calls.foldl Call.statAfter
        (w.net.table (cfg.slot i)).stat :=
  step_stat_slot cfg w.net (i, a)

theorem watch_counted {cfg : Config n} {w : Watched n} (hw : w.net.WellFormed) (i : Fin n)
    (h : (w.session i).Counted) (ev : Event n) : ((watch cfg w ev).session i).Counted := by
  by_cases hev : ev.1 = i
  · obtain ⟨j, a⟩ := ev
    obtain rfl : j = i := hev
    exact (watch_moves hw j a).counted h
  · rw [watch_session_other w hev]
    exact h

/-- A callback that does not write the first bytes silently keeps the status true. -/
theorem watch_exact {cfg : Config n} {w : Watched n} (hw : w.net.WellFormed) {i : Fin n}
    (hcounted : (w.session i).Counted) (h : StatusExact cfg i w) {a : Action}
    (ha : ¬ SilentWrite (w.net.ports i) (w.moved i) a) :
    StatusExact cfg i (watch cfg w (i, a)) := by
  have hm : Moves _ ((watch cfg w (i, a)).moved i) _ _ _ := watch_moves hw i a
  rw [eq_false ha] at hm
  unfold StatusExact at h ⊢
  rw [watch_stat, h]
  exact hm.status hcounted

/-- One that does keeps it true just when it is not `Missed`. -/
theorem watch_exact_silent {cfg : Config n} {w : Watched n} {i : Fin n}
    (h : StatusExact cfg i w) {a : Action}
    (ha : SilentWrite (w.net.ports i) (w.moved i) a) :
    StatusExact cfg i (watch cfg w (i, a)) ↔ ¬ Missed (w.net.ports i) (w.moved i) a := by
  cases a with
  | devWrite b =>
    obtain ⟨hwriter, hpos, hzero⟩ := id ha
    by_cases hready : (Action.devWrite b).ready (w.net.ports i) = true
    · have hc : (w.net.ports i).tcpToDevState ≠ .unconnected := by
        intro hu
        simp [Action.ready, hwriter, hu] at hready
      have hcallback : eventResult cfg w.net (i, .devWrite b) =
          handleDevFdWrite b (w.net.ports i) := by
        simp [eventResult, callback, hready, devFdWrite, hwriter]
      obtain ⟨hmoved, hresult⟩ := handleDevFdWrite_silent (w := b) hc
      have hbefore : (w.net.table (cfg.slot i)).stat = 0x10 := by
        rw [h]
        simp [Session.status, Watched.session, Port.session, hc, hzero]
      have hafter : (watch cfg w (i, .devWrite b)).session i =
          (handleDevFdWrite b (w.net.ports i)).port.session
            (min b.written (w.net.ports i).tcpToDev) := by
        simp [Watched.session, watch, step, hcallback, sinceSetup, hc, hzero, hmoved]
      unfold StatusExact
      rw [watch_stat, hcallback, hbefore, hafter]
      by_cases hend : b.failed = true ∧
          ((w.net.ports i).closestr.isSome && (w.net.ports i).devfd) = false
      · rw [if_pos hend] at hresult
        obtain ⟨hcalls, hover⟩ := hresult
        have hexact : ¬ Missed (w.net.ports i) (w.moved i) (.devWrite b) := by
          rintro ⟨-, -, hclose⟩
          rw [hclose hend.1] at hend
          exact absurd hend.2 (by simp)
        simp [hcalls, hover, hexact, Call.statAfter, Session.status, Port.session]
      · rw [if_neg hend] at hresult
        obtain ⟨hcalls, hlives⟩ := hresult
        have hmiss : Missed (w.net.ports i) (w.moved i) (.devWrite b) :=
          ⟨hready, ha, fun hfail => by simpa using fun hclose => hend ⟨hfail, hclose⟩⟩
        have hpos' : 0 < b.written ∧ 0 < (w.net.ports i).tcpToDev := lt_min_iff.1 hpos
        simp [hcalls, hlives, hmiss, Session.status, Port.session, hpos']
    · -- The handler does not run.
      have hcallback : eventResult cfg w.net (i, .devWrite b) = ⟨w.net.ports i, [], 0⟩ := by
        simp [eventResult, callback, hready]
      have hnot : ¬ Missed (w.net.ports i) (w.moved i) (.devWrite b) := fun hm => hready hm.1
      have hsame : (watch cfg w (i, .devWrite b)).session i = w.session i := by
        simp only [Watched.session, watch, step, hcallback, sinceSetup, Function.update_self]
        rw [if_neg (fun hu => hu.2 hu.1), Nat.add_zero]
      unfold StatusExact at h ⊢
      rw [watch_stat, hcallback, hsame]
      simp [hnot, h]
  | _ => exact ha.elim

/-- **When the status is exact.** For a port with a slot of its own, the status is true in
every state of a run if and only if no step of the run is `Missed`. -/
theorem status_exact_iff (cfg : Config n) (i : Fin n)
    (hslot : ∀ j ≠ i, cfg.slot j ≠ cfg.slot i) (state : Fin n → PortState)
    (evs : List (Event n)) :
    Always (watch cfg) (StatusExact cfg i) (watchStart state) evs ↔
      EachStep (watch cfg)
        (fun w ev => ev.1 = i → ¬ Missed (w.net.ports i) (w.moved i) ev.2)
        (watchStart state) evs := by
  let I (w : Watched n) : Prop := w.net.WellFormed ∧ (w.session i).Counted
  have hstart : I (watchStart state) := ⟨start_wellFormed state, fun _ _ => ⟨rfl, rfl⟩⟩
  have hexact : StatusExact cfg i (watchStart state) := rfl
  refine (always_iff_eachStep (I := I) hstart ?_ ?_).trans (and_iff_right hexact)
  · rintro w ev ⟨hw, hcounted⟩
    exact ⟨step_wellFormed hw ev, watch_counted hw i hcounted ev⟩
  · rintro w ⟨j, a⟩ ⟨hw, hcounted⟩ h
    by_cases hj : j = i
    · obtain rfl := hj
      simp only [forall_const]
      by_cases ha : SilentWrite (w.net.ports j) (w.moved j) a
      · exact watch_exact_silent h ha
      · exact iff_of_true (watch_exact hw hcounted h ha) fun hm => ha hm.silent
    · -- The event of another port.
      have hev : ((j, a) : Event n).1 ≠ i := hj
      obtain ⟨-, -, hstat, -⟩ := watch_other hslot w hev
      refine iff_of_true ?_ fun hj' => absurd hj' hj
      unfold StatusExact at h ⊢
      rw [watch_session_other w hj, hstat]
      exact h

/-- Two ports, a write that has to wait on the first. -/
theorem status_exact_iff_waiting :
    let setup : SetupEnv := ⟨true, true, true, true, true, true, true, true, 0⟩
    let cfg : Config 2 := ⟨⟨.big, .unsigned⟩, fun i =>
      ⟨if i = 0 then "3001".toList else "3002".toList, "/dev/ttyS1".toList, true, none, none, none,
        ⟨false, [], 256⟩, 31⟩⟩
    let dev : Termios := ⟨B9600, B9600, .cs8, false, false, false, false, false, false⟩
    let evs : List (Event 2) :=
      [(0, .accept setup),
        (0, .tcpRead (.data [1, 2, 3]) ⟨fun _ => ⟨dev, true, true, true, true, none⟩, false, .again⟩),
        (0, .devWrite ⟨3, false⟩)]
    Always (watch cfg) (StatusExact cfg 0) (watchStart fun _ => .raw) evs ↔
      EachStep (watch cfg)
        (fun w ev => ev.1 = 0 → ¬ Missed (w.net.ports 0) (w.moved 0) ev.2)
        (watchStart fun _ => .raw) evs :=
  status_exact_iff _ 0 (by decide +kernel) _ _

/-- A client connects to port 3001 and sends three bytes; the device is busy and takes them
a little later. The status stays `0x10`. -/
theorem deferred_write_not_exact :
    let setup : SetupEnv := ⟨true, true, true, true, true, true, true, true, 0⟩
    let cfg : Config 1 := ⟨⟨.big, .unsigned⟩, fun _ =>
      ⟨"3001".toList, "/dev/ttyS1".toList, true, none, none, none, ⟨false, [], 256⟩, 31⟩⟩
    let dev : Termios := ⟨B9600, B9600, .cs8, false, false, false, false, false, false⟩
    let evs : List (Event 1) :=
      [(0, .accept setup),
        (0, .tcpRead (.data [1, 2, 3]) ⟨fun _ => ⟨dev, true, true, true, true, none⟩, false, .again⟩),
        (0, .devWrite ⟨3, false⟩)]
    (∀ j ≠ 0, cfg.slot j ≠ cfg.slot 0) ∧
      ¬ Always (watch cfg) (StatusExact cfg 0) (watchStart fun _ => .raw) evs := by
  decide +kernel

end SerialServer.Dataxfer
