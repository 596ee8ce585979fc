import SerialServer.Reporter.Port

/-!
# SerialServer.Reporter.Session

What a callback can do to a connection.

A `Session` is what is left of a port when only its connection counts: whether there is
one, the two counters of device data, and the number of bytes that have really been
moved through the device for the client since it was set up. `Move` lists the few things
that can happen to it, each with the calls it makes; a callback is a sequence of such
moves (`callback_moves`). Everything about the status of a port is proved of moves and
holds of the callbacks by that.

One move is singled out. Data that could not be written at once is written later by
`handle_dev_fd_write`, which counts nothing (`Move.deferred`); the parameter `silent`
says whether the first bytes of a connection may go that way.
-/

namespace SerialServer.Dataxfer

/-- The connection of a port. -/
structure Session where
  connected : Bool
  received : Word
  sent : Word
  /-- Bytes moved through the device for the client since the connection was set up. -/
  moved : Nat
  deriving Repr, DecidableEq

/-- No data has been counted. -/
def Session.fresh (s : Session) : Prop := s.sent = 0 ∧ s.received = 0

instance (s : Session) : Decidable s.fresh := inferInstanceAs (Decidable (_ ∧ _))

/-- The call that goes with counted data. -/
def Session.first (s : Session) : List Call := if s.fresh then [.myChangeStat 0x11] else []

/-- The connection of `p`, through which `moved` bytes have gone. -/
def Port.session (p : Port) (moved : Nat) : Session where
  connected := p.tcpToDevState ≠ .unconnected
  received := p.devBytesReceived
  sent := p.devBytesSent
  moved := moved

/-- One thing that can happen to a connection, with the calls it makes. -/
inductive Move (silent : Prop) : Session → List Call → Session → Prop
  /-- A command records a setting. -/
  | setting {s : Session} {c : Call} :
      s.connected = true → c.IsSetting = true → Move silent s [c] s
  /-- Data that had to wait is written, and not counted. -/
  | deferred {s : Session} {n : Nat} :
      s.connected = true → (n = 0 ∨ 0 < s.moved ∨ silent) →
      Move silent s [] { s with moved := s.moved + n }
  /-- Data from the device. -/
  | received {s : Session} {n : Nat} :
      s.connected = true → 0 < n →
      Move silent s s.first
        { s with received := s.received + BitVec.ofNat 32 n, moved := s.moved + n }
  /-- Data for the device. -/
  | sent {s : Session} {n : Nat} :
      s.connected = true → 0 < n →
      Move silent s s.first
        { s with sent := s.sent + BitVec.ofNat 32 n, moved := s.moved + n }
  /-- The connection is over, or there was none. -/
  | finished {s : Session} :
      Move silent s [.myChangeStat 0x00] { s with connected := false, received := 0, sent := 0 }
  /-- The device cannot be set up. -/
  | refused {s : Session} : s.connected = false → Move silent s [.myinitGd] s
  /-- A connection is set up. -/
  | opened {s : Session} (inp : Word) :
      s.connected = false →
      Move silent s [.myinitGd, .myChangeStat 0x10, .mySaveIpRemote inp]
        { connected := true, received := 0, sent := 0, moved := 0 }

/-- A sequence of moves, none of which brings the bytes moved above `bound`. -/
inductive Moves (silent : Prop) (bound : Nat) : Session → List Call → Session → Prop
  | refl (s : Session) : Moves silent bound s [] s
  | step {s s₁ s' : Session} {cs cs' : List Call} :
      Move silent s cs s₁ → s₁.moved ≤ bound → Moves silent bound s₁ cs' s' →
      Moves silent bound s (cs ++ cs') s'

variable {silent : Prop} {bound : Nat}

theorem Moves.single {s s' : Session} {cs : List Call} (h : Move silent s cs s')
    (hb : s'.moved ≤ bound) : Moves silent bound s cs s' := by
  simpa using Moves.step h hb (.refl s')

theorem Moves.trans {s s₁ s' : Session} {cs cs' : List Call} (h : Moves silent bound s cs s₁)
    (h' : Moves silent bound s₁ cs' s') : Moves silent bound s (cs ++ cs') s' := by
  induction h with
  | refl s => exact h'
  | step hm hb _ ih =>
    rw [List.append_assoc]
    exact .step hm hb (ih h')

/-- What holds of every move, and is kept by it, holds across a sequence of them. -/
theorem Moves.invariant {I : Session → List Call → Prop} {s s' : Session} {cs done : List Call}
    (h : Moves silent bound s cs s') (hI : I s done)
    (hstep : ∀ s cs s' done, Move silent s cs s' → s'.moved ≤ bound → I s done → I s' (done ++ cs)) :
    I s' (done ++ cs) := by
  induction h generalizing done with
  | refl s => simpa using hI
  | step hm hb _ ih =>
    rw [← List.append_assoc]
    exact ih (hstep _ _ _ _ hm hb hI)

/-! ### What holds of a port between callbacks -/

/-- A port without a connection has no device open and has counted nothing. -/
structure Port.WellFormed (p : Port) : Prop where
  devfd : p.tcpToDevState = .unconnected → p.devfd = false
  received : p.tcpToDevState = .unconnected → p.devBytesReceived = 0
  sent : p.tcpToDevState = .unconnected → p.devBytesSent = 0

theorem initPortData_wellFormed (state : PortState) : (initPortData state).WellFormed :=
  ⟨fun _ => rfl, fun _ => rfl, fun _ => rfl⟩

/-- A port with a connection is well formed whatever its counters are. -/
theorem Port.wellFormed_of_connected {p : Port} (h : p.tcpToDevState ≠ .unconnected) :
    p.WellFormed :=
  ⟨fun h' => absurd h' h, fun h' => absurd h' h, fun h' => absurd h' h⟩

/-! ### The parts of the callbacks -/

theorem Moves.mono {bound' : Nat} {s s' : Session} {cs : List Call}
    (h : Moves silent bound s cs s') (hb : bound ≤ bound') : Moves silent bound' s cs s' := by
  induction h with
  | refl s => exact .refl s
  | step hm h₁ _ ih => exact .step hm (Nat.le_trans h₁ hb) ih

/-- A part of a callback that starts from `p`, through which `g` bytes have gone, is a
sequence of moves and leaves the port well formed. -/
structure Plays (silent : Prop) (p : Port) (g : Nat) (r : Result) : Prop where
  moves : Moves silent (g + r.moved) (p.session g) r.calls (r.port.session (g + r.moved))
  wellFormed : r.port.WellFormed

variable {p p' : Port} {g : Nat}

/-- A part that makes no calls and changes nothing of the connection. -/
theorem Plays.quiet (h : ∀ g, p'.session g = p.session g) (hw : p'.WellFormed) :
    Plays silent p g ⟨p', [], 0⟩ := by
  refine ⟨?_, hw⟩
  rw [Nat.add_zero, h]
  exact .refl _

/-- A part that is one move. -/
theorem Plays.single {r : Result}
    (h : Move silent (p.session g) r.calls (r.port.session (g + r.moved)))
    (hw : r.port.WellFormed) : Plays silent p g r :=
  ⟨.single h (Nat.le_refl _), hw⟩

/-- What a part does depends on the connection it starts from, not on the rest of the port. -/
theorem Plays.of_session {r : Result} (h : Plays silent p' g r) (hs : p'.session g = p.session g) :
    Plays silent p g r := by
  refine ⟨?_, h.wellFormed⟩
  rw [← hs]
  exact h.moves

theorem Plays.andThen {r : Result} {f : Port → Result} (h : Plays silent p g r)
    (hf : Plays silent r.port (g + r.moved) (f r.port)) : Plays silent p g (r.andThen f) := by
  refine ⟨?_, hf.wellFormed⟩
  have hsum : g + (r.andThen f).moved = g + r.moved + (f r.port).moved :=
    (Nat.add_assoc ..).symm
  rw [hsum]
  exact (h.moves.mono (Nat.le_add_right ..)).trans hf.moves

/-- What follows leaves the connection as it is. -/
theorem Plays.followed {r : Result} {q : Port} (h : Plays silent p g r)
    (hs : q.session (g + r.moved) = r.port.session (g + r.moved)) (hw : q.WellFormed) :
    Plays silent p g { r with port := q } := by
  refine ⟨?_, hw⟩
  dsimp only
  rw [hs]
  exact h.moves

theorem finishShutdownPort_plays (p : Port) (g : Nat) :
    Plays silent p g (finishShutdownPort p) :=
  .single .finished ⟨fun _ => rfl, fun _ => rfl, fun _ => rfl⟩

theorem shutdownPort_plays (hp : p.WellFormed) (g : Nat) : Plays silent p g (shutdownPort p) := by
  unfold shutdownPort
  dsimp only
  by_cases hclose : (p.closestr.isSome && p.devfd) = true
  · rw [if_pos hclose]
    rw [Bool.and_eq_true] at hclose
    have hconn : p.tcpToDevState ≠ .unconnected := fun h => absurd (hp.devfd h) (by simp [hclose])
    refine .quiet (fun g => ?_) (Port.wellFormed_of_connected (by simp))
    simp [Port.session, hconn]
  · rw [if_neg hclose]
    exact (finishShutdownPort_plays { p with tcpfd := false, devstr := p.closestr } g).of_session rfl

/-- A part that ends in `shutdown_port`. -/
theorem Plays.thenShutdown {r : Result} (h : Plays silent p g r) :
    Plays silent p g (r.andThen shutdownPort) :=
  h.andThen (shutdownPort_plays h.wellFormed _)

/-- The settings recorded by the commands of a client. -/
theorem Moves.settings {s : Session} (hs : s.connected = true) (hb : s.moved ≤ bound)
    {cs : List Call} (hcs : ∀ c ∈ cs, c.IsSetting = true) : Moves silent bound s cs s := by
  induction cs with
  | nil => exact .refl s
  | cons c cs ih =>
    exact .step (.setting hs (hcs c List.mem_cons_self)) hb
      (ih fun c' hc' => hcs c' (List.mem_cons_of_mem _ hc'))

theorem runCommands_calls (cfg : ComConfig) (env : Nat → ComEnv) (c : ComPort)
    (cmds : List (List Byte)) :
    ∀ call ∈ (runCommands cfg env c cmds).2, call.IsSetting = true := by
  induction cmds generalizing c env with
  | nil =>
    intro call hcall
    simp [runCommands] at hcall
  | cons cmd cmds ih =>
    intro call hcall
    unfold runCommands at hcall
    cases hopt : comPortOption cmd with
    | none =>
      rw [hopt] at hcall
      exact ih _ _ call hcall
    | some option =>
      rw [hopt] at hcall
      rcases List.mem_append.1 hcall with hown | hrest
      · rcases comPortHandler_calls cfg (env 0) c option with hnil | ⟨c', hset, hone⟩
        · rw [hnil] at hown
          exact absurd hown List.not_mem_nil
        · rw [hone] at hown
          rw [List.mem_singleton.1 hown]
          exact hset
      · exact ih _ _ call hrest

theorem firstData_eq {n : Nat} (hn : 0 < n) (p : Port) (g : Nat) :
    firstData p n = (p.session g).first := by
  unfold firstData Session.first
  simp only [hn, true_and]
  rfl

theorem Port.connected_of_isOpen {p : Port} (h : p.isOpen = true) :
    p.tcpToDevState ≠ .unconnected := by
  intro hu
  simp [Port.isOpen, hu] at h

theorem Port.session_connected {p : Port} (h : p.tcpToDevState ≠ .unconnected) (g : Nat) :
    (p.session g).connected = true := by
  simp [Port.session, h]

theorem handleDevFdRead_plays (hc : p.tcpToDevState ≠ .unconnected) (g : Nat) (r : ReadResult)
    (w : WriteResult) : Plays silent p g (handleDevFdRead r w p) := by
  have hp := Port.wellFormed_of_connected hc
  cases r with
  | error => exact shutdownPort_plays hp g
  | data bytes =>
    cases bytes with
    | nil => exact shutdownPort_plays hp g
    | cons b bs =>
      have hpos : 0 < (b :: bs).length := Nat.succ_pos _
      -- The bytes are counted before anything is done with them.
      have hread : ∀ p' : Port, p'.tcpToDevState = p.tcpToDevState →
          p'.devBytesReceived = p.devBytesReceived + BitVec.ofNat 32 (b :: bs).length →
          p'.devBytesSent = p.devBytesSent →
          Plays silent p g ⟨p', firstData p (b :: bs).length, (b :: bs).length⟩ := by
        intro p' hstate hrecv hsent
        refine .single ?_ (Port.wellFormed_of_connected (by rw [hstate]; exact hc))
        have hmove : Move silent _ _ _ := .received (Port.session_connected hc g) hpos
        rw [← firstData_eq hpos p g] at hmove
        simpa only [Port.session, hstate, hrecv, hsent] using hmove
      cases w with
      | again => refine hread _ ?_ ?_ ?_ <;> rfl
      | failed =>
        refine .thenShutdown (hread _ ?_ ?_ ?_) <;> rfl
      | wrote n =>
        unfold handleDevFdRead
        dsimp only
        generalize (if p.enabled = .telnet then (b :: bs).length + (b :: bs).count 255
          else (b :: bs).length) = size
        split
        · refine hread _ ?_ ?_ ?_ <;> rfl
        · refine hread _ ?_ ?_ ?_ <;> rfl

theorem writeToDev_plays (hc : p.tcpToDevState ≠ .unconnected) (g : Nat) (w : WriteResult)
    (size : Nat) : Plays silent p g (writeToDev w size p) := by
  cases w with
  | again =>
    refine .quiet (fun g => ?_) (Port.wellFormed_of_connected (by simp))
    simp [Port.session, hc]
  | failed =>
    have hp : Port.WellFormed { p with tcpToDev := size } := Port.wellFormed_of_connected hc
    exact (shutdownPort_plays hp g).of_session rfl
  | wrote n =>
    have hwrote : ∀ p' : Port, p'.tcpToDevState ≠ .unconnected →
        p'.devBytesReceived = p.devBytesReceived →
        p'.devBytesSent = p.devBytesSent + BitVec.ofNat 32 (min n size) →
        Plays silent p g ⟨p', firstData p (min n size), min n size⟩ := by
      intro p' hstate hrecv hsent
      have hw := Port.wellFormed_of_connected hstate
      rcases Nat.eq_zero_or_pos (min n size) with hz | hpos
      · -- Nothing was written.
        rw [hz] at hsent ⊢
        have hnone : firstData p 0 = [] := by simp [firstData]
        rw [hnone]
        refine .quiet (fun g => ?_) hw
        simpa [Port.session, hstate, hc, hrecv] using hsent
      · refine .single ?_ hw
        have hmove : Move silent _ _ _ := .sent (Port.session_connected hc g) hpos
        rw [← firstData_eq hpos p g] at hmove
        simpa only [Port.session, hstate, hc, hrecv, hsent, ne_eq, not_false_eq_true] using hmove
    unfold writeToDev
    dsimp only
    split
    · refine hwrote _ ?_ ?_ ?_
      · simp
      · rfl
      · rfl
    · exact hwrote _ hc rfl rfl

theorem handleTcpFdRead_plays (cfg : PortConfig) (hc : p.tcpToDevState ≠ .unconnected) (g : Nat)
    (r : ReadResult) (env : TcpReadEnv) : Plays silent p g (handleTcpFdRead cfg r env p) := by
  have hp := Port.wellFormed_of_connected hc
  cases r with
  | error => exact shutdownPort_plays hp g
  | data bytes =>
    cases bytes with
    | nil => exact shutdownPort_plays hp g
    | cons b bs =>
      unfold handleTcpFdRead
      dsimp only
      split
      · -- The settings recorded by the commands come first.
        have hcmds : ∀ (p' : Port) (calls : List Call), p'.session g = p.session g →
            p'.tcpToDevState ≠ .unconnected → (∀ c ∈ calls, c.IsSetting = true) →
            Plays silent p g ⟨p', calls, 0⟩ := by
          intro p' calls hs hc' hcs
          refine ⟨?_, Port.wellFormed_of_connected hc'⟩
          show Moves silent (g + 0) (p.session g) calls (p'.session (g + 0))
          rw [Nat.add_zero, hs]
          exact .settings (Port.session_connected hc g) (Nat.le_refl _) hcs
        have hcalls := runCommands_calls cfg.com env.com p.com
          (processTelnetData cfg.maxCmd p.tnData (b :: bs)).cmds
        split
        · exact .thenShutdown (hcmds _ _ rfl hc hcalls)
        split
        · exact hcmds _ _ rfl hc hcalls
        · refine .andThen (hcmds _ _ rfl hc hcalls) (writeToDev_plays ?_ _ _ _)
          exact hc
      · have hc' : Port.tcpToDevState { p with
            tcpBytesReceived := p.tcpBytesReceived + BitVec.ofNat 32 (b :: bs).length } ≠
              .unconnected := hc
        exact (writeToDev_plays hc' g env.write (b :: bs).length).of_session rfl

/-- The first bytes of a connection, through which `g` bytes have gone so far, are written
by `handle_dev_fd_write`. -/
def SilentWrite (p : Port) (g : Nat) : Action → Prop
  | .devWrite w => p.devWriter = .data ∧ 0 < min w.written p.tcpToDev ∧ g = 0
  | _ => False

theorem devFdWrite_plays (hc : p.tcpToDevState ≠ .unconnected) (g : Nat) (w : BufferWrite) :
    Plays (SilentWrite p g (.devWrite w)) p g (devFdWrite w p) := by
  have hp := Port.wellFormed_of_connected hc
  unfold devFdWrite
  cases hw : p.devWriter with
  | data =>
    have hwrite : ∀ p' : Port, p'.tcpToDevState ≠ .unconnected →
        p'.devBytesReceived = p.devBytesReceived → p'.devBytesSent = p.devBytesSent →
        Plays (SilentWrite p g (.devWrite w)) p g ⟨p', [], min w.written p.tcpToDev⟩ := by
      intro p' hstate hrecv hsent
      refine .single ?_ (Port.wellFormed_of_connected hstate)
      have hsilent : min w.written p.tcpToDev = 0 ∨ 0 < (p.session g).moved ∨
          SilentWrite p g (.devWrite w) := by
        rcases Nat.eq_zero_or_pos (min w.written p.tcpToDev) with hz | hpos
        · exact .inl hz
        rcases Nat.eq_zero_or_pos g with hg | hg
        · exact .inr (.inr ⟨hw, hpos, hg⟩)
        · exact .inr (.inl hg)
      have hmove := Move.deferred (Port.session_connected hc g) hsilent
      simpa only [Port.session, hstate, hc, hrecv, hsent, ne_eq, not_false_eq_true] using hmove
    unfold handleDevFdWrite
    dsimp only
    split
    · exact .thenShutdown (hwrite _ hc rfl rfl)
    split
    · refine hwrite _ ?_ ?_ ?_
      · simp
      · rfl
      · rfl
    · exact hwrite _ hc rfl rfl
  | devstr =>
    -- The open string is not the client's data.
    have hquiet : ∀ r : Result, Plays (SilentWrite p g (.devWrite w)) p g r →
        Plays (SilentWrite p g (.devWrite w)) p g { r with port := devstrDone r.port } := by
      intro r hr
      obtain ⟨hdev, hrecv, hsent⟩ := hr.wellFormed
      unfold devstrDone
      split
      · exact hr.followed rfl ⟨hdev, hrecv, hsent⟩
      · exact hr
    refine hquiet _ ?_
    split
    · have hw' : Port.WellFormed { p with devstr := some (p.devstr.getD 0 - w.written) } :=
        Port.wellFormed_of_connected hc
      exact (shutdownPort_plays hw' g).of_session rfl
    split
    · refine .quiet (fun g => ?_) (Port.wellFormed_of_connected (by simp))
      simp [Port.session, hc]
    · exact .quiet (fun _ => rfl) (Port.wellFormed_of_connected hc)
  | close =>
    have hfinish : Plays (SilentWrite p g (.devWrite w)) _ g _ :=
      finishShutdownPort_plays { p with devstr := some (p.devstr.getD 0 - w.written) } g
    unfold handleDevFdCloseWrite
    dsimp only
    split
    · exact hfinish.of_session rfl
    split
    · exact .quiet (fun _ => rfl) (Port.wellFormed_of_connected hc)
    · exact hfinish.of_session rfl

theorem handleTcpFdWrite_plays (hc : p.tcpToDevState ≠ .unconnected) (g : Nat) (w : TcpWrite) :
    Plays silent p g (handleTcpFdWrite w p) := by
  have hp := Port.wellFormed_of_connected hc
  have hdone : Plays silent p g
      { shutdownPort p with port := bannerDone (shutdownPort p).port } := by
    have hplays : Plays silent p g (shutdownPort p) := shutdownPort_plays hp g
    obtain ⟨hdev, hrecv, hsent⟩ := hplays.wellFormed
    unfold bannerDone
    split
    · exact hplays.followed rfl ⟨hdev, hrecv, hsent⟩
    · exact hplays
  cases w with
  | cmdFailed => exact hdone
  | cmdPending =>
    unfold handleTcpFdWrite bannerDone
    dsimp only
    split
    · exact .quiet (fun _ => rfl) (Port.wellFormed_of_connected hc)
    · exact .quiet (fun _ => rfl) hp
  | failed => exact hdone
  | wrote n =>
    unfold handleTcpFdWrite
    dsimp only
    split
    · split
      · exact .quiet (fun _ => rfl) (Port.wellFormed_of_connected hc)
      · exact .quiet (fun _ => rfl) (Port.wellFormed_of_connected hc)
    · split
      · exact .quiet (fun _ => rfl) (Port.wellFormed_of_connected hc)
      · exact .quiet (fun _ => rfl) (Port.wellFormed_of_connected hc)

/-- What is known of the bytes moved after a callback: a new connection starts from none. -/
def sinceSetup (g : Nat) (p : Port) (r : Result) : Nat :=
  if p.tcpToDevState = .unconnected ∧ r.port.tcpToDevState ≠ .unconnected then 0
  else g + r.moved

/-- A callback that starts from `p`, with the bytes counted from the last setup on. -/
structure Callback (silent : Prop) (p : Port) (g : Nat) (r : Result) : Prop where
  moves : Moves silent (sinceSetup g p r) (p.session g) r.calls (r.port.session (sinceSetup g p r))
  wellFormed : r.port.WellFormed

theorem Plays.callback {r : Result} (h : Plays silent p g r)
    (hc : p.tcpToDevState ≠ .unconnected ∨ r.port.tcpToDevState = .unconnected) :
    Callback silent p g r := by
  have hsum : sinceSetup g p r = g + r.moved := by
    unfold sinceSetup
    rw [if_neg (by tauto)]
  refine ⟨?_, h.wellFormed⟩
  rw [hsum]
  exact h.moves

/-- A setup that comes to nothing: at most the record has been reset. -/
structure SetupFailed (p : Port) (r : Result) : Prop where
  calls : r.calls = [] ∨ p.tcpToDevState = .unconnected ∧ r.calls = [.myinitGd]
  moved : r.moved = 0
  state : r.port.tcpToDevState = p.tcpToDevState
  devfd : r.port.devfd = p.devfd ∨ r.port.devfd = false
  received : r.port.devBytesReceived = p.devBytesReceived
  sent : r.port.devBytesSent = p.devBytesSent

/-- A setup that succeeds. -/
structure SetupDone (env : SetupEnv) (p : Port) (r : Result) : Prop where
  before : p.tcpToDevState = .unconnected
  calls : r.calls = [.myinitGd, .myChangeStat 0x10, .mySaveIpRemote env.remote]
  moved : r.moved = 0
  state : r.port.tcpToDevState = .waitingInput
  received : r.port.devBytesReceived = p.devBytesReceived
  sent : r.port.devBytesSent = p.devBytesSent

theorem setupTcpPort_cases (cfg : PortConfig) (env : SetupEnv)
    (hu : p.tcpToDevState = .unconnected) :
    SetupFailed p (setupTcpPort cfg env p) ∨ SetupDone env p (setupTcpPort cfg env p) := by
  -- The device has not been opened, or has been closed again.
  have hunopened : SetupFailed p ⟨{ p with tcpfd := false }, [], 0⟩ :=
    ⟨.inl rfl, rfl, rfl, .inl rfl, rfl, rfl⟩
  have hclosed : SetupFailed p ⟨{ p with tcpfd := false, devfd := false }, [.myinitGd], 0⟩ :=
    ⟨.inr ⟨hu, rfl⟩, rfl, rfl, .inr rfl, rfl, rfl⟩
  have hchoice : ∀ {P : Prop} [Decidable P] {r r' : Result}, SetupFailed p r →
      (SetupFailed p r' ∨ SetupDone env p r') →
      SetupFailed p (if P then r else r') ∨ SetupDone env p (if P then r else r') := by
    intro P _ r r' hr hr'
    split
    · exact .inl hr
    · exact hr'
  unfold setupTcpPort
  refine hchoice hunopened (hchoice hunopened (hchoice hunopened (hchoice hunopened ?_)))
  exact hchoice hclosed (hchoice hclosed (.inr ⟨hu, rfl, rfl, rfl, rfl, rfl⟩))

/-- A connection that arrives is set up, or comes to nothing. -/
theorem handleAcceptPortRead_cases (cfg : PortConfig) (inuse : Bool) (env : SetupEnv) (p : Port) :
    SetupFailed p (handleAcceptPortRead cfg inuse env p) ∨
      SetupDone env p (handleAcceptPortRead cfg inuse env p) := by
  unfold handleAcceptPortRead
  by_cases hu : p.tcpToDevState = .unconnected
  · rw [if_neg (not_not_intro hu)]
    split
    · exact .inl ⟨.inl rfl, rfl, rfl, .inl rfl, rfl, rfl⟩
    split
    · exact .inl ⟨.inl rfl, rfl, rfl, .inl rfl, rfl, rfl⟩
    split
    · exact .inl ⟨.inl rfl, rfl, rfl, .inl rfl, rfl, rfl⟩
    · -- `tcpfd` is of no account here.
      have hu' : Port.tcpToDevState { p with tcpfd := true } = .unconnected := hu
      rcases setupTcpPort_cases cfg env hu' with h | h
      · exact .inl ⟨h.calls, h.moved, h.state, h.devfd, h.received, h.sent⟩
      · exact .inr ⟨h.before, h.calls, h.moved, h.state, h.received, h.sent⟩
  · rw [if_pos hu]
    exact .inl ⟨.inl rfl, rfl, rfl, .inl rfl, rfl, rfl⟩

theorem SetupFailed.callback {r : Result} (h : SetupFailed p r) (hp : p.WellFormed) (g : Nat) :
    Callback silent p g r := by
  have hsame : r.port.session (g + r.moved) = p.session g := by
    simp only [Port.session, h.state, h.received, h.sent, h.moved, Nat.add_zero]
  refine Plays.callback ⟨?_, ?_⟩ ?_
  · rw [hsame]
    rcases h.calls with hnil | ⟨hu, hreset⟩
    · rw [hnil]
      exact .refl _
    · rw [hreset]
      refine .single (.refused ?_) (Nat.le_add_right ..)
      simp [Port.session, hu]
  · refine ⟨fun hu => ?_, fun hu => ?_, fun hu => ?_⟩
    · rcases h.devfd with hdev | hdev
      · rw [hdev, hp.devfd (h.state.symm.trans hu)]
      · exact hdev
    · rw [h.received, hp.received (h.state.symm.trans hu)]
    · rw [h.sent, hp.sent (h.state.symm.trans hu)]
  · by_cases hu : p.tcpToDevState = .unconnected
    · exact .inr (h.state.trans hu)
    · exact .inl hu

theorem SetupDone.callback {env : SetupEnv} {r : Result} (h : SetupDone env p r)
    (hp : p.WellFormed) (g : Nat) : Callback silent p g r := by
  have hconn : r.port.tcpToDevState ≠ .unconnected := by simp [h.state]
  have hdisc : (p.session g).connected = false := by simp [Port.session, h.before]
  have hzero : sinceSetup g p r = 0 := by
    rw [sinceSetup, if_pos ⟨h.before, hconn⟩]
  refine ⟨?_, Port.wellFormed_of_connected hconn⟩
  rw [hzero, h.calls]
  have hopen : Moves silent 0 _ _ _ := .single (.opened env.remote hdisc) (Nat.le_refl _)
  simpa [Port.session, hconn, h.received, h.sent, hp.received h.before, hp.sent h.before]
    using hopen

/-- **Every callback is a sequence of moves**, and leaves the port well formed. -/
theorem callback_moves (cfg : PortConfig) (inuse : Bool) (hp : p.WellFormed) (g : Nat)
    (a : Action) : Callback (SilentWrite p g a) p g (callback cfg inuse p a) := by
  unfold callback
  by_cases hready : a.ready p = true
  · rw [if_neg (by simp [hready])]
    cases a with
    | accept env =>
      rcases handleAcceptPortRead_cases cfg inuse env p with h | h
      · exact h.callback hp g
      · exact h.callback hp g
    | devRead r w =>
      have hc : p.tcpToDevState ≠ .unconnected :=
        Port.connected_of_isOpen (Bool.and_eq_true_iff.1 hready).1
      exact (handleDevFdRead_plays hc g r w).callback (.inl hc)
    | devWrite w =>
      have hc : p.tcpToDevState ≠ .unconnected := by
        intro hu
        unfold Action.ready at hready
        cases hw : p.devWriter <;> simp [hw, hu, Port.isOpen] at hready
      exact (devFdWrite_plays hc g w).callback (.inl hc)
    | tcpRead r env =>
      have hc : p.tcpToDevState ≠ .unconnected := by
        intro hu
        simp [Action.ready, hu] at hready
      exact (handleTcpFdRead_plays cfg hc g r env).callback (.inl hc)
    | tcpWrite w =>
      have hc : p.tcpToDevState ≠ .unconnected := Port.connected_of_isOpen hready
      exact (handleTcpFdWrite_plays hc g w).callback (.inl hc)
    | except =>
      have hc : p.tcpToDevState ≠ .unconnected := Port.connected_of_isOpen hready
      exact (shutdownPort_plays hp g).callback (.inl hc)
    | disconnect =>
      have hc : p.tcpToDevState ≠ .unconnected := by simpa [Action.ready] using hready
      exact (shutdownPort_plays hp g).callback (.inl hc)
    | shutdown =>
      refine (shutdownPort_plays hp g).callback ?_
      by_cases hu : p.tcpToDevState = .unconnected
      · right
        simp [shutdownPort, hp.devfd hu, finishShutdownPort]
      · exact .inl hu
    | changeState state =>
      have h : Plays (SilentWrite p g (.changeState state)) p g
          ⟨{ p with enabled := state }, [], 0⟩ :=
        .quiet (fun _ => rfl) ⟨hp.devfd, hp.received, hp.sent⟩
      refine h.callback ?_
      by_cases hu : p.tcpToDevState = .unconnected
      · exact .inr hu
      · exact .inl hu
  · rw [if_pos (by simpa using hready)]
    refine (Plays.quiet (fun _ => rfl) hp).callback ?_
    by_cases hu : p.tcpToDevState = .unconnected
    · exact .inr hu
    · exact .inl hu

end SerialServer.Dataxfer
