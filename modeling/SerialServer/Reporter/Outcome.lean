import SerialServer.Reporter.Ports
import SerialServer.Reporter.Session

/-!
# SerialServer.Reporter.Outcome

How a callback leaves a connection.

The two directions of a connection begin and end together: a port is `Connected` or `Idle`. A
callback goes on with the connection or ends it, and what tells the two apart is whether
`finish_shutdown_port` has been called (`callback_outcome`). Without a connection it does
nothing, but for a client that arrives (`handleAcceptPortRead_outcome`).
-/

namespace SerialServer.Dataxfer

/-- There is a connection, in both directions. -/
structure Port.Connected (p : Port) : Prop where
  tcpToDev : p.tcpToDevState ≠ .unconnected
  devToTcp : p.devToTcpState ≠ .unconnected

/-- There is none. -/
structure Port.Idle (p : Port) : Prop where
  tcpToDev : p.tcpToDevState = .unconnected
  devToTcp : p.devToTcpState = .unconnected

theorem initPortData_idle (state : PortState) : (initPortData state).Idle := ⟨rfl, rfl⟩

theorem finishShutdownPort_idle (p : Port) : (finishShutdownPort p).port.Idle := ⟨rfl, rfl⟩

/-- What a part of a callback does to a connection. -/
structure Outcome (p : Port) (r : Result) : Prop where
  enabled : r.port.enabled = p.enabled
  goes : r.ended = false → r.port.Connected
  ends : r.ended = true → r.port.Idle

theorem Result.ended_eq_false {r : Result} (h : ∀ c ∈ r.calls, c ≠ .myChangeStat 0x00) :
    r.ended = false := by
  rw [Result.ended, List.contains_eq_mem, decide_eq_false_iff_not]
  exact fun hmem => h _ hmem rfl

theorem Result.ended_andThen (r : Result) (f : Port → Result) :
    (r.andThen f).ended = (r.ended || (f r.port).ended) := by
  simp only [Result.ended, Result.andThen, List.contains_eq_mem, List.mem_append, Bool.decide_or]

variable {p : Port} {r : Result}

/-- A part that goes on with the connection. -/
theorem Outcome.of_connected (henabled : r.port.enabled = p.enabled) (hport : r.port.Connected)
    (hcalls : ∀ c ∈ r.calls, c ≠ .myChangeStat 0x00) : Outcome p r := by
  have hgoes := Result.ended_eq_false hcalls
  exact ⟨henabled, fun _ => hport, fun hends => absurd (hgoes.symm.trans hends) (by decide)⟩

theorem Outcome.andThen {f : Port → Result} (h : Outcome p r) (hgoes : r.ended = false)
    (hf : Outcome r.port (f r.port)) : Outcome p (r.andThen f) := by
  have hended : (r.andThen f).ended = (f r.port).ended := by
    rw [Result.ended_andThen, hgoes, Bool.false_or]
  exact ⟨hf.enabled.trans h.enabled, fun hg => hf.goes (hended.symm.trans hg),
    fun he => hf.ends (hended.symm.trans he)⟩

/-- What a part does depends on these fields of the port it starts from. -/
theorem Outcome.of_enabled {p' : Port} (h : Outcome p' r) (henabled : p'.enabled = p.enabled) :
    Outcome p r := ⟨h.enabled.trans henabled, h.goes, h.ends⟩

/-- What follows leaves the connection as it is. -/
theorem Outcome.followed (h : Outcome p r) {q : Port} (henabled : q.enabled = r.port.enabled)
    (htcp : q.tcpToDevState = r.port.tcpToDevState)
    (hdev : q.devToTcpState = r.port.devToTcpState) : Outcome p { r with port := q } := by
  refine ⟨henabled.trans h.enabled, fun hgoes => ?_, fun hends => ?_⟩
  · obtain ⟨h₁, h₂⟩ := h.goes hgoes
    exact ⟨fun h => h₁ (htcp.symm.trans h), fun h => h₂ (hdev.symm.trans h)⟩
  · obtain ⟨h₁, h₂⟩ := h.ends hends
    exact ⟨htcp.trans h₁, hdev.trans h₂⟩

theorem finishShutdownPort_outcome (p : Port) : Outcome p (finishShutdownPort p) :=
  ⟨rfl, fun hgoes => absurd hgoes (by simp [Result.ended, finishShutdownPort]),
    fun _ => finishShutdownPort_idle p⟩

theorem shutdownPort_outcome (hp : p.Connected) : Outcome p (shutdownPort p) := by
  rw [shutdownPort]
  dsimp only
  split
  · refine .of_connected rfl ⟨fun h => ?_, hp.devToTcp⟩ fun _ h => absurd h List.not_mem_nil
    cases h
  · exact (finishShutdownPort_outcome _).of_enabled rfl

/-- The calls of `firstData` report that data is moving. -/
theorem firstData_ne (p : Port) (count : Nat) : ∀ c ∈ firstData p count, c ≠ .myChangeStat 0x00 := by
  intro c hc
  rw [firstData] at hc
  split at hc
  · rw [List.mem_singleton.1 hc]
    decide
  · cases hc

theorem handleDevFdRead_outcome (hp : p.Connected) (read : ReadResult) (w : WriteResult) :
    Outcome p (handleDevFdRead read w p) := by
  match read with
  | .error => exact shutdownPort_outcome hp
  | .data [] => exact shutdownPort_outcome hp
  | .data (b :: bs) =>
    have hcalls := firstData_ne p (b :: bs).length
    unfold handleDevFdRead
    dsimp only
    generalize (if p.enabled = .telnet then (b :: bs).length + (b :: bs).count 255
      else (b :: bs).length) = size
    cases w with
    | again => exact .of_connected rfl ⟨hp.tcpToDev, nofun⟩ hcalls
    | failed =>
      refine Outcome.andThen (.of_connected ?_ ?_ hcalls) (Result.ended_eq_false hcalls)
        (shutdownPort_outcome ?_)
      · rfl
      · exact ⟨hp.tcpToDev, hp.devToTcp⟩
      · exact ⟨hp.tcpToDev, hp.devToTcp⟩
    | wrote n =>
      dsimp only
      split
      · exact .of_connected rfl ⟨hp.tcpToDev, nofun⟩ hcalls
      · exact .of_connected rfl ⟨hp.tcpToDev, hp.devToTcp⟩ hcalls

theorem writeToDev_outcome (hp : p.Connected) (w : WriteResult) (size : Nat) :
    Outcome p (writeToDev w size p) := by
  cases w with
  | again => exact .of_connected rfl ⟨nofun, hp.devToTcp⟩ nofun
  | failed =>
    have hport : Port.Connected { p with tcpToDev := size } := ⟨hp.tcpToDev, hp.devToTcp⟩
    exact (shutdownPort_outcome hport).of_enabled rfl
  | wrote n =>
    have hcalls := firstData_ne p (min n size)
    rw [writeToDev]
    dsimp only
    split
    · exact .of_connected rfl ⟨nofun, hp.devToTcp⟩ hcalls
    · exact .of_connected rfl ⟨hp.tcpToDev, hp.devToTcp⟩ hcalls

theorem handleTcpFdRead_outcome (cfg : PortConfig) (hp : p.Connected) (read : ReadResult)
    (env : TcpReadEnv) : Outcome p (handleTcpFdRead cfg read env p) := by
  match read with
  | .error => exact shutdownPort_outcome hp
  | .data [] => exact shutdownPort_outcome hp
  | .data (b :: bs) =>
    rw [handleTcpFdRead]
    dsimp only
    split
    · have hcalls : ∀ c ∈ (runCommands cfg.com env.com p.com
          (processTelnetData cfg.maxCmd p.tnData (b :: bs)).cmds).2, c ≠ .myChangeStat 0x00 := by
        intro c hc hstat
        have hsetting := runCommands_calls _ _ _ _ c hc
        rw [hstat] at hsetting
        cases hsetting
      split
      · refine Outcome.andThen (.of_connected ?_ ?_ hcalls) (Result.ended_eq_false hcalls)
          (shutdownPort_outcome ?_)
        · rfl
        · exact ⟨hp.tcpToDev, hp.devToTcp⟩
        · exact ⟨hp.tcpToDev, hp.devToTcp⟩
      split
      · exact .of_connected rfl ⟨hp.tcpToDev, hp.devToTcp⟩ hcalls
      · refine Outcome.andThen (.of_connected ?_ ?_ hcalls) (Result.ended_eq_false hcalls)
          (writeToDev_outcome ?_ _ _)
        · rfl
        · exact ⟨hp.tcpToDev, hp.devToTcp⟩
        · exact ⟨hp.tcpToDev, hp.devToTcp⟩
    · have hport : Port.Connected { p with
          tcpBytesReceived := p.tcpBytesReceived + BitVec.ofNat 32 (b :: bs).length } :=
        ⟨hp.tcpToDev, hp.devToTcp⟩
      exact (writeToDev_outcome hport env.write (b :: bs).length).of_enabled rfl

theorem devFdWrite_outcome (hp : p.Connected) (w : BufferWrite) : Outcome p (devFdWrite w p) := by
  rw [devFdWrite]
  split
  · rw [handleDevFdWrite]
    dsimp only
    split
    · refine Outcome.andThen (.of_connected ?_ ?_ nofun) rfl (shutdownPort_outcome ?_)
      · rfl
      · exact ⟨hp.tcpToDev, hp.devToTcp⟩
      · exact ⟨hp.tcpToDev, hp.devToTcp⟩
    split
    · exact .of_connected rfl ⟨nofun, hp.devToTcp⟩ nofun
    · exact .of_connected rfl ⟨hp.tcpToDev, hp.devToTcp⟩ nofun
  · rw [handleDevFdDevstrWrite]
    -- What comes after the write leaves the connection as it is.
    have hdone : ∀ r : Result, Outcome p r → Outcome p { r with port := devstrDone r.port } := by
      intro r hr
      rw [devstrDone]
      split
      · exact hr.followed rfl rfl rfl
      · exact hr
    refine hdone _ ?_
    have hport : Port.Connected { p with devstr := some (p.devstr.getD 0 - w.written) } :=
      ⟨hp.tcpToDev, hp.devToTcp⟩
    split
    · exact (shutdownPort_outcome hport).of_enabled rfl
    split
    · exact .of_connected rfl ⟨nofun, hp.devToTcp⟩ nofun
    · exact .of_connected rfl ⟨hp.tcpToDev, hp.devToTcp⟩ nofun
  · rw [handleDevFdCloseWrite]
    split
    · exact (finishShutdownPort_outcome _).of_enabled rfl
    split
    · exact .of_connected rfl ⟨hp.tcpToDev, hp.devToTcp⟩ nofun
    · exact (finishShutdownPort_outcome _).of_enabled rfl

theorem handleTcpFdWrite_outcome (hp : p.Connected) (w : TcpWrite) :
    Outcome p (handleTcpFdWrite w p) := by
  have hdone : Outcome p
      { shutdownPort p with port := bannerDone (shutdownPort p).port } := by
    rw [bannerDone]
    split
    · exact (shutdownPort_outcome hp).followed rfl rfl rfl
    · exact shutdownPort_outcome hp
  cases w with
  | cmdFailed => exact hdone
  | cmdPending =>
    rw [handleTcpFdWrite, bannerDone]
    split
    · exact .of_connected rfl ⟨hp.tcpToDev, hp.devToTcp⟩ nofun
    · exact .of_connected rfl hp nofun
  | failed => exact hdone
  | wrote n =>
    rw [handleTcpFdWrite]
    split
    · split
      · exact .of_connected rfl ⟨hp.tcpToDev, nofun⟩ nofun
      · exact .of_connected rfl ⟨hp.tcpToDev, hp.devToTcp⟩ nofun
    · split
      · exact .of_connected rfl ⟨hp.tcpToDev, nofun⟩ nofun
      · exact .of_connected rfl ⟨hp.tcpToDev, hp.devToTcp⟩ nofun

/-- The callbacks of a connection. -/
def Action.ofConnection (a : Action) : Bool :=
  a.ofSelector ||
    match a with
    | .disconnect => true
    | _ => false

/-- **A callback goes on with the connection, or ends it.** -/
theorem callback_outcome (cfg : PortConfig) (inuse : Bool) (hp : p.Connected) {a : Action}
    (ha : a.ofConnection = true) : Outcome p (callback cfg inuse p a) := by
  unfold callback
  split
  · exact .of_connected rfl hp nofun
  cases a with
  | devRead read w => exact handleDevFdRead_outcome hp read w
  | devWrite w => exact devFdWrite_outcome hp w
  | tcpRead read env => exact handleTcpFdRead_outcome cfg hp read env
  | tcpWrite w => exact handleTcpFdWrite_outcome hp w
  | except => exact shutdownPort_outcome hp
  | disconnect => exact shutdownPort_outcome hp
  | accept env => cases ha
  | shutdown => cases ha
  | changeState state => cases ha

/-- Without a connection none of them runs. -/
theorem callback_idle (cfg : PortConfig) (inuse : Bool) (hp : p.Idle) {a : Action}
    (ha : a.ofConnection = true) : callback cfg inuse p a = ⟨p, [], 0⟩ := by
  obtain ⟨htcp, hdev⟩ := hp
  unfold callback
  refine if_pos ?_
  rw [Bool.not_eq_true']
  cases a with
  | devRead read w => simp [Action.ready, Port.isOpen, htcp]
  | devWrite w => cases hwriter : p.devWriter <;> simp [Action.ready, Port.isOpen, htcp, hwriter]
  | tcpRead read env => simp [Action.ready, htcp]
  | tcpWrite w => simp [Action.ready, Port.isOpen, htcp]
  | except => simp [Action.ready, Port.isOpen, htcp]
  | disconnect => simp [Action.ready, htcp]
  | accept env => cases ha
  | shutdown => cases ha
  | changeState state => cases ha

/-- A client that arrives is connected, if there was none and its device is free, or turned away. -/
theorem handleAcceptPortRead_outcome (cfg : PortConfig) (inuse : Bool) (env : SetupEnv) (p : Port) :
    let r := handleAcceptPortRead cfg inuse env p
    r.port.enabled = p.enabled ∧ r.ended = false ∧
      (r.port.tcpToDevState = p.tcpToDevState ∧ r.port.devToTcpState = p.devToTcpState ∨
        inuse = false ∧ r.port.Connected) := by
  have haway : ∀ r : Result, r.port.enabled = p.enabled → r.port.tcpToDevState = p.tcpToDevState →
      r.port.devToTcpState = p.devToTcpState → (∀ c ∈ r.calls, c = .myinitGd) →
      r.port.enabled = p.enabled ∧ r.ended = false ∧
        (r.port.tcpToDevState = p.tcpToDevState ∧ r.port.devToTcpState = p.devToTcpState ∨
          inuse = false ∧ r.port.Connected) := by
    intro r henabled htcp hdev hcalls
    refine ⟨henabled, Result.ended_eq_false fun c hc => ?_, .inl ⟨htcp, hdev⟩⟩
    rw [hcalls c hc]
    nofun
  have hone : ∀ c ∈ [Call.myinitGd], c = .myinitGd := fun c hc => List.mem_singleton.1 hc
  dsimp only
  rw [handleAcceptPortRead]
  split
  · exact haway _ rfl rfl rfl nofun
  split
  · exact haway _ rfl rfl rfl nofun
  next hinuse =>
  split
  · exact haway _ rfl rfl rfl nofun
  split
  · exact haway _ rfl rfl rfl nofun
  rw [setupTcpPort]
  split
  · exact haway _ rfl rfl rfl nofun
  split
  · exact haway _ rfl rfl rfl nofun
  split
  · exact haway _ rfl rfl rfl nofun
  split
  · exact haway _ rfl rfl rfl nofun
  split
  · exact haway _ rfl rfl rfl hone
  split
  · exact haway _ rfl rfl rfl hone
  · refine ⟨rfl, Result.ended_eq_false ?_, .inr ⟨by simpa using hinuse, nofun, nofun⟩⟩
    simp

end SerialServer.Dataxfer
