import SerialServer.Reporter.TransferFlow

/-!
# SerialServer.Reporter.TransferTimer

What `got_timeout` does once a second: the idle timer and the modem lines.

The timer runs out after `timeout` seconds in which no callback `Counts`. It does not matter
for it that a client sends telnet commands. A write to the client matters unless it leaves
telnet commands unwritten, even when there is nothing to write but them (`timeout_iff`).

A client that has turned on RFC 2217 is to be told the modem lines when it does and whenever
they have changed. As long as there has been room for every telnet command, the last
notification that has been issued is the one the port remembers (`notified_eq`), so after every
tick one has been issued of the lines as they are, as far as the client's mask lets it see them
(`modemstate_notified`).
-/

namespace SerialServer.Dataxfer

namespace Transfer

variable {cfg : TransferConfig}

/-! ### The idle timer -/

/-- The callbacks that set the timer back: data is read, something is written to the device, or a
write to the client leaves no telnet command pending, whether or not anything is behind them. -/
def Counts (cfg : TransferConfig) (t : Transfer) : TransferEvent → Bool
  | .devRead _ _ => true
  | .devWrite _ => true
  | .tcpRead _ _ bytes _ =>
      cfg.enabled ≠ .telnet || !(processTelnetData cfg.maxCmd t.tnData bytes).data.isEmpty
  | .tcpWrite c _ => (t.neg.outTelnetCmd.drop c.written).isEmpty
  | .timeout _ => false
  | .close => false

end Transfer

/-- An event is a tick. -/
def TransferEvent.isTick : TransferEvent → Bool
  | .timeout _ => true
  | _ => false

namespace Transfer

variable {cfg : TransferConfig}

/-- A connection, and the ticks since a callback has set the timer back. -/
def watch (cfg : TransferConfig) (s : Transfer × Nat) (ev : TransferEvent) : Transfer × Nat :=
  (s.1.step cfg ev,
    if ev.ready cfg s.1 && s.1.Counts cfg ev then 0
    else if ev.isTick then s.2 + 1
    else s.2)

theorem handleDevFdRead_left {t : Transfer} {bytes : List Byte} {w : WriteResult}
    (h : (t.handleDevFdRead cfg bytes w).life = .running) :
    (t.handleDevFdRead cfg bytes w).timeoutLeft = cfg.timeout := by
  cases w with
  | failed => cases h
  | again => rfl
  | wrote n =>
    rw [handleDevFdRead]
    generalize (if cfg.enabled = .telnet then Escape.double TN_IAC bytes else bytes) = buf
    dsimp only
    split
    · rfl
    · rfl

theorem writeToDev_left {t : Transfer} {buf : List Byte} {w : WriteResult}
    (h : (t.writeToDev cfg buf w).life = .running) :
    (t.writeToDev cfg buf w).timeoutLeft = cfg.timeout := by
  cases w with
  | failed => cases h
  | again => rfl
  | wrote n =>
    rw [writeToDev]
    dsimp only
    split
    · rfl
    · rfl

theorem outputReady_left (t : Transfer) (items : List Item) :
    (t.outputReady items).timeoutLeft = t.timeoutLeft := by
  rw [outputReady]
  split
  · rfl
  · rfl

theorem handleTcpFdRead_left {t : Transfer} {table : List TelnetCmd} {env : Nat → NegotiatorEnv}
    {bytes : List Byte} {w : WriteResult}
    (h : (t.handleTcpFdRead cfg table env bytes w).life = .running) :
    (t.handleTcpFdRead cfg table env bytes w).timeoutLeft =
      if t.Counts cfg (.tcpRead table env bytes w) then (cfg.timeout : Int)
      else t.timeoutLeft := by
  rw [Counts]
  rw [handleTcpFdRead] at h ⊢
  split
  · next htelnet =>
    rw [if_pos htelnet] at h
    dsimp only at h ⊢
    split
    · next hnone =>
      rw [hnone] at h
      cases h
    · next r hr =>
      rw [hr] at h
      dsimp only at h
      split
      · next herror =>
        rw [if_pos herror] at h
        cases h
      · next herror =>
        rw [if_neg herror] at h
        split
        · next hdata =>
          rw [if_neg (by simp [htelnet, hdata])]
          exact outputReady_left ..
        · next hdata =>
          rw [if_neg hdata] at h
          rw [if_pos (by simp [hdata])]
          exact writeToDev_left h
  · next hraw =>
    rw [if_neg hraw] at h
    rw [if_pos (by simp [hraw])]
    exact writeToDev_left h

theorem devFdWrite_left {t : Transfer} {w : BufferWrite}
    (h : (t.devFdWrite cfg w).life = .running) :
    (t.devFdWrite cfg w).timeoutLeft = cfg.timeout := by
  rw [devFdWrite] at h ⊢
  split
  · next hdevstr =>
    rw [hdevstr] at h
    dsimp only at h
    split
    · next hfailed =>
      rw [if_pos hfailed] at h
      exact absurd h (shutdownString_life cfg t)
    · dsimp only
      split
      · rfl
      · rfl
  · next hdevstr =>
    rw [hdevstr] at h
    dsimp only at h
    split
    · next hfailed =>
      rw [if_pos hfailed] at h
      cases h
    · dsimp only
      split
      · rfl
      · rfl

theorem tcpFdWriteRest_left {t : Transfer} {w : BufferWrite}
    (h : (t.tcpFdWriteRest cfg w).life = .running) :
    (t.tcpFdWriteRest cfg w).timeoutLeft = cfg.timeout := by
  rw [tcpFdWriteRest] at h ⊢
  split
  · next hbanner =>
    rw [hbanner] at h
    dsimp only at h
    split
    · next hfailed =>
      rw [if_pos hfailed] at h
      exact absurd h (shutdownString_life cfg t)
    · dsimp only
      split
      · rfl
      · rfl
  · next hbanner =>
    rw [hbanner] at h
    dsimp only at h
    split
    · next hfailed =>
      rw [if_pos hfailed] at h
      cases h
    · dsimp only
      split
      · rfl
      · rfl

theorem tcpFdWrite_left {t : Transfer} {c w : BufferWrite}
    (h : (t.tcpFdWrite cfg c w).life = .running) :
    (t.tcpFdWrite cfg c w).timeoutLeft =
      if t.Counts cfg (.tcpWrite c w) then (cfg.timeout : Int) else t.timeoutLeft := by
  rw [Counts]
  rw [tcpFdWrite] at h ⊢
  dsimp only at h ⊢
  split
  · next hempty =>
    rw [if_pos hempty] at h
    rw [if_pos (by rw [List.isEmpty_iff.1 hempty, List.drop_nil]; rfl)]
    exact tcpFdWriteRest_left h
  next hempty =>
  rw [if_neg hempty] at h
  split
  · next hfailed =>
    rw [if_pos hfailed] at h
    split at h
    · exact absurd h (shutdownString_life cfg t)
    · cases h
  next hfailed =>
  rw [if_neg hfailed] at h
  split
  · next hrest =>
    rw [if_pos hrest] at h
    exact tcpFdWriteRest_left h
  · rw [dropBanner_eq]

theorem sendOption_left (t : Transfer) (size : Nat) (item : Item) :
    (t.sendOption size item).timeoutLeft = t.timeoutLeft ∧
      (t.sendOption size item).life = t.life := by
  rw [sendOption]
  split
  · exact ⟨rfl, rfl⟩
  · exact ⟨rfl, rfl⟩

/-- A tick ends the connection when no time is left. -/
theorem gotTimeout_left (hT : cfg.timeout ≠ 0) {t : Transfer} (hlife : t.life = .running)
    (lines : Option ModemLines) :
    ((t.gotTimeout cfg lines).life = .running ↔ 1 ≤ t.timeoutLeft) ∧
      ((t.gotTimeout cfg lines).life = .running →
        (t.gotTimeout cfg lines).timeoutLeft = t.timeoutLeft - 1) := by
  rw [gotTimeout, if_pos hT]
  dsimp only
  by_cases hleft : t.timeoutLeft - 1 < 0
  · rw [if_pos ⟨hT, hleft⟩]
    exact ⟨iff_of_false (by simp [shutdown]) (by omega), fun h => by simp [shutdown] at h⟩
  rw [if_neg fun h => hleft h.2]
  have hgoes : ∀ t' : Transfer, t'.life = .running → t'.timeoutLeft = t.timeoutLeft - 1 →
      (t'.life = .running ↔ 1 ≤ t.timeoutLeft) ∧
        (t'.life = .running → t'.timeoutLeft = t.timeoutLeft - 1) := fun t' hrunning hsame =>
    ⟨iff_of_true hrunning (by omega), fun _ => hsame⟩
  split
  · exact hgoes _ hlife rfl
  split
  · obtain ⟨hsame, hrunning⟩ := sendOption_left _ cfg.negotiator.cmdbufSize _
    exact hgoes _ (hrunning.trans hlife) hsame
  · exact hgoes _ hlife rfl

/-- **What a callback does to the timer.** -/
theorem step_left (hT : cfg.timeout ≠ 0) {t : Transfer} {ev : TransferEvent}
    (h : (t.step cfg ev).life = .running) :
    (t.step cfg ev).timeoutLeft =
      if ev.ready cfg t && t.Counts cfg ev then (cfg.timeout : Int)
      else if ev.isTick then t.timeoutLeft - 1
      else t.timeoutLeft := by
  rw [step] at h ⊢
  by_cases hready : ev.ready cfg t = true
  · have hlife : t.life = .running := by
      split at h
      · next hguard =>
        rw [Bool.and_eq_true, decide_eq_true_eq] at hguard
        exact hguard.1
      · exact h
    rw [hready, hlife, decide_eq_true rfl, Bool.true_and, if_pos rfl] at h ⊢
    dsimp only at h ⊢
    have hcallback : (t.callback cfg ev).life = .running := by
      split at h
      · next hrunning => exact hrunning
      · exact h
    rw [if_pos hcallback]
    cases ev with
    | devRead bytes w => exact handleDevFdRead_left hcallback
    | devWrite w => exact devFdWrite_left hcallback
    | tcpRead table env bytes w => exact handleTcpFdRead_left hcallback
    | tcpWrite c w => exact tcpFdWrite_left hcallback
    | timeout lines => exact (gotTimeout_left hT hlife lines).2 hcallback
    | close => cases hcallback
  · -- Only the other callbacks have to wait.
    have htick : ¬ ev.isTick = true := by
      cases ev with
      | timeout lines => exact absurd rfl hready
      | _ => exact Bool.false_ne_true
    rw [Bool.eq_false_iff.2 hready, Bool.and_false, Bool.false_and, if_neg Bool.false_ne_true,
      if_neg Bool.false_ne_true, if_neg htick]

theorem watch_left (hT : cfg.timeout ≠ 0) {s : Transfer × Nat}
    (hs : s.1.life = .running → s.1.timeoutLeft = cfg.timeout - s.2) (ev : TransferEvent)
    (h : (watch cfg s ev).1.life = .running) :
    (watch cfg s ev).1.timeoutLeft = cfg.timeout - (watch cfg s ev).2 := by
  have hlife : s.1.life = .running := by
    have hrunning : (s.1.step cfg ev).life = .running := h
    rw [step] at hrunning
    split at hrunning
    · next hguard =>
      rw [Bool.and_eq_true, decide_eq_true_eq] at hguard
      exact hguard.1
    · exact hrunning
  have hleft := step_left hT h
  have hbefore := hs hlife
  change (s.1.step cfg ev).timeoutLeft = cfg.timeout - ((if _ then _ else _ : Nat) : Int)
  rw [hleft]
  split
  · simp
  split
  · rw [hbefore]
    push_cast
    omega
  · exact hbefore

/-- **When the timer runs out**: at the tick that follows `timeout` others since a callback has
last set it back, and at no other. -/
theorem timeout_iff {cfg : TransferConfig} (hT : cfg.timeout ≠ 0) (n : Negotiator) (td : TelnetData)
    (evs : List TransferEvent) (lines : Option ModemLines) :
    let s := evs.foldl (watch cfg) (setup cfg n td, 0)
    s.1.life = .running →
      ((s.1.step cfg (.timeout lines)).life ≠ .running ↔ cfg.timeout ≤ s.2) := by
  intro s hlife
  have hleft : s.1.life = .running → s.1.timeoutLeft = cfg.timeout - s.2 := by
    refine Run.EachStep.foldl (I := fun s : Transfer × Nat =>
      s.1.life = .running → s.1.timeoutLeft = cfg.timeout - s.2) (C := fun _ _ => True)
      (fun _ => ?_) (fun s ev hs _ => watch_left hT hs ev) (Run.EachStep.of_forall fun _ _ => trivial)
    exact (Int.sub_zero _).symm
  have hstep : s.1.step cfg (.timeout lines) =
      if (s.1.gotTimeout cfg lines).life = .running then s.1.gotTimeout cfg lines
      else { s.1 with life := (s.1.gotTimeout cfg lines).life } := by
    rw [step, hlife]
    rfl
  have hticks : (s.1.step cfg (.timeout lines)).life = .running ↔ 1 ≤ s.1.timeoutLeft := by
    rw [← (gotTimeout_left hT hlife lines).1, hstep]
    split
    · rfl
    · rfl
  rw [Ne, hticks, hleft hlife]
  omega

/-- A client that asks whether the other end is there, in vain: with a timeout of one second, the
second tick ends its connection. -/
theorem timeout_iff_command :
    let cfg : TransferConfig :=
      ⟨.telnet, none, none, none, 1, ⟨⟨false, [], 64⟩, false, 64⟩, 64⟩
    let env : NegotiatorEnv := ⟨⟨⟨13, 13, .cs8, false, false, false, false, false, false⟩,
      true, true, true, true, none⟩, none⟩
    let n : Negotiator := ⟨false, 0, ⟨false, 0, 0⟩, [], false⟩
    let evs : List TransferEvent :=
      [.timeout none, .tcpRead telnetCmds (fun _ => env) [TN_IAC, 246] .again]
    let s := evs.foldl (watch cfg) (setup cfg n ⟨[], false⟩, 0)
    s.1.life = .running ∧ (s.1.step cfg (.timeout none)).life ≠ .running := by
  intro cfg env n evs s
  have hlife : s.1.life = .running := by decide +kernel
  have hticks : s.2 = 1 := by decide +kernel
  exact ⟨hlife, (@timeout_iff cfg Nat.one_ne_zero n ⟨[], false⟩ evs none hlife).2
    (Nat.le_of_eq hticks.symm)⟩

end Transfer

/-! ### The modem lines -/

/-- The lines an element notifies. -/
def Item.modemstate : Item → Option Byte
  | .suboption [option, 107, modemstate] =>
      if option = TN_OPT_COM_PORT then some modemstate else none
  | _ => none

/-- The lines that have been notified last. -/
def notified (items : List Item) : Option Byte := (items.filterMap Item.modemstate).getLast?

theorem notified_append (xs ys : List Item) :
    notified (xs ++ ys) = (notified ys).or (notified xs) := by
  rw [notified, List.filterMap_append, List.getLast?_append]
  rfl

theorem notified_notify (modemstate : Byte) :
    notified [notifyModemstate modemstate] = some modemstate := rfl

/-- The last notification issued to a client that has turned on RFC 2217 is of the lines the port
remembers. -/
def Told (n : Negotiator) (items : List Item) : Prop :=
  n.is2217 = true → notified items = some n.lastModemstate

/-- What a command does to the notifications: nothing, or it issues one of the lines the port
remembers from then on. -/
def Tells (n : Negotiator) (r : Handled) : Prop :=
  r.port.is2217 = n.is2217 ∧ r.port.lastModemstate = n.lastModemstate ∧ notified r.sends = none ∨
    notified r.sends = some r.port.lastModemstate

theorem Tells.told {n : Negotiator} {r : Handled} {items : List Item} (h : Tells n r)
    (htold : Told n items) : Told r.port (items ++ r.sends) := by
  intro hon
  rw [notified_append]
  rcases h with ⟨hsame, hstate, hnone⟩ | hsome
  · rw [hnone, hstate, Option.none_or]
    exact htold (hsame ▸ hon)
  · rw [hsome]
    rfl

theorem handleWill_tells (cfg : NegotiatorConfig) (env : NegotiatorEnv) (table : List TelnetCmd)
    (n : Negotiator) (option : Byte) : Tells n (handleWill cfg env table n option) := by
  rw [handleWill]
  split
  · exact .inl ⟨rfl, rfl, rfl⟩
  dsimp only
  split
  · split
    · exact .inl ⟨rfl, rfl, rfl⟩
    split
    · rw [comPortWill]
      split
      · exact .inl ⟨rfl, rfl, rfl⟩
      · exact .inr rfl
    · exact .inl ⟨rfl, rfl, rfl⟩
  · exact .inl ⟨rfl, rfl, rfl⟩

theorem handleSuboption_tells {cfg : NegotiatorConfig} {env : NegotiatorEnv}
    {table : List TelnetCmd} {n : Negotiator} {option : List Byte} {r : Handled}
    (h : handleSuboption cfg env table n option = some r) : Tells n r := by
  rw [handleSuboption] at h
  split at h
  · obtain rfl := Option.some.inj h
    exact .inl ⟨rfl, rfl, rfl⟩
  split at h
  · obtain rfl := Option.some.inj h
    refine .inl ⟨rfl, rfl, ?_⟩
    cases hreply : (comPortHandler cfg.com env.com n.com option).reply with
    | none => rfl
    | some reply =>
      -- No reply looks like a notification.
      have hne := (comPortHandler_reply hreply).2
      have hnone : Item.modemstate (.suboption reply) = none := by
        unfold Item.modemstate
        split
        · next heq =>
          rw [Item.suboption.injEq] at heq
          subst heq
          exact absurd rfl hne
        · rfl
      change ([Item.suboption reply].filterMap Item.modemstate).getLast? = none
      rw [List.filterMap_cons_none hnone]
      rfl
  · cases h

theorem handleTelnetCmd_tells {cfg : NegotiatorConfig} {env : NegotiatorEnv}
    {table : List TelnetCmd} {n : Negotiator} {cmd : List Byte} {r : Handled}
    (h : handleTelnetCmd cfg env table n cmd = some r) : Tells n r := by
  have hnothing : ∀ table', Tells n ⟨table', n, [], []⟩ := fun _ => .inl ⟨rfl, rfl, rfl⟩
  have hone : ∀ (table' : List TelnetCmd) (verb option : Byte),
      Tells n ⟨table', n, [.negotiate verb option], []⟩ := fun _ _ _ => .inl ⟨rfl, rfl, rfl⟩
  rw [handleTelnetCmd] at h
  dsimp only at h
  split at h
  · obtain rfl := Option.some.inj h
    exact hnothing _
  split at h
  · obtain rfl := Option.some.inj h
    exact hnothing _
  split at h
  · exact handleSuboption_tells h
  split at h
  · obtain rfl := Option.some.inj h
    exact handleWill_tells ..
  split at h
  · obtain rfl := Option.some.inj h
    rw [handleWont]
    split
    · exact hone ..
    · split
      · exact hone ..
      · exact hnothing _
  split at h
  · obtain rfl := Option.some.inj h
    rw [handleDo]
    split
    · exact hone ..
    · split
      · exact hone ..
      · exact hnothing _
  split at h
  · obtain rfl := Option.some.inj h
    rw [handleDont]
    split
    · exact hone ..
    · split
      · exact hone ..
      · exact hnothing _
  · obtain rfl := Option.some.inj h
    exact hnothing _

/-- Putting elements into `out_telnet_cmd` does not change what is remembered. -/
theorem foldl_send_told {size : Nat} {sends items : List Item} {n : Negotiator}
    (h : Told n items) : Told (sends.foldl (Negotiator.send size) n) items := by
  induction sends generalizing n with
  | nil => exact h
  | cons item sends ih =>
    refine ih ?_
    rw [Negotiator.send]
    split
    · exact h
    · exact h

theorem handleTelnetCmds_told {cfg : NegotiatorConfig} {env : Nat → NegotiatorEnv}
    {table : List TelnetCmd} {n : Negotiator} {cmds : List (List Byte)} {r : Handled}
    {items : List Item} (h : handleTelnetCmds cfg env table n cmds = some r)
    (htold : Told n items) : Told r.port (items ++ r.sends) := by
  induction cmds generalizing env table n r items with
  | nil =>
    rw [handleTelnetCmds, Option.some.injEq] at h
    obtain rfl := h
    rw [List.append_nil]
    exact htold
  | cons cmd cmds ih =>
    rw [handleTelnetCmds] at h
    split at h
    · cases h
    next r₁ hfirst =>
    dsimp only at h
    split at h
    · cases h
    next r₂ hrest =>
    rw [Option.some.injEq] at h
    obtain rfl := h
    have htold₁ : Told (r₁.sends.foldl (Negotiator.send cfg.cmdbufSize) r₁.port)
        (items ++ r₁.sends) :=
      foldl_send_told ((handleTelnetCmd_tells hfirst).told htold)
    rw [← List.append_assoc]
    exact ih hrest htold₁

namespace Transfer

/-- The last notification issued is of the lines the port remembers, unless the connection is to
be given up. -/
def Notified (t : Transfer) : Prop := t.neg.error = false → Told t.neg t.issued

theorem setup_notified (cfg : TransferConfig) (n : Negotiator) (td : TelnetData) :
    (setup cfg n td).Notified := by
  intro _ hon
  have hoff : (setup cfg n td).neg.is2217 = false := by
    rw [setup]
    dsimp only
    split
    · rw [telnetInit]
      dsimp only
      split
      · rfl
      · rfl
    · rfl
  rw [hoff] at hon
  cases hon

theorem shutdownString_notified {t : Transfer} (h : t.Notified) :
    (t.shutdownString cfg).Notified := by
  obtain ⟨life, -, heq⟩ := shutdownString_eq cfg t
  rw [heq]
  exact h

theorem handleDevFdRead_notified {t : Transfer} (h : t.Notified) (bytes : List Byte)
    (w : WriteResult) : (t.handleDevFdRead cfg bytes w).Notified := by
  cases w with
  | failed => exact h
  | again => exact h
  | wrote n =>
    rw [handleDevFdRead]
    generalize (if cfg.enabled = .telnet then Escape.double TN_IAC bytes else bytes) = buf
    dsimp only
    split
    · exact h
    · exact h

theorem writeToDev_notified {t : Transfer} (h : t.Notified) (buf : List Byte) (w : WriteResult) :
    (t.writeToDev cfg buf w).Notified := by
  cases w with
  | failed => exact h
  | again => exact h
  | wrote n =>
    rw [writeToDev]
    dsimp only
    split
    · exact h
    · exact h

theorem devFdWrite_notified {t : Transfer} (h : t.Notified) (w : BufferWrite) :
    (t.devFdWrite cfg w).Notified := by
  rw [devFdWrite]
  split
  · split
    · exact shutdownString_notified h
    · dsimp only
      split
      · exact h
      · exact h
  · split
    · exact h
    · dsimp only
      split
      · exact h
      · exact h

theorem tcpFdWriteRest_notified {t : Transfer} (h : t.Notified) (w : BufferWrite) :
    (t.tcpFdWriteRest cfg w).Notified := by
  rw [tcpFdWriteRest]
  split
  · split
    · exact shutdownString_notified h
    · dsimp only
      split
      · exact h
      · exact h
  · split
    · exact h
    · dsimp only
      split
      · exact h
      · exact h

theorem tcpFdWrite_notified {t : Transfer} (h : t.Notified) (c w : BufferWrite) :
    (t.tcpFdWrite cfg c w).Notified := by
  rw [tcpFdWrite]
  dsimp only
  split
  · exact tcpFdWriteRest_notified h w
  split
  · split
    · exact shutdownString_notified h
    · exact h
  split
  · refine tcpFdWriteRest_notified ?_ w
    exact h
  · rw [dropBanner_eq]
    exact h

theorem outputReady_issued (t : Transfer) (items : List Item) :
    (t.outputReady items).issued = t.issued ++ items ∧ (t.outputReady items).neg = t.neg := by
  cases items with
  | nil => exact ⟨(List.append_nil _).symm, rfl⟩
  | cons item items => exact ⟨rfl, rfl⟩

theorem handleTcpFdRead_notified {t : Transfer} (h : t.Notified) (table : List TelnetCmd)
    (env : Nat → NegotiatorEnv) (bytes : List Byte) (w : WriteResult) :
    (t.handleTcpFdRead cfg table env bytes w).Notified := by
  rw [handleTcpFdRead]
  split
  · dsimp only
    split
    · exact h
    next r hr =>
    split
    · exact h
    next herror =>
    have hnone : t.neg.error = false :=
      ((handleTelnetCmds_sends hr).2 (by simpa using herror)).2
    have hready : ({ t with
        tnData := (processTelnetData cfg.maxCmd t.tnData bytes).td
        neg := r.port }.outputReady r.sends).Notified := by
      intro _
      obtain ⟨hissued, hneg⟩ := outputReady_issued { t with
        tnData := (processTelnetData cfg.maxCmd t.tnData bytes).td
        neg := r.port } r.sends
      rw [hissued, hneg]
      exact handleTelnetCmds_told hr (h hnone)
    split
    · exact hready
    · exact writeToDev_notified hready _ w
  · exact writeToDev_notified h bytes w

/-- The notification is issued, or there is no room for it and the connection is to be given up. -/
theorem sendOption_notified (t : Transfer) (modemstate : Byte)
    (h : t.neg.lastModemstate = modemstate) (size : Nat) :
    (t.sendOption size (notifyModemstate modemstate)).Notified := by
  rw [sendOption]
  split
  · next hroom =>
    intro _ _
    rw [Negotiator.send, if_pos hroom, (outputReady_issued _ _).1, (outputReady_issued _ _).2,
      notified_append, notified_notify, ← h]
    rfl
  · next hroom =>
    rw [Negotiator.send, if_neg hroom]
    exact fun herror => absurd herror (by simp)

theorem gotTimeout_notified {t : Transfer} (h : t.Notified) (lines : Option ModemLines) :
    (t.gotTimeout cfg lines).Notified := by
  rw [gotTimeout]
  generalize (if cfg.timeout ≠ 0 then t.timeoutLeft - 1 else t.timeoutLeft) = left
  dsimp only
  split
  · exact h
  split
  · exact h
  split
  · exact sendOption_notified _ _ rfl _
  · exact h

theorem step_notified {t : Transfer} (h : t.Notified) (ev : TransferEvent) :
    (t.step cfg ev).Notified := by
  rw [step]
  split
  · dsimp only
    split
    · cases ev with
      | devRead bytes w => exact handleDevFdRead_notified h bytes w
      | devWrite w => exact devFdWrite_notified h w
      | tcpRead table env bytes w => exact handleTcpFdRead_notified h table env bytes w
      | tcpWrite c w => exact tcpFdWrite_notified h c w
      | timeout lines => exact gotTimeout_notified h lines
      | close => exact h
    · exact h
  · exact h

/-- After a tick the port remembers the lines as they are. -/
theorem gotTimeout_lines {t : Transfer} {l : ModemLines}
    (h : (t.gotTimeout cfg (some l)).life = .running) (hon : t.neg.is2217 = true) :
    (t.gotTimeout cfg (some l)).neg.lastModemstate = l.state &&& t.neg.com.modemstateMask ∧
      (t.gotTimeout cfg (some l)).neg.is2217 = true := by
  rw [gotTimeout] at h ⊢
  generalize (if cfg.timeout ≠ 0 then t.timeoutLeft - 1 else t.timeoutLeft) = left at h ⊢
  dsimp only at h ⊢
  split
  · next hover =>
    rw [if_pos hover] at h
    cases h
  split
  · next hnew =>
    rw [sendOption]
    split
    · rw [(outputReady_issued _ _).2, Negotiator.send]
      split
      · exact ⟨rfl, hon⟩
      · exact ⟨rfl, hon⟩
    · rw [Negotiator.send]
      split
      · exact ⟨rfl, hon⟩
      · exact ⟨rfl, hon⟩
  · next hold =>
    rw [not_and, not_not] at hold
    exact ⟨(hold hon).symm, hon⟩

/-- **A client that has turned on RFC 2217 is told the modem lines every second**: after a tick at
which the lines can be read, the last notification issued to it says what they are, as far as
the client has asked for them. The only exception is a connection that is to be given up, as
there was no room for a telnet command. -/
theorem modemstate_notified (cfg : TransferConfig) (n : Negotiator) (td : TelnetData)
    (evs : List TransferEvent) (l : ModemLines) :
    let t := evs.foldl (step cfg) (setup cfg n td)
    let t' := t.step cfg (.timeout (some l))
    t'.life = .running → t.neg.is2217 = true → t'.neg.error = false →
      notified t'.issued = some (l.state &&& t.neg.com.modemstateMask) := by
  intro t t' hlife hon herror
  have ht' : t'.Notified := by
    refine step_notified ?_ _
    exact Run.EachStep.foldl (C := fun _ _ => True) (setup_notified cfg n td)
      (fun _ ev h _ => step_notified h ev) (Run.EachStep.of_forall fun _ _ => trivial)
  have hrunning : t.life = .running := by
    by_contra hover
    have hsame : t' = t := by
      change t.step cfg (.timeout (some l)) = t
      rw [step, decide_eq_false hover]
      rfl
    exact hover (hsame ▸ hlife)
  have hstep : t' = if (t.gotTimeout cfg (some l)).life = .running then t.gotTimeout cfg (some l)
      else { t with life := (t.gotTimeout cfg (some l)).life } := by
    change t.step cfg (.timeout (some l)) = _
    rw [step, hrunning]
    rfl
  split at hstep
  · next hgoes =>
    obtain ⟨hlast, hon'⟩ := gotTimeout_lines hgoes hon
    rw [hstep] at ht' herror ⊢
    rw [ht' herror hon', hlast]
  · next hends =>
    rw [hstep] at hlife
    exact absurd hlife hends

/-- CTS comes up after the client has turned on RFC 2217. -/
theorem modemstate_notified_cts :
    let cfg : TransferConfig :=
      ⟨.telnet, none, none, none, 0, ⟨⟨false, [], 64⟩, true, 64⟩, 64⟩
    let env : NegotiatorEnv := ⟨⟨⟨13, 13, .cs8, false, false, false, false, false, false⟩,
      true, true, true, true, none⟩, none⟩
    let n : Negotiator := ⟨false, 0, ⟨false, 0, 0⟩, [], false⟩
    let evs : List TransferEvent :=
      [.tcpRead telnetCmds (fun _ => env) [TN_IAC, TN_WILL, TN_OPT_COM_PORT] .again]
    let cts : ModemLines := ⟨false, false, false, true⟩
    notified
        ((evs.foldl (step cfg) (setup cfg n ⟨[], false⟩)).step cfg (.timeout (some cts))).issued =
      some 0x10 := by
  intro cfg env n evs cts
  have hlife : ((evs.foldl (step cfg) (setup cfg n ⟨[], false⟩)).step cfg
      (.timeout (some cts))).life = .running := by
    decide +kernel
  have hon : (evs.foldl (step cfg) (setup cfg n ⟨[], false⟩)).neg.is2217 = true := by
    decide +kernel
  have herror : ((evs.foldl (step cfg) (setup cfg n ⟨[], false⟩)).step cfg
      (.timeout (some cts))).neg.error = false := by
    decide +kernel
  have hmask : some (cts.state &&&
      (evs.foldl (step cfg) (setup cfg n ⟨[], false⟩)).neg.com.modemstateMask) = some 0x10 := by
    decide +kernel
  exact (modemstate_notified cfg n ⟨[], false⟩ evs cts hlife hon herror).trans hmask

end Transfer

end SerialServer.Dataxfer
