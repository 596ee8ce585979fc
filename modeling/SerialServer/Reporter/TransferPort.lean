import SerialServer.Reporter.TransferFlow

/-!
# SerialServer.Reporter.TransferPort

A connection with its bytes is a connection of the reporter.

`Port` keeps of a buffer how much is in it, and lets a callback run when the states of the
transfer allow it; `Transfer` keeps the bytes, and lets a callback run when its handler is
enabled. Every callback of a calm `Transfer` is a callback of the `Port` with the lengths of its
buffers, or does not concern it (`step_matches`), so all that is known of the ports of the
reporter is true of connections with their bytes (`transfer_refines`).
-/

namespace SerialServer.Dataxfer

open Escape (double)

/-- The configuration of the port: the rest of it is `base`. -/
def TransferConfig.port (cfg : TransferConfig) (base : PortConfig) : PortConfig :=
  { base with
    banner := cfg.banner.map List.length
    openstr := cfg.openstr.map List.length
    closestr := cfg.closestr.map List.length
    com := cfg.negotiator.com
    maxCmd := cfg.maxCmd }

/-- The port of a connection that goes on. -/
structure Transfer.Matches (cfg : TransferConfig) (t : Transfer) (p : Port) : Prop where
  enabled : p.enabled = cfg.enabled
  isOpen : p.isOpen = true
  banner : p.banner = t.banner.map List.length
  devstr : p.devstr = t.devstr.map List.length
  devToTcp : p.devToTcp = t.devToTcp.length
  tcpToDev : p.tcpToDev = t.tcpToDev.length
  devWriter : p.devWriter = if t.devstr.isSome then .devstr else .data
  devReads : t.devReader = true → p.devToTcpState = .waitingInput
  tcpReads : t.tcpReader = true → p.tcpToDevState = .waitingInput
  devWrites : t.devstr = none → t.devWriter = true → p.tcpToDevState = .waitingOutputClear
  tnData : p.tnData = t.tnData
  breakSet : p.com.breakSet = t.neg.com.breakSet

open Transfer (Matches)

variable {cfg : TransferConfig} {base : PortConfig} {inuse : Bool} {t : Transfer} {p : Port}

theorem callback_devRead {r : ReadResult} {w : WriteResult}
    (h : (Action.devRead r w).ready p = true) :
    callback (cfg.port base) inuse p (.devRead r w) = handleDevFdRead r w p := by
  rw [callback, h]
  rfl

/-- What has been written to the client is only counted. -/
theorem length_rest (bs : List Byte) (n : Nat) :
    bs.length - min n bs.length = (bs.drop n).length := by
  rw [List.length_drop]
  omega

theorem isEmpty_rest (bs : List Byte) (n : Nat) :
    (bs.drop n).isEmpty = true ↔ bs.length - min n bs.length = 0 := by
  rw [length_rest, List.isEmpty_iff, List.length_eq_zero_iff]

theorem handleDevFdRead_matches (hm : Matches cfg t p) {bytes : List Byte} {w : WriteResult}
    (hreader : t.devReader = true) (hbytes : bytes ≠ [])
    (h : (t.handleDevFdRead cfg bytes w).life = .running) :
    Matches cfg (t.handleDevFdRead cfg bytes w)
      (callback (cfg.port base) inuse p (.devRead (.data bytes) w)).port := by
  have hready : (Action.devRead (.data bytes) w).ready p = true := by
    rw [Action.ready, hm.isOpen, hm.devReads hreader]
    rfl
  have hsize : (if p.enabled = .telnet then bytes.length + bytes.count 255 else bytes.length) =
      (cfg.wire bytes).length := by
    rw [hm.enabled, TransferConfig.wire]
    split
    · exact (Escape.length_double TN_IAC bytes).symm
    · rfl
  have hwire : (if cfg.enabled = .telnet then double TN_IAC bytes else bytes) = cfg.wire bytes :=
    rfl
  obtain ⟨b, bs, rfl⟩ := List.exists_cons_of_ne_nil hbytes
  rw [callback_devRead hready]
  cases w with
  | failed => cases h
  | again =>
    rw [handleDevFdRead, Transfer.handleDevFdRead, hwire]
    dsimp only
    rw [hsize]
    exact ⟨hm.enabled, hm.isOpen, hm.banner, hm.devstr, rfl, hm.tcpToDev, hm.devWriter,
      fun h => absurd h Bool.false_ne_true, hm.tcpReads, hm.devWrites, hm.tnData, hm.breakSet⟩
  | wrote n =>
    rw [handleDevFdRead, Transfer.handleDevFdRead, hwire]
    dsimp only
    rw [hsize]
    by_cases hrest : ((cfg.wire (b :: bs)).drop n).isEmpty = true
    · rw [if_pos hrest, if_neg (not_not.2 ((isEmpty_rest _ n).1 hrest))]
      exact ⟨hm.enabled, hm.isOpen, hm.banner, hm.devstr, length_rest _ n, hm.tcpToDev, hm.devWriter,
        hm.devReads, hm.tcpReads, hm.devWrites, hm.tnData, hm.breakSet⟩
    · rw [if_neg hrest, if_pos (fun h => hrest ((isEmpty_rest _ n).2 h))]
      exact ⟨hm.enabled, hm.isOpen, hm.banner, hm.devstr, length_rest _ n, hm.tcpToDev, hm.devWriter,
        fun h => absurd h Bool.false_ne_true, hm.tcpReads, hm.devWrites, hm.tnData, hm.breakSet⟩

theorem callback_devWrite {w : BufferWrite} (h : (Action.devWrite w).ready p = true) :
    callback (cfg.port base) inuse p (.devWrite w) = devFdWrite w p := by
  rw [callback, h]
  rfl

theorem devFdWrite_matches (hm : Matches cfg t p) {w : BufferWrite}
    (hwriter : t.devWriter = true) (h : (t.devFdWrite cfg w).life = .running) :
    Matches cfg (t.devFdWrite cfg w)
      (callback (cfg.port base) inuse p (.devWrite w)).port := by
  have hdevWriter := hm.devWriter
  rw [Transfer.devFdWrite] at h ⊢
  cases hdevstr : t.devstr with
  | some buf =>
    rw [hdevstr, Option.isSome_some, if_pos rfl] at hdevWriter
    have hlen : p.devstr = some buf.length := by
      rw [hm.devstr, hdevstr]
      rfl
    have hready : (Action.devWrite w).ready p = true := by
      rw [Action.ready, hdevWriter]
      exact hm.isOpen
    have hrest : buf.length - w.written = (buf.drop w.written).length :=
      (List.length_drop ..).symm
    rw [hdevstr] at h
    rw [callback_devWrite hready, devFdWrite, hdevWriter]
    dsimp only at h ⊢
    split
    · next hfailed =>
      rw [if_pos hfailed] at h
      exact absurd h (Transfer.shutdownString_life cfg t)
    · next hfailed =>
      rw [handleDevFdDevstrWrite]
      dsimp only
      rw [if_neg hfailed, hlen, Option.getD_some, hrest]
      by_cases hnil : (buf.drop w.written) = []
      · rw [hnil, List.length_nil, if_pos rfl, devstrDone, if_pos rfl]
        exact ⟨hm.enabled, rfl, hm.banner, rfl, hm.devToTcp, hm.tcpToDev, rfl, hm.devReads,
          fun _ => rfl, fun _ h => absurd h Bool.false_ne_true, hm.tnData, hm.breakSet⟩
      · have hne : (buf.drop w.written).length ≠ 0 := fun h => hnil (List.length_eq_zero_iff.1 h)
        rw [if_neg hne, devstrDone, if_neg fun h => hne (Option.some.inj h),
          if_neg fun h => hnil (List.isEmpty_iff.1 h)]
        exact ⟨hm.enabled, hm.isOpen, hm.banner, rfl, hm.devToTcp, hm.tcpToDev, hdevWriter,
          hm.devReads, hm.tcpReads, fun h => absurd h (Option.some_ne_none _), hm.tnData,
          hm.breakSet⟩
  | none =>
    rw [hdevstr, Option.isSome_none, if_neg Bool.false_ne_true] at hdevWriter
    have hready : (Action.devWrite w).ready p = true := by
      rw [Action.ready, hdevWriter, hm.devWrites hdevstr hwriter]
      rfl
    rw [hdevstr] at h
    rw [callback_devWrite hready, devFdWrite, hdevWriter]
    dsimp only at h ⊢
    split
    · next hfailed =>
      rw [if_pos hfailed] at h
      cases h
    · next hfailed =>
      have hdevstr' : p.devstr = none := by
        rw [hm.devstr, hdevstr]
        rfl
      rw [handleDevFdWrite]
      dsimp only
      rw [if_neg hfailed, hm.tcpToDev, length_rest]
      by_cases hnil : t.tcpToDev.drop w.written = []
      · rw [hnil, List.length_nil, if_pos rfl]
        exact ⟨hm.enabled, rfl, hm.banner, hdevstr', hm.devToTcp, rfl, hdevWriter, hm.devReads,
          fun _ => rfl, fun _ h => absurd h Bool.false_ne_true, hm.tnData, hm.breakSet⟩
      · have hne : (t.tcpToDev.drop w.written).length ≠ 0 :=
          fun h => hnil (List.length_eq_zero_iff.1 h)
        rw [if_neg hne, if_neg fun h => hnil (List.isEmpty_iff.1 h)]
        exact ⟨hm.enabled, hm.isOpen, hm.banner, hdevstr', hm.devToTcp, rfl, hdevWriter,
          hm.devReads, hm.tcpReads, fun _ => hm.devWrites hdevstr, hm.tnData, hm.breakSet⟩

/-- What becomes of `tcp_fd_write`. -/
def tcpWriteOf (t : Transfer) (c w : BufferWrite) : TcpWrite :=
  if (t.neg.outTelnetCmd.drop c.written).isEmpty then .wrote w.written else .cmdPending

theorem callback_tcpWrite {w : TcpWrite} (h : p.isOpen = true) :
    callback (cfg.port base) inuse p (.tcpWrite w) = handleTcpFdWrite w p := by
  rw [callback, Action.ready, h]
  rfl

theorem tcpFdWriteRest_matches (hm : Matches cfg t p) {w : BufferWrite}
    (h : (t.tcpFdWriteRest cfg w).life = .running) :
    Matches cfg (t.tcpFdWriteRest cfg w) (handleTcpFdWrite (.wrote w.written) p).port := by
  rw [Transfer.tcpFdWriteRest] at h ⊢
  rw [handleTcpFdWrite, hm.banner]
  cases hbanner : t.banner with
  | some buf =>
    rw [hbanner] at h
    dsimp only [Option.map_some] at h ⊢
    split
    · next hfailed =>
      rw [if_pos hfailed] at h
      exact absurd h (Transfer.shutdownString_life cfg t)
    · next hfailed =>
      rw [← List.length_drop]
      by_cases hnil : buf.drop w.written = []
      · rw [hnil, List.length_nil, if_pos rfl]
        exact ⟨hm.enabled, hm.isOpen, rfl, hm.devstr, hm.devToTcp, hm.tcpToDev, hm.devWriter,
          fun _ => rfl, hm.tcpReads, hm.devWrites, hm.tnData, hm.breakSet⟩
      · rw [if_neg fun h => hnil (List.length_eq_zero_iff.1 h),
          if_neg fun h => hnil (List.isEmpty_iff.1 h)]
        exact ⟨hm.enabled, hm.isOpen, rfl, hm.devstr, hm.devToTcp, hm.tcpToDev, hm.devWriter,
          hm.devReads, hm.tcpReads, hm.devWrites, hm.tnData, hm.breakSet⟩
  | none =>
    rw [hbanner] at h
    dsimp only [Option.map_none] at h ⊢
    split
    · next hfailed =>
      rw [if_pos hfailed] at h
      cases h
    · next hfailed =>
      rw [hm.devToTcp, ← List.length_drop]
      by_cases hnil : t.devToTcp.drop w.written = []
      · rw [hnil, List.length_nil, if_pos rfl]
        exact ⟨hm.enabled, hm.isOpen, rfl, hm.devstr, rfl, hm.tcpToDev, hm.devWriter,
          fun _ => rfl, hm.tcpReads, hm.devWrites, hm.tnData, hm.breakSet⟩
      · rw [if_neg fun h => hnil (List.length_eq_zero_iff.1 h),
          if_neg fun h => hnil (List.isEmpty_iff.1 h)]
        exact ⟨hm.enabled, hm.isOpen, rfl, hm.devstr, rfl, hm.tcpToDev, hm.devWriter,
          hm.devReads, hm.tcpReads, hm.devWrites, hm.tnData, hm.breakSet⟩

theorem dropBanner_matches (hm : Matches cfg t p) : Matches cfg t.dropBanner (bannerDone p) := by
  have hlen := hm.banner
  rw [bannerDone, Transfer.dropBanner]
  rcases hbanner : t.banner with _ | _ | ⟨b, bs⟩
  · rw [hbanner, Option.map_none] at hlen
    rw [hlen, if_neg (Option.some_ne_none 0).symm]
    exact hm
  · rw [hbanner, Option.map_some, List.length_nil] at hlen
    rw [if_pos hlen]
    exact ⟨hm.enabled, hm.isOpen, rfl, hm.devstr, hm.devToTcp, hm.tcpToDev, hm.devWriter,
      hm.devReads, hm.tcpReads, hm.devWrites, hm.tnData, hm.breakSet⟩
  · rw [hbanner, Option.map_some, List.length_cons] at hlen
    rw [hlen, if_neg fun h => Nat.succ_ne_zero _ (Option.some.inj h)]
    exact hm

theorem tcpFdWrite_matches (hm : Matches cfg t p) {c w : BufferWrite}
    (h : (t.tcpFdWrite cfg c w).life = .running) :
    Matches cfg (t.tcpFdWrite cfg c w)
      (callback (cfg.port base) inuse p (.tcpWrite (tcpWriteOf t c w))).port := by
  rw [callback_tcpWrite hm.isOpen, tcpWriteOf]
  rw [Transfer.tcpFdWrite] at h ⊢
  dsimp only at h ⊢
  by_cases hempty : t.neg.outTelnetCmd.isEmpty = true
  · rw [if_pos hempty] at h ⊢
    rw [if_pos (by rw [List.isEmpty_iff.1 hempty, List.drop_nil]; rfl)]
    exact tcpFdWriteRest_matches hm h
  rw [if_neg hempty] at h ⊢
  split
  · next hfailed =>
    rw [if_pos hfailed] at h
    split at h
    · exact absurd h (Transfer.shutdownString_life cfg t)
    · cases h
  next hfailed =>
  rw [if_neg hfailed] at h
  have hm' : Matches cfg { t with
      neg := { t.neg with outTelnetCmd := t.neg.outTelnetCmd.drop c.written }
      toClient := t.toClient ++ Lane.urgent.on (t.neg.outTelnetCmd.take c.written) } p :=
    ⟨hm.enabled, hm.isOpen, hm.banner, hm.devstr, hm.devToTcp, hm.tcpToDev, hm.devWriter,
      hm.devReads, hm.tcpReads, hm.devWrites, hm.tnData, hm.breakSet⟩
  by_cases hrest : (t.neg.outTelnetCmd.drop c.written).isEmpty = true
  · rw [if_pos hrest] at h ⊢
    rw [if_pos hrest]
    exact tcpFdWriteRest_matches hm' h
  · rw [if_neg hrest, if_neg hrest]
    exact dropBanner_matches hm'

/-- Commands for the client do not concern the port. -/
theorem outputReady_matches (hm : Matches cfg t p) (items : List Item) :
    Matches cfg (t.outputReady items) p := by
  rw [Transfer.outputReady]
  split
  · exact hm
  · exact ⟨hm.enabled, hm.isOpen, hm.banner, hm.devstr, hm.devToTcp, hm.tcpToDev, hm.devWriter,
      fun h => absurd h Bool.false_ne_true, hm.tcpReads, hm.devWrites, hm.tnData, hm.breakSet⟩

/-- Neither does a tick. -/
theorem gotTimeout_matches (hm : Matches cfg t p) (lines : Option ModemLines) :
    Matches cfg (t.gotTimeout cfg lines) p := by
  have hneg : ∀ (neg : Negotiator) (left : Int), neg.com = t.neg.com →
      Matches cfg { t with neg := neg, timeoutLeft := left } p := fun neg left h =>
    ⟨hm.enabled, hm.isOpen, hm.banner, hm.devstr, hm.devToTcp, hm.tcpToDev, hm.devWriter,
      hm.devReads, hm.tcpReads, hm.devWrites, hm.tnData, hm.breakSet.trans (h ▸ rfl)⟩
  rw [Transfer.gotTimeout]
  generalize (if cfg.timeout ≠ 0 then t.timeoutLeft - 1 else t.timeoutLeft) = left
  dsimp only
  split
  · exact ⟨hm.enabled, hm.isOpen, hm.banner, hm.devstr, hm.devToTcp, hm.tcpToDev, hm.devWriter,
      hm.devReads, hm.tcpReads, hm.devWrites, hm.tnData, hm.breakSet⟩
  split
  · exact hneg t.neg left rfl
  split
  · rw [Transfer.sendOption]
    split
    · refine outputReady_matches ?_ _
      exact hneg _ left (foldl_send_com _ [_] _)
    · exact hneg _ left (foldl_send_com _ [_] _)
  · exact hneg t.neg left rfl

/-! ### Data from the client -/

theorem writeToDev_matches (hm : Matches cfg t p) {buf : List Byte} {w : WriteResult}
    (h : (t.writeToDev cfg buf w).life = .running) :
    Matches cfg (t.writeToDev cfg buf w) (writeToDev w buf.length p).port := by
  have hisOpen : ∀ q : Port, q.tcpToDevState = .waitingOutputClear → q.isOpen = true := by
    intro q hq
    rw [Port.isOpen, hq]
    rfl
  cases w with
  | failed => cases h
  | again =>
    exact ⟨hm.enabled, hisOpen _ rfl, hm.banner, hm.devstr, hm.devToTcp, rfl, hm.devWriter,
      hm.devReads, fun h => absurd h Bool.false_ne_true, fun _ _ => rfl, hm.tnData, hm.breakSet⟩
  | wrote n =>
    rw [writeToDev, Transfer.writeToDev]
    dsimp only
    by_cases hrest : (buf.drop n).isEmpty = true
    · rw [if_pos hrest, if_neg (not_not.2 ((isEmpty_rest _ n).1 hrest))]
      exact ⟨hm.enabled, hm.isOpen, hm.banner, hm.devstr, hm.devToTcp, length_rest _ n,
        hm.devWriter, hm.devReads, hm.tcpReads, hm.devWrites, hm.tnData, hm.breakSet⟩
    · rw [if_neg hrest, if_pos (fun h => hrest ((isEmpty_rest _ n).2 h))]
      exact ⟨hm.enabled, hisOpen _ rfl, hm.banner, hm.devstr, hm.devToTcp, length_rest _ n,
        hm.devWriter, hm.devReads, fun h => absurd h Bool.false_ne_true, fun _ _ => rfl,
        hm.tnData, hm.breakSet⟩

theorem callback_tcpRead {r : ReadResult} {env : TcpReadEnv}
    (h : p.tcpToDevState = .waitingInput) :
    callback (cfg.port base) inuse p (.tcpRead r env) =
      handleTcpFdRead (cfg.port base) r env p := by
  rw [callback, Action.ready, h]
  rfl

theorem handleTcpFdRead_matches (hm : Matches cfg t p) {table : List TelnetCmd}
    {env : Nat → NegotiatorEnv} {bytes : List Byte} {w : WriteResult}
    (hskeleton : skeleton table = skeleton telnetCmds) (hreader : t.tcpReader = true)
    (hempty : t.tcpToDev = []) (hbytes : bytes ≠ [])
    (h : (t.handleTcpFdRead cfg table env bytes w).life = .running) :
    Matches cfg (t.handleTcpFdRead cfg table env bytes w)
      (callback (cfg.port base) inuse p
        (.tcpRead (.data bytes) ⟨fun i => (env i).com, false, w⟩)).port := by
  obtain ⟨b, bs, rfl⟩ := List.exists_cons_of_ne_nil hbytes
  have hreceived : ∀ (tn : TelnetData) (com : ComPort) (neg : Negotiator),
      com.breakSet = neg.com.breakSet → Matches cfg { t with tnData := tn, neg := neg } { p with
        tcpBytesReceived := p.tcpBytesReceived + BitVec.ofNat 32 (b :: bs).length
        tnData := tn
        com := com } := fun tn com neg h =>
    ⟨hm.enabled, hm.isOpen, hm.banner, hm.devstr, hm.devToTcp, hm.tcpToDev, hm.devWriter,
      hm.devReads, hm.tcpReads, hm.devWrites, rfl, h⟩
  rw [callback_tcpRead (hm.tcpReads hreader), handleTcpFdRead]
  dsimp only
  rw [Transfer.handleTcpFdRead] at h ⊢
  by_cases htelnet : cfg.enabled = .telnet
  · rw [if_pos htelnet] at h ⊢
    rw [if_pos (hm.enabled.trans htelnet)]
    dsimp only at h ⊢
    split
    · next hnone =>
      rw [hnone] at h
      cases h
    next r hr =>
    rw [hr] at h
    dsimp only at h
    split
    · next herror =>
      rw [if_pos herror] at h
      cases h
    next herror =>
    rw [if_neg herror] at h
    have hmaxCmd : (cfg.port base).maxCmd = cfg.maxCmd := rfl
    have hcom : (cfg.port base).com = cfg.negotiator.com := rfl
    have hcalls := (handleTelnetCmds_calls hskeleton hr hm.breakSet).2
    rw [if_neg Bool.false_ne_true, hmaxCmd, hcom, hm.tnData]
    have hready := outputReady_matches
      (hreceived (processTelnetData cfg.maxCmd t.tnData (b :: bs)).td _ r.port hcalls) r.sends
    by_cases hdata : (processTelnetData cfg.maxCmd t.tnData (b :: bs)).data = []
    · -- Nothing has waited for the device.
      rw [if_pos (List.isEmpty_iff.2 hdata), hdata, List.length_nil, if_pos rfl]
      refine ⟨hready.enabled, hready.isOpen, hready.banner, hready.devstr, hready.devToTcp, ?_,
        hready.devWriter, hready.devReads, hready.tcpReads, hready.devWrites, hready.tnData,
        hready.breakSet⟩
      exact hm.tcpToDev.trans (congrArg List.length hempty)
    · have hne : ¬ (processTelnetData cfg.maxCmd t.tnData (b :: bs)).data.isEmpty = true :=
        fun h => hdata (List.isEmpty_iff.1 h)
      rw [if_neg hne] at h ⊢
      rw [if_neg fun h => hdata (List.length_eq_zero_iff.1 h)]
      exact writeToDev_matches hready h
  · rw [if_neg htelnet] at h ⊢
    rw [if_neg fun h => htelnet (hm.enabled.symm.trans h)]
    refine writeToDev_matches ?_ h
    exact ⟨hm.enabled, hm.isOpen, hm.banner, hm.devstr, hm.devToTcp, hm.tcpToDev, hm.devWriter,
      hm.devReads, hm.tcpReads, hm.devWrites, hm.tnData, hm.breakSet⟩

/-! ### Whole connections -/

/-- The table of options a command is handled with has the options and handlers of
`telnet_cmds`. -/
def TransferEvent.Sound : TransferEvent → Prop
  | .tcpRead table _ _ _ => skeleton table = skeleton telnetCmds
  | _ => True

/-- The port after some callbacks. -/
def callbacks (cfg : PortConfig) (inuse : Bool) (p : Port) (as : List Action) : Port :=
  as.foldl (fun p a => (callback cfg inuse p a).port) p

theorem step_running {ev : TransferEvent} (h : (t.step cfg ev).life = .running) :
    t.life = .running := by
  rw [Transfer.step] at h
  split at h
  · next hguard =>
    rw [Bool.and_eq_true, decide_eq_true_eq] at hguard
    exact hguard.1
  · exact h

/-- **A callback of a connection is one of its port**, or it does not concern it. -/
theorem step_matches (hm : Matches cfg t p) (hcalm : t.Calm) {ev : TransferEvent}
    (hsound : ev.Sound) (h : (t.step cfg ev).life = .running) :
    ∃ as, Matches cfg (t.step cfg ev) (callbacks (cfg.port base) inuse p as) := by
  have hlife := step_running h
  rw [Transfer.step, hlife, decide_eq_true rfl, Bool.true_and] at h ⊢
  by_cases hready : ev.ready cfg t = true
  · rw [if_pos hready] at h ⊢
    dsimp only at h ⊢
    have hcallback : (t.callback cfg ev).life = .running := by
      split at h
      · next hrunning => exact hrunning
      · exact h
    rw [if_pos hcallback]
    cases ev with
    | devRead bytes w =>
      simp only [TransferEvent.ready, Bool.and_eq_true, decide_eq_true_eq] at hready
      obtain ⟨⟨⟨hreader, -⟩, hlen⟩, -⟩ := hready
      exact ⟨[.devRead (.data bytes) w],
        handleDevFdRead_matches hm hreader (List.length_pos_iff.1 hlen) hcallback⟩
    | devWrite w => exact ⟨[.devWrite w], devFdWrite_matches hm hready hcallback⟩
    | tcpRead table env bytes w =>
      simp only [TransferEvent.ready, Bool.and_eq_true, decide_eq_true_eq] at hready
      obtain ⟨⟨hreader, hlen⟩, -⟩ := hready
      have hempty : t.tcpToDev = [] := by
        by_contra hne
        rw [(hcalm.tcpToDev hne).1] at hreader
        cases hreader
      exact ⟨[.tcpRead (.data bytes) ⟨fun i => (env i).com, false, w⟩],
        handleTcpFdRead_matches hm hsound hreader hempty (List.length_pos_iff.1 hlen) hcallback⟩
    | tcpWrite c w => exact ⟨[.tcpWrite (tcpWriteOf t c w)], tcpFdWrite_matches hm hcallback⟩
    | timeout lines => exact ⟨[], gotTimeout_matches hm lines⟩
    | close => cases hcallback
  · rw [if_neg hready]
    exact ⟨[], hm⟩

/-- All system calls of an accepted connection succeed. -/
def SetupEnv.Succeeds (env : SetupEnv) : Prop :=
  env.acceptOk && env.keepaliveOk && env.fcntlOk && env.nodelayOk && env.accessOk && env.lockOk &&
    env.openOk && env.tcsetattrOk

/-- A port that is free, its buffers empty. -/
structure Port.Free (p : Port) : Prop where
  unconnected : p.tcpToDevState = .unconnected
  devToTcp : p.devToTcp = 0
  tcpToDev : p.tcpToDev = 0

/-- So it is at first, and after every connection. -/
theorem initPortData_free (state : PortState) : (initPortData state).Free := ⟨rfl, rfl, rfl⟩

theorem finishShutdownPort_free (p : Port) : (finishShutdownPort p).port.Free := ⟨rfl, rfl, rfl⟩

/-- A connection begins as its port does. -/
theorem setup_matches {env : SetupEnv} (henv : env.Succeeds) (hfree : p.Free)
    (henabled : p.enabled = cfg.enabled) (hon : cfg.enabled ≠ .disabled) (n : Negotiator) :
    Matches cfg (Transfer.setup cfg n p.tnData)
      (callback (cfg.port base) false p (.accept env)).port := by
  have hready : (Action.accept env).ready p = true := by
    rw [Action.ready, henabled]
    exact decide_eq_true hon
  have haccept : callback (cfg.port base) false p (.accept env) =
      handleAcceptPortRead (cfg.port base) false env p := by
    rw [callback, hready]
    rfl
  simp only [SetupEnv.Succeeds, Bool.and_eq_true] at henv
  obtain ⟨⟨⟨⟨⟨⟨⟨haccepted, hkeepalive⟩, hfcntl⟩, hnodelay⟩, haccess⟩, hlock⟩, hopen⟩, htc⟩ := henv
  rw [haccept, handleAcceptPortRead, if_neg (not_not.2 hfree.unconnected), haccepted, hkeepalive,
    setupTcpPort, hfcntl, hnodelay, haccess, hlock, hopen, htc]
  simp only [Bool.false_eq_true, Bool.not_true, Bool.and_false, if_false]
  have hbreak : (Transfer.setup cfg n p.tnData).neg.com.breakSet = false := by
    rw [Transfer.setup]
    dsimp only
    split
    · rw [telnetInit]
      dsimp only
      split
      · rfl
      · rfl
    · rfl
  have hopenstr : (cfg.port base).openstr = cfg.openstr.map List.length := rfl
  refine ⟨henabled, rfl, rfl, rfl, hfree.devToTcp, hfree.tcpToDev, ?_, fun _ => rfl, fun _ => rfl,
    ?_, ?_, hbreak.symm⟩
  · rw [hopenstr, Option.isSome_map]
    rfl
  · -- Without an open string nothing is to be written yet.
    intro hnone hwriter
    have hsome : cfg.openstr.isSome = true := hwriter
    rw [show cfg.openstr = none from hnone] at hsome
    cases hsome
  · rw [henabled, Transfer.setup]

/-- **Connections refine ports**: as long as a connection goes on in which neither the banner nor
the open string ends while data waits behind it, its port has gone through callbacks of the
reporter's model, from the accepted client on, and has the lengths of its buffers, its telnet
scanner and its break. -/
theorem transfer_refines {cfg : TransferConfig} (base : PortConfig) {p : Port} {env : SetupEnv}
    (henv : env.Succeeds) (hfree : p.Free) (henabled : p.enabled = cfg.enabled)
    (hon : cfg.enabled ≠ .disabled) (n : Negotiator) {evs : List TransferEvent}
    (hfinishes : Run.EachStep (Transfer.step cfg) (Transfer.Finishes cfg)
      (Transfer.setup cfg n p.tnData) evs)
    (hsound : ∀ ev ∈ evs, ev.Sound) :
    let t := evs.foldl (Transfer.step cfg) (Transfer.setup cfg n p.tnData)
    t.life = .running →
      ∃ as, Matches cfg t (callbacks (cfg.port base) false p (.accept env :: as)) := by
  have hsteps : Run.EachStep (Transfer.step cfg) (fun t ev => t.Finishes cfg ev ∧ ev.Sound)
      (Transfer.setup cfg n p.tnData) evs :=
    Run.eachStep_and.2 ⟨hfinishes, Run.eachStep_events.2 hsound⟩
  have hinv := hsteps.foldl (I := fun t : Transfer => t.Calm ∧ (t.life = .running →
      ∃ as, Matches cfg t (callbacks (cfg.port base) false p (.accept env :: as))))
    ⟨Transfer.setup_calm cfg n p.tnData, fun _ => ⟨[], setup_matches henv hfree henabled hon n⟩⟩ ?_
  · exact hinv.2
  rintro t ev ⟨hcalm, hmatches⟩ ⟨hfinish, hev⟩
  refine ⟨(Transfer.step_calm hcalm ev).2 hfinish, fun hlife => ?_⟩
  obtain ⟨as, hm⟩ := hmatches (step_running hlife)
  obtain ⟨as', hm'⟩ := @step_matches cfg base false _ _ hm hcalm ev hev hlife
  refine ⟨as ++ as', ?_⟩
  rw [callbacks, ← List.cons_append, List.foldl_append]
  exact hm'

/-- A free port in raw mode is connected, and its device has something to say. -/
theorem transfer_refines_raw :
    let cfg : TransferConfig := ⟨.raw, none, none, none, 0, ⟨⟨false, [], 64⟩, false, 64⟩, 64⟩
    let n : Negotiator := ⟨false, 0, ⟨false, 0, 0⟩, [], false⟩
    let t := [.devRead [65, 66] (.wrote 1)].foldl (Transfer.step cfg)
      (Transfer.setup cfg n (initPortData .raw).tnData)
    ∃ p, Matches cfg t p := by
  intro cfg n t
  obtain ⟨as, h⟩ := @transfer_refines cfg
    ⟨"3001".toList, "/dev/ttyS1".toList, false, none, none, none, ⟨false, [], 64⟩, 64⟩
    (initPortData .raw)
    ⟨true, true, true, true, true, true, true, true, 0⟩ rfl (initPortData_free .raw) rfl
    (by decide) n [.devRead [65, 66] (.wrote 1)]
    (Transfer.finishes_of_config _ _ _ (.inl rfl) rfl) (by simp [TransferEvent.Sound]) rfl
  exact ⟨_, h⟩

end SerialServer.Dataxfer
