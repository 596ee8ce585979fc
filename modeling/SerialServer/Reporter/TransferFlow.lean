import SerialServer.Reporter.Transfer

/-!
# SerialServer.Reporter.TransferFlow

The two directions of a connection.

Each direction of a `Transfer` is a `Pump`: towards the client with the banner as preamble and
the telnet commands as what is urgent, towards the device with the open string as preamble.
`Transfer.step_moves` says what a callback does to the first and `Transfer.step_inbound` what
it does to the second.

In telnet mode nothing is read from the device before the banner is out, because the initial
telnet commands have turned the reader off. In raw mode it is, and the end of the banner turns
the reader on and the writer off, whatever waits behind it; the open string does the same in
the other direction, in every mode. `transfer_calm_iff` says that these are the only cases in
which a connection loses data, and `transfer_whole` that it loses none otherwise.
-/

namespace SerialServer.Dataxfer

open Escape (double)

variable {cfg : TransferConfig}

/-- The bytes of the device as they are written to the client. -/
def TransferConfig.wire (cfg : TransferConfig) (bytes : List Byte) : List Byte :=
  if cfg.enabled = .telnet then double TN_IAC bytes else bytes

theorem TransferConfig.wire_append (cfg : TransferConfig) (xs ys : List Byte) :
    cfg.wire (xs ++ ys) = cfg.wire xs ++ cfg.wire ys := by
  rw [wire, wire, wire]
  split
  · exact Escape.double_append ..
  · rfl

namespace Transfer

/-- The direction from the device to the client. -/
def outbound (cfg : TransferConfig) (t : Transfer) : Pump Byte where
  preamble := t.banner
  urgent := t.neg.outTelnetCmd
  pending := t.devToTcp
  reader := t.devReader
  writer := t.tcpWriter
  sent := t.toClient
  taken := cfg.wire t.fromDev
  requested := encodeItems t.issued

/-- The direction from the client to the device. -/
def inbound (t : Transfer) : Pump Byte where
  preamble := t.devstr
  urgent := []
  pending := t.tcpToDev
  reader := t.tcpReader
  writer := t.devWriter
  sent := t.toDev
  taken := t.fromClient
  requested := []

/-! ### Parts of callbacks -/

/-- A callback that looks at a banner or an open string after `shutdown_port` is the last one. -/
theorem shutdownString_eq (cfg : TransferConfig) (t : Transfer) :
    ∃ life, life ≠ .running ∧ t.shutdownString cfg = { t with life := life } := by
  rw [shutdownString]
  split
  · exact ⟨.closed, by decide, rfl⟩
  · exact ⟨.crashed, by decide, rfl⟩

theorem shutdownString_life (cfg : TransferConfig) (t : Transfer) :
    (t.shutdownString cfg).life ≠ .running := by
  obtain ⟨life, hlife, heq⟩ := shutdownString_eq cfg t
  rw [heq]
  exact hlife

/-- Freeing an empty banner changes nothing else. -/
theorem dropBanner_eq (t : Transfer) : t.dropBanner = { t with banner := t.dropBanner.banner } := by
  rw [dropBanner]
  split
  · rfl
  · rfl

theorem dropBanner_outbound (cfg : TransferConfig) (t : Transfer) :
    t.dropBanner.outbound cfg = (t.outbound cfg).dropEmpty := by
  have hpre : (t.outbound cfg).preamble = t.banner := rfl
  rw [dropBanner, Pump.dropEmpty, hpre]
  rcases t.banner with _ | _ | ⟨b, bs⟩
  · rfl
  · rfl
  · rfl

/-! ### What a callback does -/

/-- What a callback can do to the direction to the client. -/
inductive Moves (cfg : TransferConfig) (t t' : Transfer) : Prop
  | stay (out : t'.outbound cfg = t.outbound cfg) (dev : t'.fromDev = t.fromDev)
      (issued : t'.issued = t.issued)
  | take (bytes : List Byte) (n : Nat)
      (out : t'.outbound cfg = (t.outbound cfg).step (.take (cfg.wire bytes) n))
      (reader : t.devReader = true) (dev : t'.fromDev = t.fromDev ++ bytes)
      (issued : t'.issued = t.issued)
  | request (items : List Item)
      (out : t'.outbound cfg = (t.outbound cfg).step (.request (encodeItems items)))
      (some : items ≠ []) (answers : ∀ item ∈ items, item.Answer cfg.negotiator.replySize)
      (dev : t'.fromDev = t.fromDev) (issued : t'.issued = t.issued ++ items)
  | flush (k n : Nat) (out : t'.outbound cfg = (t.outbound cfg).step (.flush k n))
      (writer : t.tcpWriter = true) (dev : t'.fromDev = t.fromDev)
      (issued : t'.issued = t.issued)

theorem Moves.steps {t t' : Transfer} (h : Moves cfg t t') :
    Pump.Steps (t.outbound cfg) (t'.outbound cfg) := by
  cases h with
  | stay out _ _ => exact .inl out
  | take _ _ out _ _ _ => exact .inr ⟨_, out⟩
  | request _ out _ _ _ _ => exact .inr ⟨_, out⟩
  | flush _ _ out _ _ _ => exact .inr ⟨_, out⟩

/-- What has nothing to do with the client does not matter. -/
theorem Moves.congr {t t' t'' : Transfer} (h : Moves cfg t t')
    (hout : t''.outbound cfg = t'.outbound cfg) (hdev : t''.fromDev = t'.fromDev)
    (hissued : t''.issued = t'.issued) : Moves cfg t t'' := by
  cases h with
  | stay out dev issued => exact .stay (hout.trans out) (hdev.trans dev) (hissued.trans issued)
  | take bytes n out reader dev issued =>
    exact .take bytes n (hout.trans out) reader (hdev.trans dev) (hissued.trans issued)
  | request items out some answers dev issued =>
    exact .request items (hout.trans out) some answers (hdev.trans dev) (hissued.trans issued)
  | flush k n out writer dev issued =>
    exact .flush k n (hout.trans out) writer (hdev.trans dev) (hissued.trans issued)

theorem wire_ne_nil {bytes : List Byte} (hbytes : bytes ≠ []) : cfg.wire bytes ≠ [] := by
  rw [TransferConfig.wire]
  split
  · intro hnil
    have hlen := Escape.length_double TN_IAC bytes
    rw [hnil, List.length_nil] at hlen
    exact hbytes (List.length_eq_zero_iff.1 (by omega))
  · exact hbytes

theorem handleDevFdRead_moves {t : Transfer} {bytes : List Byte} {w : WriteResult}
    (hreader : t.devReader = true) (hbytes : bytes ≠ [])
    (h : (t.handleDevFdRead cfg bytes w).life = .running) :
    Moves cfg t (t.handleDevFdRead cfg bytes w) := by
  have htake : ∀ n, (t.outbound cfg).step (.take (cfg.wire bytes) n) =
      (t.outbound cfg).take (cfg.wire bytes) n := fun n => if_pos hreader
  have hwire : (if cfg.enabled = .telnet then double TN_IAC bytes else bytes) = cfg.wire bytes :=
    rfl
  cases w with
  | failed => cases h
  | again =>
    refine .take bytes 0 ?_ hreader rfl rfl
    have hrest : ¬ ((cfg.wire bytes).drop 0).isEmpty = true := by
      rw [List.drop_zero, List.isEmpty_iff]
      exact wire_ne_nil hbytes
    rw [htake, Pump.take, handleDevFdRead, hwire]
    dsimp only
    rw [if_neg hrest, outbound, outbound, resetTimer, TransferConfig.wire_append, List.take_zero,
      Lane.on, List.map_nil, List.append_nil, List.drop_zero]
  | wrote n =>
    rw [handleDevFdRead, hwire]
    dsimp only
    split
    · next hrest =>
      refine .take bytes n ?_ hreader rfl rfl
      rw [htake, Pump.take]
      dsimp only
      rw [if_pos hrest, outbound, outbound, resetTimer, TransferConfig.wire_append]
    · next hrest =>
      refine .take bytes n ?_ hreader rfl rfl
      rw [htake, Pump.take]
      dsimp only
      rw [if_neg hrest, outbound, outbound, resetTimer, TransferConfig.wire_append]

/-- Writing to the device leaves the direction to the client alone. -/
theorem writeToDev_moves {t t' : Transfer} (h : Moves cfg t t') (buf : List Byte)
    (w : WriteResult) : Moves cfg t (t'.writeToDev cfg buf w) := by
  cases w with
  | failed => exact h.congr rfl rfl rfl
  | again => exact h.congr rfl rfl rfl
  | wrote n =>
    rw [writeToDev]
    dsimp only
    split
    · exact h.congr rfl rfl rfl
    · exact h.congr rfl rfl rfl

/-- Commands have been put into `out_telnet_cmd`. -/
theorem outputReady_moves {t t' : Transfer} {items : List Item}
    (hout : t'.outbound cfg =
      { t.outbound cfg with urgent := t.neg.outTelnetCmd ++ encodeItems items })
    (hdev : t'.fromDev = t.fromDev) (hissued : t'.issued = t.issued)
    (hanswers : ∀ item ∈ items, item.Answer cfg.negotiator.replySize) :
    Moves cfg t (t'.outputReady items) := by
  cases items with
  | nil =>
    refine .stay (hout.trans ?_) hdev hissued
    rw [encodeItems, List.flatMap_nil, List.append_nil]
    rfl
  | cons item items =>
    have hready : t'.outputReady (item :: items) =
        { t' with issued := t'.issued ++ (item :: items), devReader := false, tcpWriter := true } :=
      rfl
    have hgoal : (t'.outputReady (item :: items)).outbound cfg =
        { t'.outbound cfg with
          requested := encodeItems (t'.issued ++ (item :: items))
          reader := false
          writer := true } := rfl
    refine .request (item :: items) ?_ (List.cons_ne_nil item items) hanswers ?_ ?_
    · rw [hgoal, hout, hissued, encode_append]
      rfl
    · rw [hready, hdev]
    · rw [hready, hissued]

theorem handleTcpFdRead_moves {t : Transfer} {table : List TelnetCmd} {env : Nat → NegotiatorEnv}
    {bytes : List Byte} {w : WriteResult}
    (h : (t.handleTcpFdRead cfg table env bytes w).life = .running) :
    Moves cfg t (t.handleTcpFdRead cfg table env bytes w) := by
  rw [handleTcpFdRead] at h ⊢
  split
  · next htelnet =>
    rw [if_pos htelnet] at h
    dsimp only at h ⊢
    split
    · next hnone =>
      rw [hnone] at h
      cases h
    · next r hr =>
      rw [hr] at h
      dsimp only at h
      split
      · next herror =>
        rw [if_pos herror] at h
        cases h
      · next herror =>
        obtain ⟨hanswers, hout⟩ := handleTelnetCmds_sends hr
        obtain ⟨hout, -⟩ := hout (by simpa using herror)
        have hmoves : Moves cfg t ({ t with
            tnData := (processTelnetData cfg.maxCmd t.tnData bytes).td
            neg := r.port }.outputReady r.sends) := by
          refine outputReady_moves ?_ rfl rfl hanswers
          rw [outbound, hout]
          rfl
        split
        · exact hmoves.congr rfl rfl rfl
        · exact writeToDev_moves hmoves ..
  · exact writeToDev_moves (.stay rfl rfl rfl) ..

theorem sendOption_moves {t t' : Transfer} {modemstate : Byte}
    (hout : t'.outbound cfg = t.outbound cfg) (hneg : t'.neg.outTelnetCmd = t.neg.outTelnetCmd)
    (hdev : t'.fromDev = t.fromDev) (hissued : t'.issued = t.issued) :
    Moves cfg t (t'.sendOption cfg.negotiator.cmdbufSize (notifyModemstate modemstate)) := by
  have hanswer : (notifyModemstate modemstate).Answer cfg.negotiator.replySize :=
    ⟨rfl, Nat.le_trans (by decide +revert) (Nat.le_max_left ..)⟩
  rw [sendOption]
  split
  · next hroom =>
    refine outputReady_moves ?_ hdev hissued (List.forall_mem_singleton.2 hanswer)
    rw [Negotiator.send, if_pos hroom, ← hout, encodeItems, List.flatMap_singleton, ← hneg]
    rfl
  · next hroom =>
    rw [Negotiator.send, if_neg hroom]
    exact .stay hout hdev hissued

theorem gotTimeout_moves (t : Transfer) (lines : Option ModemLines) :
    Moves cfg t (t.gotTimeout cfg lines) := by
  rw [gotTimeout]
  generalize (if cfg.timeout ≠ 0 then t.timeoutLeft - 1 else t.timeoutLeft) = left
  dsimp only
  split
  · exact .stay rfl rfl rfl
  split
  · exact .stay rfl rfl rfl
  split
  · exact sendOption_moves rfl rfl rfl rfl
  · exact .stay rfl rfl rfl

theorem tcpFdWriteRest_outbound {t : Transfer} {w : BufferWrite}
    (h : (t.tcpFdWriteRest cfg w).life = .running) :
    (t.tcpFdWriteRest cfg w).outbound cfg = (t.outbound cfg).flushRest w.written ∧
      (t.tcpFdWriteRest cfg w).fromDev = t.fromDev ∧
      (t.tcpFdWriteRest cfg w).issued = t.issued := by
  have hpre : (t.outbound cfg).preamble = t.banner := rfl
  rw [tcpFdWriteRest] at h ⊢
  rw [Pump.flushRest, hpre]
  cases hbanner : t.banner with
  | some buf =>
    rw [hbanner] at h
    dsimp only at h ⊢
    split
    · next hfailed =>
      rw [if_pos hfailed] at h
      exact absurd h (shutdownString_life cfg t)
    · split
      · exact ⟨rfl, rfl, rfl⟩
      · exact ⟨rfl, rfl, rfl⟩
  | none =>
    rw [hbanner] at h
    dsimp only at h ⊢
    split
    · next hfailed =>
      rw [if_pos hfailed] at h
      cases h
    · split
      · next hrest =>
        rw [if_pos (by exact hrest)]
        exact ⟨rfl, rfl, rfl⟩
      · next hrest =>
        rw [if_neg (by exact hrest)]
        exact ⟨rfl, rfl, rfl⟩

theorem tcpFdWrite_moves {t : Transfer} {c w : BufferWrite} (hwriter : t.tcpWriter = true)
    (h : (t.tcpFdWrite cfg c w).life = .running) : Moves cfg t (t.tcpFdWrite cfg c w) := by
  have hflush : (t.outbound cfg).step (.flush c.written w.written) =
      (t.outbound cfg).flush c.written w.written := if_pos hwriter
  rw [tcpFdWrite] at h ⊢
  dsimp only at h ⊢
  split
  · next hempty =>
    rw [if_pos hempty] at h
    have hnil : (t.outbound cfg).urgent = [] := List.isEmpty_iff.1 hempty
    obtain ⟨hout, hdev, hissued⟩ := tcpFdWriteRest_outbound h
    refine .flush c.written w.written ?_ hwriter hdev hissued
    rw [hout, hflush, Pump.flush, Pump.flushUrgent_nil hnil, hnil]
    rfl
  · next hempty =>
    rw [if_neg hempty] at h
    split
    · next hfailed =>
      rw [if_pos hfailed] at h
      split
      · next hbanner =>
        rw [if_pos hbanner] at h
        exact absurd h (shutdownString_life cfg t)
      · exact .stay rfl rfl rfl
    · next hfailed =>
      rw [if_neg hfailed] at h
      -- The commands are written, as far as it goes.
      have hurgent : outbound cfg { t with
          neg := { t.neg with outTelnetCmd := t.neg.outTelnetCmd.drop c.written }
          toClient := t.toClient ++ Lane.urgent.on (t.neg.outTelnetCmd.take c.written) } =
            (t.outbound cfg).flushUrgent c.written := rfl
      split
      · next hrest =>
        rw [if_pos hrest] at h
        obtain ⟨hout, hdev, hissued⟩ := tcpFdWriteRest_outbound h
        refine .flush c.written w.written ?_ hwriter hdev hissued
        rw [hout, hurgent, hflush, Pump.flush]
        exact (if_pos hrest).symm
      · next hrest =>
        have hdrop := dropBanner_eq { t with
          neg := { t.neg with outTelnetCmd := t.neg.outTelnetCmd.drop c.written }
          toClient := t.toClient ++ Lane.urgent.on (t.neg.outTelnetCmd.take c.written) }
        refine .flush c.written w.written ?_ hwriter (by rw [hdrop]) (by rw [hdrop])
        rw [dropBanner_outbound, hurgent, hflush, Pump.flush]
        exact (if_neg hrest).symm

theorem devFdWrite_moves (t : Transfer) (w : BufferWrite) : Moves cfg t (t.devFdWrite cfg w) := by
  rw [devFdWrite]
  split
  · split
    · obtain ⟨life, -, heq⟩ := shutdownString_eq cfg t
      rw [heq]
      exact .stay rfl rfl rfl
    · dsimp only
      split
      · exact .stay rfl rfl rfl
      · exact .stay rfl rfl rfl
  · split
    · exact .stay rfl rfl rfl
    · dsimp only
      split
      · exact .stay rfl rfl rfl
      · exact .stay rfl rfl rfl

/-- **What a callback does to the direction to the client.** -/
theorem step_moves (cfg : TransferConfig) (t : Transfer) (ev : TransferEvent) :
    Moves cfg t (t.step cfg ev) := by
  rw [step]
  split
  · next hready =>
    obtain ⟨-, hready⟩ := Bool.and_eq_true_iff.1 hready
    dsimp only
    split
    · next hlife =>
      cases ev with
      | devRead bytes w =>
        simp only [TransferEvent.ready, Bool.and_eq_true, decide_eq_true_eq] at hready
        obtain ⟨⟨⟨hreader, -⟩, hlen⟩, -⟩ := hready
        exact handleDevFdRead_moves hreader (List.length_pos_iff.1 hlen) hlife
      | devWrite w => exact devFdWrite_moves t w
      | tcpRead table env bytes w => exact handleTcpFdRead_moves hlife
      | tcpWrite c w => exact tcpFdWrite_moves hready hlife
      | timeout lines => exact gotTimeout_moves t lines
      | close => cases hlife
    · exact .stay rfl rfl rfl
  · exact .stay rfl rfl rfl

theorem step_outbound (cfg : TransferConfig) (t : Transfer) (ev : TransferEvent) :
    Pump.Steps (t.outbound cfg) ((t.step cfg ev).outbound cfg) := (step_moves cfg t ev).steps

/-! ### The other direction -/

theorem handleDevFdRead_inbound (t : Transfer) (bytes : List Byte) (w : WriteResult) :
    (t.handleDevFdRead cfg bytes w).inbound = t.inbound := by
  cases w with
  | failed => rfl
  | again => rfl
  | wrote n =>
    rw [handleDevFdRead]
    generalize (if cfg.enabled = .telnet then double TN_IAC bytes else bytes) = buf
    dsimp only
    split
    · rfl
    · rfl

theorem tcpFdWriteRest_inbound (t : Transfer) (w : BufferWrite) :
    (t.tcpFdWriteRest cfg w).inbound = t.inbound := by
  rw [tcpFdWriteRest]
  split
  · split
    · obtain ⟨life, -, heq⟩ := shutdownString_eq cfg t
      rw [heq]
      rfl
    · dsimp only
      split
      · rfl
      · rfl
  · split
    · rfl
    · dsimp only
      split
      · rfl
      · rfl

theorem tcpFdWrite_inbound (t : Transfer) (c w : BufferWrite) :
    (t.tcpFdWrite cfg c w).inbound = t.inbound := by
  rw [tcpFdWrite]
  dsimp only
  split
  · exact tcpFdWriteRest_inbound ..
  split
  · split
    · obtain ⟨life, -, heq⟩ := shutdownString_eq cfg t
      rw [heq]
      rfl
    · rfl
  split
  · exact tcpFdWriteRest_inbound ..
  · rw [dropBanner_eq]
    rfl

theorem gotTimeout_inbound (t : Transfer) (lines : Option ModemLines) :
    (t.gotTimeout cfg lines).inbound = t.inbound := by
  rw [gotTimeout]
  generalize (if cfg.timeout ≠ 0 then t.timeoutLeft - 1 else t.timeoutLeft) = left
  dsimp only
  split
  · rfl
  split
  · rfl
  split
  · rw [sendOption]
    split
    · rfl
    · rfl
  · rfl

theorem devFdWrite_inbound {t : Transfer} {w : BufferWrite} (hwriter : t.devWriter = true)
    (h : (t.devFdWrite cfg w).life = .running) :
    (t.devFdWrite cfg w).inbound = t.inbound.step (.flush 0 w.written) := by
  have hpre : t.inbound.preamble = t.devstr := rfl
  have hurgent : t.inbound.flushUrgent 0 = t.inbound := Pump.flushUrgent_nil rfl 0
  have hflush : t.inbound.step (.flush 0 w.written) = t.inbound.flushRest w.written := by
    rw [Pump.step, if_pos (by exact hwriter), Pump.flush, hurgent]
    rfl
  rw [hflush, Pump.flushRest, hpre]
  rw [devFdWrite] at h ⊢
  cases hdevstr : t.devstr with
  | some buf =>
    rw [hdevstr] at h
    dsimp only at h ⊢
    split
    · next hfailed =>
      rw [if_pos hfailed] at h
      exact absurd h (shutdownString_life cfg t)
    · split
      · rfl
      · rfl
  | none =>
    rw [hdevstr] at h
    dsimp only at h ⊢
    split
    · next hfailed =>
      rw [if_pos hfailed] at h
      cases h
    · split
      · next hrest =>
        rw [if_pos (by exact hrest)]
        rfl
      · next hrest =>
        rw [if_neg (by exact hrest)]
        rfl

theorem writeToDev_inbound {t t' : Transfer} {buf : List Byte} {w : WriteResult}
    (ht : t'.inbound = t.inbound) (hreader : t.tcpReader = true) (hbuf : buf ≠ [])
    (h : (t'.writeToDev cfg buf w).life = .running) :
    ∃ n, (t'.writeToDev cfg buf w).inbound = t.inbound.step (.take buf n) := by
  have htake : ∀ n, t.inbound.step (.take buf n) = t'.inbound.take buf n := by
    intro n
    rw [ht]
    exact if_pos hreader
  cases w with
  | failed => cases h
  | again =>
    refine ⟨0, ?_⟩
    rw [htake, Pump.take]
    dsimp only
    rw [if_neg (by rwa [List.drop_zero, List.isEmpty_iff]), List.take_zero, Lane.on, List.map_nil,
      List.append_nil, List.drop_zero]
    rfl
  | wrote n =>
    refine ⟨n, ?_⟩
    rw [htake, Pump.take, writeToDev]
    dsimp only
    split
    · rfl
    · rfl

theorem handleTcpFdRead_inbound {t : Transfer} {table : List TelnetCmd}
    {env : Nat → NegotiatorEnv} {bytes : List Byte} {w : WriteResult}
    (hreader : t.tcpReader = true) (hbytes : bytes ≠ [])
    (h : (t.handleTcpFdRead cfg table env bytes w).life = .running) :
    ∃ xs n, (t.handleTcpFdRead cfg table env bytes w).inbound = t.inbound.step (.take xs n) := by
  rw [handleTcpFdRead] at h ⊢
  split
  · next htelnet =>
    rw [if_pos htelnet] at h
    dsimp only at h ⊢
    split
    · next hnone =>
      rw [hnone] at h
      cases h
    · next r hr =>
      rw [hr] at h
      dsimp only at h
      split
      · next herror =>
        rw [if_pos herror] at h
        cases h
      · next herror =>
        rw [if_neg herror] at h
        have hready : ∀ items, inbound ({ t with
            tnData := (processTelnetData cfg.maxCmd t.tnData bytes).td
            neg := r.port }.outputReady items) = t.inbound := by
          intro items
          rw [outputReady]
          split
          · rfl
          · rfl
        split
        · -- Commands alone: the buffer for the device is emptied.
          refine ⟨[], 0, ?_⟩
          have htake : t.inbound.step (.take [] 0) = t.inbound.take [] 0 := if_pos hreader
          have hnil : t.inbound.take [] 0 = { t.inbound with pending := [] } := by
            rw [Pump.take]
            simp [Lane.on]
          rw [htake, hnil, ← hready r.sends]
          rfl
        · next hdata =>
          rw [if_neg hdata] at h
          obtain ⟨n, hn⟩ := writeToDev_inbound (hready r.sends) hreader
            (fun hnil => hdata (List.isEmpty_iff.2 hnil)) h
          exact ⟨_, n, hn⟩
  · next hraw =>
    rw [if_neg hraw] at h
    obtain ⟨n, hn⟩ := writeToDev_inbound rfl hreader hbytes h
    exact ⟨bytes, n, hn⟩

/-- **What a callback does to the direction to the device.** -/
theorem step_inbound (cfg : TransferConfig) (t : Transfer) (ev : TransferEvent) :
    Pump.Steps t.inbound (t.step cfg ev).inbound := by
  rw [step]
  split
  · next hready =>
    obtain ⟨-, hready⟩ := Bool.and_eq_true_iff.1 hready
    dsimp only
    split
    · next hlife =>
      cases ev with
      | devRead bytes w => exact .inl (handleDevFdRead_inbound t bytes w)
      | devWrite w => exact .inr ⟨_, devFdWrite_inbound hready hlife⟩
      | tcpRead table env bytes w =>
        simp only [TransferEvent.ready, Bool.and_eq_true, decide_eq_true_eq] at hready
        obtain ⟨⟨hreader, hlen⟩, -⟩ := hready
        obtain ⟨xs, n, hstep⟩ := handleTcpFdRead_inbound hreader (List.length_pos_iff.1 hlen) hlife
        exact .inr ⟨_, hstep⟩
      | tcpWrite c w => exact .inl (tcpFdWrite_inbound t c w)
      | timeout lines => exact .inl (gotTimeout_inbound t lines)
      | close => cases hlife
    · exact .inl rfl
  · exact .inl rfl

/-! ### Whole connections -/

/-- While data waits for one end, the other one is not read, and the end it waits for is watched
for room. -/
structure Calm (t : Transfer) : Prop where
  devToTcp : t.devToTcp ≠ [] → t.devReader = false ∧ t.tcpWriter = true
  tcpToDev : t.tcpToDev ≠ [] → t.tcpReader = false ∧ t.devWriter = true

/-- The callback does not write the end of the banner, or of the open string, while data waits
for the same end. An empty banner that goes while telnet commands are left is not written. -/
structure Finishes (cfg : TransferConfig) (t : Transfer) (ev : TransferEvent) : Prop where
  banner : t.banner ≠ none → (t.step cfg ev).banner = none →
    (t.step cfg ev).neg.outTelnetCmd = [] → t.devToTcp = []
  devstr : t.devstr ≠ none → (t.step cfg ev).devstr = none → t.tcpToDev = []

theorem calm_iff_pumps {t : Transfer} : t.Calm ↔ (t.outbound cfg).Calm ∧ t.inbound.Calm :=
  ⟨fun h => ⟨h.devToTcp, h.tcpToDev⟩, fun h => ⟨h.1, h.2⟩⟩

theorem finishes_iff_pumps {t : Transfer} {ev : TransferEvent} : t.Finishes cfg ev ↔
    ¬ (t.outbound cfg).FinishesEarly ((t.step cfg ev).outbound cfg) ∧
      ¬ t.inbound.FinishesEarly (t.step cfg ev).inbound := by
  constructor
  · intro h
    exact ⟨fun hout => hout.2.2.2 (h.banner hout.1 hout.2.1 hout.2.2.1),
      fun hin => hin.2.2.2 (h.devstr hin.1 hin.2.1)⟩
  · rintro ⟨hout, hin⟩
    constructor
    · intro hsome hnone hsent
      by_contra hdata
      exact hout ⟨hsome, hnone, hsent, hdata⟩
    · intro hsome hnone
      by_contra hdata
      exact hin ⟨hsome, hnone, rfl, hdata⟩

theorem step_calm {t : Transfer} (h : t.Calm) (ev : TransferEvent) :
    (t.step cfg ev).Calm ↔ t.Finishes cfg ev := by
  obtain ⟨hout, hin⟩ := (@calm_iff_pumps cfg t).1 h
  rw [@calm_iff_pumps cfg, finishes_iff_pumps]
  exact and_congr ((step_outbound cfg t ev).calm hout) ((step_inbound cfg t ev).calm hin)

theorem setup_calm (cfg : TransferConfig) (n : Negotiator) (td : TelnetData) :
    (setup cfg n td).Calm :=
  ⟨fun h => absurd rfl h, fun h => absurd rfl h⟩

/-- A connection in telnet mode begins with `telnet_init_seq`, for which the reader of the
device is turned off. -/
structure Negotiates (t : Transfer) : Prop where
  reader : t.devReader = false
  writer : t.tcpWriter = true
  out : t.neg.outTelnetCmd = encodeItems telnetInitSeq
  issued : t.issued = telnetInitSeq

theorem setup_telnet (htelnet : cfg.enabled = .telnet)
    (hroom : (encodeItems telnetInitSeq).length ≤ cfg.negotiator.cmdbufSize) (n : Negotiator)
    (td : TelnetData) : (setup cfg n td).Negotiates := by
  have hinit : telnetInit cfg.negotiator.cmdbufSize n = { n with
      is2217 := false
      com := { n.com with breakSet := false }
      outTelnetCmd := encodeItems telnetInitSeq
      error := false } := by
    rw [telnetInit]
    dsimp only
    rw [if_pos hroom]
  rw [setup, decide_eq_true htelnet, if_pos htelnet, hinit]
  exact ⟨rfl, rfl, rfl, rfl⟩

/-- Where everything is that has come in: sent, or waiting. -/
structure Delivers (cfg : TransferConfig) (t : Transfer) : Prop where
  fromDev : lane .data t.toClient ++ t.devToTcp = cfg.wire t.fromDev
  fromClient : lane .data t.toDev ++ t.tcpToDev = t.fromClient

/-- So it is with what the program sends itself. -/
structure Announces (cfg : TransferConfig) (t : Transfer) : Prop where
  banner : lane .preamble t.toClient ++ t.banner.getD [] = cfg.banner.getD []
  openstr : lane .preamble t.toDev ++ t.devstr.getD [] = cfg.openstr.getD []
  commands : lane .urgent t.toClient ++ t.neg.outTelnetCmd = encodeItems t.issued

theorem setup_delivers (cfg : TransferConfig) (n : Negotiator) (td : TelnetData) :
    (setup cfg n td).Delivers cfg := by
  refine ⟨?_, rfl⟩
  change [] = cfg.wire []
  rw [TransferConfig.wire]
  split
  · rfl
  · rfl

theorem setup_announces (cfg : TransferConfig) (n : Negotiator) (td : TelnetData) :
    (setup cfg n td).Announces cfg := by
  refine ⟨rfl, rfl, ?_⟩
  have hsent : lane .urgent (setup cfg n td).toClient = [] := rfl
  rw [hsent, List.nil_append, setup]
  dsimp only
  by_cases htelnet : cfg.enabled = .telnet
  · rw [decide_eq_true htelnet, if_pos htelnet, telnetInit]
    dsimp only
    split
    · rfl
    · rfl
  · rw [decide_eq_false htelnet, if_neg htelnet]
    rfl

theorem step_delivers {t : Transfer} (hcalm : t.Calm) (h : t.Delivers cfg) (ev : TransferEvent) :
    (t.step cfg ev).Delivers cfg :=
  ⟨(step_outbound cfg t ev).whole hcalm.devToTcp h.fromDev,
    (step_inbound cfg t ev).whole hcalm.tcpToDev h.fromClient⟩

theorem step_announces {t : Transfer} (h : t.Announces cfg) (ev : TransferEvent) :
    (t.step cfg ev).Announces cfg :=
  ⟨(step_outbound cfg t ev).keeps.preamble.trans h.banner,
    (step_inbound cfg t ev).keeps.preamble.trans h.openstr,
    (step_outbound cfg t ev).keeps.urgent h.commands⟩

/-- Neither string ends too early without an open string, and without a banner or in telnet
mode. -/
theorem finishes_of_config (n : Negotiator) (td : TelnetData) (evs : List TransferEvent)
    (hbanner : cfg.banner = none ∨
      cfg.enabled = .telnet ∧ (encodeItems telnetInitSeq).length ≤ cfg.negotiator.cmdbufSize)
    (hopenstr : cfg.openstr = none) :
    Run.EachStep (step cfg) (Finishes cfg) (setup cfg n td) evs := by
  have hheld : Run.Always (step cfg) (fun t => (t.outbound cfg).Held ∧ t.inbound.Held)
      (setup cfg n td) evs := by
    refine Run.Always.of_invariant (I := fun t => (t.outbound cfg).Held ∧ t.inbound.Held)
      (C := fun _ _ => True) ⟨?_, fun h => absurd hopenstr h⟩ ?_ (fun _ h => h)
      (Run.EachStep.of_forall fun _ _ => trivial)
    · intro hsome
      rcases hbanner with hnone | ⟨htelnet, hroom⟩
      · exact absurd hnone hsome
      · exact ⟨(setup_telnet htelnet hroom n td).reader, rfl⟩
    · rintro t ev ⟨hout, hin⟩ -
      exact ⟨(step_outbound cfg t ev).held hout, (step_inbound cfg t ev).held hin⟩
  refine hheld.eachStep (I := fun _ => True) trivial (fun _ _ _ => trivial) ?_
  rintro t ev - ⟨hout, hin⟩ -
  exact finishes_iff_pumps.2 ⟨hout.not_finishesEarly _, hin.not_finishesEarly _⟩

/-- **When a connection keeps the two sides in step**: exactly as long as neither the banner nor
the open string ends while data waits behind it. -/
theorem transfer_calm_iff (cfg : TransferConfig) (n : Negotiator) (td : TelnetData)
    (evs : List TransferEvent) :
    Run.Always (step cfg) Calm (setup cfg n td) evs ↔
      Run.EachStep (step cfg) (Finishes cfg) (setup cfg n td) evs := by
  have h := @Run.always_iff_eachStep _ _ (step cfg) Calm (fun _ => True) (Finishes cfg)
    (setup cfg n td) evs trivial (fun _ _ _ => trivial) fun _ ev _ ht => step_calm ht ev
  rw [h]
  exact and_iff_right (setup_calm cfg n td)

/-- **Then it loses nothing**: in either direction, what has been sent and what waits are
together all that has come in, and so it is with the banner, the open string and the telnet
commands. -/
theorem transfer_delivers {cfg : TransferConfig} {n : Negotiator} {td : TelnetData}
    {evs : List TransferEvent}
    (h : Run.EachStep (step cfg) (Finishes cfg) (setup cfg n td) evs) :
    Run.Always (step cfg) (fun t => t.Delivers cfg ∧ t.Announces cfg) (setup cfg n td) evs := by
  refine Run.Always.of_invariant (I := fun t => t.Calm ∧ t.Delivers cfg ∧ t.Announces cfg)
    ⟨setup_calm cfg n td, setup_delivers cfg n td, setup_announces cfg n td⟩ ?_ (fun _ h => h.2) h
  rintro t ev ⟨hcalm, hdelivers, hannounces⟩ hfinishes
  exact ⟨(step_calm hcalm ev).2 hfinishes, step_delivers hcalm hdelivers ev,
    step_announces hannounces ev⟩

/-- A port in telnet mode with a banner of two bytes reads two bytes, of which the second is an IAC.
The client takes them in two parts. -/
theorem transfer_delivers_iac :
    let cfg : TransferConfig :=
      ⟨.telnet, some [72, 105], none, none, 0, ⟨⟨false, [], 64⟩, false, 64⟩, 64⟩
    let n : Negotiator := ⟨false, 0, ⟨false, 0, 0⟩, [], false⟩
    let evs : List TransferEvent := [.tcpWrite ⟨12, false⟩ ⟨2, false⟩, .devRead [65, 255] (.wrote 2),
      .tcpWrite ⟨0, false⟩ ⟨1, false⟩]
    let t := evs.foldl (step cfg) (setup cfg n ⟨[], false⟩)
    lane .data t.toClient = [65, 255, 255] ∧ lane .preamble t.toClient = [72, 105] := by
  intro cfg n evs t
  have h := transfer_delivers (@finishes_of_config cfg n ⟨[], false⟩ evs (.inr ⟨rfl, by decide⟩) rfl)
  obtain ⟨hdelivers, hannounces⟩ := Run.always_iff.1 h _ [] (List.append_nil _).symm
  have hdata : lane .data t.toClient ++ t.devToTcp = [65, 255, 255] := hdelivers.fromDev
  have hbanner : lane .preamble t.toClient ++ t.banner.getD [] = [72, 105] := hannounces.banner
  have hnone : t.devToTcp = [] := rfl
  have hsent : t.banner = none := rfl
  rw [hnone, List.append_nil] at hdata
  rw [hsent, Option.getD_none, List.append_nil] at hbanner
  exact ⟨hdata, hbanner⟩

/-- **In every run at all, data is at most missing**: it is neither repeated nor put into another
order. -/
theorem transfer_in_order (cfg : TransferConfig) (n : Negotiator) (td : TelnetData)
    (evs : List TransferEvent) :
    let t := evs.foldl (step cfg) (setup cfg n td)
    (lane .data t.toClient).Sublist (cfg.wire t.fromDev) ∧
      (lane .data t.toDev).Sublist t.fromClient := by
  have hpassed : ((evs.foldl (step cfg) (setup cfg n td)).outbound cfg).passed.Sublist
        (cfg.wire (evs.foldl (step cfg) (setup cfg n td)).fromDev) ∧
      (evs.foldl (step cfg) (setup cfg n td)).inbound.passed.Sublist
        (evs.foldl (step cfg) (setup cfg n td)).fromClient := by
    refine Run.EachStep.foldl (I := fun t : Transfer =>
      (t.outbound cfg).passed.Sublist (cfg.wire t.fromDev) ∧
        t.inbound.passed.Sublist t.fromClient) (C := fun _ _ => True) ⟨?_, ?_⟩ ?_
      (Run.EachStep.of_forall fun _ _ => trivial)
    · exact List.nil_sublist _
    · exact List.nil_sublist _
    · rintro t ev ⟨hout, hin⟩ -
      exact ⟨(step_outbound cfg t ev).sublist hout, (step_inbound cfg t ev).sublist hin⟩
  exact ⟨(List.sublist_append_left _ _).trans hpassed.1,
    (List.sublist_append_left _ _).trans hpassed.2⟩

end Transfer

end SerialServer.Dataxfer
