import SerialServer.Core.Run
import SerialServer.Reporter.Session

/-!
# SerialServer.Reporter.Published

When the record of a port describes its device.

The codes of a record are to be those of the device's settings (`Describes`). Every
command that changes one of the two ends in a call that records what the command
believes the device to have, which is wrong in two ways: the data size, the parity and
the stop size are taken from the local copy even when `tcsetattr` has failed, and the
flow control is always recorded as none. A command that does neither keeps the record
right (`Faithful`), and nothing repairs a flow control that is on. A new connection is
recorded with defaults whatever the device is set to.
-/

namespace SerialServer.Dataxfer

open Run

/-- The codes of a record that describe the line. -/
structure Codes where
  baud : Word
  bits : Word
  parity : Word
  stop : Word
  flowctrl : Word
  deriving Repr, DecidableEq

/-- The codes in a record. -/
def codes (r : PortStat) : Codes := ⟨r.baud, r.bits, r.parity, r.stop, r.flowctrl⟩

/-- The code of the flow control: 0 for none, 1 for RTS/CTS, 2 for XON/XOFF. -/
def Termios.flowCode (t : Termios) : Word :=
  if t.crtscts then 1 else if t.ixon || t.ixoff then 2 else 0

/-- The codes of a device. -/
def encode (t : Termios) : Codes :=
  ⟨baud2n t.ispeed, bits2n t.csize.bits, parity2n t.parityVal, stop2n t.stopVal, t.flowCode⟩

/-- The record describes the device. -/
def Describes (r : PortStat) (t : Termios) : Prop := codes r = encode t

instance (r : PortStat) (t : Termios) : Decidable (Describes r t) :=
  inferInstanceAs (Decidable (_ = _))

theorem describes_iff {r : PortStat} {t : Termios} : Describes r t ↔
    r.baud = baud2n t.ispeed ∧ r.bits = bits2n t.csize.bits ∧ r.parity = parity2n t.parityVal ∧
      r.stop = stop2n t.stopVal ∧ r.flowctrl = t.flowCode := by
  simp only [Describes, codes, encode, Codes.mk.injEq]

/-! ### Changing the settings -/

variable {env : ComEnv} {r : PortStat} {f : Option (Termios → Termios)}

/-- What no change touches is as before. -/
theorem ComEnv.change_keep {γ : Type} (enc : Termios → γ)
    (hf : ∀ g, f = some g → enc (g env.termios) = enc env.termios) :
    enc (env.change f).2 = enc env.termios := by
  cases f with
  | none => rfl
  | some g =>
    simp only [ComEnv.change]
    split
    · exact hf g rfl
    · rfl

/-- The local copy and the device have the same code if `tcsetattr` succeeds, or if what was
asked for is in force already. -/
theorem ComEnv.change_agree (enc : Termios → Word) :
    enc (env.change f).1 = enc (env.change f).2 ↔
      (env.setOk = true ∨ ∀ g, f = some g → enc (g env.termios) = enc env.termios) := by
  cases f with
  | none => simp [ComEnv.change]
  | some g =>
    simp only [ComEnv.change, Option.some.injEq, forall_eq']
    cases env.setOk with
    | true => simp
    | false => simp

/-! ### The setting commands -/

/-- SET-BAUDRATE records the rate it has read back from the device. -/
theorem setBaudrate_describes (hget : env.getOk = true) (hagain : env.getAgainOk = true)
    (h : Describes r env.termios) (cisco : Bool) (val : Word) :
    Describes ((setBaudrate cisco env val).calls.foldl Call.update r)
      (setBaudrate cisco env val).dev := by
  obtain ⟨-, hbits, hparity, hstop, hflow⟩ := describes_iff.1 h
  unfold setBaudrate
  rw [if_pos hget]
  simp only [hagain, if_true, List.foldl_cons, List.foldl_nil, Call.update]
  generalize (if val ≠ 0 then getBaudRate cisco val else none) = rate
  have hkeep : ∀ {γ : Type} (enc : Termios → γ),
      (∀ s t, enc { t with ispeed := s, ospeed := s } = enc t) →
      enc (env.change (rate.map fun s t => { t with ispeed := s, ospeed := s })).2 =
        enc env.termios := by
    intro γ enc henc
    refine ComEnv.change_keep enc fun g hg => ?_
    obtain ⟨s, -, rfl⟩ := Option.map_eq_some_iff.1 hg
    exact henc s _
  refine describes_iff.2 ⟨rfl, ?_, ?_, ?_, ?_⟩
  · rw [hkeep Termios.csize fun _ _ => rfl]
    exact hbits
  · rw [hkeep Termios.parityVal fun _ _ => rfl]
    exact hparity
  · rw [hkeep Termios.stopVal fun _ _ => rfl]
    exact hstop
  · rw [hkeep Termios.flowCode fun _ _ => rfl]
    exact hflow

theorem bits2n_inj {s s' : CharSize} : bits2n s.bits = bits2n s'.bits ↔ s = s' := by
  cases s <;> cases s' <;> decide

/-- SET-DATASIZE records the size it has asked for. -/
theorem setDatasize_describes (hget : env.getOk = true) (h : Describes r env.termios) (c : Byte) :
    Describes ((setDatasize env c).calls.foldl Call.update r) (setDatasize env c).dev ↔
      (env.setOk = true ∨ ∀ s, CharSize.ofOption c = some s → s = env.termios.csize) := by
  obtain ⟨hbaud, -, hparity, hstop, hflow⟩ := describes_iff.1 h
  unfold setDatasize
  rw [if_pos hget]
  simp only [List.foldl_cons, List.foldl_nil, Call.update]
  have hkeep : ∀ {γ : Type} (enc : Termios → γ), (∀ s t, enc { t with csize := s } = enc t) →
      enc (env.change ((CharSize.ofOption c).map fun s t => { t with csize := s })).2 =
        enc env.termios := by
    intro γ enc henc
    refine ComEnv.change_keep enc fun g hg => ?_
    obtain ⟨s, -, rfl⟩ := Option.map_eq_some_iff.1 hg
    exact henc s _
  rw [describes_iff, hkeep Termios.ispeed fun _ _ => rfl, hkeep Termios.parityVal fun _ _ => rfl,
    hkeep Termios.stopVal fun _ _ => rfl, hkeep Termios.flowCode fun _ _ => rfl]
  simp only [hbaud, hparity, hstop, hflow, true_and, and_true]
  rw [ComEnv.change_agree fun t => bits2n t.csize.bits]
  cases CharSize.ofOption c with
  | none => simp
  | some s => simp [bits2n_inj]

/-- The parities have different codes. -/
theorem parity2n_parityVal {v : Word} (hv : v = 1 ∨ v = 2 ∨ v = 3) (t : Termios) :
    parity2n v = parity2n t.parityVal ↔ v = t.parityVal := by
  unfold Termios.parityVal
  rcases hv with rfl | rfl | rfl
  · cases t.parenb <;> cases t.parodd <;> decide
  · cases t.parenb <;> cases t.parodd <;> decide
  · cases t.parenb <;> cases t.parodd <;> decide

/-- SET-PARITY records the parity it has asked for. -/
theorem setParity_describes (hget : env.getOk = true) (h : Describes r env.termios) (c : Byte) :
    Describes ((setParity env c).calls.foldl Call.update r) (setParity env c).dev ↔
      (env.setOk = true ∨
        (c = 1 ∨ c = 2 ∨ c = 3 → c.setWidth 32 = env.termios.parityVal)) := by
  obtain ⟨hbaud, hbits, -, hstop, hflow⟩ := describes_iff.1 h
  unfold setParity
  rw [if_pos hget]
  simp only [List.foldl_cons, List.foldl_nil, Call.update]
  generalize hf : (if c = 1 then some fun t : Termios => { t with parenb := false, parodd := false }
    else if c = 2 then some fun t => { t with parenb := true, parodd := true }
    else if c = 3 then some fun t => { t with parenb := true, parodd := false }
    else none) = f
  have hkeep : ∀ {γ : Type} (enc : Termios → γ),
      (∀ b b' t, enc { t with parenb := b, parodd := b' } = enc t) →
      enc (env.change f).2 = enc env.termios := by
    intro γ enc henc
    refine ComEnv.change_keep enc fun g hg => ?_
    rw [hg] at hf
    split at hf
    · cases hf; exact henc _ _ _
    split at hf
    · cases hf; exact henc _ _ _
    split at hf
    · cases hf; exact henc _ _ _
    · cases hf
  rw [describes_iff, hkeep Termios.ispeed fun _ _ _ => rfl, hkeep Termios.csize fun _ _ _ => rfl,
    hkeep Termios.stopVal fun _ _ _ => rfl, hkeep Termios.flowCode fun _ _ _ => rfl]
  simp only [hbaud, hbits, hstop, hflow, true_and, and_true]
  rw [ComEnv.change_agree fun t => parity2n t.parityVal]
  refine or_congr_right ?_
  by_cases h1 : c = 1
  · rw [if_pos h1] at hf
    obtain rfl := hf
    simp only [h1, Option.some.injEq, forall_eq', true_or, true_imp_iff]
    exact parity2n_parityVal (.inl rfl) _
  rw [if_neg h1] at hf
  by_cases h2 : c = 2
  · rw [if_pos h2] at hf
    obtain rfl := hf
    simp only [h2, Option.some.injEq, forall_eq', true_or, or_true, true_imp_iff]
    exact parity2n_parityVal (.inr (.inl rfl)) _
  rw [if_neg h2] at hf
  by_cases h3 : c = 3
  · rw [if_pos h3] at hf
    obtain rfl := hf
    simp only [h3, Option.some.injEq, forall_eq', or_true, true_imp_iff]
    exact parity2n_parityVal (.inr (.inr rfl)) _
  · rw [if_neg h3] at hf
    obtain rfl := hf
    refine iff_of_true (fun g hg => by cases hg) fun hc => ?_
    exact absurd hc (by tauto)

theorem stop2n_stopVal {v : Word} (hv : v = 1 ∨ v = 2) (t : Termios) :
    stop2n v = stop2n t.stopVal ↔ v = t.stopVal := by
  unfold Termios.stopVal
  rcases hv with rfl | rfl
  · cases t.cstopb <;> decide
  · cases t.cstopb <;> decide

/-- SET-STOPSIZE records the stop size it has asked for. -/
theorem setStopsize_describes (hget : env.getOk = true) (h : Describes r env.termios) (c : Byte) :
    Describes ((setStopsize env c).calls.foldl Call.update r) (setStopsize env c).dev ↔
      (env.setOk = true ∨ (c = 1 ∨ c = 2 → c.setWidth 32 = env.termios.stopVal)) := by
  obtain ⟨hbaud, hbits, hparity, -, hflow⟩ := describes_iff.1 h
  unfold setStopsize
  rw [if_pos hget]
  simp only [List.foldl_cons, List.foldl_nil, Call.update]
  generalize hf : (if c = 1 then some fun t : Termios => { t with cstopb := false }
    else if c = 2 then some fun t => { t with cstopb := true }
    else none) = f
  have hkeep : ∀ {γ : Type} (enc : Termios → γ), (∀ b t, enc { t with cstopb := b } = enc t) →
      enc (env.change f).2 = enc env.termios := by
    intro γ enc henc
    refine ComEnv.change_keep enc fun g hg => ?_
    rw [hg] at hf
    split at hf
    · cases hf; exact henc _ _
    split at hf
    · cases hf; exact henc _ _
    · cases hf
  rw [describes_iff, hkeep Termios.ispeed fun _ _ => rfl, hkeep Termios.csize fun _ _ => rfl,
    hkeep Termios.parityVal fun _ _ => rfl, hkeep Termios.flowCode fun _ _ => rfl]
  simp only [hbaud, hbits, hparity, hflow, true_and, and_true]
  rw [ComEnv.change_agree fun t => stop2n t.stopVal]
  refine or_congr_right ?_
  by_cases h1 : c = 1
  · rw [if_pos h1] at hf
    obtain rfl := hf
    simp only [h1, Option.some.injEq, forall_eq', true_or, true_imp_iff]
    exact stop2n_stopVal (.inl rfl) _
  rw [if_neg h1] at hf
  by_cases h2 : c = 2
  · rw [if_pos h2] at hf
    obtain rfl := hf
    simp only [h2, Option.some.injEq, forall_eq', or_true, true_imp_iff]
    exact stop2n_stopVal (.inr rfl) _
  · rw [if_neg h2] at hf
    obtain rfl := hf
    refine iff_of_true (fun g hg => by cases hg) fun hc => ?_
    exact absurd hc (by tauto)

/-- Whatever the flow control is set to, none is recorded; the record stays right just when
none is what the device then has. -/
theorem change_flow_describes (h : Describes r env.termios) (hnone : r.flowctrl = 0)
    (hf : ∀ g, f = some g → ∃ on off rts : Termios → Bool, g = fun t =>
      { t with ixon := on t, ixoff := off t, crtscts := rts t }) :
    Describes { r with flowctrl := 0 } (env.change f).2 ↔
      (env.setOk = true → ∀ g, f = some g → (g env.termios).flowCode = 0) := by
  obtain ⟨hbaud, hbits, hparity, hstop, hflow⟩ := describes_iff.1 h
  rw [hnone] at hflow
  have hkeep : ∀ {γ : Type} (enc : Termios → γ),
      (∀ on off rts t, enc { t with ixon := on, ixoff := off, crtscts := rts } = enc t) →
      enc (env.change f).2 = enc env.termios := by
    intro γ enc henc
    refine ComEnv.change_keep enc fun g hg => ?_
    obtain ⟨on, off, rts, rfl⟩ := hf g hg
    exact henc _ _ _ _
  rw [describes_iff, hkeep Termios.ispeed fun _ _ _ _ => rfl,
    hkeep Termios.csize fun _ _ _ _ => rfl, hkeep Termios.parityVal fun _ _ _ _ => rfl,
    hkeep Termios.stopVal fun _ _ _ _ => rfl]
  simp only [hbaud, hbits, hparity, hstop, true_and]
  cases f with
  | none => simp [ComEnv.change, ← hflow]
  | some g =>
    simp only [ComEnv.change, Option.some.injEq, forall_eq']
    cases env.setOk with
    | true => simp [eq_comm]
    | false => simp [← hflow]

theorem setOutbound_describes (hget : env.getOk = true) (h : Describes r env.termios)
    (hnone : r.flowctrl = 0) (c : Byte) :
    Describes ((setOutbound env c).calls.foldl Call.update r) (setOutbound env c).dev ↔
      (env.setOk = true → c ≠ 2 ∧ c ≠ 3) := by
  unfold setOutbound
  rw [if_pos hget]
  simp only [List.foldl_cons, List.foldl_nil, Call.update]
  generalize hf : (if c = 1 then
      some fun t : Termios => { t with ixon := false, ixoff := false, crtscts := false }
    else if c = 2 then some fun t => { t with ixon := true, ixoff := true, crtscts := false }
    else if c = 3 then some fun t => { t with ixon := false, ixoff := false, crtscts := true }
    else none) = f
  by_cases h1 : c = 1
  · rw [if_pos h1] at hf
    obtain rfl := hf
    rw [change_flow_describes h hnone fun g hg => ⟨_, _, _, (Option.some.inj hg).symm⟩]
    simp [h1, Termios.flowCode]
  rw [if_neg h1] at hf
  by_cases h2 : c = 2
  · rw [if_pos h2] at hf
    obtain rfl := hf
    rw [change_flow_describes h hnone fun g hg => ⟨_, _, _, (Option.some.inj hg).symm⟩]
    simp [h2, Termios.flowCode]
  rw [if_neg h2] at hf
  by_cases h3 : c = 3
  · rw [if_pos h3] at hf
    obtain rfl := hf
    rw [change_flow_describes h hnone fun g hg => ⟨_, _, _, (Option.some.inj hg).symm⟩]
    simp [h3, Termios.flowCode]
  · rw [if_neg h3] at hf
    obtain rfl := hf
    rw [change_flow_describes h hnone fun g hg => by cases hg]
    exact iff_of_true (fun _ g hg => by cases hg) fun _ => ⟨h2, h3⟩

theorem setInbound_describes (hget : env.getOk = true) (h : Describes r env.termios)
    (hnone : r.flowctrl = 0) (c : Byte) :
    Describes ((setInbound env c).calls.foldl Call.update r) (setInbound env c).dev ↔
      (env.setOk = true → c ≠ 15) := by
  unfold setInbound
  rw [if_pos hget]
  simp only [List.foldl_cons, List.foldl_nil, Call.update]
  by_cases h15 : c = 15
  · have hon : ∀ t : Termios, t.ixoff = true → t.flowCode ≠ 0 := by
      intro t ht
      unfold Termios.flowCode
      cases t.crtscts <;> simp [ht]
    rw [if_pos h15, change_flow_describes h hnone fun g hg => ⟨_, _, _, (Option.some.inj hg).symm⟩]
    exact ⟨fun h' hset => absurd (h' hset _ rfl) (hon _ rfl), fun h' hset => absurd h15 (h' hset)⟩
  · rw [if_neg h15, change_flow_describes h hnone fun g hg => by cases hg]
    exact iff_of_true (fun _ g hg => by cases hg) fun _ => h15

/-! ### Commands -/

/-- A command, with what its system calls return while `tcgetattr` succeeds. -/
structure Command where
  option : List Byte
  setOk : Bool
  breakOk : Bool
  modem : Option ModemBits
  deriving Repr, DecidableEq

/-- The system calls of a command for a device that is set to `dev`. -/
def Command.comEnv (cmd : Command) (dev : Termios) : ComEnv :=
  ⟨dev, true, true, cmd.setOk, cmd.breakOk, cmd.modem⟩

/-- The command leaves the record right: it turns no flow control on, and a size, parity or
stop size that `tcsetattr` refuses is the one in force. -/
def Faithful (dev : Termios) (cmd : Command) : Prop :=
  let c := cmd.option.getD 2 0
  3 ≤ cmd.option.length →
    match (cmd.option.getD 1 0).toNat with
    | 2 => cmd.setOk = true ∨ ∀ s, CharSize.ofOption c = some s → s = dev.csize
    | 3 => cmd.setOk = true ∨ (c = 1 ∨ c = 2 ∨ c = 3 → c.setWidth 32 = dev.parityVal)
    | 4 => cmd.setOk = true ∨ (c = 1 ∨ c = 2 → c.setWidth 32 = dev.stopVal)
    | 5 => cmd.setOk = true → c ≠ 2 ∧ c ≠ 3 ∧ c ≠ 15
    | _ => True

theorem setControl_describes {cmd : Command} {dev : Termios} (h : Describes r dev)
    (hnone : r.flowctrl = 0) (breakSet : Bool) (c : Byte) :
    Describes ((setControl (cmd.comEnv dev) breakSet c).1.calls.foldl Call.update r)
        (setControl (cmd.comEnv dev) breakSet c).1.dev ↔
      (cmd.setOk = true → c ≠ 2 ∧ c ≠ 3 ∧ c ≠ 15) := by
  have hne : ∀ k : Byte, c.toNat ≠ k.toNat → c ≠ k := by
    rintro k hk rfl
    exact hk rfl
  -- Neither device nor record is changed.
  have hsame : 3 < c.toNat → c.toNat ≠ 15 →
      (Describes r dev ↔ (cmd.setOk = true → c ≠ 2 ∧ c ≠ 3 ∧ c ≠ 15)) := by
    intro h3 h15
    refine iff_of_true h fun _ => ⟨hne 2 ?_, hne 3 ?_, hne 15 h15⟩
    · exact Nat.ne_of_gt (Nat.lt_trans (by decide) h3)
    · exact Nat.ne_of_gt h3
  unfold setControl
  split
  · rename_i hle
    rw [setOutbound_describes rfl h hnone]
    have h15 : c ≠ 15 := hne 15 (Nat.ne_of_lt (Nat.lt_of_le_of_lt hle (by decide)))
    exact ⟨fun h' hset => ⟨(h' hset).1, (h' hset).2, h15⟩,
      fun h' hset => ⟨(h' hset).1, (h' hset).2.1⟩⟩
  split
  · rename_i hgt hin
    rw [setInbound_describes rfl h hnone]
    have h2 : c ≠ 2 := hne 2 (Nat.ne_of_gt (Nat.lt_of_lt_of_le (by decide) hin.1))
    have h3 : c ≠ 3 := hne 3 (Nat.ne_of_gt (Nat.lt_of_lt_of_le (by decide) hin.1))
    exact ⟨fun h' hset => ⟨h2, h3, h' hset⟩, fun h' hset => (h' hset).2.2⟩
  split
  · exact hsame (by omega) (by omega)
  split
  · exact hsame (by omega) (by omega)
  split
  · -- A query of the RTS line goes to `mysaveflowc`, which records none as always.
    have hrec : ({ r with flowctrl := 0 } : PortStat) = r := by rw [← hnone]
    show Describes { r with flowctrl := 0 } dev ↔ _
    rw [hrec]
    exact hsame (by omega) (by omega)
  · exact hsame (by omega) (by omega)

/-- A command that needs three bytes does nothing with less. -/
theorem longCommand_describes {len : Nat} {nothing full : ComResult} {q : Prop}
    (hnothing : Describes (nothing.calls.foldl Call.update r) nothing.dev)
    (hfull : Describes (full.calls.foldl Call.update r) full.dev ↔ q) :
    Describes ((if len < 3 then nothing else full).calls.foldl Call.update r)
        (if len < 3 then nothing else full).dev ↔ (3 ≤ len → q) := by
  by_cases hlen : len < 3
  · rw [if_pos hlen]
    exact iff_of_true hnothing fun hlen' => absurd hlen (Nat.not_lt.2 hlen')
  · rw [if_neg hlen, forall_prop_of_true (Nat.not_lt.1 hlen)]
    exact hfull

/-- **What a command does to the record of its port.** -/
theorem comPortHandler_describes {cmd : Command} {dev : Termios} (h : Describes r dev)
    (hnone : r.flowctrl = 0) (cfg : ComConfig) (p : ComPort) :
    Describes ((comPortHandler cfg (cmd.comEnv dev) p cmd.option).calls.foldl Call.update r)
        (comPortHandler cfg (cmd.comEnv dev) p cmd.option).dev ↔
      Faithful dev cmd := by
  have henv : Describes r (cmd.comEnv dev).termios := h
  unfold comPortHandler Faithful
  dsimp only
  split
  · rename_i hlen
    exact iff_of_true h fun hlen' => absurd hlen (Nat.not_lt.2 (Nat.le_of_succ_le hlen'))
  split
  · rename_i hcmd
    rw [hcmd]
    exact iff_of_true h fun _ => trivial
  · -- SET-BAUDRATE
    rename_i hcmd
    rw [hcmd]
    refine iff_of_true ?_ fun _ => trivial
    split
    · split
      · exact h
      · exact setBaudrate_describes rfl rfl h _ _
    · split
      · exact h
      · exact setBaudrate_describes rfl rfl h _ _
  · -- SET-DATASIZE
    rename_i hcmd
    rw [hcmd]
    exact longCommand_describes h (setDatasize_describes rfl henv _)
  · -- SET-PARITY
    rename_i hcmd
    rw [hcmd]
    exact longCommand_describes h (setParity_describes rfl henv _)
  · -- SET-STOPSIZE
    rename_i hcmd
    rw [hcmd]
    exact longCommand_describes h (setStopsize_describes rfl henv _)
  · -- SET-CONTROL
    rename_i hcmd
    rw [hcmd]
    exact longCommand_describes h (setControl_describes h hnone _ _)
  · rename_i hcmd
    rw [hcmd]
    exact iff_of_true h fun _ => trivial
  · rename_i hcmd
    rw [hcmd]
    exact iff_of_true h fun _ => trivial
  · rename_i hcmd
    rw [hcmd]
    refine iff_of_true ?_ fun _ => trivial
    split <;> exact h
  · rename_i hcmd
    rw [hcmd]
    refine iff_of_true ?_ fun _ => trivial
    split <;> exact h
  · rename_i hcmd
    rw [hcmd]
    refine iff_of_true ?_ fun _ => trivial
    split
    · exact h
    · split <;> exact h
  · -- No command.
    rename_i h0 h1 h2 h3 h4 h5 h8 h9 h10 h11 h12
    refine iff_of_true h fun _ => ?_
    split
    · exact absurd ‹_› h2
    · exact absurd ‹_› h3
    · exact absurd ‹_› h4
    · exact absurd ‹_› h5
    · trivial

/-! ### A connection -/

/-- A connected port: what its commands keep, the settings of its device and the table. -/
structure Line where
  port : ComPort
  dev : Termios
  table : PortTable

/-- The record of the port. -/
def Line.record (pname : PortName) (l : Line) : PortStat := l.table (digitSlot pname)

/-- A command is handled, and the calls it makes change the table. -/
def Line.command (cfg : ComConfig) (m : Machine) (pname : PortName) (l : Line) (cmd : Command) :
    Line :=
  let r := comPortHandler cfg (cmd.comEnv l.dev) l.port cmd.option
  ⟨r.port, r.dev, (execCalls m pname l.table r.calls).1⟩

/-- The end of a successful `setup_tcp_port`, once the device has been set to `dev`. -/
def Line.setup (m : Machine) (pname : PortName) (p : ComPort) (dev : Termios) (t : PortTable)
    (remote : Word) : Line :=
  ⟨{ p with breakSet := false }, dev,
    (execCalls m pname t [.myinitGd, .myChangeStat 0x10, .mySaveIpRemote remote]).1⟩

/-- It is what a setup that succeeds leaves in the table. -/
theorem SetupDone.setup_table {env : SetupEnv} {q : Port} {res : Result} (h : SetupDone env q res)
    (m : Machine) (pname : PortName) (dev : Termios) (t : PortTable) :
    (Line.setup m pname q.com dev t env.remote).table = (execCalls m pname t res.calls).1 := by
  rw [h.calls]
  rfl

theorem Line.setup_codes (m : Machine) (pname : PortName) (p : ComPort) (dev : Termios)
    (t : PortTable) (remote : Word) :
    codes ((Line.setup m pname p dev t remote).record pname) = codes initRecord := by
  simp only [Line.setup, Line.record, execCalls_table, List.foldl_cons, List.foldl_nil,
    Call.table_apply, Call.slot, Call.update, if_true]
  split <;> rfl

theorem Line.command_record (cfg : ComConfig) (m : Machine) (pname : PortName) (l : Line)
    (cmd : Command) : (l.command cfg m pname cmd).record pname =
      (comPortHandler cfg (cmd.comEnv l.dev) l.port cmd.option).calls.foldl Call.update
        (l.record pname) := by
  simp only [Line.command, Line.record, execCalls_table]
  rcases comPortHandler_calls cfg (cmd.comEnv l.dev) l.port cmd.option with hnil | ⟨c, hset, hone⟩
  · rw [hnil]
    rfl
  · have hslot : c.slot pname = digitSlot pname := by
      cases c with
      | mySaveIpRemote inp => exact absurd hset (by simp [Call.IsSetting])
      | _ => rfl
    rw [hone, List.foldl_cons, List.foldl_nil, Call.table_apply, hslot, if_pos rfl]
    rfl

/-- No call records a flow control. -/
theorem foldl_update_flowctrl {r : PortStat} (h : r.flowctrl = 0) (cs : List Call) :
    (cs.foldl Call.update r).flowctrl = 0 := by
  induction cs generalizing r with
  | nil => exact h
  | cons c cs ih =>
    refine ih ?_
    cases c with
    | myinitGd => rfl
    | mysaveflowc v => rfl
    | _ => exact h

/-- The speeds that have a code of their own. -/
def Coded (s : Speed) : Prop := s ∈ [B300, B600, B1200, B2400, B4800, B9600, B19200, B38400]

theorem baud2n_ne_iff : ∀ a ∈ baudRates, ∀ b ∈ baudRates, a.val ≠ b.val →
    (baud2n a.val ≠ baud2n b.val ↔ Coded a.val ∨ Coded b.val) := by
  unfold Coded
  decide

theorem getBaudRate_mem {cisco : Bool} {v : Word} {s : Speed} (h : getBaudRate cisco v = some s) :
    ∃ a ∈ baudRates, a.val = s := by
  obtain ⟨a, ha, hs⟩ := Option.map_eq_some_iff.1 h
  exact ⟨a, List.mem_of_find?_eq_some ha, hs⟩

/-- What the record of port `pname` tells about its device, and what it does not. -/
structure Published (cfg : ComConfig) (m : Machine) (pname : PortName) : Prop where
  /-- The record describes the device, after the setup and after each command, if and only
  if the device has been set to the defaults and every command is faithful. -/
  described : ∀ (p : ComPort) (dev : Termios) (t : PortTable) (remote : Word)
    (cmds : List Command),
    Always (Line.command cfg m pname) (fun l => Describes (l.record pname) l.dev)
        (Line.setup m pname p dev t remote) cmds ↔
      encode dev = codes initRecord ∧
        EachStep (Line.command cfg m pname) (fun l cmd => Faithful l.dev cmd)
          (Line.setup m pname p dev t remote) cmds
  /-- Two rates that are accepted have different codes if and only if one of them is among
  300, 600, 1200, 2400, 4800, 9600, 19200 and 38400. -/
  rates : ∀ (v v' : Word) (s s' : Speed), getBaudRate cfg.cisco v = some s →
    getBaudRate cfg.cisco v' = some s' → s ≠ s' →
    (baud2n s ≠ baud2n s' ↔ Coded s ∨ Coded s')
  /-- Every flow control has the same code. -/
  flow : ∀ (p : ComPort) (dev : Termios) (t : PortTable) (remote : Word) (cmds : List Command),
    Always (Line.command cfg m pname) (fun l => (l.record pname).flowctrl = 0)
      (Line.setup m pname p dev t remote) cmds

/-- **When the published record describes the device**, for every port, initial setting and
sequence of commands. -/
theorem published_iff (cfg : ComConfig) (m : Machine) (pname : PortName) :
    Published cfg m pname := by
  have hstart : ∀ p dev t remote,
      ((Line.setup m pname p dev t remote).record pname).flowctrl = 0 :=
    fun p dev t remote => congrArg Codes.flowctrl (Line.setup_codes m pname p dev t remote)
  have hkeep : ∀ (l : Line) (cmd : Command), (l.record pname).flowctrl = 0 →
      ((l.command cfg m pname cmd).record pname).flowctrl = 0 := by
    intro l cmd hl
    rw [Line.command_record]
    exact foldl_update_flowctrl hl _
  refine ⟨?_, ?_, ?_⟩
  · intro p dev t remote cmds
    have hbegin : Describes ((Line.setup m pname p dev t remote).record pname)
        (Line.setup m pname p dev t remote).dev ↔ encode dev = codes initRecord := by
      rw [Describes, Line.setup_codes]
      exact eq_comm
    rw [← hbegin]
    refine always_iff_eachStep (I := fun l => (l.record pname).flowctrl = 0)
      (hstart p dev t remote) hkeep ?_
    intro l cmd hnone h
    rw [Line.command_record]
    exact comPortHandler_describes h hnone cfg l.port
  · intro v v' s s' hv hv' hne
    obtain ⟨a, ha, rfl⟩ := getBaudRate_mem hv
    obtain ⟨b, hb, rfl⟩ := getBaudRate_mem hv'
    exact baud2n_ne_iff a ha b hb hne
  · intro p dev t remote cmds
    exact .of_invariant (hstart p dev t remote) (fun l cmd hl _ => hkeep l cmd hl) (fun l hl => hl)
      (.of_forall fun _ _ => trivial)

/-- Port 3003 is configured for 9600 baud and shows 115200. With the defaults, a client that
turns RTS/CTS on leaves the record wrong, and 57600 baud shows as 115200. -/
theorem record_not_device :
    let m : Machine := ⟨.big, .unsigned⟩
    let cfg : ComConfig := ⟨false, [], 256⟩
    let line (rate : Speed) : Line := Line.setup m "3003".toList ⟨false, 0, 0⟩
      ⟨rate, rate, .cs8, false, false, false, false, false, false⟩ (fun _ => initRecord) 7
    let rtscts : Command := ⟨[44, 5, 3], true, true, none⟩
    (¬ Describes ((line B9600).record "3003".toList) (line B9600).dev ∧
      ((line B9600).record "3003".toList).baud = 8) ∧
    (Describes ((line B115200).record "3003".toList) (line B115200).dev ∧
      ¬ Always (Line.command cfg m "3003".toList)
        (fun l => Describes (l.record "3003".toList) l.dev) (line B115200) [rtscts]) ∧
    (getBaudRate false 57600 = some B57600 ∧ getBaudRate false 115200 = some B115200 ∧
      baud2n B57600 = baud2n B115200) := by
  decide +kernel

end SerialServer.Dataxfer
