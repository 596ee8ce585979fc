import SerialServer.Core.Hex
import SerialServer.Keys.Gpioinput

/-!
# SerialServer.Keys.Gpio6

The file `/proc/gpio6`, from the kernel module `gpio6.c` to the key scanner that reads it.

`procfile_read` means to print the data register of the port as `0x` and eight digits. All
eight digits are stored to the same element, so one of them is left, and what stands behind it
is whatever the buffer has held before. The masks let a whole byte through where a digit is
meant, so the table of digits is read past its end unless most of the register is zero
(`indices_iff`).

The reader takes the digit and any digits that happen to follow it (`fscanfHex_read`). That
gives the register back only for the few values that have come about by themselves
(`faithful_iff`).
-/

namespace SerialServer.Gpio6

open Scan Gpioinput

/-- The type of `v`, which the file does not declare. -/
inductive Decl
  | int
  | unsigned
  deriving Repr, DecidableEq

/-- `v >> k`. -/
def shr : Decl → Word → Nat → Word
  | .int, v, k => v.sshiftRight k
  | .unsigned, v, k => v >>> k

/-- `ascii_tbl`: the digits and a NUL. -/
def asciiTbl : List Byte :=
  [0x30, 0x31, 0x32, 0x33, 0x34, 0x35, 0x36, 0x37, 0x38, 0x39, 0x41, 0x42, 0x43, 0x44, 0x45, 0x46,
    0x00]

/-- `ascii_tbl[i]`, where `past` lies behind the table. -/
def asciiAt (past : Nat → Byte) (i : Nat) : Byte := asciiTbl.getD i (past i)

/-- The indices into `ascii_tbl`: `(v >> 28) & 0x0ff`, …, `(v >> 8) & 0x0ff` twice, and
`v & 0x0ff`. -/
def indices (t : Decl) (v : Word) : List Nat :=
  [28, 24, 20, 16, 12, 8, 8, 0].map fun k => (shr t v k &&& 0x0ff).toNat

/-- `procfile_read`, with `v` in the register: the buffer and what is returned. -/
def procfileRead (t : Decl) (past : Nat → Byte) (v : Word) (offset : Int) (buf : Buf) :
    Buf × List Byte :=
  if offset > 0 then (buf, [])
  else
    let buf := buf.store 0 [0x30]
    let buf := buf.store 1 [0x78]
    -- All eight go to `procfs_buffer[2]`.
    let buf := (indices t v).foldl (fun buf i => buf.store 2 [asciiAt past i]) buf
    let buf := buf.store 10 [0x0d]
    let buf := buf.store 11 [0x00]
    (buf, buf.slice 0 12)

/-- The digits that stand in the buffer from element 3 on. -/
def leftover (buf : Buf) : List Char := (chars (buf.slice 3 7)).takeWhile isXDigit

/-! ### The indices -/

/-- The mask leaves eight bits of the register, wherever they stand. -/
theorem shr_byte (t : Decl) (v : Word) {k : Nat} (hk : k ≤ 24) :
    (shr t v k &&& 0x0ff).toNat = v.toNat / 2 ^ k % 256 := by
  have mask : ∀ i < 32, (0x0ff : Word).getLsbD i = decide (i < 8) := by decide
  have hshift : shr t v k &&& 0x0ff = v >>> k &&& 0x0ff := by
    cases t with
    | unsigned => rfl
    | int =>
      apply BitVec.eq_of_getLsbD_eq
      intro i hi
      rw [BitVec.getLsbD_and, BitVec.getLsbD_and, mask i hi, shr, BitVec.getLsbD_sshiftRight,
        BitVec.getLsbD_ushiftRight]
      by_cases h8 : i < 8
      · simp [show k + i < 32 by omega, show ¬ 32 ≤ i by omega]
      · simp [h8]
  rw [hshift, BitVec.toNat_and, BitVec.toNat_ushiftRight, Nat.shiftRight_eq_div_pow]
  exact Nat.and_two_pow_sub_one_eq_mod _ 8

/-- The sign does not matter where it is not set. -/
theorem shr_small (t : Decl) {v : Word} (hv : v.toNat < 2 ^ 31) (k : Nat) :
    (shr t v k).toNat = v.toNat / 2 ^ k := by
  have hmsb : v.msb = false := BitVec.msb_eq_false_iff_two_mul_lt.2 (by omega)
  cases t with
  | int =>
    rw [shr, BitVec.sshiftRight_eq_of_msb_false hmsb, BitVec.toNat_ushiftRight,
      Nat.shiftRight_eq_div_pow]
  | unsigned => rw [shr, BitVec.toNat_ushiftRight, Nat.shiftRight_eq_div_pow]

/-- **The table is not read past its digits** when no more than the lowest and the third digit
of the register are set. -/
theorem indices_iff (t : Decl) (v : Word) :
    (∀ i ∈ indices t v, i < 16) ↔ v.toNat < 0x1000 ∧ v.toNat % 256 < 16 := by
  have h24 := shr_byte t v (k := 24) (by omega)
  have h20 := shr_byte t v (k := 20) (by omega)
  have h16 := shr_byte t v (k := 16) (by omega)
  have h12 := shr_byte t v (k := 12) (by omega)
  have h8 := shr_byte t v (k := 8) (by omega)
  have h0 := shr_byte t v (k := 0) (by omega)
  have hv := v.isLt
  simp only [indices, List.map_cons, List.map_nil, List.forall_mem_cons, h24, h20, h16, h12, h8, h0]
  constructor
  · rintro ⟨-, b24, b20, b16, b12, b8, -, b0, -⟩
    omega
  · rintro ⟨hsmall, hlow⟩
    have h28 : (shr t v 28 &&& 0x0ff).toNat ≤ (shr t v 28).toNat := by
      rw [BitVec.toNat_and]
      exact Nat.and_le_left
    rw [shr_small t (by omega)] at h28
    refine ⟨?_, ?_, ?_, ?_, ?_, ?_, ?_, ?_, by simp⟩ <;> omega

/-! ### The text -/

/-- The digit `ascii_tbl` gives for an index. -/
def digitAt (past : Nat → Byte) (i : Nat) : Char := Char.ofNat (asciiAt past i).toNat

theorem digitAt_spec (past : Nat → Byte) {i : Nat} (hi : i < 16) :
    isXDigit (digitAt past i) = true ∧ xdigit (digitAt past i) = i := by
  have htable : asciiAt past i = asciiTbl.getD i 0 := by
    rw [asciiAt, List.getD_eq_getElem _ _ (by simp [asciiTbl]; omega),
      List.getD_eq_getElem _ _ (by simp [asciiTbl]; omega)]
  have hdigits : ∀ i < 16, isXDigit (Char.ofNat (asciiTbl.getD i 0).toNat) = true ∧
      xdigit (Char.ofNat (asciiTbl.getD i 0).toNat) = i := by decide
  rw [digitAt, htable]
  exact hdigits i hi

/-- Of the assignments to one element the last is left. -/
theorem foldl_store_snoc (f : Nat → Byte) (xs : List Nat) (i p : Nat) (buf : Buf) :
    (xs ++ [i]).foldl (fun buf i => buf.store p [f i]) buf = buf.store p [f i] := by
  rw [List.foldl_append, List.foldl_cons, List.foldl_nil]
  induction xs generalizing buf with
  | nil => rfl
  | cons x xs ih =>
    rw [List.foldl_cons, ih, Buf.store_singleton, Buf.store_singleton, Buf.store_singleton,
      Function.update_idem]

/-- **What is returned**: one digit, and behind it what was there. -/
theorem procfileRead_text (t : Decl) (past : Nat → Byte) (v : Word) (buf : Buf) :
    (procfileRead t past v 0 buf).2 =
      [0x30, 0x78, asciiAt past (v.toNat % 256)] ++ buf.slice 3 7 ++ [0x0d, 0x00] := by
  have hlast : ∃ others, indices t v = others ++ [v.toNat % 256] := by
    refine ⟨[28, 24, 20, 16, 12, 8, 8].map fun k => (shr t v k &&& 0x0ff).toNat, ?_⟩
    have h0 := shr_byte t v (k := 0) (by omega)
    rw [Nat.pow_zero, Nat.div_one] at h0
    rw [← h0]
    rfl
  obtain ⟨others, hlast⟩ := hlast
  rw [procfileRead, if_neg (by decide), hlast]
  dsimp only
  rw [foldl_store_snoc, Buf.slice_append _ 0 10 2, Buf.slice_append _ 0 3 7]
  simp only [Buf.store_singleton, Nat.zero_add]
  -- The first three bytes and the last two are new, those between them are not.
  refine congrArg₂ _ (congrArg₂ _ rfl (Buf.slice_congr fun i hi => ?_)) rfl
  rw [Function.update_of_ne (by omega), Function.update_of_ne (by omega),
    Function.update_of_ne (by omega), Function.update_of_ne (by omega),
    Function.update_of_ne (by omega)]

/-- The digits end at the carriage return, if not before. -/
theorem takeWhile_leftover (buf : Buf) :
    (chars (buf.slice 3 7) ++ chars [0x0d, 0x00]).takeWhile isXDigit = leftover buf :=
  takeWhile_append_stop (by decide) _

theorem isXDigit_of_mem_leftover (buf : Buf) : ∀ c ∈ leftover buf, isXDigit c = true :=
  fun _ hc => List.mem_takeWhile_imp hc

theorem length_leftover_le (buf : Buf) : (leftover buf).length ≤ 7 := by
  have h := (List.takeWhile_prefix isXDigit (l := chars (buf.slice 3 7))).length_le
  rw [chars, List.length_map, Buf.slice_length] at h
  exact h

/-- The number a digit and those behind it stand for. -/
def spelt (d : Nat) (buf : Buf) : Nat :=
  d * 16 ^ (leftover buf).length + hexadecimal (leftover buf)

theorem spelt_lt {d : Nat} (hd : d < 16) (buf : Buf) : spelt d buf < 2 ^ 32 := by
  have hrest := hexadecimal_lt (isXDigit_of_mem_leftover buf)
  calc spelt d buf < d * 16 ^ (leftover buf).length + 16 ^ (leftover buf).length := by
        unfold spelt
        omega
    _ = (d + 1) * 16 ^ (leftover buf).length := by ring
    _ ≤ 16 * 16 ^ 7 :=
        Nat.mul_le_mul hd (Nat.pow_le_pow_right (by decide) (length_leftover_le buf))
    _ = 2 ^ 32 := by decide

/-- **What the reader makes of it**: the digit and those behind it are one number. -/
theorem fscanfHex_read (t : Decl) (past : Nat → Byte) {v : Word} (hv : v.toNat % 256 < 16)
    (buf : Buf) :
    fscanfHex (procfileRead t past v 0 buf).2 =
      some (BitVec.ofNat 32 (spelt (v.toNat % 256) buf)) := by
  obtain ⟨hdigit, hvalue⟩ := digitAt_spec past hv
  have htext : chars (procfileRead t past v 0 buf).2 = '0' :: 'x' ::
      digitAt past (v.toNat % 256) :: (chars (buf.slice 3 7) ++ chars [0x0d, 0x00]) := by
    rw [procfileRead_text]
    simp [chars, digitAt]
  have hrun : (digitAt past (v.toNat % 256) :: (chars (buf.slice 3 7) ++
      chars [0x0d, 0x00])).takeWhile isXDigit = digitAt past (v.toNat % 256) :: leftover buf := by
    rw [List.takeWhile_cons_of_pos hdigit, takeWhile_leftover]
  have hspelt : hexadecimal (digitAt past (v.toNat % 256) :: leftover buf) =
      spelt (v.toNat % 256) buf := by
    rw [hexadecimal_cons, hvalue, spelt]
  rw [fscanfHex, htext, scanHex_eq (by decide), hexNumber_0x, hrun, Option.map_some,
    Option.map_some, hspelt, if_pos (spelt_lt hv buf)]

/-! ### When the register comes back -/

/-- The text gives the register back, and with it the levels of the six keys, and every index
is that of a digit. -/
structure Faithful (t : Decl) (past : Nat → Byte) (v : Word) (buf : Buf) : Prop where
  value : fscanfHex (procfileRead t past v 0 buf).2 = some v
  keys : ∀ gpio, fscanfHex (procfileRead t past v 0 buf).2 = some gpio →
    ∀ n, gpioBit gpio n = gpioBit v n
  indices : ∀ i ∈ indices t v, i < 16

/-- The values that the digits left in the buffer happen to complete: one digit that none
follows, a third digit that has been left whole, or twice the same digit. -/
def Completed (v : Word) (buf : Buf) : Prop :=
  (v.toNat < 16 ∧ leftover buf = []) ∨
    (v.toNat < 0x1000 ∧ v.toNat % 256 = 0 ∧ hexadecimal (leftover buf) = v.toNat) ∨
    (v.toNat < 0x1000 ∧ v.toNat / 256 = v.toNat % 256 ∧ (leftover buf).length = 2 ∧
      hexadecimal (leftover buf) = v.toNat % 256)

instance (v : Word) (buf : Buf) : Decidable (Completed v buf) :=
  inferInstanceAs (Decidable (_ ∨ _ ∨ _))

/-- A digit and those behind it stand for the whole register in three cases only. -/
theorem spelt_eq_iff {v : Word} (hv : v.toNat < 0x1000) (hlow : v.toNat % 256 < 16) (buf : Buf) :
    spelt (v.toNat % 256) buf = v.toNat ↔ Completed v buf := by
  have hrest := hexadecimal_lt (isXDigit_of_mem_leftover buf)
  unfold spelt Completed
  by_cases hnil : leftover buf = []
  · have hzero : hexadecimal ([] : List Char) = 0 := rfl
    rw [hnil, hzero]
    simp only [List.length_nil, Nat.pow_zero, and_true]
    omega
  have hpos : 0 < (leftover buf).length := List.length_pos_of_ne_nil hnil
  generalize (leftover buf).length = n at hrest hpos ⊢
  generalize hexadecimal (leftover buf) = r at hrest ⊢
  simp only [hnil, and_false, false_or]
  by_cases hdigit : v.toNat % 256 = 0
  · rw [hdigit, Nat.zero_mul, Nat.zero_add]
    omega
  -- The digit has the value of its place as well, which fits for two digits behind it only.
  rcases (by omega : n = 1 ∨ n = 2 ∨ 3 ≤ n) with rfl | rfl | h3
  · refine iff_of_false (fun h => ?_) (by omega)
    have hbyte : v.toNat < 256 := by omega
    rw [Nat.mod_eq_of_lt hbyte] at h
    omega
  · omega
  · have hplace : 16 ^ 3 ≤ 16 ^ n := Nat.pow_le_pow_right (by decide) h3
    have hbig : 1 * 16 ^ n ≤ v.toNat % 256 * 16 ^ n := Nat.mul_le_mul_right _ (by omega)
    omega

/-- **The text is faithful exactly when the digits left in the buffer complete it.** -/
theorem faithful_iff (t : Decl) (past : Nat → Byte) (v : Word) (buf : Buf) :
    Faithful t past v buf ↔ Completed v buf := by
  constructor
  · intro h
    obtain ⟨hv, hlow⟩ := (indices_iff t v).1 h.indices
    have hvalue := h.value
    rw [fscanfHex_read t past hlow, Option.some.injEq] at hvalue
    have hnat := congrArg BitVec.toNat hvalue
    rw [BitVec.toNat_ofNat, Nat.mod_eq_of_lt (spelt_lt hlow buf)] at hnat
    exact (spelt_eq_iff hv hlow buf).1 hnat
  · intro h
    obtain ⟨hv, hlow⟩ : v.toNat < 0x1000 ∧ v.toNat % 256 < 16 := by
      rcases h with h | h | h <;> omega
    have hvalue : fscanfHex (procfileRead t past v 0 buf).2 = some v := by
      rw [fscanfHex_read t past hlow, (spelt_eq_iff hv hlow buf).2 h, BitVec.ofNat_toNat,
        BitVec.setWidth_eq]
    refine ⟨hvalue, fun gpio hgpio n => ?_, (indices_iff t v).2 ⟨hv, hlow⟩⟩
    rw [hvalue] at hgpio
    rw [Option.some.inj hgpio]

/-- A register without any digit but the lowest and the third has all six keys held down. -/
theorem gpioBit_of_lt {v : Word} (hv : v.toNat < 0x1000) (n : Fin 6) : gpioBit v n = 0 := by
  have hbit : level n v = false := by
    have hplace : 2 ^ 12 ≤ 2 ^ (31 - n.val) := Nat.pow_le_pow_right (by decide) (by omega)
    exact Nat.testBit_lt_two_pow (by omega)
  rw [gpioBit_eq, hbit, if_neg Bool.false_ne_true]

/-- So no text tells the reader that a key is up. -/
theorem Faithful.keys_down {t : Decl} {past : Nat → Byte} {v : Word} {buf : Buf}
    (h : Faithful t past v buf) (n : Fin 6) : gpioBit v n = 0 :=
  gpioBit_of_lt ((indices_iff t v).1 h.indices).1 n

/-- With no key held the table is read 252 bytes in; and `0x100` comes back as 0 from a buffer
of zeros. -/
theorem not_faithful :
    (¬ Faithful .int (fun _ => 0) 0xfc000000 (Buf.ofList []) ∧
        0xfc ∈ indices .int 0xfc000000) ∧
      ¬ Faithful .int (fun _ => 0) 0x100 (Buf.ofList []) ∧
        fscanfHex (procfileRead .int (fun _ => 0) 0x100 0 (Buf.ofList [])).2 = some 0 := by
  have hpast : 0xfc ∈ indices .int 0xfc000000 := by decide
  have hzero : fscanfHex (procfileRead .int (fun _ => 0) 0x100 0 (Buf.ofList [])).2 = some 0 := by
    decide +kernel
  refine ⟨⟨fun h => ?_, hpast⟩, fun h => ?_, hzero⟩
  · exact absurd (h.indices _ hpast) (by decide)
  · have hvalue := h.value
    rw [hzero] at hvalue
    exact absurd hvalue (by decide)

end SerialServer.Gpio6
