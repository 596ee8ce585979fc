import Mathlib.Tactic.Ring
import SerialServer.Core.Buffer
import SerialServer.Core.Scan

/-!
# SerialServer.Core.Hex

Hexadecimal numbers as text.

`%x` reads an optional `0x` and then digits for as long as there are any (`hexNumber`). What a
program gets of the number depends on where it runs: the C library takes a sign and saturates
(`scanHex`), the kernel takes no sign and wraps (`kscanHex`). Both give back what `%08x` has
printed (`scanHex_hex8`).

The value of a run of digits is that of its first digit in front of the others
(`hexadecimal_cons`), so a digit more or less at either end can be told from the value.
-/

namespace SerialServer.Scan

/-- The characters of some bytes. -/
def chars (bs : List Byte) : List Char := bs.map fun b => Char.ofNat b.toNat

/-- `isxdigit`. -/
def isXDigit (c : Char) : Bool :=
  c.isDigit || decide ('a'.toNat ≤ c.toNat ∧ c.toNat ≤ 'f'.toNat) ||
    decide ('A'.toNat ≤ c.toNat ∧ c.toNat ≤ 'F'.toNat)

/-- The value of a hexadecimal digit. -/
def xdigit (c : Char) : Nat :=
  if c.isDigit then c.toNat - '0'.toNat
  else if 'a'.toNat ≤ c.toNat then c.toNat - 'a'.toNat + 10
  else c.toNat - 'A'.toNat + 10

/-- The value of hexadecimal digits. -/
def hexadecimal (ds : List Char) : Nat := ds.foldl (fun n c => 16 * n + xdigit c) 0

/-- The text behind a `0x`. -/
def strip0x : List Char → List Char
  | '0' :: 'x' :: ds => ds
  | '0' :: 'X' :: ds => ds
  | ds => ds

/-- The number at the start of a text, and what it leaves. -/
def hexNumber (ds : List Char) : Option (Nat × List Char) :=
  if ds.head?.any isXDigit then
    let ds := strip0x ds
    some (hexadecimal (ds.takeWhile isXDigit), ds.dropWhile isXDigit)
  else none

/-- What `%x` stores and leaves in the C library: `strtoul` on a machine with 32 bits. -/
def scanHex (text : List Char) : Option (Word × List Char) :=
  let (s, ds) := sign (text.dropWhile isSpace)
  (hexNumber ds).map fun (n, rest) =>
    (if n < 2 ^ 32 then BitVec.ofInt 32 (s * n) else 0xffffffff, rest)

/-- What `fscanf(fp, "%x", &v)` stores in `v`, if anything. -/
def fscanfHex (file : List Byte) : Option Word := (scanHex (chars file)).map Prod.fst

/-- `isspace` of the kernel, where the no-break space is one too. -/
def kisSpace (c : Char) : Bool := isSpace c || decide (c.toNat = 0xa0)

/-- What `%x` stores and leaves in the kernel: `simple_strtoul`. -/
def kscanHex (text : List Char) : Option (Word × List Char) :=
  (hexNumber (text.dropWhile kisSpace)).map fun (n, rest) => (BitVec.ofNat 32 n, rest)

/-- What `%08x` prints. -/
def hex8 (w : Word) : List Char := (Nat.toDigits 16 w.toNat).leftpad 8 '0'

/-- What stops a scan at once stops it behind another text as well. -/
theorem takeWhile_append_stop {α : Type*} {p : α → Bool} {ys : List α} (h : ys.takeWhile p = [])
    (xs : List α) : (xs ++ ys).takeWhile p = xs.takeWhile p := by
  rw [List.takeWhile_append, h, List.append_nil]
  split
  · next hall => exact ((List.takeWhile_prefix _).eq_of_length hall).symm
  · rfl

/-- A string ends at its NUL. -/
theorem cstr_chars_nul (bs rest : List Byte) :
    cstr (chars (bs ++ 0 :: rest)) = cstr (chars bs) := by
  rw [chars, List.map_append]
  exact takeWhile_append_stop rfl _

/-! ### Digits -/

theorem isXDigit_digitChar : ∀ {d : Nat}, d < 16 → isXDigit d.digitChar = true := by
  decide

/-- A digit that is printed reads back as its value. -/
theorem xdigit_digitChar : ∀ {d : Nat}, d < 16 → xdigit d.digitChar = d := by
  decide

theorem xdigit_lt {c : Char} (hc : isXDigit c = true) : xdigit c < 16 := by
  have h0 : '0'.toNat = 48 := rfl
  have ha : 'a'.toNat = 97 := rfl
  have hf : 'f'.toNat = 102 := rfl
  have hA : 'A'.toNat = 65 := rfl
  have hF : 'F'.toNat = 70 := rfl
  unfold xdigit
  split
  · next hdigit =>
    simp only [Char.isDigit, Bool.and_eq_true, decide_eq_true_eq] at hdigit
    have hhigh : c.toNat ≤ 57 := hdigit.2
    omega
  · next hdigit =>
    simp only [isXDigit, Bool.or_eq_true, decide_eq_true_eq] at hc
    rcases hc with (hc | hc) | hc
    · exact absurd hc hdigit
    · rw [if_pos hc.1]
      omega
    · rw [if_neg (by omega)]
      omega

theorem foldl_hexadecimal (ds : List Char) (n : Nat) :
    ds.foldl (fun n c => 16 * n + xdigit c) n = n * 16 ^ ds.length + hexadecimal ds := by
  induction ds generalizing n with
  | nil => simp [hexadecimal]
  | cons d ds ih =>
    rw [hexadecimal, List.foldl_cons, List.foldl_cons, ih, ih (16 * 0 + _), List.length_cons]
    ring

/-- The first digit of a number counts for what its place is worth. -/
theorem hexadecimal_cons (c : Char) (ds : List Char) :
    hexadecimal (c :: ds) = xdigit c * 16 ^ ds.length + hexadecimal ds := by
  rw [hexadecimal, List.foldl_cons, foldl_hexadecimal, Nat.mul_zero, Nat.zero_add]

theorem hexadecimal_snoc (ds : List Char) (c : Char) :
    hexadecimal (ds ++ [c]) = 16 * hexadecimal ds + xdigit c := by
  rw [hexadecimal, List.foldl_append]
  rfl

/-- Digits stand for less than the place in front of them is worth. -/
theorem hexadecimal_lt {ds : List Char} (h : ∀ c ∈ ds, isXDigit c = true) :
    hexadecimal ds < 16 ^ ds.length := by
  induction ds with
  | nil => decide
  | cons c ds ih =>
    have hc := xdigit_lt (h c List.mem_cons_self)
    have hds := ih fun d hd => h d (List.mem_cons_of_mem _ hd)
    rw [hexadecimal_cons, List.length_cons, Nat.pow_succ]
    calc xdigit c * 16 ^ ds.length + hexadecimal ds
        < xdigit c * 16 ^ ds.length + 16 ^ ds.length := by omega
      _ = (xdigit c + 1) * 16 ^ ds.length := by ring
      _ ≤ 16 * 16 ^ ds.length := Nat.mul_le_mul_right _ hc
      _ = 16 ^ ds.length * 16 := Nat.mul_comm _ _

/-! ### Printing -/

theorem hexadecimal_toDigits (n : Nat) : hexadecimal (Nat.toDigits 16 n) = n := by
  induction n using Nat.strongRecOn with
  | _ n ih =>
    by_cases hn : n < 16
    · rw [Nat.toDigits_of_lt_base hn, hexadecimal_cons, xdigit_digitChar hn]
      simp [hexadecimal]
    · have hn : 16 ≤ n := by omega
      rw [Nat.toDigits_of_base_le (by decide) hn, hexadecimal_snoc, ih (n / 16) (by omega),
        xdigit_digitChar (Nat.mod_lt _ (by decide)), Nat.div_add_mod]

theorem isXDigit_of_mem_toDigits {n : Nat} : ∀ c ∈ Nat.toDigits 16 n, isXDigit c = true := by
  induction n using Nat.strongRecOn with
  | _ n ih =>
    by_cases hn : n < 16
    · rw [Nat.toDigits_of_lt_base hn]
      simpa using isXDigit_digitChar hn
    · have hn : 16 ≤ n := by omega
      rw [Nat.toDigits_of_base_le (by decide) hn]
      intro c hc
      rcases List.mem_append.1 hc with hc | hc
      · exact ih (n / 16) (by omega) c hc
      · rw [List.mem_singleton.1 hc]
        exact isXDigit_digitChar (Nat.mod_lt _ (by decide))

theorem isXDigit_of_mem_hex8 {w : Word} : ∀ c ∈ hex8 w, isXDigit c = true := by
  intro c hc
  rw [hex8, List.leftpad] at hc
  rcases List.mem_append.1 hc with hc | hc
  · rw [List.eq_of_mem_replicate hc]
    decide
  · exact isXDigit_of_mem_toDigits c hc

@[simp] theorem length_hex8 (w : Word) : (hex8 w).length = 8 := by
  have hdigits : (Nat.toDigits 16 w.toNat).length ≤ 8 :=
    (Nat.length_toDigits_le_iff (by decide) (by decide)).2 w.isLt
  rw [hex8, List.length_leftpad]
  omega

/-- Zeros in front do not count. -/
theorem hexadecimal_zeros (n : Nat) (ds : List Char) :
    hexadecimal (List.replicate n '0' ++ ds) = hexadecimal ds := by
  induction n with
  | zero => rfl
  | succ n ih =>
    have hzero : xdigit '0' = 0 := by decide
    rw [List.replicate_succ, List.cons_append, hexadecimal_cons, hzero, Nat.zero_mul, Nat.zero_add,
      ih]

theorem hexadecimal_hex8 (w : Word) : hexadecimal (hex8 w) = w.toNat := by
  rw [hex8, List.leftpad, hexadecimal_zeros, hexadecimal_toDigits]

/-! ### Reading -/

theorem isXDigit_range {c : Char} (hc : isXDigit c = true) : 48 ≤ c.toNat ∧ c.toNat ≤ 102 := by
  have hf : 'f'.toNat = 102 := rfl
  have ha : 'a'.toNat = 97 := rfl
  have hA : 'A'.toNat = 65 := rfl
  have hF : 'F'.toNat = 70 := rfl
  simp only [isXDigit, Char.isDigit, Bool.or_eq_true, Bool.and_eq_true, decide_eq_true_eq] at hc
  rcases hc with (⟨hlow, hhigh⟩ | hc) | hc
  · have hlow' : 48 ≤ c.toNat := hlow
    have hhigh' : c.toNat ≤ 57 := hhigh
    omega
  · omega
  · omega

/-- A digit is neither white space nor a sign. -/
theorem isXDigit_facts {c : Char} (hc : isXDigit c = true) :
    isSpace c = false ∧ kisSpace c = false ∧ c ≠ '-' ∧ c ≠ '+' ∧ c ≠ 'x' ∧ c ≠ 'X' := by
  have hrange := isXDigit_range hc
  have hne : ∀ d : Char, isXDigit d = false → c ≠ d := by
    rintro d hd rfl
    rw [hc] at hd
    cases hd
  have hspace : isSpace c = false := by
    have hblank := hne ' ' (by decide)
    simp [isSpace, hblank]
    omega
  refine ⟨hspace, ?_, hne '-' (by decide), hne '+' (by decide), hne 'x' (by decide),
    hne 'X' (by decide)⟩
  simp [kisSpace, hspace]
  omega

/-- The digits at the start of a text end where no digit follows. -/
theorem span_digits {ds rest : List Char} (hds : ∀ c ∈ ds, isXDigit c = true)
    (hrest : ∀ c, rest.head? = some c → isXDigit c = false) :
    (ds ++ rest).takeWhile isXDigit = ds ∧ (ds ++ rest).dropWhile isXDigit = rest := by
  rw [List.takeWhile_append_of_pos hds, List.dropWhile_append_of_pos hds]
  cases rest with
  | nil => simp
  | cons c rest => simp [hrest c rfl]

/-- **Two digits or more are read to the last**, when no digit follows them. -/
theorem hexNumber_digits {c d : Char} {ds rest : List Char}
    (hds : ∀ e ∈ c :: d :: ds, isXDigit e = true)
    (hrest : ∀ e, rest.head? = some e → isXDigit e = false) :
    hexNumber (c :: d :: ds ++ rest) = some (hexadecimal (c :: d :: ds), rest) := by
  obtain ⟨-, -, -, -, hx, hX⟩ := isXDigit_facts (hds d (by simp))
  have hstrip : strip0x (c :: d :: ds ++ rest) = c :: d :: ds ++ rest := by
    simp [strip0x, hx, hX]
  obtain ⟨htake, hdrop⟩ := span_digits hds hrest
  rw [hexNumber, if_pos (by simp [hds c]), hstrip]
  dsimp only
  rw [htake, hdrop]

/-- Behind a `0x` the digits are read as far as they go. -/
theorem hexNumber_0x (ds : List Char) :
    hexNumber ('0' :: 'x' :: ds) =
      some (hexadecimal (ds.takeWhile isXDigit), ds.dropWhile isXDigit) := by
  have hzero : isXDigit '0' = true := by decide
  rw [hexNumber, if_pos (by simpa using hzero), strip0x]

/-- What starts with a digit has no white space and no sign in front. -/
theorem scanHex_eq {c : Char} {ds : List Char} (hc : isXDigit c = true) :
    scanHex (c :: ds) = (hexNumber (c :: ds)).map fun r =>
      (if r.1 < 2 ^ 32 then BitVec.ofNat 32 r.1 else 0xffffffff, r.2) := by
  obtain ⟨hspace, -, hminus, hplus, -, -⟩ := isXDigit_facts hc
  have hsign : sign (c :: ds) = (1, c :: ds) := by simp [sign, hminus, hplus]
  rw [scanHex, List.dropWhile_cons_of_neg (by simp [hspace]), hsign]
  simp only [Int.one_mul, BitVec.ofInt_natCast]

theorem kscanHex_eq {c : Char} {ds : List Char} (hc : isXDigit c = true) :
    kscanHex (c :: ds) = (hexNumber (c :: ds)).map fun r => (BitVec.ofNat 32 r.1, r.2) := by
  obtain ⟨-, hspace, -⟩ := isXDigit_facts hc
  rw [kscanHex, List.dropWhile_cons_of_neg (by simp [hspace])]

section Printed

variable (w : Word) {rest : List Char} (hrest : ∀ c, rest.head? = some c → isXDigit c = false)

/-- Eight digits are two digits and more. -/
theorem hex8_cons : ∃ c d ds, hex8 w = c :: d :: ds := by
  have hlen := length_hex8 w
  obtain ⟨c, cs, hc⟩ := List.exists_cons_of_length_pos (by omega : 0 < (hex8 w).length)
  obtain ⟨d, ds, hd⟩ := List.exists_cons_of_length_pos
    (by simp [hc] at hlen; omega : 0 < cs.length)
  exact ⟨c, d, ds, by rw [hc, hd]⟩

include hrest

/-- **`%x` reads back what `%08x` has printed.** -/
theorem scanHex_hex8 : scanHex (hex8 w ++ rest) = some (w, rest) := by
  have hdigits := isXDigit_of_mem_hex8 (w := w)
  have hvalue := hexadecimal_hex8 w
  obtain ⟨c, d, ds, hcons⟩ := hex8_cons w
  rw [hcons] at hdigits hvalue ⊢
  rw [List.cons_append, scanHex_eq (hdigits c (by simp)), ← List.cons_append,
    hexNumber_digits hdigits hrest, hvalue]
  simp [w.isLt]

/-- So does the kernel. -/
theorem kscanHex_hex8 : kscanHex (hex8 w ++ rest) = some (w, rest) := by
  have hdigits := isXDigit_of_mem_hex8 (w := w)
  have hvalue := hexadecimal_hex8 w
  obtain ⟨c, d, ds, hcons⟩ := hex8_cons w
  rw [hcons] at hdigits hvalue ⊢
  rw [List.cons_append, kscanHex_eq (hdigits c (by simp)), ← List.cons_append,
    hexNumber_digits hdigits hrest, hvalue]
  simp

end Printed

/-- The bytes of a text. -/
def bytes (text : List Char) : List Byte := text.map fun c => BitVec.ofNat 8 c.toNat

@[simp] theorem length_bytes (text : List Char) : (bytes text).length = text.length := by
  simp [bytes]

/-- Characters that fit in a byte are read back from it. -/
theorem chars_bytes {text : List Char} (h : ∀ c ∈ text, c.toNat < 256) :
    chars (bytes text) = text := by
  rw [chars, bytes, List.map_map]
  refine (List.map_congr_left fun c hc => ?_).trans (List.map_id text)
  simp [Nat.mod_eq_of_lt (h c hc)]

end SerialServer.Scan
