import Mathlib.Data.List.Basic
import Mathlib.Data.List.TakeWhile
import Mathlib.Tactic.Common

/-!
# SerialServer.Core.Scan

`sscanf` and the texts it reads, as lists of characters.

A format here is a list of conversions, `%s` or `%d`, and the result is the list of the
values that were assigned, so its length is what the call returns (the end of the input
before the first conversion, which returns `EOF`, assigns none). Both conversions skip
white space first; `%s` then takes what is not white space, and `%d` an optional sign and
decimal digits, saturating like `strtol`.

The texts are made by `sprintf` from fields with single blanks between them (`line`).
When no field has white space in it, scanning gives the fields that are not empty
(`sscanf_line`): an empty field is not seen, and those after it move up.
-/

namespace SerialServer.Scan

/-- `isspace`: the blank and the characters from tab to carriage return. -/
def isSpace (c : Char) : Bool := c == ' ' || decide (9 ≤ c.toNat ∧ c.toNat ≤ 13)

/-- The string at the start of a buffer: what comes before the first NUL. -/
def cstr (buf : List Char) : List Char := buf.takeWhile fun c => c.toNat ≠ 0

/-- What `%s` takes, and what it leaves. -/
def token (text : List Char) : Option (List Char × List Char) :=
  match text.dropWhile isSpace with
  | [] => none
  | c :: cs => some ((c :: cs).takeWhile (!isSpace ·), (c :: cs).dropWhile (!isSpace ·))

/-- The value of decimal digits. -/
def decimal (ds : List Char) : Nat := ds.foldl (fun n c => 10 * n + (c.toNat - '0'.toNat)) 0

/-- The value `strtol` gives on a machine with 32 bits. -/
def saturate (v : Int) : Int := max (-2147483648) (min 2147483647 v)

/-- An optional sign, and what follows it. -/
def sign : List Char → Int × List Char
  | '-' :: ds => (-1, ds)
  | '+' :: ds => (1, ds)
  | ds => (1, ds)

/-- What `%d` takes, and what it leaves. -/
def integer (text : List Char) : Option (Int × List Char) :=
  let (s, ds) := sign (text.dropWhile isSpace)
  match ds.takeWhile Char.isDigit with
  | [] => none
  | c :: cs => some (saturate (s * decimal (c :: cs)), ds.dropWhile Char.isDigit)

/-- A conversion. -/
inductive Conv
  | str
  | int
  deriving Repr, DecidableEq

/-- An assigned value. -/
inductive Value
  | str (text : List Char)
  | int (v : Int)
  deriving Repr, DecidableEq

/-- `sscanf`: the values assigned before the first conversion that fails. -/
def sscanf : List Conv → List Char → List Value
  | [], _ => []
  | .str :: convs, text =>
      match token text with
      | some (t, rest) => .str t :: sscanf convs rest
      | none => []
  | .int :: convs, text =>
      match integer text with
      | some (v, rest) => .int v :: sscanf convs rest
      | none => []

/-- `%d`, the other way round. -/
def intText (v : Int) : List Char :=
  if v < 0 then '-' :: Nat.toDigits 10 v.natAbs else Nat.toDigits 10 v.natAbs

/-- Fields with single blanks between them. -/
def line : List (List Char) → List Char
  | [] => []
  | [f] => f
  | f :: fs => f ++ ' ' :: line fs

/-- What has been checked of the characters of a text, one by one. -/
theorem forall_mem_of_all {P : Char → Prop} [DecidablePred P] {t : List Char}
    (h : (t.all fun c => P c) = true) : ∀ c ∈ t, P c :=
  fun c hc => of_decide_eq_true (List.all_eq_true.1 h c hc)

/-- A text without white space. -/
def Solid (t : List Char) : Prop := ∀ c ∈ t, isSpace c = false

instance (t : List Char) : Decidable (Solid t) := List.decidableBAll _ t

theorem Solid.append {s t : List Char} (hs : Solid s) (ht : Solid t) : Solid (s ++ t) := by
  intro c hc
  rcases List.mem_append.1 hc with h | h
  · exact hs c h
  · exact ht c h

/-- A text that can be a field of a line in a C string: no white space, and no NUL. -/
structure Token (t : List Char) : Prop where
  solid : Solid t
  noNul : ∀ c ∈ t, c.toNat ≠ 0

instance (t : List Char) : Decidable (Token t) :=
  have : Decidable (∀ c ∈ t, c.toNat ≠ 0) := List.decidableBAll _ t
  decidable_of_iff (Solid t ∧ ∀ c ∈ t, c.toNat ≠ 0) ⟨fun h => ⟨h.1, h.2⟩, fun h => ⟨h.1, h.2⟩⟩

/-! ### One conversion -/

theorem dropWhile_solid {t : List Char} (ht : Solid t) (hne : t ≠ []) (rest : List Char) :
    (t ++ rest).dropWhile isSpace = t ++ rest := by
  cases t with
  | nil => exact absurd rfl hne
  | cons c t => simp [ht c (by simp)]

@[simp] theorem token_nil : token [] = none := rfl

/-- White space in front is skipped. -/
theorem sscanf_space (convs : List Conv) (text : List Char) :
    sscanf convs (' ' :: text) = sscanf convs text := by
  cases convs with
  | nil => rfl
  | cons conv convs => cases conv <;> rfl

/-- What `%s` takes is what stands before the next blank. -/
theorem token_solid {t : List Char} (ht : Solid t) (hne : t ≠ []) (rest : List Char) :
    token (t ++ ' ' :: rest) = some (t, ' ' :: rest) := by
  have hall : ∀ c ∈ t, (!isSpace c) = true := fun c hc => by simp [ht c hc]
  rw [token, dropWhile_solid ht hne]
  obtain ⟨c, cs, rfl⟩ := List.exists_cons_of_ne_nil hne
  dsimp only [List.cons_append]
  rw [← List.cons_append, List.takeWhile_append_of_pos hall, List.dropWhile_append_of_pos hall]
  simp [isSpace]

theorem token_solid_end {t : List Char} (ht : Solid t) (hne : t ≠ []) :
    token t = some (t, []) := by
  have hall : ∀ c ∈ t, (!isSpace c) = true := fun c hc => by simp [ht c hc]
  have hd := dropWhile_solid ht hne []
  rw [List.append_nil] at hd
  rw [token, hd]
  obtain ⟨c, cs, rfl⟩ := List.exists_cons_of_ne_nil hne
  dsimp only
  rw [List.takeWhile_eq_self_iff.2 hall, List.dropWhile_eq_nil_iff.2 hall]

theorem sign_append {t : List Char} (hne : t ≠ []) (rest : List Char) :
    sign (t ++ rest) = ((sign t).1, (sign t).2 ++ rest) := by
  obtain ⟨c, cs, rfl⟩ := List.exists_cons_of_ne_nil hne
  by_cases hm : c = '-'
  · subst hm
    rfl
  by_cases hp : c = '+'
  · subst hp
    rfl
  simp [sign, hm, hp]

/-- What `%s` takes has no white space in it, and white space or nothing follows. -/
theorem token_spec {text t rest : List Char} (h : token text = some (t, rest)) :
    t ≠ [] ∧ Solid t ∧ text.dropWhile isSpace = t ++ rest ∧
      ∀ c, rest.head? = some c → isSpace c = true := by
  unfold token at h
  cases hd : text.dropWhile isSpace with
  | nil =>
    rw [hd] at h
    cases h
  | cons c cs =>
    rw [hd] at h
    obtain ⟨rfl, rfl⟩ := Prod.mk.inj (Option.some.inj h)
    have hc : isSpace c = false := by
      have hhead := List.head?_dropWhile_not isSpace text
      rw [hd] at hhead
      simpa using hhead
    refine ⟨?_, ?_, (List.takeWhile_append_dropWhile).symm, ?_⟩
    · simp [hc]
    · intro x hx
      simpa using List.mem_takeWhile_imp hx
    · intro x hx
      have hhead := List.head?_dropWhile_not (!isSpace ·) (c :: cs)
      rw [hx] at hhead
      simpa using hhead

theorem not_isDigit_of_isSpace {c : Char} (hc : isSpace c = true) : c.isDigit = false := by
  cases hdigit : c.isDigit with
  | false => rfl
  | true =>
    simp only [Char.isDigit, Bool.and_eq_true, decide_eq_true_eq] at hdigit
    have hlow : 48 ≤ c.toNat := hdigit.1
    rw [isSpace, Bool.or_eq_true, beq_iff_eq, decide_eq_true_eq] at hc
    rcases hc with rfl | hc
    · exact absurd hlow (by decide)
    · omega

/-- What follows a token is the end of a number. -/
theorem digits_append (ds : List Char) {rest : List Char}
    (h : ∀ c, rest.head? = some c → isSpace c = true) :
    (ds ++ rest).takeWhile Char.isDigit = ds.takeWhile Char.isDigit ∧
      (ds ++ rest).dropWhile Char.isDigit = ds.dropWhile Char.isDigit ++ rest := by
  induction ds with
  | nil =>
    cases rest with
    | nil => exact ⟨rfl, rfl⟩
    | cons c cs => simp [not_isDigit_of_isSpace (h c rfl)]
  | cons d ds ih =>
    cases hd : d.isDigit with
    | false => simp [hd]
    | true => simpa [hd] using ih

/-- `%d` reads the first token of a text, and nothing behind it. -/
theorem integer_token {text t rest : List Char} (h : token text = some (t, rest)) :
    integer text = (integer t).map fun r => (r.1, r.2 ++ rest) := by
  obtain ⟨hne, ht, hd, hrest⟩ := token_spec h
  have hd' := dropWhile_solid ht hne []
  rw [List.append_nil] at hd'
  rw [integer, integer, hd', hd, sign_append hne]
  generalize sign t = sg
  obtain ⟨s, ds⟩ := sg
  obtain ⟨htake, hdrop⟩ := digits_append ds hrest
  dsimp only
  rw [htake, hdrop]
  split <;> rfl

/-- The value of `%d` is one an `int` can hold. -/
theorem integer_range {text rest : List Char} {v : Int} (h : integer text = some (v, rest)) :
    -2147483648 ≤ v ∧ v ≤ 2147483647 := by
  unfold integer at h
  dsimp only at h
  split at h
  · cases h
  · obtain ⟨rfl, -⟩ := Prod.mk.inj (Option.some.inj h)
    simp only [saturate]
    omega

theorem mem_of_sign {ds : List Char} {c : Char} (h : c ∈ (sign ds).2) : c ∈ ds := by
  unfold sign at h
  split at h
  · exact List.mem_cons_of_mem _ h
  · exact List.mem_cons_of_mem _ h
  · exact h

theorem mem_of_integer {text rest : List Char} {v : Int} (h : integer text = some (v, rest))
    {c : Char} (hc : c ∈ rest) : c ∈ text := by
  unfold integer at h
  dsimp only at h
  split at h
  · cases h
  · obtain ⟨-, rfl⟩ := Prod.mk.inj (Option.some.inj h)
    exact (List.dropWhile_suffix isSpace).subset
      (mem_of_sign ((List.dropWhile_suffix Char.isDigit).subset hc))

theorem cstr_noNul (buf : List Char) : ∀ c ∈ cstr buf, c.toNat ≠ 0 :=
  fun _ hc => by simpa using List.mem_takeWhile_imp hc

/-- A text without a NUL stands in a C string whole. -/
theorem cstr_eq_self {t : List Char} (h : ∀ c ∈ t, c.toNat ≠ 0) : cstr t = t :=
  List.takeWhile_eq_self_iff.2 fun c hc => decide_eq_true (h c hc)

/-- Every string `sscanf` assigns is a field, and not empty. -/
theorem token_of_mem_sscanf {convs : List Conv} {text t : List Char}
    (hnul : ∀ c ∈ text, c.toNat ≠ 0) (h : .str t ∈ sscanf convs text) : Token t ∧ t ≠ [] := by
  induction convs generalizing text with
  | nil => cases h
  | cons conv convs ih =>
    cases conv with
    | str =>
      rw [sscanf] at h
      split at h
      · next u rest htoken =>
        obtain ⟨hne, hsolid, hd, -⟩ := token_spec htoken
        have hmem : ∀ c ∈ u ++ rest, c ∈ text := fun c hc =>
          (List.dropWhile_suffix isSpace).subset (hd ▸ hc)
        rcases List.mem_cons.1 h with ht | ht
        · obtain rfl := Value.str.inj ht
          exact ⟨⟨hsolid, fun c hc => hnul c (hmem c (List.mem_append_left _ hc))⟩, hne⟩
        · exact ih (fun c hc => hnul c (hmem c (List.mem_append_right _ hc))) ht
      · cases h
    | int =>
      rw [sscanf] at h
      split at h
      · next v rest hint =>
        rcases List.mem_cons.1 h with ht | ht
        · cases ht
        · exact ih (fun c hc => hnul c (mem_of_integer hint hc)) ht
      · cases h

/-- Decimal digits are not white space. -/
theorem solid_toDigits (n : Nat) : Solid (Nat.toDigits 10 n) := by
  intro c hc
  have hdigit : c.isDigit = true := Nat.isDigit_of_mem_toDigits (by decide) (by decide) hc
  simp only [Char.isDigit, Bool.and_eq_true, decide_eq_true_eq] at hdigit
  have hlow : 48 ≤ c.toNat := hdigit.1
  have hne : c ≠ ' ' := by
    rintro rfl
    exact absurd hlow (by decide)
  simp [isSpace, hne]
  omega

/-- The text `%d` prints has no white space. -/
theorem solid_intText (v : Int) : Solid (intText v) := by
  unfold intText
  split
  · intro c hc
    rcases List.mem_cons.1 hc with rfl | hc
    · rfl
    · exact solid_toDigits _ c hc
  · exact solid_toDigits _

/-- What `%d` prints is a field. -/
theorem token_intText (v : Int) : Token (intText v) := by
  have hdigits : ∀ n, ∀ c ∈ Nat.toDigits 10 n, c.toNat ≠ 0 := by
    intro n c hc
    have hdigit : c.isDigit = true := Nat.isDigit_of_mem_toDigits (by decide) (by decide) hc
    simp only [Char.isDigit, Bool.and_eq_true, decide_eq_true_eq] at hdigit
    have hlow : 48 ≤ c.toNat := hdigit.1
    omega
  refine ⟨solid_intText v, ?_⟩
  unfold intText
  split
  · intro c hc
    rcases List.mem_cons.1 hc with rfl | hc
    · decide
    · exact hdigits _ c hc
  · exact hdigits _

theorem intText_ne_nil (v : Int) : intText v ≠ [] := by
  unfold intText
  split
  · simp
  · exact Nat.toDigits_ne_nil

/-- What `%d` prints has eleven characters at most. -/
theorem length_intText_le {v : Int} (h : -2147483648 ≤ v ∧ v ≤ 2147483647) :
    (intText v).length ≤ 11 := by
  have hdigits : (Nat.toDigits 10 v.natAbs).length ≤ 10 :=
    (Nat.length_toDigits_le_iff (by decide) (by decide)).2 (by omega)
  unfold intText
  split
  · rw [List.length_cons]
    omega
  · omega

/-! ### Lines -/

theorem line_cons (f : List Char) {fs : List (List Char)} (hne : fs ≠ []) :
    line (f :: fs) = f ++ ' ' :: line fs := by
  cases fs with
  | nil => exact absurd rfl hne
  | cons g fs => rfl

/-- A line of fields stands in a C string whole. -/
theorem cstr_line {fields : List (List Char)} (h : ∀ f ∈ fields, Token f) :
    cstr (line fields) = line fields := by
  refine cstr_eq_self fun c hc => ?_
  induction fields with
  | nil => cases hc
  | cons f fs ih =>
    have hf : ∀ c ∈ f, c.toNat ≠ 0 := (h f (by simp)).noNul
    by_cases hfs : fs = []
    · subst hfs
      exact hf c hc
    · rw [line_cons f hfs] at hc
      rcases List.mem_append.1 hc with hc | hc
      · exact hf c hc
      rcases List.mem_cons.1 hc with rfl | hc
      · decide
      · exact ih (fun g hg => h g (by simp [hg])) hc

/-- **Scanning a line for strings** gives the fields that are not empty. -/
theorem sscanf_line {fields : List (List Char)} (h : ∀ f ∈ fields, Solid f) (n : Nat) :
    sscanf (List.replicate n .str) (line fields) =
      ((fields.filter (· ≠ [])).take n).map .str := by
  induction fields generalizing n with
  | nil => cases n <;> rfl
  | cons f fs ih =>
    have hf : Solid f := h f (by simp)
    have ih' := ih fun g hg => h g (by simp [hg])
    by_cases hfs : fs = []
    · subst hfs
      by_cases hne : f = []
      · subst hne
        cases n <;> rfl
      · cases n with
        | zero => rfl
        | succ n =>
          rw [line, List.replicate_succ, sscanf, token_solid_end hf hne]
          have hnil : sscanf (List.replicate n .str) [] = [] := by cases n <;> rfl
          simp [hne, hnil]
    · rw [line_cons f hfs]
      by_cases hne : f = []
      · -- An empty field leaves nothing but its blank.
        subst hne
        rw [List.nil_append, sscanf_space, ih']
        simp
      · cases n with
        | zero => rfl
        | succ n =>
          rw [List.replicate_succ, sscanf, token_solid hf hne]
          dsimp only
          rw [sscanf_space, ih']
          simp [hne]

/-- When every field has something in it, all of them come back. -/
theorem sscanf_line_full {fields : List (List Char)} (h : ∀ f ∈ fields, Solid f ∧ f ≠ []) :
    sscanf (List.replicate fields.length .str) (line fields) = fields.map .str := by
  have hfilter : fields.filter (· ≠ []) = fields :=
    List.filter_eq_self.2 fun f hf => by simp [(h f hf).2]
  rw [sscanf_line (fun f hf => (h f hf).1), hfilter, List.take_length]

end SerialServer.Scan
