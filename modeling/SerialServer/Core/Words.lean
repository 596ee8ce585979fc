import SerialServer.Core.Scan

/-!
# SerialServer.Core.Words

A text as the words it consists of.

`sscanf` reads a text from left to right and stops where a conversion fails. For strings that
comes to taking the first words of the text (`sscanf_words`), so what a format of strings is
given can be said of the text without running it. A `%d` takes the digits at the start of a
word and leaves the rest of it for the next conversion (`words_append`).

However the conversions are chosen, what they take are different parts of the text
(`totalLength_sscanf_le`).
-/

namespace SerialServer.Scan

/-- The words of a text: what there is between its white space. -/
def words (text : List Char) : List (List Char) := (text.splitOnP isSpace).filter (· ≠ [])

@[simp] theorem words_nil : words [] = [] := rfl

/-- White space separates words. -/
theorem words_append_cons (xs ys : List Char) {c : Char} (hc : isSpace c = true) :
    words (xs ++ c :: ys) = words xs ++ words ys := by
  rw [words, List.splitOnP_append_cons xs ys hc, List.filter_append]
  rfl

theorem words_cons {c : Char} (hc : isSpace c = true) (ys : List Char) :
    words (c :: ys) = words ys :=
  words_append_cons [] ys hc

theorem words_solid {t : List Char} (ht : Solid t) (hne : t ≠ []) : words t = [t] := by
  rw [words, List.splitOnP_eq_singleton ht]
  simp [hne]

/-- White space in front is skipped. -/
theorem words_dropWhile (text : List Char) : words (text.dropWhile isSpace) = words text := by
  induction text with
  | nil => rfl
  | cons c cs ih =>
    by_cases hc : isSpace c = true
    · rw [List.dropWhile_cons_of_pos hc, ih, words_cons hc]
    · rw [List.dropWhile_cons_of_neg hc]

/-- A text without white space in front of white space, or of nothing, is a word, if there is
anything in it. -/
theorem words_append {t rest : List Char} (ht : Solid t)
    (hrest : ∀ c, rest.head? = some c → isSpace c = true) :
    words (t ++ rest) = if t = [] then words rest else t :: words rest := by
  by_cases hne : t = []
  · rw [if_pos hne, hne, List.nil_append]
  rw [if_neg hne]
  cases rest with
  | nil => rw [List.append_nil, words_solid ht hne, words_nil]
  | cons c cs =>
    have hc := hrest c rfl
    rw [words_append_cons t cs hc, words_solid ht hne, words_cons hc, List.singleton_append]

/-! ### Scanning -/

/-- `%s` takes the first word. -/
theorem words_of_token {text t rest : List Char} (h : token text = some (t, rest)) :
    words text = t :: words rest := by
  obtain ⟨hne, ht, hd, hrest⟩ := token_spec h
  rw [← words_dropWhile, hd, words_append ht hrest, if_neg hne]

/-- `%s` fails when there is no word. -/
theorem words_of_token_none {text : List Char} (h : token text = none) : words text = [] := by
  rw [← words_dropWhile]
  unfold token at h
  split at h
  · next hd => rw [hd, words_nil]
  · cases h

/-- **Scanning for strings** gives the first words. -/
theorem sscanf_words (n : Nat) (text : List Char) :
    sscanf (List.replicate n .str) text = ((words text).take n).map .str := by
  induction n generalizing text with
  | zero => rfl
  | succ n ih =>
    rw [List.replicate_succ, sscanf]
    cases htoken : token text with
    | none =>
      rw [words_of_token_none htoken]
      rfl
    | some r =>
      obtain ⟨t, rest⟩ := r
      rw [words_of_token htoken, List.take_succ_cons, List.map_cons, ← ih]

/-- The characters of an assigned value. -/
def Value.length : Value → Nat
  | .str t => t.length
  | .int _ => 0

/-- All of them together. -/
def totalLength : List Value → Nat
  | [] => 0
  | v :: vs => v.length + totalLength vs

theorem length_token {text t rest : List Char} (h : token text = some (t, rest)) :
    t.length + rest.length ≤ text.length := by
  obtain ⟨-, -, hd, -⟩ := token_spec h
  rw [← List.length_append, ← hd]
  exact (List.dropWhile_suffix isSpace).length_le

theorem length_sign_le (ds : List Char) : (sign ds).2.length ≤ ds.length := by
  unfold sign
  split <;> simp

theorem length_integer {text rest : List Char} {v : Int} (h : integer text = some (v, rest)) :
    rest.length ≤ text.length := by
  unfold integer at h
  dsimp only at h
  split at h
  · cases h
  · obtain ⟨-, rfl⟩ := Prod.mk.inj (Option.some.inj h)
    have hdigits := (List.dropWhile_suffix (l := (sign (text.dropWhile isSpace)).2)
      Char.isDigit).length_le
    have hsign := length_sign_le (text.dropWhile isSpace)
    have hspace := (List.dropWhile_suffix (l := text) isSpace).length_le
    omega

/-- **The strings that are assigned have no more characters than the text**, all together. -/
theorem totalLength_sscanf_le (convs : List Conv) (text : List Char) :
    totalLength (sscanf convs text) ≤ text.length := by
  induction convs generalizing text with
  | nil => exact Nat.zero_le _
  | cons conv convs ih =>
    cases conv with
    | str =>
      rw [sscanf]
      cases htoken : token text with
      | none => exact Nat.zero_le _
      | some r =>
        obtain ⟨t, rest⟩ := r
        have hlen := length_token htoken
        have hrest := ih rest
        simp only [totalLength, Value.length]
        omega
    | int =>
      rw [sscanf]
      cases hint : integer text with
      | none => exact Nat.zero_le _
      | some r =>
        obtain ⟨v, rest⟩ := r
        have hlen := length_integer hint
        have hrest := ih rest
        simp only [totalLength, Value.length]
        omega

/-- Every number that is assigned is one an `int` can hold. -/
theorem range_of_mem_sscanf {convs : List Conv} {text : List Char} {v : Int}
    (h : .int v ∈ sscanf convs text) : -2147483648 ≤ v ∧ v ≤ 2147483647 := by
  induction convs generalizing text with
  | nil => cases h
  | cons conv convs ih =>
    cases conv with
    | str =>
      rw [sscanf] at h
      split at h
      · rcases List.mem_cons.1 h with ht | ht
        · cases ht
        · exact ih ht
      · cases h
    | int =>
      rw [sscanf] at h
      split at h
      · next w rest hint =>
        rcases List.mem_cons.1 h with ht | ht
        · obtain rfl := Value.int.inj ht
          exact integer_range hint
        · exact ih ht
      · cases h

/-! ### Numbers -/

theorem sign_eq_self {ds : List Char} (h : ∀ c ∈ ds, c.isDigit = true) : sign ds = (1, ds) := by
  cases ds with
  | nil => rfl
  | cons c cs =>
    have hc := h c List.mem_cons_self
    have hminus : c ≠ '-' := by
      rintro rfl
      exact absurd hc (by decide)
    have hplus : c ≠ '+' := by
      rintro rfl
      exact absurd hc (by decide)
    simp [sign, hminus, hplus]

/-- **`%d` reads back what `%d` has printed.** -/
theorem integer_toDigits (n : Nat) : integer (Nat.toDigits 10 n) = some (saturate n, []) := by
  have hdigit : ∀ c ∈ Nat.toDigits 10 n, c.isDigit = true :=
    fun c hc => Nat.isDigit_of_mem_toDigits (by decide) (by decide) hc
  have hspace := dropWhile_solid (solid_toDigits n) Nat.toDigits_ne_nil []
  rw [List.append_nil] at hspace
  have hvalue : decimal (Nat.toDigits 10 n) = n := Nat.ofDigitChars_ten_toDigits
  rw [integer, hspace, sign_eq_self hdigit]
  dsimp only
  rw [List.takeWhile_eq_self_iff.2 hdigit, List.dropWhile_eq_nil_iff.2 hdigit]
  obtain ⟨c, cs, hcons⟩ := List.exists_cons_of_ne_nil (Nat.toDigits_ne_nil (b := 10) (n := n))
  rw [hcons] at hvalue ⊢
  dsimp only
  rw [hvalue, Int.one_mul]

end SerialServer.Scan
