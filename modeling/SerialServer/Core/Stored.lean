import SerialServer.Core.Words

/-!
# SerialServer.Core.Stored

What `sscanf` stores, and whether it fits.

A `%s` without a width stores a string of any length. The strings a call stores stand here next
to their buffers (`stored`), and they fit when each is shorter than its buffer (`InBounds`). For
a format of strings that can be seen from the words of the text (`inBounds_words`).
-/

namespace SerialServer.Scan

variable {β : Type*}

/-- The strings a call of `sscanf` stores, with their buffers. Where a number is read there is
no buffer. -/
def stored : List (Option β) → List Value → List (β × List Char)
  | some b :: bs, .str t :: vs => (b, t) :: stored bs vs
  | _ :: bs, _ :: vs => stored bs vs
  | _, _ => []

/-- Every string is shorter than its buffer, which has room for its NUL then. -/
def InBounds (size : β → Nat) (ps : List (β × List Char)) : Prop :=
  ∀ p ∈ ps, p.2.length < size p.1

instance (size : β → Nat) (ps : List (β × List Char)) : Decidable (InBounds size ps) :=
  List.decidableBAll _ ps

theorem inBounds_cons {size : β → Nat} {p : β × List Char} {ps : List (β × List Char)} :
    InBounds size (p :: ps) ↔ p.2.length < size p.1 ∧ InBounds size ps :=
  List.forall_mem_cons

theorem inBounds_append {size : β → Nat} {ps qs : List (β × List Char)} :
    InBounds size (ps ++ qs) ↔ InBounds size ps ∧ InBounds size qs :=
  List.forall_mem_append

theorem inBounds_nil {size : β → Nat} : InBounds size ([] : List (β × List Char)) := by
  rintro p ⟨⟩

/-- A string stands next to its buffer. -/
theorem mem_stored {bs : List (Option β)} {vs : List Value} {i : Nat} {b : β} {t : List Char}
    (hb : bs[i]? = some (some b)) (ht : vs[i]? = some (.str t)) : (b, t) ∈ stored bs vs := by
  induction bs generalizing vs i with
  | nil => simp at hb
  | cons b' bs ih =>
    cases vs with
    | nil => simp at ht
    | cons v vs =>
      cases i with
      | zero =>
        obtain rfl := Option.some.inj hb
        obtain rfl := Option.some.inj ht
        exact List.mem_cons_self
      | succ i =>
        have hmem := ih hb ht
        cases b' with
        | none => exact hmem
        | some b' =>
          cases v with
          | str t' => exact List.mem_cons_of_mem _ hmem
          | int _ => exact hmem

/-- The words are shorter than the sizes, one by one, as far as both go. -/
def Within : List Nat → List (List Char) → Prop
  | n :: ns, w :: ws => w.length < n ∧ Within ns ws
  | _, _ => True

/-- Short words fit wherever there is as much room. -/
theorem within_of_forall {ns : List Nat} {ws : List (List Char)} {k : Nat} (hns : ∀ n ∈ ns, k ≤ n)
    (hws : ∀ w ∈ ws, w.length < k) : Within ns ws := by
  induction ns generalizing ws with
  | nil => trivial
  | cons n ns ih =>
    cases ws with
    | nil => trivial
    | cons w ws =>
      rw [List.forall_mem_cons] at hns hws
      exact ⟨Nat.lt_of_lt_of_le hws.1 hns.1, ih hns.2 hws.2⟩

section Conversions

variable {size : β → Nat} {b : β} {bs : List (Option β)} {convs : List Conv} {text : List Char}

/-- A `%s` stores the first word, and the other conversions go on behind it. -/
theorem inBounds_str {t rest : List Char} (h : token text = some (t, rest)) :
    InBounds size (stored (some b :: bs) (sscanf (.str :: convs) text)) ↔
      t.length < size b ∧ InBounds size (stored bs (sscanf convs rest)) := by
  rw [sscanf, h]
  exact inBounds_cons

theorem inBounds_str_none (h : token text = none) :
    InBounds size (stored (some b :: bs) (sscanf (.str :: convs) text)) := by
  rw [sscanf, h]
  exact inBounds_nil

end Conversions

/-- What a format of strings stores fits when the words of the text do. -/
theorem inBounds_words (size : β → Nat) (bs : List β) (text : List Char) :
    InBounds size (stored (bs.map some) (sscanf (List.replicate bs.length .str) text)) ↔
      Within (bs.map size) (words text) := by
  induction bs generalizing text with
  | nil => exact iff_of_true inBounds_nil trivial
  | cons b bs ih =>
    rw [List.length_cons, List.replicate_succ, List.map_cons]
    cases htoken : token text with
    | none =>
      rw [words_of_token_none htoken]
      exact iff_of_true (inBounds_str_none htoken) trivial
    | some r =>
      obtain ⟨t, rest⟩ := r
      rw [words_of_token htoken, inBounds_str htoken]
      exact and_congr_right' (ih rest)

end SerialServer.Scan
