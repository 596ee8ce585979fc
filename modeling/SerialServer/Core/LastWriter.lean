import Mathlib.Data.List.Induction
import Mathlib.Tactic.Common

/-!
# SerialServer.Core.LastWriter

Registers of a state that is folded over a history of events.

A `Register f get p v` is a part `get` of the state of `f` that an event either
overwrites, with a value that depends on the event alone, or leaves as it was. Its
content after any history is then a fact about the last event that wrote it
(`Register.foldl`), and everything one wants to know about reordering, repeating or
deleting events follows without looking at the states in between.
-/

namespace SerialServer

variable {σ α β : Type*}

/-- `get` is a register of `f`: events with `p` write `v` to it, the others keep it. -/
structure Register (f : σ → α → σ) (get : σ → β) (p : α → Bool) (v : α → β) : Prop where
  write : ∀ s a, p a = true → get (f s a) = v a
  keep : ∀ s a, p a = false → get (f s a) = get s

namespace Register

variable {f : σ → α → σ} {get : σ → β} {p : α → Bool} {v : α → β}

/-- **The content of a register is what its last writer wrote.** -/
theorem foldl (h : Register f get p v) (s : σ) (as : List α) :
    get (as.foldl f s) = (as.filter p).getLast?.elim (get s) v := by
  induction as using List.reverseRecOn with
  | nil => rfl
  | append_singleton as a ih =>
    rw [List.foldl_append, List.filter_append, List.foldl_cons, List.foldl_nil]
    cases hp : p a with
    | true => simp [h.write _ _ hp, hp]
    | false => simp [h.keep _ _ hp, hp, ih]

/-- A history in which the register's writers are the same gives the same content. -/
theorem foldl_congr (h : Register f get p v) (s : σ) {as bs : List α}
    (hw : as.filter p = bs.filter p) : get (as.foldl f s) = get (bs.foldl f s) := by
  rw [h.foldl, h.foldl, hw]

/-- Events that do not write the register can be deleted. -/
theorem foldl_filter (h : Register f get p v) (s : σ) {q : α → Bool} {as : List α}
    (hq : ∀ a ∈ as, q a = false → p a = false) :
    get ((as.filter q).foldl f s) = get (as.foldl f s) := by
  refine h.foldl_congr s ?_
  rw [List.filter_filter]
  refine List.filter_congr fun a ha => ?_
  cases hqa : q a with
  | true => simp
  | false => simp [hq a ha hqa]

/-- Repeating an event at once changes nothing. -/
theorem foldl_repeat (h : Register f get p v) (s : σ) (as : List α) (a : α) (bs : List α) :
    get ((as ++ a :: a :: bs).foldl f s) = get ((as ++ a :: bs).foldl f s) := by
  rw [h.foldl, h.foldl]
  cases hp : p a with
  | true => simp [hp]
  | false => simp [hp]

/-- Two events can be exchanged unless both write the register. -/
theorem foldl_swap (h : Register f get p v) (s : σ) (as : List α) {a b : α} (bs : List α)
    (hab : p a = false ∨ p b = false) :
    get ((as ++ a :: b :: bs).foldl f s) = get ((as ++ b :: a :: bs).foldl f s) := by
  refine h.foldl_congr s ?_
  rcases hab with ha | hb
  · simp [List.filter_cons, ha]
  · simp [List.filter_cons, hb]

end Register

end SerialServer
