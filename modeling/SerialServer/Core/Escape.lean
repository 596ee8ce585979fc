import Mathlib.Data.List.Basic
import Mathlib.Tactic.Common

/-!
# SerialServer.Core.Escape

Streams in which an escape element stands for itself only when it is doubled.

`double esc xs` writes every `esc` of `xs` twice. A sender may pass such a stream on in
pieces, and a piece may end between the two halves of a pair; `double_split` says that
this and the end of an element are the only places where a doubled list can be cut.
-/

namespace SerialServer.Escape

variable {α : Type*} [DecidableEq α] (esc : α)

/-- An element, twice if it is the escape. -/
def pair (a : α) : List α := if a = esc then [a, a] else [a]

/-- Every escape twice. -/
def double (xs : List α) : List α := xs.flatMap (pair esc)

@[simp] theorem pair_self : pair esc esc = [esc, esc] := if_pos rfl

theorem pair_of_ne {a : α} (h : a ≠ esc) : pair esc a = [a] := if_neg h

@[simp] theorem double_nil : double esc [] = [] := rfl

@[simp] theorem double_cons (a : α) (xs : List α) :
    double esc (a :: xs) = pair esc a ++ double esc xs := rfl

theorem double_append (xs ys : List α) :
    double esc (xs ++ ys) = double esc xs ++ double esc ys :=
  List.flatMap_append

theorem length_double (xs : List α) :
    (double esc xs).length = xs.length + xs.count esc := by
  induction xs with
  | nil => rfl
  | cons a xs ih =>
    rw [double_cons, List.length_append, ih, List.length_cons, List.count_cons]
    by_cases ha : a = esc
    · subst ha
      simp only [pair_self, List.length_cons, List.length_nil, beq_self_eq_true, if_true]
      omega
    · rw [pair_of_ne esc ha, List.length_singleton, if_neg (by simpa using ha)]
      omega

/-- Without escapes nothing is doubled. -/
theorem double_of_notMem {xs : List α} (h : esc ∉ xs) : double esc xs = xs := by
  induction xs with
  | nil => rfl
  | cons a xs ih =>
    rw [List.mem_cons, not_or] at h
    rw [double_cons, pair_of_ne esc (Ne.symm h.1), ih h.2, List.singleton_append]

/-- **Where a doubled list can be cut**: between two elements, or between the two halves of
an escape. -/
theorem double_split {xs ls rs : List α} (h : double esc xs = ls ++ rs) :
    (∃ ys zs, xs = ys ++ zs ∧ ls = double esc ys ∧ rs = double esc zs) ∨
      ∃ ys zs, xs = ys ++ esc :: zs ∧ ls = double esc ys ++ [esc] ∧
        rs = esc :: double esc zs := by
  induction xs generalizing ls with
  | nil =>
    obtain ⟨rfl, rfl⟩ := List.append_eq_nil_iff.1 h.symm
    exact .inl ⟨[], [], rfl, rfl, rfl⟩
  | cons a xs ih =>
    -- The cut is in front of the first element, behind its first half, or further on.
    have hlater : ∀ ls', ls = pair esc a ++ ls' → double esc xs = ls' ++ rs →
        (∃ ys zs, a :: xs = ys ++ zs ∧ ls = double esc ys ∧ rs = double esc zs) ∨
          ∃ ys zs, a :: xs = ys ++ esc :: zs ∧ ls = double esc ys ++ [esc] ∧
            rs = esc :: double esc zs := by
      rintro ls' rfl hrest
      rcases ih hrest with ⟨ys, zs, rfl, rfl, rfl⟩ | ⟨ys, zs, rfl, rfl, rfl⟩
      · exact .inl ⟨a :: ys, zs, rfl, rfl, rfl⟩
      · exact .inr ⟨a :: ys, zs, rfl, by rw [double_cons, List.append_assoc], rfl⟩
    cases ls with
    | nil => exact .inl ⟨[], a :: xs, rfl, rfl, h.symm⟩
    | cons l ls =>
      by_cases ha : a = esc
      · subst ha
        rw [double_cons, pair_self, List.cons_append, List.cons_append, List.cons_append,
          List.cons.injEq] at h
        obtain ⟨rfl, h⟩ := h
        cases ls with
        | nil => exact .inr ⟨[], xs, rfl, rfl, h.symm⟩
        | cons l' ls =>
          rw [List.nil_append, List.cons_append, List.cons.injEq] at h
          obtain ⟨rfl, h⟩ := h
          exact hlater ls (by rw [pair_self]; rfl) h
      · rw [double_cons, pair_of_ne esc ha, List.singleton_append, List.cons_append,
          List.cons.injEq] at h
        obtain ⟨rfl, h⟩ := h
        exact hlater ls (by rw [pair_of_ne esc ha]; rfl) h

end SerialServer.Escape
