import Mathlib.Data.List.Range
import Mathlib.Data.Nat.ModEq
import Mathlib.Logic.Function.Basic
import Mathlib.Tactic.Common

/-!
# SerialServer.Core.Ring

A queue in an array of `n` slots.

`head` and `tail` count what has been put in and taken out, and the slot of a count is its remainder.
Both can be brought down by `n` as often as `tail` allows (`wrap`), which changes no slot. What is in
the queue is a list (`contents`): `put` appends to it and `take` removes its first element.
-/

namespace SerialServer

/-- An array of slots with two counts. -/
structure Ring (α : Type*) where
  slots : Nat → α
  head : Nat
  tail : Nat

namespace Ring

variable {α : Type*} {n : Nat} {r : Ring α}

/-- The number of elements. -/
def size (r : Ring α) : Nat := r.head - r.tail

/-- What is in the queue. -/
def contents (n : Nat) (r : Ring α) : List α :=
  (List.range r.size).map fun i => r.slots ((r.tail + i) % n)

/-- An element is put in. -/
def put (n : Nat) (r : Ring α) (a : α) : Ring α :=
  { r with slots := Function.update r.slots (r.head % n) a, head := r.head + 1 }

/-- The element that is next. -/
def first (n : Nat) (r : Ring α) : α := r.slots (r.tail % n)

/-- Both counts are brought down while `tail` is above `n`. -/
def wrap (n : Nat) [NeZero n] (r : Ring α) : Ring α :=
  if n < r.tail then wrap n { r with head := r.head - n, tail := r.tail - n } else r
termination_by r.tail
decreasing_by
  have := Nat.pos_of_ne_zero (NeZero.ne n)
  omega

/-- The next element is taken out. -/
def take (n : Nat) [NeZero n] (r : Ring α) : Ring α := wrap n { r with tail := r.tail + 1 }

/-- There is room for what is in the queue. -/
structure Fits (n : Nat) (r : Ring α) : Prop where
  tail_le : r.tail ≤ r.head
  size_le : r.size ≤ n

/-- Slots that are less than a round apart are different. -/
theorem mod_ne_mod {a i j : Nat} (hij : i < j) (hj : j < i + n) :
    (a + i) % n ≠ (a + j) % n := by
  intro h
  have hmod : i ≡ j [MOD n] := Nat.ModEq.add_left_cancel' a h
  have hdvd : n ∣ j - i := (Nat.modEq_iff_dvd' hij.le).1 hmod
  have hle := Nat.le_of_dvd (Nat.sub_pos_of_lt hij) hdvd
  omega

/-- **What is put in comes last.** -/
theorem contents_put (h : r.Fits n) (hroom : r.size < n) (a : α) :
    (r.put n a).contents n = r.contents n ++ [a] := by
  have hsize : (r.put n a).size = r.size + 1 := by
    have := h.tail_le
    rw [size, size, put]
    dsimp only
    omega
  have hhead : r.tail + r.size = r.head := Nat.add_sub_of_le h.tail_le
  rw [contents, hsize, List.range_succ, List.map_append, List.map_singleton, contents]
  congr 1
  · refine List.map_congr_left fun i hi => ?_
    have hlt : i < r.size := List.mem_range.1 hi
    refine Function.update_of_ne ?_ _ _
    rw [← hhead]
    exact mod_ne_mod hlt (by omega)
  · rw [put]
    dsimp only
    rw [hhead, Function.update_self]

theorem fits_put (h : r.Fits n) (hroom : r.size < n) (a : α) : (r.put n a).Fits n := by
  have := h.tail_le
  refine ⟨?_, ?_⟩
  · rw [put]
    dsimp only
    omega
  · rw [size] at hroom ⊢
    rw [put]
    dsimp only
    omega

/-- Bringing the counts down by a round changes nothing. -/
theorem contents_round (hn : n ≤ r.tail) (h : r.tail ≤ r.head) :
    contents n { r with head := r.head - n, tail := r.tail - n } = r.contents n := by
  have hsize : size { r with head := r.head - n, tail := r.tail - n } = r.size := by
    rw [size, size]
    dsimp only
    omega
  rw [contents, hsize, contents]
  refine List.map_congr_left fun i _ => ?_
  dsimp only
  rw [← Nat.add_mod_right (r.tail - n + i) n]
  congr 2
  omega

variable [NeZero n]

theorem wrap_spec (h : r.tail ≤ r.head) :
    (r.wrap n).contents n = r.contents n ∧ (r.wrap n).size = r.size ∧
      (r.wrap n).tail ≤ n ∧ (r.wrap n).tail ≤ (r.wrap n).head := by
  induction r using wrap.induct n with
  | case1 r hlt ih =>
    obtain ⟨hcontents, hsize, htail, hle⟩ := ih (by dsimp only; omega)
    rw [wrap, if_pos hlt]
    refine ⟨hcontents.trans (contents_round hlt.le h), hsize.trans ?_, htail, hle⟩
    rw [size, size]
    dsimp only
    omega
  | case2 r hle =>
    rw [wrap, if_neg hle]
    exact ⟨rfl, rfl, Nat.le_of_not_lt hle, h⟩

/-- **What is taken out is what came first.** -/
theorem take_spec (h : r.Fits n) (hne : r.tail < r.head) :
    r.contents n = r.first n :: (r.take n).contents n ∧ (r.take n).Fits n ∧
      (r.take n).size + 1 = r.size ∧ (r.take n).tail ≤ n := by
  obtain ⟨hcontents, hsize, htail, hle⟩ :=
    wrap_spec (n := n) (r := { r with tail := r.tail + 1 }) hne
  have hpred : size { r with tail := r.tail + 1 } + 1 = r.size := by
    rw [size, size]
    dsimp only
    omega
  refine ⟨?_, ⟨hle, ?_⟩, ?_, htail⟩
  · rw [take, hcontents, contents, contents, ← hpred, List.range_succ_eq_map, List.map_cons,
      List.map_map, first, Nat.add_zero]
    congr 1
    refine List.map_congr_left fun i _ => ?_
    dsimp only [Function.comp]
    rw [Nat.add_right_comm, Nat.add_assoc]
  · have := h.size_le
    rw [take, hsize]
    omega
  · rw [take, hsize, hpred]

end Ring

end SerialServer
