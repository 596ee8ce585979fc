import Mathlib.Algebra.BigOperators.Group.Finset.Basic
import Mathlib.Algebra.Order.BigOperators.Group.Finset
import Mathlib.Tactic.Common

/-!
# SerialServer.Core.Tally

Numbers of parties by what they are doing.

Each of finitely many parties is in some state, and `tally g` adds up what the states weigh: with the
weights 0 and 1 it counts the parties in certain states, with others it measures how far they are from
an end. When one party moves, the sum changes by the difference of its weights (`tally_update`).
-/

namespace SerialServer

variable {ι σ : Type*} [Fintype ι] {g h : σ → Nat} {f : ι → σ} {i : ι} {a : σ}

/-- What the states of all parties weigh together. -/
def tally (g : σ → Nat) (f : ι → σ) : Nat := ∑ i, g (f i)

theorem le_tally (g : σ → Nat) (f : ι → σ) (i : ι) : g (f i) ≤ tally g f :=
  Finset.single_le_sum (f := fun j => g (f j)) (fun _ _ => Nat.zero_le _) (Finset.mem_univ i)

theorem tally_eq_zero_iff : tally g f = 0 ↔ ∀ i, g (f i) = 0 := by
  rw [tally, Finset.sum_eq_zero_iff]
  exact ⟨fun h i => h i (Finset.mem_univ i), fun h i _ => h i⟩

theorem exists_of_tally_ne_zero (h : tally g f ≠ 0) : ∃ i, g (f i) ≠ 0 := by
  by_contra hnone
  refine h (tally_eq_zero_iff.2 fun i => ?_)
  by_contra hi
  exact hnone ⟨i, hi⟩

theorem tally_le_tally {f' : ι → σ} (hle : ∀ i, g (f i) ≤ h (f' i)) : tally g f ≤ tally h f' :=
  Finset.sum_le_sum fun i _ => hle i

/-- **One party moves.** -/
theorem tally_update [DecidableEq ι] (g : σ → Nat) (f : ι → σ) (i : ι) (a : σ) :
    tally g (Function.update f i a) + g (f i) = tally g f + g a := by
  rw [tally, tally, ← Finset.add_sum_erase _ _ (Finset.mem_univ i),
    ← Finset.add_sum_erase (a := i) _ (fun j => g (f j)) (Finset.mem_univ i),
    Function.update_self]
  have hrest : ∑ j ∈ Finset.univ.erase i, g (Function.update f i a j) =
      ∑ j ∈ Finset.univ.erase i, g (f j) := by
    refine Finset.sum_congr rfl fun j hj => ?_
    rw [Function.update_of_ne (Finset.ne_of_mem_erase hj)]
  rw [hrest]
  omega

end SerialServer
