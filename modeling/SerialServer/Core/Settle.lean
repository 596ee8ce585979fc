import Mathlib.Data.List.Chain
import Mathlib.Data.List.ReduceOption
import Mathlib.Tactic.Common

/-!
# SerialServer.Core.Settle

A filter for levels that are sampled over and over.

`report` looks at three samples in a row and reports a level when it is seen for the
second time after another one; `reports` is what it says along a whole history, entry by
entry, the first sample counting as if it had always been there. Nothing is remembered
but the last two samples.

A run of equal samples reports its level once, at its second sample, and a single sample
reports nothing (`reports_run`). So the last report is the last level that was seen twice
(`getLast_reports`). Two levels only: which one was reported last is read off the history
as `SettledAt`, and the reports alternate unless a level is left for single samples and
comes back (`alternates_iff`).
-/

namespace SerialServer.Settle

section Levels

variable {α : Type*} [DecidableEq α]

/-- What three samples in a row report. -/
def report (x₀ x₁ x₂ : α) : Option α := if x₀ ≠ x₁ ∧ x₁ = x₂ then some x₂ else none

/-- The reports of the samples `xs`, taken after `a` and `b`. -/
def reportsFrom (a b : α) : List α → List (Option α)
  | [] => []
  | x :: xs => report a b x :: reportsFrom b x xs

/-- The reports along a history. -/
def reports : List α → List (Option α)
  | [] => []
  | x :: xs => none :: reportsFrom x x xs

theorem report_eq_some {x₀ x₁ x₂ v : α} : report x₀ x₁ x₂ = some v ↔ x₀ ≠ v ∧ x₁ = v ∧ x₂ = v := by
  unfold report
  constructor
  · intro h
    split at h
    case isTrue hc =>
      obtain rfl := Option.some.inj h
      exact ⟨hc.2 ▸ hc.1, hc.2, rfl⟩
    case isFalse => cases h
  · rintro ⟨h₀, rfl, rfl⟩
    rw [if_pos ⟨h₀, rfl⟩]

theorem report_same (x y : α) : report x x y = none := by
  simp [report]

theorem report_change {x y : α} (z : α) (h : x ≠ y) : report z x y = none := by
  simp [report, h]

theorem report_settled {x y : α} (h : x ≠ y) : report x y y = some y := by
  simp [report, h]

@[simp] theorem reportsFrom_length (a b : α) (xs : List α) :
    (reportsFrom a b xs).length = xs.length := by
  induction xs generalizing a b with
  | nil => rfl
  | cons x xs ih => simp [reportsFrom, ih]

@[simp] theorem reports_length (xs : List α) : (reports xs).length = xs.length := by
  cases xs <;> simp [reports]

/-! ### Splitting a history -/

theorem short_or_append_two {β : Type*} (xs : List β) :
    xs = [] ∨ (∃ b, xs = [b]) ∨ ∃ ys a b, xs = ys ++ [a, b] := by
  rcases List.eq_nil_or_concat xs with rfl | ⟨xs, b, rfl⟩
  · exact .inl rfl
  rcases List.eq_nil_or_concat xs with rfl | ⟨ys, a, rfl⟩
  · exact .inr (.inl ⟨b, rfl⟩)
  · exact .inr (.inr ⟨ys, a, b, by simp⟩)

theorem reportsFrom_append (a b c d : α) (xs ys : List α) :
    reportsFrom a b (xs ++ c :: d :: ys) =
      reportsFrom a b (xs ++ [c, d]) ++ reportsFrom c d ys := by
  induction xs generalizing a b with
  | nil => rfl
  | cons x xs ih => simp [reportsFrom, ih]

/-- What follows two samples is reported from those two. -/
theorem reports_append (xs ys : List α) (c d : α) :
    reports (xs ++ c :: d :: ys) = reports (xs ++ [c, d]) ++ reportsFrom c d ys := by
  cases xs with
  | nil => simp [reports, reportsFrom, report_same]
  | cons x xs =>
    show none :: reportsFrom x x (xs ++ c :: d :: ys) = _
    rw [reportsFrom_append]
    rfl

theorem reports_snoc (xs : List α) (c d x : α) :
    reports (xs ++ [c, d, x]) = reports (xs ++ [c, d]) ++ [report c d x] :=
  reports_append xs [x] c d

/-- What follows a sample is reported from that sample and one before it. -/
theorem exists_reports_append (xs : List α) (b : α) :
    ∃ a, ∀ ys, reports (xs ++ b :: ys) = reports (xs ++ [b]) ++ reportsFrom a b ys := by
  rcases List.eq_nil_or_concat xs with rfl | ⟨xs, a, rfl⟩
  · exact ⟨b, fun ys => rfl⟩
  · refine ⟨a, fun ys => ?_⟩
    have h := reports_append xs ys a b
    simpa using h

/-- A level is seen for the second time after another one at position `k`. -/
def SecondAt (levels : List α) (v : α) (k : Nat) : Prop :=
  ∃ j a, k = j + 2 ∧ a ≠ v ∧ levels[j]? = some a ∧ levels[j + 1]? = some v ∧
    levels[j + 2]? = some v

theorem reportsFrom_getElem? (a b v : α) (xs : List α) (k : Nat) :
    (reportsFrom a b xs)[k]? = some (some v) ↔ ∃ c, c ≠ v ∧ (a :: b :: xs)[k]? = some c ∧
      (b :: xs)[k]? = some v ∧ xs[k]? = some v := by
  induction xs generalizing a b k with
  | nil => simp [reportsFrom]
  | cons x xs ih =>
    cases k with
    | zero => simp [reportsFrom, report_eq_some]
    | succ k => simpa [reportsFrom] using ih b x k

/-- A level is reported exactly where it is seen for the second time after another one. -/
theorem reports_getElem?_iff (levels : List α) (v : α) (k : Nat) :
    (reports levels)[k]? = some (some v) ↔ SecondAt levels v k := by
  unfold SecondAt
  cases levels with
  | nil => simp [reports]
  | cons x xs =>
    rcases k with _ | _ | j
    · simp [reports]
    · -- The sample before the first counts as equal to it.
      have h := reportsFrom_getElem? x x v xs 0
      simp only [reports, List.getElem?_cons_succ, h]
      constructor
      · rintro ⟨c, hc, h₀, h₁, -⟩
        simp only [List.getElem?_cons_zero, Option.some.injEq] at h₀ h₁
        exact absurd (h₀.symm.trans h₁) hc
      · rintro ⟨j, a, hj, -⟩
        omega
    · have h := reportsFrom_getElem? x x v xs (j + 1)
      simp only [reports, List.getElem?_cons_succ, h]
      constructor
      · rintro ⟨c, hc, h₀, h₁, h₂⟩
        exact ⟨j, c, rfl, hc, h₀, h₁, h₂⟩
      · rintro ⟨i, c, hi, hc, h₀, h₁, h₂⟩
        obtain rfl : j = i := by omega
        exact ⟨c, hc, h₀, h₁, h₂⟩

/-! ### Runs -/

theorem reportsFrom_same (x : α) (n : Nat) :
    reportsFrom x x (List.replicate n x) = List.replicate n none := by
  induction n with
  | zero => rfl
  | succ n ih => rw [List.replicate_succ, reportsFrom, report_same, ih, List.replicate_succ]

/-- A run after another level reports its level at its second sample. -/
theorem reportsFrom_run {b x : α} (a : α) (h : b ≠ x) (n : Nat) :
    reportsFrom a b (List.replicate (n + 2) x) = none :: some x :: List.replicate n none := by
  rw [List.replicate_succ, List.replicate_succ, reportsFrom, reportsFrom, report_change a h,
    report_settled h, reportsFrom_same]

/-- **A run that is not the first reports its level once if it is two samples long or
more, and never if it is one.** -/
theorem reports_run {b x : α} (pre post : List α) (h : b ≠ x) (n : Nat) :
    (((reports (pre ++ b :: (List.replicate n x ++ post))).drop (pre.length + 1)).take
      n).reduceOption = if 2 ≤ n then [x] else [] := by
  obtain ⟨a, ha⟩ := exists_reports_append pre b
  have hrun : ∀ (a b : α) (xs ys : List α),
      (reportsFrom a b (xs ++ ys)).take xs.length = reportsFrom a b xs := by
    intro a b xs ys
    induction xs generalizing a b with
    | nil => rfl
    | cons x xs ih => simp [reportsFrom, ih]
  have htake := hrun a b (List.replicate n x) post
  rw [List.length_replicate] at htake
  rw [ha, List.drop_left' (by simp), htake]
  rcases n with _ | _ | n
  · rfl
  · simp [reportsFrom, report_change a h, List.reduceOption]
  · simp [reportsFrom_run a h, List.reduceOption_cons_of_some, List.reduceOption_cons_of_none]

/-- **The last level that was seen twice is the last report**, once the levels have
differed. -/
theorem getLast_reports {x y : α} {pre : List α} (hy : y ∈ pre) (hne : y ≠ x) :
    (reports (pre ++ [x, x])).reduceOption.getLast? = some x := by
  induction pre using List.reverseRecOn with
  | nil => cases hy
  | append_singleton pre c ih =>
    rw [List.append_assoc, List.singleton_append, reports_snoc, List.reduceOption_append,
      List.reduceOption_singleton]
    by_cases hc : c = x
    · subst hc
      have hy' : y ∈ pre := by simpa [hne] using hy
      rw [report_same, Option.toList_none, List.append_nil]
      exact ih hy'
    · rw [report_settled hc]
      simp

end Levels

/-! ### Two levels -/

/-- `n` single samples that leave the level `x`: the other level, `x` again, and so on. -/
def bounce (x : Bool) : Nat → List Bool
  | 0 => []
  | n + 1 => (!x) :: bounce (!x) n

/-- The sample `n` single samples after the level `x` end with. -/
def bounced (x : Bool) (n : Nat) : Bool := not^[n] x

theorem bounced_succ (x : Bool) (n : Nat) : bounced x (n + 1) = !bounced x n :=
  Function.iterate_succ_apply' not n x

theorem bounce_succ (x : Bool) (n : Nat) : bounce x (n + 1) = bounce x n ++ [!bounced x n] := by
  induction n generalizing x with
  | zero => rfl
  | succ n ih =>
    rw [bounce, ih (!x), bounce, List.cons_append]
    rfl

theorem bounced_even (x : Bool) (n : Nat) : bounced x (2 * n) = x := by
  induction n with
  | zero => rfl
  | succ n ih => rw [Nat.mul_succ, bounced_succ, bounced_succ, ih, Bool.not_not]

/-- Since the level `x` was last seen twice, there have been single samples only; and the
history did not start with that run. -/
def SettledAt (x : Bool) (levels : List Bool) : Prop :=
  ∃ pre n, levels = pre ++ x :: x :: bounce x n ∧ (!x) ∈ pre

/-- A settled level is left for single samples only and settles again. -/
def Bounces (levels : List Bool) : Prop :=
  ∃ pre x n post, levels = pre ++ x :: x :: (bounce x (2 * n + 2) ++ x :: post) ∧ (!x) ∈ pre

/-- The last two samples of a history that ends with `n` single samples. -/
theorem exists_ending (pre : List Bool) (x : Bool) (n : Nat) :
    ∃ pre', pre ++ x :: x :: bounce x n =
      pre' ++ [if n = 0 then x else !bounced x n, bounced x n] := by
  rcases n with _ | n
  · exact ⟨pre, rfl⟩
  · rcases n with _ | n
    · exact ⟨pre ++ [x], by simp [bounce, bounced]⟩
    · refine ⟨pre ++ x :: x :: bounce x n, ?_⟩
      rw [bounce_succ, bounce_succ, bounced_succ]
      simp [bounced_succ]

/-- Single samples report nothing. -/
theorem reportsFrom_bounce (a x : Bool) (n : Nat) :
    reportsFrom a x (bounce x n) = List.replicate n none := by
  induction n generalizing a x with
  | zero => rfl
  | succ n ih =>
    rw [bounce, reportsFrom, report_change a (by simp), ih, List.replicate_succ]

theorem settledAt_of_getLast {x : Bool} {levels : List Bool}
    (h : (reports levels).reduceOption.getLast? = some x) : SettledAt x levels := by
  induction levels using List.reverseRecOn with
  | nil => simp [reports] at h
  | append_singleton levels c ih =>
    rcases short_or_append_two levels with rfl | ⟨b, rfl⟩ | ⟨levels, a, b, rfl⟩
    · simp [reports, reportsFrom, List.reduceOption] at h
    · simp [reports, reportsFrom, report_same, List.reduceOption] at h
    have hsnoc : levels ++ [a, b] ++ [c] = levels ++ [a, b, c] := by simp
    rw [hsnoc] at h ⊢
    rw [reports_snoc, List.reduceOption_append, List.reduceOption_singleton] at h
    cases hr : report a b c with
    | some v =>
      -- The report is new: the level has just been seen for the second time.
      rw [hr] at h
      obtain rfl : v = x := by simpa using h
      obtain ⟨ha, rfl, rfl⟩ := report_eq_some.1 hr
      refine ⟨levels ++ [a], 0, by simp [bounce], ?_⟩
      simp [Bool.eq_not_of_ne ha]
    | none =>
      rw [hr, Option.toList_none, List.append_nil] at h
      obtain ⟨pre, n, heq, hpre⟩ := ih h
      have hsplit : levels ++ [a, b, c] = pre ++ x :: x :: (bounce x n ++ [c]) := by
        have h' := congrArg (· ++ [c]) heq
        simpa using h'
      rw [hsplit]
      by_cases hc : c = bounced x n
      · rcases n with _ | n
        · -- The run of the settled level goes on.
          exact ⟨pre ++ [x], 0, by simp [bounce, hc, bounced], by simp [hpre]⟩
        · -- A second sample of a bounce would have been reported.
          obtain ⟨pre', hend⟩ := exists_ending pre x (n + 1)
          rw [← heq, if_neg (by omega)] at hend
          obtain ⟨-, hab⟩ := List.append_inj' hend rfl
          obtain ⟨rfl, rfl⟩ : a = !bounced x (n + 1) ∧ b = bounced x (n + 1) := by simpa using hab
          rw [hc, report_settled (by simp)] at hr
          cases hr
      · exact ⟨pre, n + 1, by rw [bounce_succ, Bool.eq_not_of_ne hc], hpre⟩

/-- The level that was reported last. -/
theorem getLast_reports_iff (x : Bool) (levels : List Bool) :
    (reports levels).reduceOption.getLast? = some x ↔ SettledAt x levels := by
  refine ⟨settledAt_of_getLast, ?_⟩
  rintro ⟨pre, n, rfl, hpre⟩
  rw [reports_append, reportsFrom_bounce, List.reduceOption_append,
    List.reduceOption_replicate_none, List.append_nil]
  exact getLast_reports hpre (by simp)

/-! ### Alternation -/

/-- Between two equal entries there is always the other one. -/
def Alternates (xs : List Bool) : Prop :=
  ∀ (i j : Nat) (x : Bool), i < j → xs[i]? = some x → xs[j]? = some x →
    ∃ k, i < k ∧ k < j ∧ xs[k]? = some (!x)

theorem alternates_iff_isChain (xs : List Bool) : Alternates xs ↔ xs.IsChain (· ≠ ·) := by
  rw [List.isChain_iff_getElem]
  constructor
  · intro h i hi heq
    obtain ⟨k, hik, hki, -⟩ := h i (i + 1) xs[i] (by omega) (List.getElem?_eq_getElem _)
      (by rw [List.getElem?_eq_getElem hi, heq])
    omega
  · intro h i j x hij hi hj
    obtain ⟨hilt, hix⟩ := List.getElem?_eq_some_iff.1 hi
    obtain ⟨hjlt, hjx⟩ := List.getElem?_eq_some_iff.1 hj
    have hne : xs[i] ≠ xs[i + 1] := h i (by omega)
    have hnext : xs[i + 1]? = some (!x) := by
      rw [List.getElem?_eq_getElem (by omega), ← hix, Bool.eq_not_of_ne hne.symm]
    have hij' : i + 1 ≠ j := by
      rintro rfl
      rw [hnext] at hj
      simp at hj
    exact ⟨i + 1, by omega, by omega, hnext⟩

/-- Renaming the two entries does not matter. -/
theorem alternates_map_not (xs : List Bool) : Alternates (xs.map not) ↔ Alternates xs := by
  rw [alternates_iff_isChain, alternates_iff_isChain, List.isChain_map]
  simp only [ne_eq, Bool.not_inj_iff]

theorem bounces_snoc (levels : List Bool) (c : Bool) :
    Bounces (levels ++ [c]) ↔ Bounces levels ∨
      ∃ pre n, levels = pre ++ c :: c :: bounce c (2 * n + 2) ∧ (!c) ∈ pre := by
  constructor
  · rintro ⟨pre, x, n, post, heq, hpre⟩
    rcases List.eq_nil_or_concat post with rfl | ⟨post, d, rfl⟩
    · have heq' : levels ++ [c] = (pre ++ x :: x :: bounce x (2 * n + 2)) ++ [x] := by
        simpa using heq
      obtain ⟨hlevels, hc⟩ := List.append_inj' heq' rfl
      obtain rfl : c = x := by simpa using hc
      exact .inr ⟨pre, n, hlevels, hpre⟩
    · have heq' : levels ++ [c] =
          (pre ++ x :: x :: (bounce x (2 * n + 2) ++ x :: post)) ++ [d] := by
        simpa using heq
      exact .inl ⟨pre, x, n, post, (List.append_inj' heq' rfl).1, hpre⟩
  · rintro (⟨pre, x, n, post, rfl, hpre⟩ | ⟨pre, n, rfl, hpre⟩)
    · exact ⟨pre, x, n, post ++ [c], by simp, hpre⟩
    · exact ⟨pre, c, n, [], by simp, hpre⟩

/-- A bounce that ends with the level it left took an even number of samples. -/
theorem even_of_bounced {x : Bool} {n : Nat} (h : bounced x n = x) (hn : n ≠ 0) :
    ∃ k, n = 2 * k + 2 := by
  rcases Nat.mod_two_eq_zero_or_one n with h₀ | h₁
  · exact ⟨n / 2 - 1, by omega⟩
  · obtain ⟨k, rfl⟩ : ∃ k, n = 2 * k + 1 := ⟨n / 2, by omega⟩
    rw [bounced_succ, bounced_even] at h
    simp at h

/-- **The reports alternate unless a settled level bounces.** -/
theorem alternates_iff (levels : List Bool) :
    Alternates (reports levels).reduceOption ↔ ¬ Bounces levels := by
  rw [alternates_iff_isChain]
  induction levels using List.reverseRecOn with
  | nil =>
    refine ⟨fun _ => ?_, fun _ => List.isChain_nil⟩
    rintro ⟨pre, x, n, post, heq, -⟩
    simp at heq
  | append_singleton levels c ih =>
    rw [bounces_snoc, not_or]
    rcases short_or_append_two levels with rfl | ⟨b, rfl⟩ | ⟨levels, a, b, rfl⟩
    · simp [reports, reportsFrom, List.reduceOption, ← ih]
    · have hb : (reports [b]).reduceOption = [] := rfl
      have hbc : (reports ([b] ++ [c])).reduceOption = [] := by
        simp [reports, reportsFrom, report_same, List.reduceOption]
      rw [← ih, hb, hbc]
      refine ⟨fun h => ⟨h, ?_⟩, fun h => h.1⟩
      rintro ⟨pre, n, heq, -⟩
      have hlen := congrArg List.length heq
      simp at hlen
      omega
    have hsnoc : levels ++ [a, b] ++ [c] = levels ++ [a, b, c] := by simp
    rw [hsnoc, reports_snoc, List.reduceOption_append, List.reduceOption_singleton, ← ih]
    cases hr : report a b c with
    | none =>
      rw [Option.toList_none, List.append_nil]
      refine ⟨fun h => ⟨h, ?_⟩, fun h => h.1⟩
      -- The end of a bounce would have been reported.
      rintro ⟨pre, n, heq, -⟩
      obtain ⟨pre', hend⟩ := exists_ending pre c (2 * n + 2)
      rw [← heq, if_neg (by omega), show 2 * n + 2 = 2 * (n + 1) by rfl, bounced_even] at hend
      obtain ⟨-, hab⟩ := List.append_inj' hend rfl
      obtain ⟨rfl, rfl⟩ : a = !c ∧ b = c := by simpa using hab
      rw [report_settled (by simp)] at hr
      cases hr
    | some v =>
      obtain ⟨ha, rfl, rfl⟩ := report_eq_some.1 hr
      rw [Option.toList_some, List.isChain_append]
      refine and_congr_right fun _ => ?_
      have hlast : (∀ x ∈ (reports (levels ++ [a, c])).reduceOption.getLast?,
          ∀ y ∈ [c].head?, x ≠ y) ↔ ¬ SettledAt c (levels ++ [a, c]) := by
        rw [← getLast_reports_iff]
        constructor
        · intro h heq
          exact h c heq c rfl rfl
        · rintro h x hx y hy rfl
          obtain rfl : c = x := by simpa using hy
          exact h hx
      rw [hlast, and_iff_right (List.isChain_singleton c), not_iff_not]
      constructor
      · rintro ⟨pre, m, heq, hpre⟩
        obtain ⟨pre', hend⟩ := exists_ending pre c m
        rw [← heq] at hend
        obtain ⟨-, hab⟩ := List.append_inj' hend rfl
        obtain ⟨ha', hc⟩ : a = (if m = 0 then c else !bounced c m) ∧ c = bounced c m := by
          simpa using hab
        have hm : m ≠ 0 := by
          rintro rfl
          exact ha ha'
        obtain ⟨n, rfl⟩ := even_of_bounced hc.symm hm
        exact ⟨pre, n, heq, hpre⟩
      · rintro ⟨pre, n, heq, hpre⟩
        exact ⟨pre, _, heq, hpre⟩

end SerialServer.Settle
