import Mathlib.Tactic.Common

/-!
# SerialServer.Core.Run

Runs of a step function.

A run is a list of events folded over a state. `Always P` says that `P` holds in every
state of a run, the first and the last among them; `EachStep C` that `C` holds between
every state and the event that leaves it. The rules say how a property of single steps
becomes one of runs: an invariant that steps with `C` preserve holds along every run
whose steps have `C` (`Always.of_invariant`), and if those steps are also the only ones
that preserve it, then along no other run (`always_iff_eachStep`). A state in which some
event always leaves less to do leads to one in which nothing is left (`exists_foldl`).
-/

namespace SerialServer.Run

variable {σ α : Type*} {step : σ → α → σ}

/-- `P` holds in every state of the run. -/
def Always (step : σ → α → σ) (P : σ → Prop) : σ → List α → Prop
  | s, [] => P s
  | s, a :: as => P s ∧ Always step P (step s a) as

/-- `C` holds of every state of the run and the event taken there. -/
def EachStep (step : σ → α → σ) (C : σ → α → Prop) : σ → List α → Prop
  | _, [] => True
  | s, a :: as => C s a ∧ EachStep step C (step s a) as

instance Always.decidable (P : σ → Prop) [DecidablePred P] :
    (s : σ) → (as : List α) → Decidable (Always step P s as)
  | s, [] => inferInstanceAs (Decidable (P s))
  | s, a :: as =>
      have : Decidable (Always step P (step s a) as) := Always.decidable P (step s a) as
      inferInstanceAs (Decidable (_ ∧ _))

variable {P I : σ → Prop} {C : σ → α → Prop} {s : σ} {as : List α}

/-- The states of a run are those its beginnings lead to. -/
theorem always_iff :
    Always step P s as ↔ ∀ xs ys, as = xs ++ ys → P (xs.foldl step s) := by
  induction as generalizing s with
  | nil =>
    constructor
    · intro h xs ys hxy
      obtain ⟨rfl, rfl⟩ := List.append_eq_nil_iff.1 hxy.symm
      exact h
    · intro h
      exact h [] [] rfl
  | cons a as ih =>
    constructor
    · rintro ⟨hs, hrest⟩ xs ys hxy
      cases xs with
      | nil => exact hs
      | cons x xs =>
        obtain ⟨rfl, rfl⟩ := List.cons.inj hxy
        exact ih.1 hrest xs ys rfl
    · intro h
      refine ⟨h [] (a :: as) rfl, ih.2 fun xs ys hxy => ?_⟩
      exact h (a :: xs) ys (by rw [hxy]; rfl)

/-- What steps with `C` preserve holds at the end of a run of them. -/
theorem EachStep.foldl (hs : I s) (hstep : ∀ s a, I s → C s a → I (step s a))
    (hC : EachStep step C s as) : I (as.foldl step s) := by
  induction as generalizing s with
  | nil => exact hs
  | cons a as ih => exact ih (hstep s a hs hC.1) hC.2

/-- A property of every step holds of every step of a run. -/
theorem EachStep.of_forall (h : ∀ s a, C s a) : EachStep step C s as := by
  induction as generalizing s with
  | nil => trivial
  | cons a as ih => exact ⟨h s a, ih⟩

/-- A property of the events alone holds of every step when it holds of every event. -/
theorem eachStep_events {D : α → Prop} :
    EachStep step (fun _ a => D a) s as ↔ ∀ a ∈ as, D a := by
  induction as generalizing s with
  | nil => exact iff_of_true trivial (by simp)
  | cons a as ih =>
    rw [List.forall_mem_cons]
    exact and_congr_right' ih

theorem eachStep_and {D : σ → α → Prop} :
    EachStep step (fun s a => C s a ∧ D s a) s as ↔ EachStep step C s as ∧ EachStep step D s as := by
  induction as generalizing s with
  | nil => exact iff_of_true trivial ⟨trivial, trivial⟩
  | cons a as ih =>
    rw [EachStep, EachStep, EachStep, ih]
    exact and_and_and_comm

/-- What follows from `P` before and after a step holds of every step of a run that always has
`P`; so may what needs an invariant of all steps. -/
theorem Always.eachStep (hs : I s) (hI : ∀ s a, I s → I (step s a))
    (hC : ∀ s a, I s → P s → P (step s a) → C s a) (h : Always step P s as) :
    EachStep step C s as := by
  induction as generalizing s with
  | nil => trivial
  | cons a as ih =>
    have hnext : P (step s a) := by
      cases as with
      | nil => exact h.2
      | cons b as => exact h.2.1
    exact ⟨hC s a hs h.1 hnext, ih (hI s a hs) h.2⟩

/-- What holds in every state holds after every step. -/
theorem Always.after (h : Always step P s as) :
    EachStep step (fun s a => P (step s a)) s as :=
  h.eachStep (I := fun _ => True) trivial (fun _ _ _ => trivial) fun _ _ _ _ hnext => hnext

/-- **The invariant rule**: what the start has and steps with `C` preserve holds along
every run whose steps have `C`. -/
theorem Always.of_invariant (hs : I s) (hstep : ∀ s a, I s → C s a → I (step s a))
    (hP : ∀ s, I s → P s) (hC : EachStep step C s as) : Always step P s as := by
  induction as generalizing s with
  | nil => exact hP s hs
  | cons a as ih => exact ⟨hP s hs, ih (hstep s a hs hC.1) hC.2⟩

/-- **The exact rule**: if, under an invariant `I` of all steps, the steps with `C` are
those that preserve `P`, then `P` holds along just the runs that start with it and whose
steps all have `C`. -/
theorem always_iff_eachStep (hs : I s) (hI : ∀ s a, I s → I (step s a))
    (hstep : ∀ s a, I s → P s → (P (step s a) ↔ C s a)) :
    Always step P s as ↔ P s ∧ EachStep step C s as := by
  induction as generalizing s with
  | nil => exact ⟨fun h => ⟨h, trivial⟩, fun h => h.1⟩
  | cons a as ih =>
    have hrest := ih (hI s a hs)
    constructor
    · rintro ⟨hP, hnext⟩
      obtain ⟨hP', hC⟩ := hrest.1 hnext
      exact ⟨hP, (hstep s a hs hP).1 hP', hC⟩
    · rintro ⟨hP, hc, hC⟩
      exact ⟨hP, hrest.2 ⟨(hstep s a hs hP).2 hc, hC⟩⟩

/-- **The exact rule for an invariant that is stronger**: if steps with `C` preserve `I`, which
implies `P`, and any other step from `I` ends `P`, then `P` holds along just the runs whose
steps all have `C`. -/
theorem always_iff_of_invariant (hs : I s) (hstep : ∀ s a, I s → C s a → I (step s a))
    (hP : ∀ s, I s → P s) (hend : ∀ s a, I s → ¬ C s a → ¬ P (step s a)) :
    Always step P s as ↔ EachStep step C s as := by
  refine ⟨fun h => ?_, fun h => Always.of_invariant hs hstep hP h⟩
  induction as generalizing s with
  | nil => trivial
  | cons a as ih =>
    obtain ⟨-, hrest⟩ := h
    have hc : C s a := by
      by_contra hc
      refine hend s a hs hc ?_
      cases as with
      | nil => exact hrest
      | cons b as => exact hrest.1
    exact ⟨hc, ih (hstep s a hs hc) hrest⟩

/-- If, under an invariant that steps with `C` preserve, `D` holds of the same steps as `C`,
then it holds of all steps of the same runs. -/
theorem eachStep_iff {D : σ → α → Prop} (hs : I s) (hiff : ∀ s a, I s → (D s a ↔ C s a))
    (hstep : ∀ s a, I s → C s a → I (step s a)) :
    EachStep step D s as ↔ EachStep step C s as := by
  induction as generalizing s with
  | nil => exact Iff.rfl
  | cons a as ih =>
    constructor
    · rintro ⟨hd, hrest⟩
      have hc := (hiff s a hs).1 hd
      exact ⟨hc, (ih (hstep s a hs hc)).1 hrest⟩
    · rintro ⟨hc, hrest⟩
      exact ⟨(hiff s a hs).2 hc, (ih (hstep s a hs hc)).2 hrest⟩

/-- **The progress rule**: if, under an invariant, some event leaves less to do as long as `P` does
not hold, then a run leads to `P`. -/
theorem exists_foldl {m : σ → Nat} (hstep : ∀ s a, I s → I (step s a))
    (hless : ∀ s, I s → ¬ P s → ∃ a, m (step s a) < m s) (hs : I s) :
    ∃ as : List α, P (as.foldl step s) := by
  induction hm : m s using Nat.strongRecOn generalizing s with
  | ind k ih =>
    by_cases hP : P s
    · exact ⟨[], hP⟩
    · obtain ⟨a, ha⟩ := hless s hs hP
      obtain ⟨as, has⟩ := ih (m (step s a)) (hm ▸ ha) (hstep s a hs) rfl
      exact ⟨a :: as, has⟩

end SerialServer.Run
