/-
# Descent.Proofs.Stopping — verdicts on solutions

Options are `Unbroken` if they are admitted, believe in convergence after one iteration and
leave the break thresholds infinite.  Then the iteration that lands on a root of a system of
real numbers has converged, whatever the tolerances are (`converged_at_root`), and so has the
one that lands on a stationary point of an objective without an increase of its value
(`converged_at_stationary`): a length of zero is within every tolerance, and a value passes
neither an infinite threshold nor a limit on growth.
-/
import Descent.Iteration.Cache
import Descent.Proofs.Iteration.Verdict
import Descent.Proofs.Linear.Wide

namespace Descent
set_option autoImplicit false

open Wide

/-! ## Options without break thresholds -/

/-- Admitted options that break off no run and are content with one iteration. -/
structure Options.Unbroken (o : Options Wide) : Prop where
  admitted : ∃ given : Options Wide, given.check = .ok o
  defined : ∀ tol ∈ o.tolerances, tol.2 ≠ undefined
  step : o.stepBreak = Extended.inf
  relativeStep : o.relativeStepBreak = Extended.inf
  value : o.valueBreak = Extended.inf
  relativeValue : o.relativeValueBreak = Extended.inf
  gradient : o.gradientBreak = Extended.inf
  early : o.minIterations ≤ 1

namespace Options

variable {o : Options Wide}

theorem Unbroken.room (unbroken : o.Unbroken) : 1 ≤ o.maxIterations :=
  one_le_of_check unbroken.admitted.choose_spec

theorem not_lt_zero_of_check {given : Options Wide} (admitted : given.check = .ok o)
    {tol : String × Wide} (mem : tol ∈ o.tolerances) : ¬ tol.2 < 0 := by
  -- a check adds a default to the options, and no tolerance depends on it
  have same : o.tolerances = given.tolerances := by
    unfold check at admitted
    grind [tolerances]
  rw [same] at mem
  unfold check at admitted
  split at admitted
  · cases admitted
  · rename_i found
    simpa using List.find?_eq_none.1 found tol mem

/-- No tolerance is negative. -/
theorem Unbroken.nonneg (unbroken : o.Unbroken) (tol : String × Wide) (mem : tol ∈ o.tolerances) :
    0 ≤ tol.2 := by
  obtain ⟨given, admitted⟩ := unbroken.admitted
  have zero : (0 : Wide) ≠ undefined := by simp [zero_eq]
  exact le_of_not_lt (unbroken.defined tol mem) zero (not_lt_zero_of_check admitted mem)

theorem not_inf_lt (a : Wide) : ¬ Extended.inf < a := not_posInf_lt a

/-- The standard options as they are when they have been admitted. -/
noncomputable def usual : Options Wide := { standard with warnIterations := some 1000 }

/-- They are unbroken with any tolerance on the residual. -/
theorem usual_unbroken_within {a : ℝ} (nonneg : 0 ≤ a) : { usual with valueTol := real a }.Unbroken := by
  let o : Options Wide := { usual with valueTol := real a }
  have spacing : (Scalar.spacing : Wide) = real (1.0 / 4503599627370496.0) :=
    real_div _ (by norm_num)
  have tolerances : ∀ tol ∈ o.tolerances, ∃ a, 0 ≤ a ∧ tol.2 = real a := by
    simp only [o, Options.tolerances, usual, standard, spacing, ofScientific_eq, real_mul,
      List.forall_mem_cons, real_inj, exists_eq_right']
    rw [sqrt_real (by norm_num)]
    simp only [real_inj, exists_eq_right']
    norm_num [nonneg]
  have admitted : o.check = .ok o := by
    unfold check
    split
    · rename_i field value found
      obtain ⟨a, nonneg, real⟩ := tolerances _ (List.mem_of_find?_eq_some found)
      have negative : value < 0 := by simpa using List.find?_some found
      obtain rfl : value = Wide.real a := real
      exact absurd negative (by simpa [zero_eq] using nonneg)
    · rfl
  exact
    { admitted := ⟨o, admitted⟩
      defined := fun tol mem => by
        obtain ⟨a, -, real⟩ := tolerances tol mem
        simp [real]
      step := rfl
      relativeStep := rfl
      value := rfl
      relativeValue := rfl
      gradient := rfl
      early := Int.zero_le_ofNat 1 }

theorem usual_unbroken : usual.Unbroken := usual_unbroken_within le_rfl

end Options

/-! ## Points of real numbers -/

/-- A point and a residual of real numbers. -/
noncomputable abbrev SystemPoint.reals {m n : ℕ} (x : Fin n → ℝ) (y : Fin m → ℝ) : SystemPoint Wide :=
  ⟨(Wide.reals x).toArray, .ofVec (Wide.reals y).toArray⟩

/-- A point, a value and a gradient of real numbers. -/
noncomputable abbrev ObjectivePoint.reals {n : ℕ} (x : Fin n → ℝ) (f : ℝ) (g : Fin n → ℝ) :
    ObjectivePoint Wide :=
  ⟨(Wide.reals x).toArray, real f, .ofVec (Wide.reals g).toArray⟩

/-- The progress from one such point to another can be measured. -/
theorem ObjectivePoint.measured {n : ℕ} (x x' : Fin n → ℝ) (f f' : ℝ) (g g' : Fin n → ℝ)
    (p : ObjectiveProgress Wide) :
    ∃ q, (Iterate.update (reals x' f' g') (reals x f g)).outcome p = (.ok ⟨⟩, q) := by
  simp only [Iterate.update, ObjectiveProgress.update, Edit.outcome_bind, Edit.outcome_modify,
    Edit.andThen_ok, sub?_reals, fit, Edit.outcome_pure, Edit.outcome_ofExcept, Shaped.inner_toArray]
  exact ⟨_, rfl⟩

/-! ## Verdicts -/

section
variable {o : Options Wide} (unbroken : o.Unbroken)
include unbroken

/-- A residual within the tolerance that has not grown. -/
theorem ResidualProgress.converged_of_within {p : ResidualProgress Wide}
    (within : p.residual ≤ o.valueTol) (grown : ¬ p.lastResidual < p.residual)
    (point : p.pointUndefined = false) (value : p.residualUndefined = false)
    (some : 1 ≤ p.iteration) : verdict o (assess o p) = .converged := by
  refine verdictOf_converged.2 ⟨?_, ?_, ?_⟩
  · simp [isDiverged, assess, unbroken.step, unbroken.relativeStep, unbroken.value,
      unbroken.relativeValue, Options.not_inf_lt, grown, point, value]
  · simp [isConverged, assess, within]
  · have early := unbroken.early
    simp only [assess]
    omega

/-- A gradient of zero is within the tolerance. -/
theorem ObjectiveProgress.converged_of_zero {p : ObjectiveProgress Wide} (gradient : p.gradient = 0)
    (grown : p.valueIncreased = false) (point : p.pointUndefined = false)
    (value : p.valueUndefined = false) (slope : p.gradientUndefined = false)
    (some : 1 ≤ p.iteration) : verdict o (assess o p) = .converged := by
  have within : 0 ≤ o.gradientTol :=
    unbroken.nonneg ("g_restol", o.gradientTol) (by simp [Options.tolerances])
  refine verdictOf_converged.2 ⟨?_, ?_, ?_⟩
  · simp [isDiverged, assess, unbroken.step, unbroken.relativeStep, unbroken.value,
      unbroken.relativeValue, unbroken.gradient, Options.not_inf_lt, grown, point, value, slope]
  · simp [isConverged, assess, gradient, within]
  · have early := unbroken.early
    simp only [assess]
    omega

variable {n : ℕ} (x x' : Fin n → ℝ)

/-- The iteration that gets the residual within the tolerance has converged, if it has not grown. -/
theorem SystemPoint.converged_within {m : ℕ} {y y' : Fin m → ℝ}
    (within : real √(y' ⬝ᵥ y') ≤ o.valueTol) (falls : y' ⬝ᵥ y' ≤ y ⬝ᵥ y) :
    ∃ p, (Iterate.update (reals x' y') (reals x y)).outcome (Iterate.start (reals x y)) =
        (.ok ⟨⟩, p) ∧
      Iterate.verdict (ι := SystemPoint Wide) o (Iterate.assess (ι := SystemPoint Wide) o p) =
        .converged := by
  rcases ran : (Iterate.update (reals x' y') (reals x y)).outcome (Iterate.start (reals x y)) with
    ⟨r, p⟩
  simp only [Iterate.update, ResidualProgress.update, Edit.outcome_bind, Edit.outcome_modify,
    Edit.andThen_ok, sub?_reals, fit, Edit.outcome_pure] at ran
  obtain ⟨rfl, rfl⟩ := Prod.mk.inj ran
  have lengths : √(y' ⬝ᵥ y') ≤ √(y ⬝ᵥ y) := Real.sqrt_le_sqrt falls
  refine ⟨_, rfl, ResidualProgress.converged_of_within unbroken ?_ ?_ ?_ ?_ ?_⟩ <;>
    simp [norm_toArray_reals, hasNaN_reals, within, lengths]

/-- The iteration that lands on a root has converged. -/
theorem SystemPoint.converged_at_root {m : ℕ} (y : Fin m → ℝ) :
    ∃ p, (Iterate.update (reals x' (0 : Fin m → ℝ)) (reals x y)).outcome
        (Iterate.start (reals x y)) = (.ok ⟨⟩, p) ∧
      Iterate.verdict (ι := SystemPoint Wide) o (Iterate.assess (ι := SystemPoint Wide) o p) =
        .converged := by
  have within : 0 ≤ o.valueTol :=
    unbroken.nonneg ("f_abstol", o.valueTol) (by simp [Options.tolerances])
  refine SystemPoint.converged_within unbroken x x' ?_ ?_
  · simpa [zero_eq] using within
  · simpa using dotProduct_self_nonneg y

/-- The iteration that lands on a stationary point has converged, if the value has not grown. -/
theorem ObjectivePoint.converged_at_stationary {f f' : ℝ} (g : Fin n → ℝ) (falls : f' ≤ f) :
    ∃ p, (Iterate.update (reals x' f' 0) (reals x f g)).outcome (Iterate.start (reals x f g)) =
        (.ok ⟨⟩, p) ∧
      Iterate.verdict (ι := ObjectivePoint Wide) o (Iterate.assess (ι := ObjectivePoint Wide) o p) =
        .converged := by
  rcases ran : (Iterate.update (reals x' f' 0) (reals x f g)).outcome
    (Iterate.start (reals x f g)) with ⟨r, p⟩
  simp only [Iterate.update, ObjectiveProgress.update, Edit.outcome_bind, Edit.outcome_modify,
    Edit.andThen_ok, sub?_reals, fit, Edit.outcome_pure, Edit.outcome_ofExcept,
    Shaped.inner_toArray] at ran
  obtain ⟨rfl, rfl⟩ := Prod.mk.inj ran
  refine ⟨_, rfl, ObjectiveProgress.converged_of_zero unbroken ?_ ?_ ?_ ?_ ?_ ?_⟩ <;>
    simp [norm_toArray_reals, hasNaN_reals, zero_eq, falls]

end

end Descent
