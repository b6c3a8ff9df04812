/-
# Descent.Stopping.Options — when a driver stops

Tolerances say when a measure is small, break thresholds when it is too large, and
limits count iterations.  A threshold is passed only by a greater value, so an
infinite one is never passed.  `Options.check` admits the sensible choices and
fills in the number of iterations from which a warning is due.
-/
import Descent.Fault

namespace Descent
set_option autoImplicit false

/-- When a driver stops, and what it tells and keeps. -/
structure Options (α : Type) where
  /-- Tolerance on the step. -/
  stepTol : α
  /-- Tolerance on the step relative to the point. -/
  relativeStepTol : α
  /-- Second tolerance on the step. -/
  successiveStepTol : α
  /-- Tolerance on the residual, or on the change of the objective. -/
  valueTol : α
  /-- The same relative to the first residual, or to the objective. -/
  relativeValueTol : α
  /-- Tolerance on the change of the residual. -/
  successiveValueTol : α
  /-- The part of the predicted decrease above which a decrease of the objective is not small. -/
  decreasePart : α
  /-- Tolerance on the gradient. -/
  gradientTol : α
  stepBreak : α
  relativeStepBreak : α
  valueBreak : α
  relativeValueBreak : α
  gradientBreak : α
  /-- A residual or an objective may grow. -/
  allowIncrease : Bool
  /-- Convergence is not believed before so many iterations. -/
  minIterations : Int
  maxIterations : Int
  /-- Iterations from which a warning is due; zero for never. -/
  warnIterations : Option Int
  /-- Keep all points that were visited. -/
  keepTrace : Bool
  /-- Zero is silent, one warns, two tells everything. -/
  verbosity : Int

namespace Options

section
variable {α : Type} [Extended α]

/-- Tolerances at rounding, no break thresholds, a thousand iterations. -/
def standard : Options α :=
  { stepTol := 2.0 * Scalar.spacing
    relativeStepTol := 2.0 * Scalar.spacing
    successiveStepTol := 2.0 * Scalar.spacing
    valueTol := 0
    relativeValueTol := 2.0 * Scalar.spacing
    successiveValueTol := 2.0 * Scalar.spacing
    decreasePart := 1e-4
    gradientTol := Scalar.sqrt Scalar.spacing
    stepBreak := Extended.inf
    relativeStepBreak := Extended.inf
    valueBreak := Extended.inf
    relativeValueBreak := Extended.inf
    gradientBreak := Extended.inf
    allowIncrease := true
    minIterations := 0
    maxIterations := 1000
    warnIterations := none
    keepTrace := false
    verbosity := 1 }

end

section
variable {α : Type} [Scalar α]

/-- The tolerances with the names that a refusal uses. -/
def tolerances (o : Options α) : List (String × α) :=
  [("x_abstol", o.stepTol), ("x_reltol", o.relativeStepTol), ("x_suctol", o.successiveStepTol),
    ("f_abstol", o.valueTol), ("f_reltol", o.relativeValueTol),
    ("f_suctol", o.successiveValueTol), ("f_mindec", o.decreasePart), ("g_restol", o.gradientTol)]

/-- Admits sensible options; the first refusal counts. -/
def check (o : Options α) : Except (Fault α) (Options α) :=
  let refuse (why : Invalid) : Except (Fault α) (Options α) := .error (.invalid why)
  match o.tolerances.find? fun (_, tol) => decide (tol < 0) with
  | some (field, _) => refuse (.negative field)
  | none =>
    if o.minIterations < 0 then refuse (.negative "min_iterations")
    else if o.maxIterations < 1 then refuse (.belowOne "max_iterations")
    else if o.maxIterations < o.minIterations then refuse .minimumAboveMaximum
    else if o.warnIterations.any (· < 0) then refuse (.negative "warn_iterations")
    else if o.verbosity < 0 then refuse (.negative "verbosity")
    else .ok { o with warnIterations := some (o.warnIterations.getD o.maxIterations) }

/-- Admitted options have room for an iteration. -/
theorem one_le_of_check {o o' : Options α} (h : o.check = .ok o') : 1 ≤ o'.maxIterations := by
  unfold check at h
  grind

end

end Options

end Descent
