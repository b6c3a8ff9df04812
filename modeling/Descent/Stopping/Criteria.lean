/-
# Descent.Stopping.Criteria — from measures to a verdict

`start` measures the starting point, `update` a move from one point to the next;
a measure that has no result leaves those before it in place.  `assess` compares
the measures with the tolerances.  `verdict` then says how a driver goes on: a
break threshold that is passed outweighs convergence, convergence outweighs the
iteration limit.
-/
import Descent.Linear.Shaped
import Descent.Stopping.Options

namespace Descent
set_option autoImplicit false

section
variable {α : Type} [Extended α]

/-- The quotient of two lengths; nothing by nothing is nothing, anything else by nothing is
infinite. -/
def ratio (x y : α) : α := if y == 0 then if x == 0 then 0 else Extended.inf else x / y

/-- How a driver goes on. -/
def verdictOf (o : Options α) (iteration : Nat) (diverged converged : Bool) : Phase :=
  if diverged then .diverged
  else if converged && o.minIterations ≤ iteration then .converged
  else if o.maxIterations ≤ iteration then .exhausted
  else .running

end

namespace ResidualProgress

section
variable {α : Type} [Extended α]

/-- The measures of a starting point `x` with residual `y`. -/
def start (x y : Shaped α) : ResidualProgress α :=
  { (unmeasured : ResidualProgress α) with
    residual := y.norm
    relativeResidual := 1
    firstResidual := y.norm
    lastResidual := y.norm
    pointUndefined := x.hasNaN
    residualUndefined := y.hasNaN }

/-- The measures of a move from `x'` with residual `y'` to `x` with residual `y`. -/
def update (x x' y y' : Shaped α) : Edit α (ResidualProgress α) Unit := do
  modify fun p => { p with iteration := p.iteration + 1 }
  let step := (← fit (x.sub? x')).norm
  modify fun p => { p with
    step
    relativeStep := ratio step x.norm
    successiveStep := step
    lastResidual := y'.norm
    residual := y.norm
    relativeResidual := ratio y.norm p.firstResidual }
  let residualChange := (← fit (y.sub? y')).norm
  modify fun p => { p with
    residualChange
    pointUndefined := x.hasNaN
    residualUndefined := y.hasNaN }

/-- Compares the measures with the tolerances. -/
def assess (o : Options α) (p : ResidualProgress α) : ResidualProgress α :=
  { p with
    stepConverged := p.step ≤ o.stepTol || p.relativeStep ≤ o.relativeStepTol
      || p.successiveStep ≤ o.successiveStepTol
    residualConverged := p.residual ≤ o.valueTol || p.relativeResidual ≤ o.relativeValueTol
      || p.residualChange ≤ o.successiveValueTol
    residualIncreased := p.lastResidual < p.residual }

def isConverged (p : ResidualProgress α) : Bool := p.stepConverged || p.residualConverged

/-- A residual grew that must not, a break threshold is passed, or something is undefined. -/
def isDiverged (o : Options α) (p : ResidualProgress α) : Bool :=
  (p.residualIncreased && !o.allowIncrease)
    || o.stepBreak < p.step || o.relativeStepBreak < p.relativeStep
    || o.valueBreak < p.residual || o.relativeValueBreak < p.relativeResidual
    || p.pointUndefined || p.residualUndefined

/-- How a driver goes on with assessed measures. -/
def verdict (o : Options α) (p : ResidualProgress α) : Phase :=
  verdictOf o p.iteration (p.isDiverged o) p.isConverged

end

end ResidualProgress

namespace ObjectiveProgress

section
variable {α : Type} [Extended α]

/-- The measures of a starting point `x` with value `f` and gradient `g`. -/
def start (x : Shaped α) (f : α) (g : Shaped α) : ObjectiveProgress α :=
  { (unmeasured : ObjectiveProgress α) with
    gradient := g.norm
    pointUndefined := x.hasNaN
    valueUndefined := Scalar.isNaN f
    gradientUndefined := g.hasNaN }

/-- The measures of a move from `x'` with value `f'` and gradient `g'` to `x` with value `f` and
gradient `g`. -/
def update (x x' : Shaped α) (f f' : α) (g g' : Shaped α) : Edit α (ObjectiveProgress α) Unit := do
  modify fun p => { p with iteration := p.iteration + 1 }
  let dx ← fit (x.sub? x')
  let change := Scalar.abs (f - f')
  modify fun p => { p with
    step := dx.norm
    relativeStep := ratio dx.norm x.norm
    change
    relativeChange := ratio change (Scalar.abs f) }
  let gradientChange := (← fit (g.sub? g')).norm
  modify fun p => { p with gradientChange, gradient := g.norm, decrease := f' - f }
  let slope ← ofExcept (g'.inner dx)
  modify fun p => { p with
    predictedDecrease := -slope
    valueIncreased := f' < f
    pointUndefined := x.hasNaN
    valueUndefined := Scalar.isNaN f
    gradientUndefined := g.hasNaN }

/-- Compares the measures with the tolerances. -/
def assess (o : Options α) (p : ObjectiveProgress α) : ObjectiveProgress α :=
  { p with
    stepConverged := p.step ≤ o.stepTol || p.relativeStep ≤ o.relativeStepTol
    valueConverged := (p.change ≤ o.valueTol || p.relativeChange ≤ o.relativeValueTol)
      && p.decrease ≤ o.decreasePart * p.predictedDecrease
    gradientConverged := p.gradient ≤ o.gradientTol }

def isConverged (p : ObjectiveProgress α) : Bool :=
  p.stepConverged || p.valueConverged || p.gradientConverged

/-- A value grew that must not, a break threshold is passed, or something is undefined. -/
def isDiverged (o : Options α) (p : ObjectiveProgress α) : Bool :=
  (p.valueIncreased && !o.allowIncrease)
    || o.stepBreak < p.step || o.relativeStepBreak < p.relativeStep
    || o.valueBreak < p.change || o.relativeValueBreak < p.relativeChange
    || o.gradientBreak < p.gradient
    || p.pointUndefined || p.valueUndefined || p.gradientUndefined

/-- How a driver goes on with assessed measures. -/
def verdict (o : Options α) (p : ObjectiveProgress α) : Phase :=
  verdictOf o p.iteration (p.isDiverged o) p.isConverged

end

end ObjectiveProgress

end Descent
