/-
# Descent.Stopping.Progress — what a driver measures

A driver moves through the phases of `Phase` and keeps one record of measures: a
`ResidualProgress` while it looks for a root of a system, an `ObjectiveProgress`
while it minimizes.  Before the first step most measures are undefined.
-/
import Descent.Scalar
import Descent.Text.Message

namespace Descent
open Text
set_option autoImplicit false

/-- Where a driver stands. -/
inductive Phase where
  | ready
  | running
  | converged
  | diverged
  /-- The iteration limit was reached without convergence. -/
  | exhausted
  deriving DecidableEq, Repr

/-- The name of a phase in reports. -/
def Phase.name : Phase → String
  | .ready => "initialized"
  | .running => "running"
  | .converged => "converged"
  | .diverged => "diverged"
  | .exhausted => "max_iterations"

/-- What is told of a run that ended in a phase. -/
def Phase.ending : Phase → String
  | .converged => "Convergence criterion satisfied."
  | _ => "Maximum iterations reached."

/-- Measures of the search for a root of `F`. -/
structure ResidualProgress (α : Type) where
  iteration : Nat
  /-- `|x - x'|` with `x'` the point before `x`. -/
  step : α
  /-- `|x - x'| / |x|`. -/
  relativeStep : α
  /-- `|x - x'|` again, compared with a tolerance of its own. -/
  successiveStep : α
  /-- `|F(x)|`. -/
  residual : α
  /-- `|F(x)| / |F(x₀)|` with `x₀` the starting point. -/
  relativeResidual : α
  /-- `|F(x) - F(x')|`. -/
  residualChange : α
  firstResidual : α
  lastResidual : α
  stepConverged : Bool
  residualConverged : Bool
  residualIncreased : Bool
  pointUndefined : Bool
  residualUndefined : Bool

/-- Measures of the search for a minimum of `f` with gradient `g`. -/
structure ObjectiveProgress (α : Type) where
  iteration : Nat
  /-- `|x - x'|` with `x'` the point before `x`. -/
  step : α
  /-- `|x - x'| / |x|`. -/
  relativeStep : α
  /-- `|f(x) - f(x')|`. -/
  change : α
  /-- `|f(x) - f(x')| / |f(x)|`. -/
  relativeChange : α
  /-- `|g(x) - g(x')|`. -/
  gradientChange : α
  /-- `|g(x)|`. -/
  gradient : α
  /-- `f(x') - f(x)`. -/
  decrease : α
  /-- `-g(x') · (x - x')`. -/
  predictedDecrease : α
  stepConverged : Bool
  valueConverged : Bool
  gradientConverged : Bool
  valueIncreased : Bool
  pointUndefined : Bool
  valueUndefined : Bool
  gradientUndefined : Bool

section
variable {α : Type}

/-- A labelled measure with two decimals. -/
def measured (label : String) (x : α) : Message α :=
  [.words (", " ++ label ++ " = "), .scientific 2 x]

def ResidualProgress.describe (p : ResidualProgress α) : Message α :=
  [.words "iterations = ", .whole p.iteration] ++ measured "|x - x'|" p.step
    ++ measured "|x - x'|/|x|" p.relativeStep ++ measured "|F(x)|" p.residual
    ++ measured "|F(x)|/|F(x0)|" p.relativeResidual
    ++ measured "|F(x) - F(x')|" p.residualChange

def ObjectiveProgress.describe (p : ObjectiveProgress α) : Message α :=
  [.words "iterations = ", .whole p.iteration] ++ measured "|x - x'|" p.step
    ++ measured "|x - x'|/|x'|" p.relativeStep ++ measured "|f(x) - f(x')|" p.change
    ++ measured "|g(x) - g(x')|" p.gradientChange ++ measured "|g(x)|" p.gradient

/-- The measures of either kind of driver. -/
inductive Progress (α : Type) where
  | residual (p : ResidualProgress α)
  | objective (p : ObjectiveProgress α)

def Progress.iteration : Progress α → Nat
  | .residual p => p.iteration
  | .objective p => p.iteration

def Progress.describe : Progress α → Message α
  | .residual p => p.describe
  | .objective p => p.describe

variable [Extended α]

/-- Nothing measured yet. -/
def ResidualProgress.unmeasured : ResidualProgress α :=
  { iteration := 0
    step := Extended.nan
    relativeStep := Extended.nan
    successiveStep := Extended.nan
    residual := Extended.nan
    relativeResidual := Extended.nan
    residualChange := Extended.nan
    firstResidual := Extended.nan
    lastResidual := Extended.nan
    stepConverged := false
    residualConverged := false
    residualIncreased := false
    pointUndefined := false
    residualUndefined := false }

/-- Nothing measured yet. -/
def ObjectiveProgress.unmeasured : ObjectiveProgress α :=
  { iteration := 0
    step := Extended.nan
    relativeStep := Extended.nan
    change := Extended.nan
    relativeChange := Extended.nan
    gradientChange := Extended.nan
    gradient := Extended.nan
    decrease := Extended.nan
    predictedDecrease := Extended.nan
    stepConverged := false
    valueConverged := false
    gradientConverged := false
    valueIncreased := false
    pointUndefined := false
    valueUndefined := false
    gradientUndefined := false }

end

end Descent
