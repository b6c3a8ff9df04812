/-
# Descent.Equations.Method — what the solvers of systems share

A solver iterates over points with their residuals.  `Equations.lineStep` is the
second half of a step along a direction: the direction is shortened until the
residual it leads to is defined, and a line search on `|F|²` decides how far to go.
-/
import Descent.Equations.Basic
import Descent.Iteration.Loop
import Descent.LineSearch.Policy

namespace Descent
set_option autoImplicit false

/-- A solver of systems with a memory `μ`. -/
abbrev Solver (μ ω α : Type) := Method (SystemPoint α) (ResidualProgress α) μ ω α

/-- An action of such a solver. -/
abbrev Solver.Action (μ ω α : Type) : Type → Type :=
  Drive.Action (SystemPoint α) (ResidualProgress α) μ ω α

namespace Solver

variable {μ ω α : Type} [Extended α]

/-- The system that a solver works on. -/
abbrev Problem (μ ω α : Type) : Type :=
  Equations (Drive (SystemPoint α) (ResidualProgress α) μ α) ω α

/-- A point with its residual. -/
def evaluate (F : Problem μ ω α) (x : Vec α) : Action μ ω α (SystemPoint α) := do
  return ⟨x, ← F.residualAt x⟩

/-- Refuses a direction with an undefined entry. -/
def defined (direction : Vec α) : Action μ ω α (Vec α) :=
  if direction.hasNaN then throw .undefinedDirection else pure direction

/-- The next point along a direction. -/
def lineStep (F : Problem μ ω α) (search : LineSearch α) (verbosity : Int)
    (frozen : Action μ ω α (Option (Shaped α))) (direction : Vec α) : Action μ ω α (Vec α) := do
  let x := (← Drive.now).x
  let direction ← shortenUndefined F.residualAt x direction search.nanFactor
    search.nanMaxIterations verbosity
  Drive.onCache (Cache.turn direction)
  Act.onTrack (Track.reset x direction)
  let alpha ← search.search (F.ray (← frozen)) 1
  fit (Vec.add? x (Vec.scale alpha direction))

/-- A driver without a method: its first step fails. -/
def bare (F : Problem Unit ω α) (options : Options α) : Solver Unit ω α :=
  { name := "nonlinear solver"
    kind := "NonlinearSolver"
    options
    dim := F.dim
    evaluate := evaluate F
    prepare := pure ()
    step := throw .noStep }

end Solver

end Descent
