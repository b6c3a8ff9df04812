/-
# Descent.Equations.Newton — Newton's method and its thrifty variant

Both solve `J d = -F(x)` for the direction `d` and search along it.  Newton's
method takes the Jacobian anew in every iteration, and wherever a line search asks
for a slope.  The thrifty variant takes it every few iterations; in between it
goes on with the same factors, and its line searches use the same Jacobian.
-/
import Descent.Equations.Method
import Descent.Linear.Solver

namespace Descent
set_option autoImplicit false

namespace Newton

/-- When the Jacobian is taken. -/
inductive Schedule where
  /-- In every iteration, and at every point where a line search asks for a slope. -/
  | always
  /-- In every iteration whose number is a multiple of the period. -/
  | every (period : Nat)
  deriving DecidableEq

/-- The schedule of a period. -/
def Schedule.read {α : Type} (period : Int) : Except (Fault α) Schedule :=
  if period < 1 then .error (.invalid (.belowOne "refactorize")) else .ok (.every period.toNat)

/-- The Jacobian is taken in iteration `k`. -/
def Schedule.due : Schedule → (k : Nat) → Bool
  | .always, _ => true
  | .every period, k => k % period == 0

/-- The factors and the Jacobian that they belong to. -/
structure Memory (α : Type) where
  linear : LinearSolver α
  jacobian : Option (Shaped α) := none

/-- The choices of a user. -/
structure Settings (α : Type) where
  options : Options α
  search : LineSearch α
  /-- Pivots up to this size count as zero. -/
  pivotTolerance : α
  schedule : Schedule

section
variable {ω α : Type} [Extended α]

/-- An action of the solver. -/
abbrev Action (ω α : Type) : Type → Type := Solver.Action (Memory α) ω α

/-- Changes the linear solver. -/
def onLinear {β : Type} (act : Edit α (LinearSolver α) β) : Action ω α β :=
  Act.edit (·.memory.linear) (fun linear d => { d with memory := { d.memory with linear } }) act

/-- Takes the Jacobian at the present point and factorizes it. -/
def refresh (F : Solver.Problem (Memory α) ω α) : Action ω α Unit := do
  let J ← F.jacobianAt (← Drive.now).x
  Act.changeDriver fun d => { d with memory := { d.memory with jacobian := some J } }
  match ← attempt (onLinear (LinearSolver.factorize J)) with
  | .ok () => pure ()
  | .error (.singularMatrix _) => throw .singularJacobian
  | .error fault => throw fault

/-- The solution `d` of `J d = -F(x)`. -/
def direction (F : Solver.Problem (Memory α) ω α) (schedule : Schedule) :
    Action ω α (Vec α) := do
  let d ← Act.driver
  if schedule.due d.progress.iteration || !d.memory.linear.factorized then refresh F
  Solver.defined (← ofExcept ((← Act.driver).memory.linear.solve (← Drive.now).y.neg))

/-- The Jacobian that a line search is to use. -/
def frozen (schedule : Schedule) : Action ω α (Option (Shaped α)) :=
  match schedule with
  | .always => pure none
  | .every _ => return (← Act.driver).memory.jacobian

def name : Schedule → String
  | .always => "Newton solver"
  | .every _ => "quasi-Newton solver"

def kind : Schedule → String
  | .always => "NewtonSolver"
  | .every _ => "QuasiNewtonSolver"

/-- The memory of a solver that has not started. -/
def blank (s : Settings α) : Memory α := { linear := { tolerance := s.pivotTolerance } }

/-- The method for a system. -/
def method (F : Solver.Problem (Memory α) ω α) (s : Settings α) : Solver (Memory α) ω α :=
  { name := name s.schedule
    kind := kind s.schedule
    options := s.options
    dim := F.dim
    evaluate := Solver.evaluate F
    prepare := Act.changeDriver fun d => { d with memory := blank s }
    step := do
      let d ← direction F s.schedule
      Solver.lineStep F s.search s.options.verbosity (frozen s.schedule) d }

end

end Newton

end Descent
