/-
# Descent.Objective.Optimizer — minimization along directions

An optimizer takes its direction from the Hessian (`H d = -g`) or from an estimate
`Q` of its inverse (`d = -Q g`), and searches along it.  The estimate starts at the
identity and is corrected after every step; it also goes back to the identity when
its direction does not lead downhill.
-/
import Descent.InverseHessian
import Descent.Iteration.Loop
import Descent.Linear.Solver
import Descent.LineSearch.Policy
import Descent.Objective.Basic

namespace Descent
open Text
set_option autoImplicit false

namespace Optimizer

/-- The choices of a user. -/
structure Settings (α : Type) where
  hessian : HessianKind
  search : LineSearch α
  options : Options α

/-- What an optimizer remembers: its estimate, if it works with one. -/
abbrev Memory (α : Type) := Option (InverseHessian α)

/-- An action of an optimizer. -/
abbrev Action (ω α : Type) : Type → Type :=
  Drive.Action (ObjectivePoint α) (ObjectiveProgress α) (Memory α) ω α

/-- The objective that an optimizer works on. -/
abbrev Problem (ω α : Type) : Type :=
  Objective (Drive (ObjectivePoint α) (ObjectiveProgress α) (Memory α) α) ω α

def name : HessianKind → String
  | .exact => "Newton optimizer"
  | .bfgs => "BFGS optimizer"
  | .dfp => "DFP optimizer"

section
variable {ω α : Type} [Extended α]

def remember (memory : Memory α) : Action ω α Unit :=
  Act.changeDriver fun d => { d with memory }

/-- A point with its value and gradient. -/
def evaluate (F : Problem ω α) (x : Vec α) : Action ω α (ObjectivePoint α) := do
  let f ← F.valueAt x
  let g ← F.gradientAt x
  return ⟨x, f, g⟩

/-- A fresh estimate, for the kinds that work with one. -/
def prepare (kind : HessianKind) : Action ω α Unit := do
  match kind.rule? with
  | none => remember none
  | some rule => remember (some (← ofExcept (InverseHessian.new rule (← Drive.now).x.size)))

/-- The direction does not lead downhill although the gradient does not vanish. -/
def isUphill (slope : α) (g : Shaped α) : Bool := 0 ≤ slope && g.flat.any fun a => !(a == 0)

/-- The direction of an estimate, which is reset if it leads uphill. -/
def estimated (h : InverseHessian α) (g : Shaped α) : Action ω α (Vec α) := do
  let direction ← ofExcept (h.direction g)
  if isUphill (← ofExcept (direction.inner g)) g then
    Reports.report ⟨Log.debug, .optimizer, [.words
      (h.rule.name ++ " direction is not a descent direction; resetting Q.")]⟩
    remember (some h.reset)
    return (← ofExcept (h.reset.direction g)).flat
  else return direction.flat

/-- The direction of the Hessian at a point. -/
def exact (F : Problem ω α) (p : ObjectivePoint α) : Action ω α (Vec α) := do
  let H ← F.hessianAt p.x
  let (factorized, solver) := (LinearSolver.factorize H).run.run { tolerance := 0 }
  match factorized with
  | .ok () => ofExcept (solver.solve p.g.neg)
  | .error (.singularMatrix _) => throw .singularHessian
  | .error fault => throw fault

/-- The direction at a point. -/
def direction (F : Problem ω α) (p : ObjectivePoint α) : Action ω α (Vec α) := do
  let direction ← match (← Act.driver).memory with
    | some h => estimated h p.g
    | none => exact F p
  if direction.hasNaN then throw .undefinedDirection
  return direction

/-- The next point. -/
def step (F : Problem ω α) (s : Settings α) : Action ω α (Vec α) := do
  let p ← Drive.now
  let d ← direction F p
  let evaluate (x : Vec α) : Action ω α (Shaped α) := return .ofNumber (← F.valueAt x)
  let d ← shortenUndefined evaluate p.x d s.search.nanFactor s.search.nanMaxIterations
    s.options.verbosity
  Drive.onCache (Cache.turn d)
  Act.onTrack (Track.reset p.x d)
  let alpha ← s.search.search F.ray 1
  fit (Vec.add? p.x (Vec.scale alpha d))

/-- Corrects the estimate by the last step. -/
def learn : Action ω α Unit := do
  match (← Act.driver).memory with
  | none => pure ()
  | some h =>
    let c := (← Act.driver).current
    let dx ← fit (Vec.sub? c.now.x c.before.x)
    let dg ← fit (c.now.g.sub? c.before.g)
    let (h, _) ← h.learn (.ofVec dx) dg
    remember (some h)

/-- The method for an objective. -/
def method (F : Problem ω α) (s : Settings α) :
    Method (ObjectivePoint α) (ObjectiveProgress α) (Memory α) ω α :=
  { name := name s.hessian
    kind := "Optimizer"
    options := s.options
    dim := F.dim
    evaluate := evaluate F
    prepare := prepare s.hessian
    step := step F s
    learn := learn }

/-- Replaces the estimate by one that is written down, or by none. The identity stands in for a
matrix that is not an array. -/
def replaceEstimate (kind : HessianKind) (dim : Nat) (matrix : Option (Nested α)) :
    Action ω α Unit := do
  remember none
  if let some matrix := matrix then
    let h ← ofExcept (InverseHessian.new (← ofExcept kind.approximated) dim)
    remember (some h)
    remember (some { h with matrix := ← fit (Shaped.ofNested? matrix) })

/-- The direction from `x`; nothing but the Hessian is counted. -/
def directionFrom (F : Problem ω α) (x : Vec α) : Action ω α (Vec α) := do
  let f ← F.value x
  let (g, _) ← F.gradientCost x
  direction F ⟨x, f, g⟩

end

end Optimizer

end Descent
