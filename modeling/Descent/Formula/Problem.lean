/-
# Descent.Formula.Problem — problems that are written down

Systems of equations and objectives whose functions are given as expressions.  The
derivatives that are not written down are exact ones if that is asked for, and are
left to differences otherwise.  `SystemText.equations` and `ObjectiveText.objective`
are the problems that methods run on; an action of one's own can come before every
call of the function itself.

A problem can also be evaluated by hand, at a vector or at a plain number, and then
shows its values with the extents that they are written with.
-/
import Descent.Equations.Basic
import Descent.Formula.Derivative
import Descent.Objective.Basic

namespace Descent
set_option autoImplicit false

section
variable {α : Type} [Elementary α]

/-- The values of an array of expressions. Where exact derivatives are asked for the array is joined
from its items. -/
def Expr.array (exact : Bool) (x : Vec α) (e : Nested (Expr α)) : Except (Fault α) (Shaped α) := do
  fit (Shaped.ofNested? (← if exact then e.joinM (eval x) else e.mapM (eval x)))

/-- The value of one expression, which may stand in lists. -/
def Expr.scalar (exact : Bool) (x : Vec α) (e : Nested (Expr α)) : Except (Fault α) α := do
  match (← array exact x e).flat.toList with
  | [a] => return a
  | _ => throw .shapeMismatch

/-- A system of equations that is written down. -/
structure SystemText (α : Type) where
  residual : Nested (Expr α)
  jacobian : Option (Nested (Expr α)) := none
  /-- A Jacobian that is not written down is the exact one. -/
  exact : Bool := false
  dim : Option Int := none

/-- An objective that is written down. -/
structure ObjectiveText (α : Type) where
  value : Nested (Expr α)
  gradient : Option (Nested (Expr α)) := none
  hessian : Option (Nested (Expr α)) := none
  /-- Derivatives that are not written down are the exact ones. -/
  exact : Bool := false
  dim : Option Int := none

/-- How a function is called. -/
inductive Call (α : Type) where
  /-- For its value at a point. -/
  | value (x : Vec α)
  /-- For an exact derivative, with a point that stands for itself. -/
  | trace

/-- The call is for the value at that very point. -/
def Call.isAt (point : Shaped α) : Call α → Bool
  | .value x => point.same (.ofVec x)
  | .trace => false

variable {δ ω : Type}

/-- The derivative that is written down, in the arrangement that derivatives of its kind have, or the
exact one if it is asked for. -/
def derivative (written : Option (Nested (Expr α))) (arrange : Shaped α → Shaped α) (exact : Bool)
    (derive : Vec α → Nested (Expr α) → Except (Fault α) (Shaped α)) (function : Nested (Expr α))
    (before : Call α → Act δ ω α Unit) : Option (Vec α → Act δ ω α (Shaped α)) :=
  match written with
  | some e => some fun x => return arrange (← ofExcept (Expr.array false x e))
  | none =>
    if exact then some fun x => do
      before .trace
      ofExcept (derive x function)
    else none

/-- The expressions as they are evaluated where exact derivatives are asked for, and elsewhere. -/
def Expr.evaluated (exact : Bool) (e : Nested (Expr α)) : Nested (Expr α) :=
  if exact then e.map Expr.withPowers else e

/-- The expressions as functions of points of the given extents. -/
def Expr.readAt (extents : List Nat) (e : Nested (Expr α)) : Nested (Expr α) :=
  if extents.isEmpty then e.map Expr.bare else e

/-- Nothing comes before a call. -/
def Call.quietly (_ : Call α) : Act δ ω α Unit := pure ()

namespace SystemText

/-- The Jacobian that needs no differences, at points of that many axes. -/
def known (t : SystemText α) (axes : Nat) (residual : Nested (Expr α))
    (before : Call α → Act δ ω α Unit) : Option (Vec α → Act δ ω α (Shaped α)) :=
  derivative t.jacobian .withRows t.exact (fun x f => .ofDense <$> Expr.jacobian axes x f)
    residual before

/-- The system of equations. -/
def equations (t : SystemText α) (before : Call α → Act δ ω α Unit) : Equations δ ω α :=
  let residual := Expr.evaluated t.exact t.residual
  { residual := fun x => do
      before (.value x)
      return (← ofExcept (Expr.array t.exact x residual)).withAxis
    jacobian := t.known 1 residual before
    dim := t.dim }

/-- The system as it is evaluated at points of the given extents. -/
def readAt (t : SystemText α) (extents : List Nat) : SystemText α :=
  { t with
    residual := Expr.readAt extents (Expr.evaluated t.exact t.residual)
    jacobian := t.jacobian.map (Expr.readAt extents) }

/-- The residual at a point. -/
def residualOf (t : SystemText α) (x : Shaped α) : Act δ ω α (Shaped α) := do
  return (← ofExcept (Expr.array t.exact x.flat (t.readAt x.extents).residual)).withAxis

/-- The Jacobian at a point and what it costs. Differences are taken between points of components,
also around a plain number. -/
def jacobianOf (t : SystemText α) (x : Shaped α) : Act δ ω α (Shaped α × Evaluations) :=
  let here := t.readAt x.extents
  match here.known x.extents.length here.residual Call.quietly with
  | some jacobian => return (← jacobian x.flat, { first := 1 })
  | none => do
    let (J, evaluations) ← Differences.jacobian
      (fun p => ofExcept (Expr.array false p t.residual)) x.flat 1e-6
    return (J, { values := evaluations })

end SystemText

namespace ObjectiveText

/-- The gradient that needs no differences. -/
def knownGradient (t : ObjectiveText α) (value : Nested (Expr α))
    (before : Call α → Act δ ω α Unit) : Option (Vec α → Act δ ω α (Shaped α)) :=
  derivative t.gradient .withAxis t.exact (fun x f => .ofVec <$> Expr.gradient x f) value before

/-- The Hessian that needs no differences. -/
def knownHessian (t : ObjectiveText α) (value : Nested (Expr α))
    (before : Call α → Act δ ω α Unit) : Option (Vec α → Act δ ω α (Shaped α)) :=
  derivative t.hessian .withRows t.exact (fun x f => .ofDense <$> Expr.hessian x f) value before

/-- The objective. -/
def objective (t : ObjectiveText α) (before : Call α → Act δ ω α Unit) : Objective δ ω α :=
  let value := Expr.evaluated t.exact t.value
  { value := fun x => do
      before (.value x)
      ofExcept (Expr.scalar t.exact x value)
    gradient := t.knownGradient value before
    hessian := t.knownHessian value before
    dim := t.dim }

/-- The objective as it is evaluated at points of the given extents. -/
def readAt (t : ObjectiveText α) (extents : List Nat) : ObjectiveText α :=
  { t with
    value := Expr.readAt extents (Expr.evaluated t.exact t.value)
    gradient := t.gradient.map (Expr.readAt extents)
    hessian := t.hessian.map (Expr.readAt extents) }

/-- The value at a point. -/
def valueOf (t : ObjectiveText α) (x : Shaped α) : Act δ ω α α :=
  ofExcept (Expr.scalar t.exact x.flat (t.readAt x.extents).value)

/-- The gradient at a point and what it costs. Differences are taken between points of components,
also around a plain number. -/
def gradientOf (t : ObjectiveText α) (x : Shaped α) : Act δ ω α (Shaped α × Evaluations) :=
  let here := t.readAt x.extents
  match here.knownGradient here.value Call.quietly with
  | some gradient => return (← gradient x.flat, { first := 1 })
  | none => do
    let (g, evaluations) ← Differences.gradient
      (fun p => ofExcept (Expr.scalar false p t.value)) x.flat 1e-6
    return (.ofVec g, { values := evaluations })

/-- The Hessian at a point and what it costs. -/
def hessianOf (t : ObjectiveText α) (x : Shaped α) : Act δ ω α (Shaped α × Evaluations) :=
  let here := t.readAt x.extents
  match here.knownHessian here.value Call.quietly with
  | some hessian => return (← hessian x.flat, { second := 1 })
  | none => do
    let (H, evaluations) ← Differences.hessian
      (fun p => ofExcept (Expr.scalar false p here.value)) x.flat 1e-4
    return (.ofDense H, { values := evaluations })

end ObjectiveText

end

end Descent
