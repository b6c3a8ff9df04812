/-
# Descent.Formula.Derivative — exact derivatives of expressions

Derivatives are read off a `Tape`.  One row of a Jacobian is a sweep in which the
value of that row has weight one and the other values have weight zero; one row of
a Hessian is a second sweep, over the rates of the first, in which the rates of
that component have weight one and the others weight zero.
-/
import Descent.Formula.Tape

namespace Descent
set_option autoImplicit false

section
variable {α : Type} [Elementary α]

/-- The weight of row `i` among the rows. -/
def unit (i k : Nat) : α := if k = i then 1 else 0

/-- The derivatives of the results at some places of a tape. -/
def Tape.slopes (t : Tape α) (n : Nat) (places : List Nat) : List (Vec α) :=
  (List.range places.length).map fun i =>
    let (reached, t) := (Tape.sweep (places.mapIdx fun k place => (place, unit i k))).run t
    t.totals n reached

/-- The second derivatives of the result at a place of a tape. -/
def Tape.curvatures (t : Tape α) (n : Nat) (place : Nat) : List (Vec α) :=
  let (reached, t) := (Tape.sweep [(place, 1)]).run t
  (List.range n).map fun i =>
    let (second, t) := (Tape.sweep (reached.map fun (k, rate) => (rate, unit i k))).run t
    t.totals n second

namespace Formula

/-- The tape of several formulas, and the places of their results. -/
def tapeOf (x : Vec α) (formulas : List (Formula α)) : List Nat × Tape α :=
  (formulas.mapM (Tape.record x)).run #[]

/-- The components of which a formula speaks. -/
def components : Formula α → List Nat
  | .var i => [i]
  | .const _ | .leaf _ => []
  | .apply _ a => a.components
  | .combine _ a b => a.components ++ b.components

/-- The formula has a constant that counts as variable. -/
def hasLeaf : Formula α → Bool
  | .leaf _ => true
  | .const _ | .var _ => false
  | .apply _ a => a.hasLeaf
  | .combine _ a b => a.hasLeaf || b.hasLeaf

end Formula

namespace Expr

/-- An array of expressions with their choices made at a point at which they all have values. -/
def resolveAll (x : Vec α) : Nested (Expr α) → Except (Fault α) (Nested (Formula α)) :=
  Nested.joinM fun e => do
    let formula ← e.resolve x
    let _ ← formula.eval x
    return formula

/-- The gradient of a single value. It has to depend on the point. -/
def gradient (x : Vec α) (e : Nested (Expr α)) : Except (Fault α) (Vec α) := do
  let value ← resolveAll x e
  let shape ← fit value.shape?
  match value.entries with
  | [formula] =>
    if formula.components.isEmpty then
      throw (if formula.hasLeaf then .gradientNotReached else .notDifferentiable)
    let (places, t) := Formula.tapeOf x [formula]
    return (t.slopes x.size places).headD #[]
  | _ => throw (.invalid (.notScalar shape))

/-- The Jacobian at a point of that many axes: one row for each entry, whatever its depth. Rows of no
entries do not show how many they are. The rates fill an array with the axes of the value and those
of the point. -/
def jacobian (axes : Nat) (x : Vec α) (e : Nested (Expr α)) : Except (Fault α) (Dense α) := do
  let value ← resolveAll x e
  let shape ← fit value.shape?
  if x.isEmpty || Shaped.maxAxes < shape.length + axes then throw .shapeMismatch
  let (places, t) := Formula.tapeOf x value.entries
  fit (Dense.ofRows? (t.slopes x.size places))

/-- The Hessian of a single value. There is none without components. -/
def hessian (x : Vec α) (e : Nested (Expr α)) : Except (Fault α) (Dense α) := do
  let value ← resolveAll x e
  if x.isEmpty then throw .notDifferentiable
  match value.entries with
  | [formula] =>
    let (places, t) := Formula.tapeOf x [formula]
    fit (Dense.ofRows? (t.curvatures x.size (places.headD 0)))
  | _ => throw .notDifferentiable

end Expr

end

end Descent
