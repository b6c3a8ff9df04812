/-
# Descent.Equations.Basic — systems of equations

`Equations` is a system `F(x) = 0` of any number of equations, given by its
residual `F` and, if it is known, its Jacobian; otherwise the Jacobian is taken by
central differences.  User functions return arrays of any extents; what has no
product of the kind that is needed is refused where it is used.  Every evaluation
is counted: residuals as values, known Jacobians as first derivatives, differences
as the values that they cost.

Along a line the system is the ray `|F(x)|²` with the slope `2 Fᵀ J d`.
-/
import Descent.Differences
import Descent.LineSearch.Basic
import Descent.LineSearch.Track

namespace Descent
set_option autoImplicit false

/-- A system of equations. -/
structure Equations (δ ω α : Type) where
  residual : Vec α → Act δ ω α (Shaped α)
  jacobian : Option (Vec α → Act δ ω α (Shaped α)) := none
  /-- The number of unknowns, where it is fixed. -/
  dim : Option Int := none

namespace Equations

variable {δ ω α : Type} [Scalar α]

/-- The residual, counted once it is there. -/
def residualAt (F : Equations δ ω α) (x : Vec α) : Act δ ω α (Shaped α) := do
  let y ← F.residual x
  Act.tally { values := 1 }
  return y

/-- The Jacobian and what it costs. -/
def jacobianCost (F : Equations δ ω α) (x : Vec α) : Act δ ω α (Shaped α × Evaluations) :=
  match F.jacobian with
  | some jacobian => return (← jacobian x, { first := 1 })
  | none => do
    let (J, evaluations) ← Differences.jacobian F.residual x 1e-6
    return (J, { values := evaluations })

/-- The Jacobian, counted once it is there. -/
def jacobianAt (F : Equations δ ω α) (x : Vec α) : Act δ ω α (Shaped α) :=
  Act.counted (F.jacobianCost x)

/-- The ray along the line of the session; a Jacobian that is handed over is not evaluated anew. -/
def ray (F : Equations δ ω α) (frozen : Option (Shaped α)) : Ray (Act δ ω α) α where
  value alpha := do
    let x ← Act.onTrack (Track.visit alpha)
    let y ← F.residualAt x
    ofExcept (y.inner y)
  slope alpha := do
    let x ← Act.onTrack (Track.visit alpha)
    let y ← F.residualAt x
    let J ← match frozen with
      | some J => pure J
      | none => F.jacobianAt x
    let rise ← fit (J.product? (.ofVec (← get).track.direction))
    return 2.0 * (← ofExcept (y.inner rise))

end Equations

end Descent
