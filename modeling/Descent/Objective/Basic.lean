/-
# Descent.Objective.Basic — functions to be minimized

An `Objective` is a function of several unknowns with, if they are known, its
gradient and its Hessian; otherwise these are taken by central differences.  As
known derivatives users may return arrays of any extents.  Every evaluation is
counted: values as such, known gradients as first and known Hessians as second
derivatives, differences as the values that they cost.

Along a line the objective is a ray with the slope `∇f · d`.
-/
import Descent.Differences
import Descent.LineSearch.Basic
import Descent.LineSearch.Track

namespace Descent
set_option autoImplicit false

/-- A function to be minimized. -/
structure Objective (δ ω α : Type) where
  value : Vec α → Act δ ω α α
  gradient : Option (Vec α → Act δ ω α (Shaped α)) := none
  hessian : Option (Vec α → Act δ ω α (Shaped α)) := none
  /-- The number of unknowns, where it is fixed. -/
  dim : Option Int := none

namespace Objective

variable {δ ω α : Type} [Scalar α]

/-- The value, counted before it is there. -/
def valueAt (F : Objective δ ω α) (x : Vec α) : Act δ ω α α := do
  Act.tally { values := 1 }
  F.value x

/-- The gradient and what it costs. -/
def gradientCost (F : Objective δ ω α) (x : Vec α) : Act δ ω α (Shaped α × Evaluations) :=
  match F.gradient with
  | some gradient => return (← gradient x, { first := 1 })
  | none => do
    let (g, evaluations) ← Differences.gradient F.value x 1e-6
    return (.ofVec g, { values := evaluations })

/-- The gradient, counted once it is there. -/
def gradientAt (F : Objective δ ω α) (x : Vec α) : Act δ ω α (Shaped α) :=
  Act.counted (F.gradientCost x)

/-- The Hessian and what it costs. -/
def hessianCost (F : Objective δ ω α) (x : Vec α) : Act δ ω α (Shaped α × Evaluations) :=
  match F.hessian with
  | some hessian => return (← hessian x, { second := 1 })
  | none => do
    let (H, evaluations) ← Differences.hessian F.value x 1e-4
    return (.ofDense H, { values := evaluations })

/-- The Hessian, counted once it is there. -/
def hessianAt (F : Objective δ ω α) (x : Vec α) : Act δ ω α (Shaped α) :=
  Act.counted (F.hessianCost x)

/-- The ray along the line of the session. -/
def ray (F : Objective δ ω α) : Ray (Act δ ω α) α where
  value alpha := do
    F.valueAt (← Act.onTrack (Track.visit alpha))
  slope alpha := do
    let g ← F.gradientAt (← Act.onTrack (Track.visit alpha))
    ofExcept (g.inner (.ofVec (← get).track.direction))

end Objective

end Descent
