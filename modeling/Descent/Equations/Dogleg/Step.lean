/-
# Descent.Equations.Dogleg.Step — steps within a radius

For a model `m(p) = g·p + p·Bp / 2` and a radius, `cauchyStep` is the minimizer
along `-g`, and `doglegStep` the point of a bent path: from zero to the Cauchy step
and on to the full step `-B⁻¹ g`, cut off where the path leaves the ball.
-/
import Descent.Linear.Solver

namespace Descent.Dogleg
set_option autoImplicit false

section
variable {α : Type} [Scalar α] {n : Nat}

/-- The minimizer of the model along `-g`; without positive curvature, the step along `-g` of the
length of the radius. -/
def cauchyStep (g : Vector α n) (B : Mat n n α) (radius : α) : Except (Fault α) (Vector α n) := do
  let length := norm g
  if length == 0 then return Vector.replicate n 0
  let curvature := dot g (B.mulVec g)
  if curvature ≤ 0 then return scale (-(radius / length)) g
  return scale (-((← square length) / curvature)) g

/-- The full step `-B⁻¹ g`, unless `B` is singular. -/
def fullStep? (g : Vector α n) (B : Mat n n α) : Option (Vector α n) :=
  let F := Factors.of B
  if (F.smallPivot? 0).isSome then none else some ((F.solve g).map (- ·))

/-- The point where the segment from `p`, inside the ball, to `q` leaves it. -/
def crossing (p q : Vector α n) (radius : α) : Except (Fault α) (Vector α n) := do
  let along := Vector.zipWith (· - ·) q p
  let a := dot along along
  if a ≤ 0 then return p
  let b := 2.0 * dot p along
  let c := dot p p - (← square radius)
  let disc := Scalar.maxFirst (b * b - 4.0 * a * c) 0
  let t := Scalar.minFirst (Scalar.maxFirst ((-b + Scalar.sqrt disc) / (2.0 * a)) 0) 1
  return Vector.zipWith (· + ·) p (scale t along)

/-- The dogleg step. -/
def doglegStep (g : Vector α n) (B : Mat n n α) (radius : α) : Except (Fault α) (Vector α n) := do
  if norm g == 0 then return Vector.replicate n 0
  let full := fullStep? g B
  if let some q := full then
    if norm q ≤ radius then return q
  let p ← cauchyStep g B radius
  let length := norm p
  if radius ≤ length then return scale (← quotient radius length) p
  match full with
  | none => return p
  | some q => crossing p q radius

/-- Why a gradient that does not vanish has no Cauchy step for a model that does not fit: there is no
curvature along it, or the curvature is no number. -/
def noCurvature (g B : Shaped α) : Fault α :=
  if ((B.product? g).bind g.product?).isSome then .wrongKind else .shapeMismatch

/-- Why such a gradient has no dogleg step. -/
def misfit (g B : Shaped α) : Fault α :=
  match B.asSquare? with
  | none => .invalid (.notSquare B.extents)
  | some ⟨n, body⟩ =>
    if ((Factors.of body).smallPivot? 0).isSome then noCurvature g B
    else .invalid (.rightHandSide n g.extents)

/-- The dogleg step for a matrix of any extents. -/
def doglegStep? (g : Vec α) (B : Dense α) (radius : α) : Except (Fault α) (Vec α) := do
  if g.norm == 0 then return Vec.zeros g.size
  match B.square? g.size with
  | none => throw (misfit (.ofVec g) (.ofDense B))
  | some body => return (← doglegStep g.toVector body radius).toArray

/-- The Cauchy step for arrays of any extents. -/
def cauchyStepOf (g B : Shaped α) (radius : α) : Except (Fault α) (Shaped α) := do
  if g.norm == 0 then return g.zeros
  match g.vec? with
  | none => throw (noCurvature g B)
  | some v =>
    match B.square? v.size with
    | none => throw (noCurvature g B)
    | some body => return .ofVec (← cauchyStep v.toVector body radius).toArray

/-- The dogleg step for arrays of any extents. -/
def doglegStepOf (g B : Shaped α) (radius : α) : Except (Fault α) (Shaped α) := do
  if g.norm == 0 then return g.zeros
  match g.vec?, B.dense? with
  | some v, some D => return .ofVec (← doglegStep? v D radius)
  | _, _ => throw (misfit g B)

end

end Descent.Dogleg
