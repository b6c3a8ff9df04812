/-
# Descent.Proofs.Equations.Ray — rays of plain systems

Along a line that stays where it is, the ray of a system of plain functions is a plain ray
(`PureEquations.ray`).  So a line search has one and the same result in every session that
is along the line.
-/
import Descent.Proofs.Equations.Evaluation
import Descent.Proofs.Iteration.Aim

namespace Descent
set_option autoImplicit false

namespace PureEquations

variable {α : Type} [Scalar α] {δ ω : Type} (G : PureEquations α) (x d : Vec α)
  (frozen : Option (Shaped α))

/-- The square of the residual along a line. -/
def ray : Ray (Except (Fault α)) α where
  value alpha := do
    let y ← G.residual (linePoint x d alpha)
    y.inner y
  slope alpha := do
    let y ← G.residual (linePoint x d alpha)
    let J ← match frozen with
      | some J => pure J
      | none => G.derivative (linePoint x d alpha)
    let rise ← fit (J.product? (.ofVec d))
    return 2.0 * (← y.inner rise)

theorem rel_ray : (Correspondence.along (ω := ω) (δ := δ) x d).Rays (G.ray x d frozen)
    (G.actions.ray frozen) := by
  let C := Correspondence.along (ω := ω) (δ := δ) x d
  constructor
  · intro alpha
    exact Correspondence.along_visit (C.bind (G.rel_residualAt _ Session.Along.counted) fun y =>
      Correspondence.within_ofExcept (y.inner y))
  · intro alpha
    refine Correspondence.along_visit (C.bind (G.rel_residualAt _ Session.Along.counted) fun y => ?_)
    have rise (J : Shaped α) : C.Rel
        (do
          let rise ← fit (J.product? (.ofVec d))
          return 2.0 * (← y.inner rise))
        (do
          let s ← get
          let rise ← fit (J.product? (.ofVec s.track.direction))
          return 2.0 * (← ofExcept (y.inner rise))) := by
      refine Correspondence.within_get ?_
      rintro s ⟨-, rfl⟩
      exact C.bind (C.fit trivial) fun r => C.bind (Correspondence.within_ofExcept _) fun a =>
        C.pure (2.0 * a)
    cases frozen with
    | some J => exact C.bind (C.pure J) rise
    | none => exact C.bind (G.rel_jacobianAt _ Session.Along.counted) rise

end PureEquations

end Descent
