/-
# Descent.Equations.FixedPoint — repeated application of a map

For `F(x) = x - G(x)` the direction `-F(x)` leads from `x` to `G(x)`, so a full
step applies `G` once.  No linear system is solved; the Jacobian serves only for
the slope along the direction.  There have to be as many equations as unknowns.
-/
import Descent.Equations.Method

namespace Descent.FixedPoint
set_option autoImplicit false

/-- The choices of a user. -/
structure Settings (α : Type) where
  options : Options α
  search : LineSearch α

variable {ω α : Type} [Extended α]

/-- Refuses a system whose residual is no vector of the size of the point. -/
def square : Solver.Action Unit ω α Unit := do
  let ⟨x, y⟩ ← Drive.now
  if y.extents ≠ [x.size] then throw (.invalid (.notSquareSystem x.size y.flat.size))

/-- The method for a system. -/
def method (F : Solver.Problem Unit ω α) (s : Settings α) : Solver Unit ω α :=
  { name := "fixed-point iterator"
    kind := "FixedPointIterator"
    options := s.options
    dim := F.dim
    evaluate := Solver.evaluate F
    prepare := square
    step := do
      let d ← Solver.defined (← Drive.now).y.neg.flat
      Solver.lineStep F s.search s.options.verbosity (pure none) d }

end Descent.FixedPoint
