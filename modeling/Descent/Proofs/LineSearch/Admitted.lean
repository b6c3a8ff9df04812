/-
# Descent.Proofs.LineSearch.Admitted — the parameters that a search admits

`LineSearch.check` looks at one parameter after the other.  With numbers of an ordered field the
parameters that pass are those of `Admitted` (`check_ok_iff`), which is all that the theorems on the
policies use of the check.
-/
import Descent.LineSearch.Basic
import Descent.Proofs.Exact

namespace Descent
set_option autoImplicit false

namespace LineSearch

/-- Whatever the numbers are, an admitted search makes at least one trial. -/
theorem trials_of_check {α : Type} [Scalar α] {c : LineSearch α} (valid : c.check = .ok c) :
    1 ≤ c.maxIterations.toNat := by
  simp only [check] at valid
  grind

variable {K : Type} [Field K] [LinearOrder K] {c : LineSearch K}

/-- The parameters for which the policies are defined. -/
structure Admitted (c : LineSearch K) : Prop where
  constant : 0 < c.alpha
  decrease : 0 < c.c1
  order : c.c1 < c.c2
  curvature : c.c2 < 1
  shortens : 0 < c.p
  proper : c.p < 1
  least : 0 < c.sigma0
  safeguards : c.sigma0 < c.sigma1
  greatest : c.sigma1 < 1
  moves : 0 < c.s
  tol : 0 < c.tol
  trials : 1 ≤ c.maxIterations
  reduces : 0 < c.nanFactor
  reduction : c.nanFactor < 1
  reductions : 0 ≤ c.nanMaxIterations

theorem check_ok_iff : c.check = .ok c ↔ c.Admitted := by
  constructor
  · intro valid
    simp only [check, properFraction] at valid
    constructor <;> grind
  · intro given
    simp [check, properFraction, given.constant.not_ge, given.decrease, given.order,
      given.curvature, given.shortens, given.proper, given.least, given.safeguards, given.greatest,
      given.moves.not_ge, given.tol.not_ge, given.trials.not_gt, given.reduces, given.reduction,
      given.reductions.not_gt]

theorem check_standard [IsStrictOrderedRing K] : (standard : LineSearch K).check = .ok standard :=
  check_ok_iff.2 (by constructor <;> norm_num [standard])

end LineSearch

end Descent
