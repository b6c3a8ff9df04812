/-
# Descent.LineSearch.Policy — step lengths along a ray

`LineSearch.search` runs the chosen policy.  Every policy but the constant one
takes its first step length as it is when the slope at the start is flat, and the
bracketing ones also when the slope there is.  A bracketing policy that finds no
interval along the ray leaves the search to backtracking.
-/
import Descent.Bracketing
import Descent.LineSearch.Basic
import Descent.LineSearch.ThreePoint

namespace Descent.LineSearch
open Text
set_option autoImplicit false

variable {α : Type} [Scalar α] {m : Type → Type} [Monad m] [MonadExcept (Fault α) m]
  [Reports α m]

/-- A remark of a policy. -/
def remark (message : Message α) : m Unit := Reports.report ⟨Log.debug, .policies, message⟩

/-- The conditions on a step length; the slope is asked for only where the value is good enough. -/
def accepts (ray : Ray m α) (c : LineSearch α) (f₀ d₀ alpha : α) : m Bool := do
  let fAlpha ← ray.value alpha
  if sufficientDecrease fAlpha f₀ d₀ alpha c.c1 then
    if c.curvature then
      let dAlpha ← ray.slope alpha
      return curvatureCondition dAlpha d₀ c.c2 c.strong
    else return true
  else return false

/-- Shortens the step until it is accepted; `last` is the one tried before. -/
def shorten (ray : Ray m α) (c : LineSearch α) (f₀ d₀ : α) : (trials : Nat) → (alpha last : α) → m α
  | 0, _, last => do
    remark [.words "Backtracking exhausted after ", .whole c.maxIterations,
      .words " trials; alpha = ", .scientific 3 last]
    return last
  | trials + 1, alpha, _ => do
    if ← accepts ray c f₀ d₀ alpha then return alpha
    else shorten ray c f₀ d₀ trials (alpha * c.p) alpha

/-- Shortens the step until the value has fallen enough. -/
def backtrack (ray : Ray m α) (alpha₀ : α) (c : LineSearch α) : m α := do
  let f₀ ← ray.value 0
  let d₀ ← ray.slope 0
  if isFlat d₀ c.tol then return alpha₀
  else shorten ray c f₀ d₀ c.maxIterations.toNat alpha₀ alpha₀

/-- Continues with an interval, or by backtracking if there is none. -/
def onBracket {β : Type} (bracket : m β) (ray : Ray m α) (alpha₀ : α) (c : LineSearch α)
    (search : β → m α) : m α := do
  match ← attempt bracket with
  | .ok interval => search interval
  | .error fault =>
    if fault.isBracketing then
      remark ((fault.message).getD [] ++
        [.words " Falling back to backtracking from alpha = ", .scientific 3 alpha₀, .words "."])
      backtrack ray alpha₀ c
    else throw fault

/-- Bisects the slope on an interval around the minimum along the ray. -/
def bisectSlope (ray : Ray m α) (alpha₀ : α) (c : LineSearch α) : m α := do
  let d₀ ← ray.slope 0
  if isFlat d₀ c.tol then return alpha₀
  else
    let d₁ ← ray.slope alpha₀
    if isFlat d₁ c.tol then return alpha₀
    else
      onBracket (bracketMinimum ray.value 0 (.doubling c.s)) ray alpha₀ c fun (a, b) =>
        bisect ray.slope a b c.tol c.tol c.maxIterations.toNat

/-- The bracket of a quadratic interpolation: value and slope at the left end, value at the right
end, and the best point so far with its value. -/
structure Bracket (α : Type) where
  left : α
  fLeft : α
  dLeft : α
  right : α
  fRight : α
  best : α
  fBest : α

namespace Bracket

/-- The minimizer of the parabola with the value and slope at the left end and the value at the
right one, kept between the safeguards. -/
def trial (b : Bracket α) (sigma0 sigma1 : α) : Except (Fault α) α := do
  let h := b.right - b.left
  let p2 ← quotient (b.fRight - b.fLeft - b.dLeft * h) (← square h)
  let t := if 0 < p2 then -b.dLeft / (2.0 * p2) else sigma1 * h
  return b.left + Scalar.minFirst (Scalar.maxFirst t (sigma0 * h)) (sigma1 * h)

/-- The best point once a trial point is known. -/
def record (b : Bracket α) (alpha fAlpha : α) : Bracket α :=
  if fAlpha < b.fBest then { b with best := alpha, fBest := fAlpha } else b

/-- The side of the trial point on which the slope changes sign. -/
def shrink (b : Bracket α) (alpha fAlpha dAlpha : α) : Bracket α :=
  if dAlpha < 0 then { b with left := alpha, fLeft := fAlpha, dLeft := dAlpha }
  else { b with right := alpha, fRight := fAlpha }

end Bracket

/-- Interpolates until the slope is flat; the best point when no trials are left. -/
def interpolate (ray : Ray m α) (c : LineSearch α) : (trials : Nat) → (b : Bracket α) → m α
  | 0, b => do
    remark [.words "Quadratic line search exhausted; returning alpha = ", .scientific 3 b.best]
    return b.best
  | trials + 1, b => do
    let alpha ← ofExcept (b.trial c.sigma0 c.sigma1)
    let fAlpha ← ray.value alpha
    let dAlpha ← ray.slope alpha
    let b := b.record alpha fAlpha
    if isFlat dAlpha c.tol then return alpha
    else interpolate ray c trials (b.shrink alpha fAlpha dAlpha)

/-- Safeguarded quadratic interpolation on an interval that starts at zero. -/
def interpolateSlope (ray : Ray m α) (alpha₀ : α) (c : LineSearch α) : m α := do
  let f₀ ← ray.value 0
  let d₀ ← ray.slope 0
  if isFlat d₀ c.tol then return alpha₀
  else
    let d₁ ← ray.slope alpha₀
    if isFlat d₁ c.tol then return alpha₀
    else
      onBracket (bracketMinimumFrom ray.value 0 (.doubling c.s)) ray alpha₀ c
        fun (left, right) => do
          let fRight ← ray.value right
          interpolate ray c c.maxIterations.toNat
            { left, fLeft := f₀, dLeft := d₀, right, fRight, best := right, fBest := fRight }

/-- Quadratic interpolation through three points. -/
def interpolateTriple (ray : Ray m α) (alpha₀ : α) (c : LineSearch α) : m α := do
  let d₀ ← ray.slope 0
  if isFlat d₀ c.tol then return alpha₀
  else
    let d₁ ← ray.slope alpha₀
    if isFlat d₁ c.tol then return alpha₀
    else
      onBracket (bracketTriple ray.value 0 c.s 100) ray alpha₀ c fun (left, mid, right) =>
        Triple.search ray.value ⟨left, mid, right⟩ c.tol c.maxIterations.toNat

/-- A step length, starting from `alpha₀`. -/
def search (c : LineSearch α) (ray : Ray m α) (alpha₀ : α) : m α :=
  match c.kind with
  | .static => pure c.alpha
  | .backtracking => backtrack ray alpha₀ c
  | .bisection => bisectSlope ray alpha₀ c
  | .quadratic => interpolateSlope ray alpha₀ c
  | .threePoint => interpolateTriple ray alpha₀ c

end Descent.LineSearch
