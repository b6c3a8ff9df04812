/-
# Descent.Bracketing — intervals that hold a minimum or a root

Searches along a line for an interval around a minimum (`bracketMinimum`,
`bracketMinimumFrom`, `bracketTriple`) or around a change of sign
(`bracketRoot`), and `bisect`, which narrows the latter down to a root.  A
comparison with an undefined value fails, so a march goes on over it.

The function may be any action of a monad that can fail.
-/
import Descent.Session

namespace Descent
set_option autoImplicit false

variable {α : Type} [Scalar α] {m : Type → Type} [Monad m] [MonadExcept (Fault α) m]

/-- First step, growth factor and number of moves of a march. -/
structure March (α : Type) where
  step : α
  growth : α
  moves : Nat

namespace March

/-- One hundred moves with doubling steps. -/
def doubling (step : α) : March α := { step, growth := 2.0, moves := 100 }

/-- A march has to move, and to grow. -/
def check (march : March α) : Except (Fault α) Unit :=
  if march.step == 0 then .error (.invalid .zeroStep)
  else if march.growth ≤ 1 then .error (.invalid .smallGrowth)
  else if march.moves < 1 then .error (.invalid .noMoves)
  else .ok ()

end March

/-- The two points in increasing order. -/
def ordered (a c : α) : α × α := if a < c then (a, c) else (c, a)

/-- Goes on from `b`, which comes after `a`, until the function rises. -/
def descend (f : α → m α) (growth : α) : (moves : Nat) → (a b fb step : α) → m (Option (α × α))
  | 0, _, _, _, _ => pure none
  | moves + 1, a, b, fb, step => do
    let c := b + step
    let fc ← f c
    if fb < fc then pure (some (ordered a c))
    else descend f growth moves b c fc (step * growth)

/-- An interval with a minimum of `f`, found by walking downhill from `x`. -/
def bracketMinimum (f : α → m α) (x : α) (march : March α) : m (α × α) := do
  ofExcept march.check
  let fx ← f x
  let y := x + march.step
  let fy ← f y
  let found ←
    if fx < fy then descend f march.growth march.moves y x fx (-march.step)
    else descend f march.growth march.moves x y fy march.step
  match found with
  | some interval => pure interval
  | none => throw (Fault.noMinimum x)

/-- Widens the interval from `x` until the function rises at its right end. -/
def widen (f : α → m α) (x growth : α) : (moves : Nat) → (fc width : α) → m (Option α)
  | 0, _, _ => pure none
  | moves + 1, last, width => do
    let c := x + width
    let fc ← f c
    if last < fc then pure (some c) else widen f x growth moves fc (width * growth)

/-- An interval with a minimum of `f` whose left end is `x`. -/
def bracketMinimumFrom (f : α → m α) (x : α) (march : March α) : m (α × α) := do
  ofExcept march.check
  let fx ← f x
  match ← widen f x march.growth march.moves fx march.step with
  | some c => pure (x, c)
  | none => throw (Fault.noMinimumToTheRight x)

/-- The first of the points `x + δ`, `x + δ / 2`, … at which the function is less than at `x`, its
value and its distance. -/
def firstDescent (f : α → m α) (x fx : α) : (halvings : Nat) → (δ : α) → m (α × α × α)
  | halvings, δ => do
    let y := x + δ
    let fy ← f y
    if fy < fx then pure (y, fy, δ)
    else match halvings with
      | 0 => throw (Fault.notDecreasing x y fy fx)
      | halvings + 1 => firstDescent f x fx halvings (δ / 2.0)

/-- Doubles the increment until the function rises; the last three points. -/
def ascend (f : α → m α) : (moves : Nat) → (a b fb increment : α) → m (Option (α × α × α))
  | 0, _, _, _, _ => pure none
  | moves + 1, a, b, fb, increment => do
    let increment := increment * 2.0
    let c := b + increment
    let fc ← f c
    if fb < fc then pure (some (a, b, c)) else ascend f moves b c fc increment

/-- Points `a < b < c` with `f a ≥ f b` and `f c > f b`, to the right of `x`. -/
def bracketTriple (f : α → m α) (x δ : α) (moves : Nat) : m (α × α × α) := do
  if δ ≤ 0 then throw (Fault.invalid .increment)
  let fx ← f x
  let (b, fb, increment) ← firstDescent f x fx 5 δ
  match ← ascend f moves x b fb increment with
  | some triple => pure triple
  | none => throw (Fault.noTriple x)

/-- Pushes the far end away from `x` until the values at the ends do not have the same sign. -/
def reach (f : α → m α) (x fx growth : α) : (moves : Nat) → (width : α) → m (Option (α × α))
  | 0, _ => pure none
  | moves + 1, width => do
    let c := x + width
    let fc ← f c
    if fx * fc ≤ 0 then pure (some (ordered x c)) else reach f x fx growth moves (width * growth)

/-- An interval with the end `x` over which `f` changes sign, on the side to which `|f|` falls. -/
def bracketRoot (f : α → m α) (x : α) (march : March α) : m (α × α) := do
  ofExcept march.check
  let fx ← f x
  if fx == 0 then pure (x, x)
  else
    let fy ← f (x + march.step)
    let width := if Scalar.abs fx < Scalar.abs fy then -march.step else march.step
    match ← reach f x fx march.growth march.moves width with
    | some interval => pure interval
    | none => throw (Fault.noRoot x)

/-- Halves the interval until the value at the midpoint or the interval is small enough; `mid` is
the answer when no halvings are left. -/
def halve (f : α → m α) (xTol fTol : α) : (halvings : Nat) → (low fLow high mid : α) → m α
  | 0, _, _, _, mid => pure mid
  | halvings + 1, low, fLow, high, _ => do
    let mid := 0.5 * (low + high)
    let fMid ← f mid
    if Scalar.abs fMid ≤ fTol then pure mid
    else
      let (low, fLow, high) := if 0 < fLow * fMid then (mid, fMid, high) else (low, fLow, mid)
      if Scalar.abs (high - low) ≤ xTol then pure mid
      else halve f xTol fTol halvings low fLow high mid

/-- A root of `f` between `a` and `b`. -/
def bisect (f : α → m α) (a b xTol fTol : α) (halvings : Nat) : m α := do
  let (low, high) := if a ≤ b then (a, b) else (b, a)
  let fLow ← f low
  let fHigh ← f high
  if fLow == 0 then pure low
  else if fHigh == 0 then pure high
  else if Scalar.sameSign fLow fHigh then throw (Fault.noSignChange low high)
  else halve f xTol fTol halvings low fLow high (0.5 * (low + high))

end Descent
