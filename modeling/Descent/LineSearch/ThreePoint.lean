/-
# Descent.LineSearch.ThreePoint — quadratic interpolation through three points

A `Triple` brackets a minimum: the value in the middle is not above those at the
ends.  One step places a trial point at the vertex of the parabola through the
three points, moved to the middle of the wider side where there is no usable
vertex, and keeps the three points around the least value.
-/
import Descent.Session

namespace Descent
set_option autoImplicit false

/-- Three numbers: points in increasing order, or the values at them. -/
structure Triple (α : Type) where
  left : α
  mid : α
  right : α

namespace Triple

variable {α : Type} [Scalar α]

/-- The right side is wider than the left one. -/
def widerRight (t : Triple α) : Bool := t.mid - t.left < t.right - t.mid

/-- The middle of the wider side. -/
def widerMiddle (t : Triple α) : α :=
  if t.widerRight then 0.5 * (t.mid + t.right) else 0.5 * (t.left + t.mid)

/-- The stationary point of the parabola through three points, if it is a number. -/
def stationary (t f : Triple α) : Except (Fault α) (Option α) := do
  let aa ← square t.left
  let bb ← square t.mid
  let cc ← square t.right
  let numerator := f.left * (bb - cc) + f.mid * (cc - aa) + f.right * (aa - bb)
  let denominator :=
    f.left * (t.mid - t.right) + f.mid * (t.right - t.left) + f.right * (t.left - t.mid)
  if denominator == 0 || !Scalar.isFinite (numerator / denominator) then return none
  return some (0.5 * numerator / denominator)

/-- A point too close to the middle is moved by half of `eps` into the wider side, and one that is
not strictly inside, or still the middle, to the middle of that side. -/
def repair (t : Triple α) (eps x : α) : α :=
  let y :=
    if Scalar.isClose x t.mid (4.0 * Scalar.spacing) Scalar.spacing then
      if t.widerRight then t.mid + eps / 2.0 else t.mid - eps / 2.0
    else x
  if !(t.left < y && y < t.right) || y == t.mid then t.widerMiddle else y

/-- The next trial point. -/
def vertex (t f : Triple α) (eps : α) : Except (Fault α) α := do
  match ← stationary t f with
  | none => return t.widerMiddle
  | some x => return t.repair eps x

/-- The points around the least value once the trial point `x` with value `fx` is known. -/
def insert (t f : Triple α) (x fx : α) : Triple α × Triple α :=
  if t.mid < x then
    if f.mid < fx then (⟨t.left, t.mid, x⟩, ⟨f.left, f.mid, fx⟩)
    else (⟨t.mid, x, t.right⟩, ⟨f.mid, fx, f.right⟩)
  else if f.mid < fx then (⟨x, t.mid, t.right⟩, ⟨fx, f.mid, f.right⟩)
  else (⟨t.left, x, t.mid⟩, ⟨f.left, fx, f.mid⟩)

variable {m : Type → Type} [Monad m] [MonadExcept (Fault α) m]

/-- The values of `f` at three points, from left to right. -/
def valuesOf (f : α → m α) (t : Triple α) : m (Triple α) := do
  let left ← f t.left
  let mid ← f t.mid
  let right ← f t.right
  return ⟨left, mid, right⟩

/-- One step with known values. -/
def step (f : α → m α) (t values : Triple α) (eps : α) : m (Triple α × Triple α) := do
  let x ← ofExcept (vertex t values eps)
  let fx ← f x
  return insert t values x fx

/-- One step. -/
def update (f : α → m α) (t : Triple α) (eps : α) : m (Triple α) := do
  let values ← valuesOf f t
  return (← step f t values eps).1

/-- The triple is narrow, or its values differ by little. -/
def settled (t f : Triple α) (eps : α) : Bool :=
  t.right - t.left ≤ eps || (f.left - f.mid ≤ eps && f.right - f.mid ≤ eps)

/-- Steps until the triple is settled or no steps are left. -/
def iterate (f : α → m α) (eps : α) : (steps : Nat) → (t values : Triple α) → m (Triple α)
  | 0, t, _ => pure t
  | steps + 1, t, values => do
    let (t, values) ← step f t values eps
    if settled t values eps then pure t else iterate f eps steps t values

/-- The middle of the triple after repeated steps. -/
def search (f : α → m α) (t : Triple α) (eps : α) (steps : Nat) : m α := do
  let values ← valuesOf f t
  return (← iterate f eps steps t values).mid

end Triple

end Descent
