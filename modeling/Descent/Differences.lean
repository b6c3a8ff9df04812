/-
# Descent.Differences — derivatives by central differences

Gradients and Jacobians take the difference of two values at equal distances on
either side of the point; Hessians take three values on a line for the diagonal
and four corners for the other entries.  Each derivative comes with the number of
evaluations it cost.
-/
import Descent.Linear.Shaped

namespace Descent.Differences
set_option autoImplicit false

variable {α : Type} [Scalar α] {m : Type → Type} [Monad m] [MonadExcept (Fault α) m]

/-- The step of length `eps` along axis `i`. -/
def axis (n : Nat) (i : Fin n) (eps : α) : Vec α :=
  Array.ofFn fun j : Fin n => eps * (if j = i then 1 else 0)

/-- A distance has to be positive. -/
def check (eps : α) : Except (Fault α) Unit :=
  if eps ≤ 0 then .error (.invalid .spacing) else .ok ()

def plus (x e : Vec α) : Vec α := Array.zipWith (· + ·) x e

def minus (x e : Vec α) : Vec α := Array.zipWith (· - ·) x e

/-- `(f (x + eps eᵢ) - f (x - eps eᵢ)) / 2 eps` for each axis. -/
def gradient (f : Vec α → m α) (x : Vec α) (eps : α) : m (Vec α × Nat) := do
  ofExcept (check eps)
  let slopes ← Vector.ofFnM fun i : Fin x.size => do
    let e := axis x.size i eps
    let above ← f (plus x e)
    let below ← f (minus x e)
    return (above - below) / (2.0 * eps)
  return (slopes.toArray, 2 * x.size)

/-- The same for a function whose values are arrays: one column for each axis. -/
def jacobian (f : Vec α → m (Shaped α)) (x : Vec α) (eps : α) : m (Shaped α × Nat) := do
  ofExcept (check eps)
  let columns ← Vector.ofFnM fun i : Fin x.size => do
    let e := axis x.size i eps
    let above ← f (plus x e)
    let below ← f (minus x e)
    return (← fit (above.sub? below)).map (· / (2.0 * eps))
  return (← fit (Shaped.ofColumns? columns.toList), 2 * x.size)

/-- The second difference along one axis. -/
def bend (f : Vec α → m α) (x : Vec α) (eps fx : α) (e : Vec α) : m α := do
  let above ← f (plus x e)
  let below ← f (minus x e)
  ofExcept (quotient (above - 2.0 * fx + below) (← ofExcept (square eps)))

/-- The mixed second difference along two axes. -/
def twist (f : Vec α → m α) (x : Vec α) (eps : α) (e e' : Vec α) : m α := do
  let pp ← f (plus (plus x e) e')
  let pm ← f (minus (plus x e) e')
  let mp ← f (plus (minus x e) e')
  let mm ← f (minus (minus x e) e')
  ofExcept (quotient (pp - pm - mp + mm) (4.0 * (← ofExcept (square eps))))

/-- The Hessian: its upper triangle row by row, and the same entries below the diagonal. -/
def hessian (f : Vec α → m α) (x : Vec α) (eps : α) : m (Dense α × Nat) := do
  ofExcept (check eps)
  let fx ← f x
  let upper : Mat x.size x.size α ← Vector.ofFnM fun i => Vector.ofFnM fun j =>
    if j < i then pure 0
    else if j = i then bend f x eps fx (axis x.size i eps)
    else twist f x eps (axis x.size i eps) (axis x.size j eps)
  return (Dense.ofMat upper.symmetric, 2 * x.size * x.size + 1)

/-- The gradient of a function whose values are arrays, at a vector or at a plain number. The values
have to have one entry, which counts only when all values are there. -/
def gradientOfArray (f : Vec α → m (Shaped α)) (x : Shaped α) (eps : α) : m (Shaped α × Nat) := do
  ofExcept (check eps)
  let p := x.flat
  let slopes ← Vector.ofFnM fun i : Fin p.size => do
    let e := axis p.size i eps
    let above ← f (plus p e)
    let below ← f (minus p e)
    return ((← fit (above.sub? below)).map (· / (2.0 * eps))).flat
  let g : Vec α := slopes.toArray.flatten
  if g.size ≠ p.size then throw Fault.shapeMismatch
  match x.extents, g.toList with
  | [], [slope] => return (.ofNumber slope, 2)
  | _, _ => return (.ofVec g, 2 * p.size)

/-- The Hessian of a function whose value is a list. There is none as soon as an entry of it is to
be found. -/
def hessianOfList {β : Type} (f : Vec α → m β) (x : Vec α) (eps : α) : m (Dense α × Nat) := do
  ofExcept (check eps)
  let _ ← f x
  if h : 0 < x.size then
    let e := axis x.size ⟨0, h⟩ eps
    let _ ← f (plus x e)
    let _ ← f (minus x e)
    let _ ← ofExcept (square eps)
    throw Fault.shapeMismatch
  return (Dense.ofMat (Mat.ofFn fun (i _ : Fin 0) => i.elim0), 1)

end Descent.Differences
