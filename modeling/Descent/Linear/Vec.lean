/-
# Descent.Linear.Vec — vectors of any size

The points, values and directions of a driver get their size at run time.  Two
of them fit together if they have the same size; a single entry also fits any
size and is repeated.  Operations on vectors that do not fit have no result.
-/
import Descent.Session
import Descent.Linear.Tuple

namespace Descent
set_option autoImplicit false

abbrev Vec (α : Type) := Array α

/-- The result of an operation on arrays that fit together. -/
def fit {m : Type → Type} {α β : Type} [Monad m] [MonadExcept (Fault α) m] :
    Option β → m β
  | some b => pure b
  | none => throw Fault.shapeMismatch

namespace Vec

section
variable {α : Type}

/-- Combines two vectors entry by entry. -/
def combine? (f : α → α → α) (x y : Vec α) : Option (Vec α) :=
  if x.size = y.size then some (Array.zipWith f x y)
  else if h : x.size = 1 then some (y.map fun b => f x[0] b)
  else if h : y.size = 1 then some (x.map fun a => f a y[0])
  else none

theorem combine?_of_size_eq (f : α → α → α) {x y : Vec α} (same : x.size = y.size) :
    combine? f x y = some (Array.zipWith f x y) := by simp [combine?, same]

/-- The entries of `source` as they are written over those of `target`. -/
def assign? (target source : Vec α) : Option (Vec α) :=
  if source.size = target.size then some source
  else if h : source.size = 1 then some (Array.replicate target.size source[0])
  else none

theorem assign?_of_size_eq {target source : Vec α} (same : source.size = target.size) :
    assign? target source = some source := by simp [assign?, same]

/-- Writing over a vector does not change its size. -/
theorem size_of_assign? {target source written : Vec α} (h : assign? target source = some written) :
    written.size = target.size := by
  unfold assign? at h
  split at h
  · simp_all
  · split at h
    · cases h; simp
    · simp at h

/-- Only a vector of the same size or with a single entry can be written over another one. -/
theorem size_or_one_of_assign? {target source written : Vec α}
    (h : assign? target source = some written) : source.size = target.size ∨ source.size = 1 := by
  unfold assign? at h
  split at h
  · exact .inl ‹_›
  · split at h
    · exact .inr ‹_›
    · cases h

/-- Combined with such a vector, a vector keeps its size. -/
theorem size_of_combine? {f : α → α → α} {x y z : Vec α} (h : combine? f x y = some z)
    (fits : y.size = x.size ∨ y.size = 1) : z.size = x.size := by
  unfold combine? at h
  split at h
  · cases h
    simp_all
  · split at h
    · cases h
      simp_all
    · split at h
      · cases h
        simp
      · cases h

end

section
variable {α : Type} [Scalar α]

def add? (x y : Vec α) : Option (Vec α) := combine? (· + ·) x y

def sub? (x y : Vec α) : Option (Vec α) := combine? (· - ·) x y

/-- Products need vectors of one size. -/
def dot? (x y : Vec α) : Option α :=
  if h : y.size = x.size then some (dot x.toVector ⟨y, h⟩) else none

/-- Every entry multiplied by `a` on its left. -/
def scale (a : α) (x : Vec α) : Vec α := x.map (a * ·)

/-- Every entry multiplied by `a` on its right. -/
def scaled (x : Vec α) (a : α) : Vec α := x.map (· * a)

def neg (x : Vec α) : Vec α := x.map (- ·)

def zeros (n : Nat) : Vec α := Array.replicate n 0

/-- The product of a vector with itself. -/
def normSq (x : Vec α) : α := dot x.toVector x.toVector

/-- Euclidean length. -/
def norm (x : Vec α) : α := Descent.norm x.toVector

/-- Some entry is undefined. -/
def hasNaN (x : Vec α) : Bool := x.any Scalar.isNaN

/-- The vectors have the same size and equal entries. -/
def same (x y : Vec α) : Bool := x.size == y.size && (Array.zipWith (· == ·) x y).all id

end

end Vec

end Descent
