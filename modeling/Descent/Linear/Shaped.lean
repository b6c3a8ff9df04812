/-
# Descent.Linear.Shaped — arrays with their extents

User functions return single values, vectors, matrices and arrays of more axes
alike.  A `Shaped` array is a tensor with its extents; lists are read as arrays of at
most `maxAxes` axes.  Operations on arrays whose
extents do not go together have no result.  For vectors and matrices they are the
operations on `Vec` and `Dense`.
-/
import Descent.Linear.Tensor

namespace Descent
set_option autoImplicit false

/-- A tensor and its extents. -/
structure Shaped (α : Type) where
  extents : List Nat
  body : Tensor α extents

namespace Shaped

section
variable {α : Type}

/-- The greatest number of axes of an array. -/
def maxAxes : Nat := 64

/-- Refuses more entries of eight bytes than can be addressed, or than can be kept. -/
def room (entries : Nat) : Except (Fault α) Unit :=
  if Nat.pow 2 60 ≤ entries then .error .shapeMismatch
  else if Nat.pow 2 35 ≤ entries then .error .outOfMemory
  else .ok ()

/-- Lists as a tensor, if lists of one depth have one length and there are not too many axes. -/
def ofNested? (t : Nested α) : Option (Shaped α) := do
  let extents ← t.shape?
  if maxAxes < extents.length then none
  return ⟨extents, ← Tensor.ofNested? extents t⟩

/-- Arrays that are written as lists have as many axes as an array can have. -/
theorem length_extents_of_ofNested? {t : Nested α} {A : Shaped α} (h : ofNested? t = some A) :
    A.extents.length ≤ maxAxes := by
  simp only [ofNested?, Option.bind_eq_bind, Option.bind_eq_some_iff] at h
  obtain ⟨extents, -, h⟩ := h
  split at h
  · simp at h
  · rename_i few
    simp only [pure, Option.bind_eq_some_iff, Option.some.injEq] at h
    obtain ⟨_, -, rfl⟩ := h
    exact Nat.not_lt.1 few

def toNested (A : Shaped α) : Nested α := A.body.toNested

/-- The entries from the first place to the last. -/
def flat (A : Shaped α) : Vec α := (Tensor.entries A.extents A.body).toArray

/-- A single entry. -/
def ofNumber (a : α) : Shaped α := ⟨[], a⟩

def ofVec (x : Vec α) : Shaped α := ⟨[x.size], x.toVector⟩

def ofDense (A : Dense α) : Shaped α := ⟨[A.rows, A.cols], A.body⟩

def ofMat {n : Nat} (A : Mat n n α) : Shaped α := ⟨[n, n], A⟩

/-- The tensor as a vector, if it has one axis. -/
def vec? : Shaped α → Option (Vec α)
  | ⟨[_], x⟩ => some (Vector.toArray x)
  | _ => none

@[simp] theorem vec?_ofVec (x : Vec α) : (ofVec x).vec? = some x := rfl

/-- The tensor as a matrix, if it has two axes. -/
def dense? : Shaped α → Option (Dense α)
  | ⟨[rows, cols], body⟩ => some ⟨rows, cols, body⟩
  | _ => none

@[simp] theorem dense?_ofDense (A : Dense α) : (ofDense A).dense? = some A := rfl

/-- The tensor as a square matrix of the given extent, if it is one. -/
def square? (A : Shaped α) (n : Nat) : Option (Mat n n α) := A.dense?.bind (·.square? n)

@[simp] theorem square?_ofMat {n : Nat} (A : Mat n n α) : (ofMat A).square? n = some A :=
  Dense.square?_ofMat A

/-- The tensor as a square matrix, if it is one. -/
def asSquare? (A : Shaped α) : Option ((n : Nat) × Mat n n α) := do
  let D ← A.dense?
  return ⟨D.rows, ← D.square? D.rows⟩

@[simp] theorem asSquare?_ofMat {n : Nat} (A : Mat n n α) : (ofMat A).asSquare? = some ⟨n, A⟩ := by
  have h : (Dense.mk n n A).square? n = some A := Dense.square?_ofMat A
  simp [asSquare?, ofMat, dense?, h]

/-- The only entry of a tensor without axes. -/
def number : Shaped α → Except (Fault α) α
  | ⟨[], a⟩ => .ok a
  | _ => .error .wrongKind

/-- The tensor with at least one axis. -/
def withAxis : Shaped α → Shaped α
  | ⟨[], a⟩ => ⟨[1], #v[a]⟩
  | A => A

/-- The tensor with at least two axes. -/
def withRows : Shaped α → Shaped α
  | ⟨[], a⟩ => ⟨[1, 1], #v[#v[a]]⟩
  | ⟨[n], x⟩ => ⟨[1, n], #v[x]⟩
  | A => A

/-- Arrays side by side: vectors as the columns of a matrix, and arrays of more axes along their second
one. -/
def ofColumns? (columns : List (Shaped α)) : Option (Shaped α) :=
  match columns.mapM fun column => column.withAxis.vec? with
  | some columns => (Dense.ofColumns? columns).map ofDense
  | none => ofNested? (.beside (columns.map toNested))

/-- The tensor without its leading axes of one item, as many as are in excess. -/
def lowered : (excess : Nat) → Shaped α → Shaped α
  | excess + 1, ⟨1 :: rest, items⟩ => lowered excess ⟨rest, Vector.get items 0⟩
  | _, A => A

/-- The tensor as it is written over one of the given extents. -/
def assign? (extents : List Nat) (A : Shaped α) : Option (Shaped α) :=
  let source := A.lowered (A.extents.length - extents.length)
  (Tensor.spread? source.extents extents).map fun spread => ⟨extents, spread source.body⟩

theorem lowered_zero (A : Shaped α) : lowered 0 A = A := by
  cases A; rfl

/-- What is written over a tensor has its extents. -/
theorem extents_of_assign? {extents : List Nat} {A written : Shaped α}
    (h : A.assign? extents = some written) : written.extents = extents := by
  obtain ⟨spread, _, rfl⟩ := Option.map_eq_some_iff.1 h
  rfl

@[simp] theorem assign?_extents (A : Shaped α) : A.assign? A.extents = some A := by
  have same : A.lowered (A.extents.length - A.extents.length) = A := by
    rw [Nat.sub_self, lowered_zero]
  simp only [assign?]
  rw [same]
  simp [Tensor.spread?_self]

/-- The tensor with its axes in reverse order. -/
def transpose (A : Shaped α) : Shaped α :=
  ⟨Tensor.reversed A.extents, Tensor.transpose A.extents A.body⟩

/-- Combines two tensors that meet. -/
def combine? (f : α → α → α) (A B : Shaped α) : Option (Shaped α) := do
  let extents ← meet? A.extents B.extents
  let left ← Tensor.spread? A.extents extents
  let right ← Tensor.spread? B.extents extents
  return ⟨extents, Tensor.zipWith f extents (left A.body) (right B.body)⟩

/-- Every entry by itself. -/
def map (f : α → α) (A : Shaped α) : Shaped α := ⟨A.extents, Tensor.map f A.extents A.body⟩

end

section
variable {α : Type} [Scalar α]

def add? (A B : Shaped α) : Option (Shaped α) := combine? (· + ·) A B

def sub? (A B : Shaped α) : Option (Shaped α) := combine? (· - ·) A B

/-- The product, if the tensors have one. -/
def product? (A B : Shaped α) : Option (Shaped α) :=
  (Tensor.product? A.extents B.extents).map fun ⟨extents, f⟩ => ⟨extents, f A.body B.body⟩

/-- The product as a number. A product that has axes is none. -/
def inner (A B : Shaped α) : Except (Fault α) α := do (← fit (A.product? B)).number

def neg (A : Shaped α) : Shaped α := A.map (- ·)

/-- Zeros with the extents of a tensor. -/
def zeros (A : Shaped α) : Shaped α := A.map fun _ => 0

/-- Euclidean length of all entries. -/
def norm (A : Shaped α) : α := A.flat.norm

/-- Some entry is undefined. -/
def hasNaN (A : Shaped α) : Bool := A.flat.hasNaN

/-- The tensors have the same extents and equal entries. -/
def same (A B : Shaped α) : Bool := A.extents == B.extents && Vec.same A.flat B.flat

end

/-! ## Vectors and matrices -/

section
variable {α : Type}

theorem ofVec_toArray {n : Nat} (x : Vector α n) : ofVec x.toArray = ⟨[n], x⟩ := by
  obtain ⟨x, rfl⟩ := x
  rfl

@[simp] theorem flat_ofVec (x : Vec α) : (ofVec x).flat = x := by
  simp [flat, ofVec, Tensor.entries, Array.toVector]

theorem meet?_one (m n : Nat) :
    meet? [m] [n] = if m = n ∨ n = 1 then some [m] else if m = 1 then some [n] else none := by
  simp only [meet?, List.reverse_cons, List.reverse_nil, List.nil_append, meetFromEnd?,
    Option.bind_eq_bind, Option.bind_some]
  split
  · rfl
  · split <;> rfl

/-- Vectors are combined as such, entry by entry or one entry with all. -/
theorem combine?_ofVec (f : α → α → α) (x y : Vec α) :
    (ofVec x).combine? f (ofVec y) = (Vec.combine? f x y).map ofVec := by
  suffices h : ∀ (m n : Nat) (x : Vector α m) (y : Vector α n),
      combine? f ⟨[m], x⟩ ⟨[n], y⟩ = (Vec.combine? f x.toArray y.toArray).map ofVec from
    h _ _ x.toVector y.toVector
  intro m n x y
  by_cases same : m = n
  · subst same
    simp [combine?, meet?_one, Tensor.spread?_self, Vec.combine?]
    exact (ofVec_toArray (Vector.zipWith f x y)).symm
  · by_cases right : n = 1
    · subst right
      simp [combine?, meet?_one, Vec.combine?, same, Tensor.spread?, Ne.symm same]
      rw [show x.toArray.map (fun a => f a y[0]) = (x.map fun a => f a y[0]).toArray by simp,
        ofVec_toArray]
      congr 1
      ext i h
      simp [Tensor.zipWith, Vector.get]
    · by_cases left : m = 1
      · subst left
        simp [combine?, meet?_one, Vec.combine?, same, right, Tensor.spread?]
        rw [show y.toArray.map (fun b => f x[0] b) = (y.map fun b => f x[0] b).toArray by simp,
          ofVec_toArray]
        congr 1
        ext i h
        simp [Tensor.zipWith, Vector.get]
      · simp [combine?, meet?_one, Vec.combine?, same, left, right]

theorem map_ofVec (f : α → α) (x : Vec α) : (ofVec x).map f = ofVec (x.map f) :=
  (ofVec_toArray (Vector.map f x.toVector)).symm

@[simp] theorem transpose_ofVec (x : Vec α) : (ofVec x).transpose = ofVec x := by
  simp only [transpose, ofVec, Tensor.reversed, Tensor.transpose, Tensor.inward, List.nil_append]
  congr 1
  ext i h
  simp

@[simp] theorem transpose_ofDense (A : Dense α) : (ofDense A).transpose = ofDense A.transpose := by
  simp only [transpose, ofDense, Dense.transpose, Tensor.reversed, Tensor.transpose, Tensor.inward,
    List.nil_append]
  congr 1
  apply Vector.ext
  intro i hi
  apply Vector.ext
  intro j hj
  simp [Mat.transpose, Mat.ofFn, Vector.get]

end

section
variable {α : Type} [Scalar α]

@[simp] theorem norm_ofVec (x : Vec α) : (ofVec x).norm = x.norm := by rw [norm, flat_ofVec]

@[simp] theorem hasNaN_ofVec (x : Vec α) : (ofVec x).hasNaN = x.hasNaN := by
  rw [hasNaN, flat_ofVec]

@[simp] theorem neg_ofVec (x : Vec α) : (ofVec x).neg = ofVec x.neg := map_ofVec _ x

theorem product?_ofVec (x y : Vec α) :
    (ofVec x).product? (ofVec y) = (Vec.dot? x y).map ofNumber := by
  by_cases h : y.size = x.size
  · simp [product?, ofVec, Tensor.product?, Vec.dot?, h, ofNumber]
  · simp [product?, ofVec, Tensor.product?, Vec.dot?, h]

@[simp] theorem inner_ofVec (x y : Vec α) : (ofVec x).inner (ofVec y) = fit (Vec.dot? x y) := by
  rw [inner, product?_ofVec]
  cases Vec.dot? x y <;> rfl

theorem product?_ofDense_ofVec (A : Dense α) (x : Vec α) :
    (ofDense A).product? (ofVec x) = (A.mulVec? x).map ofVec := by
  by_cases h : x.size = A.cols
  · simp only [product?, ofDense, ofVec, Tensor.product?, Dense.mulVec?, h]
    simpa using (ofVec_toArray _).symm
  · simp [product?, ofDense, ofVec, Tensor.product?, Dense.mulVec?, h]

end

end Shaped

end Descent
