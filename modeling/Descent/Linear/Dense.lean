/-
# Descent.Linear.Dense — matrices of any extents

A matrix together with its extents, which methods learn only when they run.
-/
import Descent.Linear.Vec

namespace Descent
set_option autoImplicit false

/-- A matrix and its extents. -/
structure Dense (α : Type) where
  rows : Nat
  cols : Nat
  body : Mat rows cols α

namespace Dense

section
variable {α : Type}

def transpose (A : Dense α) : Dense α := ⟨A.cols, A.rows, A.body.transpose⟩

/-- The matrix with the given rows, if they have one size. -/
def ofRows? (rows : List (Vec α)) : Option (Dense α) :=
  let width := (rows.head?.map Array.size).getD 0
  if h : ∀ row ∈ rows, row.size = width then
    some ⟨rows.length, width, Vector.ofFn fun i => ⟨rows[i], h _ (List.getElem_mem i.isLt)⟩⟩
  else none

/-- The matrix with the given columns, if they have one size. -/
def ofColumns? (columns : List (Vec α)) : Option (Dense α) := (ofRows? columns).map transpose

/-- A square matrix. -/
def ofMat {n : Nat} (A : Mat n n α) : Dense α := ⟨n, n, A⟩

/-- The matrix as a square one of the given extent, if it is one. -/
def square? (A : Dense α) (n : Nat) : Option (Mat n n α) :=
  if h : A.rows = n ∧ A.cols = n then
    some (Mat.ofFn fun i j => (A.body.get ⟨i, h.1 ▸ i.isLt⟩).get ⟨j, h.2 ▸ j.isLt⟩)
  else none

theorem square?_ofMat {n : Nat} (A : Mat n n α) : (ofMat A).square? n = some A := by
  simp only [square?, ofMat, and_self, ↓reduceDIte, Option.some.injEq]
  apply Vector.ext
  intro i hi
  apply Vector.ext
  intro j hj
  simp only [Mat.ofFn, Vector.getElem_ofFn]
  rfl

end

section
variable {α : Type} [Scalar α]

def mulVec? (A : Dense α) (x : Vec α) : Option (Vec α) :=
  if h : x.size = A.cols then some (A.body.mulVec ⟨x, h⟩).toArray else none

/-- The product of the transposed matrix with a vector. -/
def transposeMulVec? (A : Dense α) (y : Vec α) : Option (Vec α) := A.transpose.mulVec? y

end

end Dense

end Descent
