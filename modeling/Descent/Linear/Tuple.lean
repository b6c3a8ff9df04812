/-
# Descent.Linear.Tuple — vectors and matrices of fixed extents

Sums are accumulated from zero, left to right; every product and every norm of
the library goes through `total`.  A matrix is a tuple of its rows.
-/
import Descent.Scalar

namespace Descent
set_option autoImplicit false

section
variable {α : Type} [Scalar α]

/-- `f 0 + f 1 + …`, accumulated from zero. -/
def total (n : Nat) (f : Fin n → α) : α := Fin.foldl n (fun sum i => sum + f i) 0

def dot {n : Nat} (x y : Vector α n) : α := total n fun i => x[i] * y[i]

/-- Euclidean length. -/
def norm {n : Nat} (x : Vector α n) : α := Scalar.sqrt (dot x x)

/-- Every entry multiplied by `a` on its left. -/
def scale {n : Nat} (a : α) (x : Vector α n) : Vector α n := x.map (a * ·)

end

/-- `m` rows of `n` entries. -/
abbrev Mat (m n : Nat) (α : Type) := Vector (Vector α n) m

namespace Mat

section
variable {α : Type} {m n : Nat}

def ofFn (f : Fin m → Fin n → α) : Mat m n α := Vector.ofFn fun i => Vector.ofFn (f i)

@[simp] theorem get_ofFn (f : Fin m → Fin n → α) (i : Fin m) (j : Fin n) :
    ((ofFn f).get i).get j = f i j := by
  have row : (ofFn f).get i = Vector.ofFn (f i) := Vector.getElem_ofFn i.isLt
  exact row ▸ Vector.getElem_ofFn j.isLt

def transpose (A : Mat m n α) : Mat n m α := ofFn fun i j => A[j][i]

@[simp] theorem get_transpose (A : Mat m n α) (i : Fin n) (j : Fin m) :
    (A.transpose.get i).get j = (A.get j).get i := get_ofFn _ i j

/-- The symmetric matrix with the same entries on and above the diagonal. -/
def symmetric (A : Mat n n α) : Mat n n α := ofFn fun i j => if i ≤ j then A[i][j] else A[j][i]

end

section
variable {α : Type} [Scalar α] {m n : Nat}

def mulVec (A : Mat m n α) (x : Vector α n) : Vector α m := Vector.ofFn fun i => dot A[i] x

@[simp] theorem get_mulVec (A : Mat m n α) (x : Vector α n) (i : Fin m) :
    (A.mulVec x).get i = dot (A.get i) x := Vector.getElem_ofFn i.isLt

/-- The products of the columns with each other. -/
def gram (A : Mat m n α) : Mat n n α := ofFn fun i j => total m fun k => A[k][i] * A[k][j]

/-- One on the diagonal, zero elsewhere. -/
def identity (n : Nat) : Mat n n α := ofFn fun i j => if i = j then 1 else 0

end

end Mat

end Descent
