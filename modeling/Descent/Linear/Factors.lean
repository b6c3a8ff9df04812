/-
# Descent.Linear.Factors — triangular factors with partial pivoting

`Factors.of A` writes a square matrix, with its rows in a suitable order, as the
product of a lower triangle with unit diagonal and an upper triangle, both kept in
one matrix.  Columns are treated from left to right: a column is reduced by the
columns before it, its pivot is brought to the diagonal, and the entries below are
divided by it.  A pivot that is undefined, or too small to be inverted, stays where it
is and is not divided by.

`Factors.solve` solves a system by forward and backward substitution.
-/
import Descent.Linear.Pivot
import Descent.Linear.Tuple

namespace Descent
set_option autoImplicit false

/-- Triangular factors of a square matrix: the multipliers below the diagonal of `entries`, the
upper triangle on and above it. Row `i` belongs to row `order[i]` of the matrix. -/
structure Factors (n : Nat) (α : Type) where
  entries : Mat n n α
  order : Vector (Fin n) n

namespace Factors

variable {α : Type} [Scalar α] {n : Nat}

/-- Column `j` reduced by the columns before it: entry `i` loses the products of its multipliers
with the reduced entries above both the entry and the diagonal. -/
def reducedColumn (A : Mat n n α) (j : Fin n) : Vector α n :=
  Fin.foldl n (fun column i =>
    let lost := total (min i.val j.val) fun k =>
      let k : Fin n :=
        ⟨k.val, Nat.lt_trans (Nat.lt_of_lt_of_le k.isLt (Nat.min_le_left _ _)) i.isLt⟩
      (A.get i).get k * column.get k
    column.set i ((A.get i).get j - lost) i.isLt)
    (Vector.ofFn fun i => (A.get i).get j)

/-- The place of `i` when `j` and `p` change places. -/
def exchange (j p i : Fin n) : Fin n := if i = j then p else if i = p then j else i

/-- An entry below the diagonal divided by a pivot that can be inverted: multiplied by its
reciprocal, and zero below an infinite pivot. -/
def multiplier (pivot a : α) : α := if 1 / pivot == 0 then 0 else a * (1 / pivot)

/-- Reduces column `j` and brings its pivot to the diagonal. Below a pivot that cannot be inverted
no entry is divided, and the columns up to `j` keep the order of their rows. -/
def sweep (F : Factors n α) (j : Fin n) : Factors n α :=
  let column := reducedColumn F.entries j
  let p := pivotRow column j
  let pivot := column.get p
  let usable := Scalar.isInvertible pivot
  { entries := Mat.ofFn fun i k =>
      let row := if k ≤ j ∧ !usable then i else exchange j p i
      if k = j then
        if j < i ∧ usable then multiplier pivot (column.get row) else column.get row
      else (F.entries.get row).get k
    order := Vector.ofFn fun i => F.order.get (exchange j p i) }

/-- The factors of a matrix. -/
def of (A : Mat n n α) : Factors n α := Fin.foldl n sweep ⟨A, Vector.ofFn id⟩

/-- The first column whose pivot is at most `tol` in absolute value. -/
def smallPivot? (F : Factors n α) (tol : α) : Option (Fin n) :=
  (List.finRange n).find? fun k => decide (Scalar.abs ((F.entries.get k).get k) ≤ tol)

/-- Solves with the lower triangle. -/
def forward (F : Factors n α) (b : Vector α n) : Vector α n :=
  Fin.foldl n (fun x i =>
    let row := F.entries.get i
    let rest :=
      Fin.foldl n (fun rest j => if j < i then rest - row.get j * x.get j else rest) (x.get i)
    x.set i rest i.isLt)
    b

/-- Solves with the upper triangle. -/
def backward (F : Factors n α) (b : Vector α n) : Vector α n :=
  Fin.foldr n (fun i x =>
    let row := F.entries.get i
    let rest :=
      Fin.foldr n (fun j rest => if i < j then rest - row.get j * x.get j else rest) (x.get i)
    x.set i (rest / row.get i) i.isLt)
    b

/-- The solution of the system with the factorized matrix. -/
def solve (F : Factors n α) (b : Vector α n) : Vector α n :=
  F.backward (F.forward (Vector.ofFn fun i => b.get (F.order.get i)))

end Factors

end Descent
