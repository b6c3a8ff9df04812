/-
# Descent.Linear.Pivot — the entry that a column is divided by

The pivot of a column is the first entry of largest absolute value on or below the
diagonal.  Where some of these entries are undefined, the largest value is found in
four pairs of running maxima, which all start from the first entry; the others are
dealt out to them eight at a time, then four, two and one.  A maximum stays only if it
is known to be greater, so that an undefined value replaces it and is replaced by the
next one.  The pivot is then the first entry not known to differ from the result: the
first entry of all if the result is undefined, and an undefined entry if one stands
before the largest.
-/
import Descent.Linear.Tuple

namespace Descent
set_option autoImplicit false

variable {α : Type} [Scalar α] {n : Nat}

/-- Two running maxima. -/
abbrev Maxima (α : Type) := α × α

/-- A value replaces a maximum that is not known to be greater. -/
def Maxima.renew (old new : Maxima α) : Maxima α :=
  (Scalar.maxFirst new.1 old.1, Scalar.maxFirst new.2 old.2)

/-- The greatest of running maxima and values that are dealt out to them. -/
def greatestOf (p q r s : Maxima α) : List α → α
  | a :: b :: c :: d :: e :: f :: g :: h :: rest =>
    greatestOf (p.renew (a, b)) (q.renew (c, d)) (r.renew (e, f)) (s.renew (g, h)) rest
  | a :: b :: c :: d :: rest => greatestOf (p.renew (a, b)) (q.renew (c, d)) r s rest
  | a :: b :: rest => greatestOf p q (r.renew (a, b)) s rest
  | [a] => greatestOf p q r (s.renew (a, a)) []
  | [] =>
    let last := (p.renew q).renew (r.renew s)
    Scalar.maxFirst last.1 last.2
termination_by values => values.length

/-- The greatest of the values after a first one. -/
def greatestFrom (first : α) (rest : List α) : α :=
  let start := (first, first)
  greatestOf start start start start rest

/-- The first row on or below the diagonal with an entry of largest absolute value. -/
def largestRow (column : Vector α n) (j : Fin n) : Fin n :=
  Fin.foldl n (fun p i =>
    if j < i ∧ Scalar.abs (column.get p) < Scalar.abs (column.get i) then i else p) j

/-- The first row on or below the diagonal whose entry is not known to differ in absolute value from
the greatest. -/
def undecidedRow (column : Vector α n) (j : Fin n) : Fin n :=
  let below := (List.finRange n).filter (j < ·)
  let size (i : Fin n) : α := Scalar.abs (column.get i)
  let greatest := greatestFrom (size j) (below.map size)
  ((j :: below).find? fun i => !(size i < greatest || greatest < size i)).getD j

/-- The row of the pivot of column `j`. -/
def pivotRow (column : Vector α n) (j : Fin n) : Fin n :=
  if (List.finRange n).any fun i => j ≤ i && Scalar.isNaN (column.get i) then undecidedRow column j
  else largestRow column j

theorem pivotRow_eq_largestRow {column : Vector α n} {j : Fin n}
    (defined : ∀ i, j ≤ i → Scalar.isNaN (column.get i) = false) :
    pivotRow column j = largestRow column j := by
  have none_undefined :
      ((List.finRange n).any fun i => j ≤ i && Scalar.isNaN (column.get i)) = false := by
    simp only [List.any_eq_false, List.mem_finRange, Bool.and_eq_true, decide_eq_true_eq]
    intro i _ ⟨below, undefined⟩
    exact Bool.false_ne_true ((defined i below).symm.trans undefined)
  rw [pivotRow, none_undefined]
  rfl

end Descent
