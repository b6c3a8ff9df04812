/-
# Descent.Proofs.Linear.Factors — the factorization and what it solves

A sweep over column `j` brings a pivot of largest size to the diagonal and divides by
it (`IsPivot`).  If the numbers are embedded from a field, the columns swept so far stay
the product of a lower and an upper triangle (`Swept`).  This is so even where nothing is
left to divide by: then the rest of the column is zero, the rows keep their order, and a
zero stays on the diagonal to the end.  So the product of the diagonal is the determinant
up to sign (`Swept.det_eq_zero_iff`), no multiplier exceeds one (`of_embed`), and where a
test for small pivots finds none, forward and backward substitution solve the system
(`solve_embed`).
-/
import Descent.Linear.Factors
import Descent.Proofs.Linear.Embedding
import Descent.Proofs.Linear.Loops
import Mathlib.LinearAlgebra.Matrix.Block

namespace Descent.Factors
set_option autoImplicit false

section
variable {α : Type} [Scalar α] {n : ℕ}

/-! ## The loops -/

/-- A reduced entry has lost the products of multipliers and reduced entries above it. -/
theorem get_reducedColumn (A : Mat n n α) (j i : Fin n) :
    (reducedColumn A j).get i = (A.get i).get j - total (min i.val j.val) fun k =>
      (A.get i).get ⟨k, by omega⟩ * (reducedColumn A j).get ⟨k, by omega⟩ := by
  obtain ⟨y, value, before, after⟩ := foldl_writes (fun (column : Vector α n) i =>
      (A.get i).get j - total (min i.val j.val) fun k =>
        (A.get i).get ⟨k, by omega⟩ * column.get ⟨k, by omega⟩)
    (Vector.ofFn fun i => (A.get i).get j) i
  refine value.trans ?_
  congr 2
  funext k
  rw [before _ (show k.val < i.val by omega)]
  rfl

theorem get_forward (F : Factors n α) (b : Vector α n) (i : Fin n) :
    (F.forward b).get i = Fin.foldl n (fun rest j =>
      if j < i then rest - (F.entries.get i).get j * (F.forward b).get j else rest) (b.get i) := by
  obtain ⟨y, value, before, after⟩ := foldl_writes (fun (x : Vector α n) i =>
      Fin.foldl n (fun rest j => if j < i then rest - (F.entries.get i).get j * x.get j else rest)
        (x.get i)) b i
  refine value.trans ?_
  rw [after i (le_refl i)]
  congr 1
  funext rest j
  split
  · rw [before j ‹_›]
    rfl
  · rfl

theorem get_backward (F : Factors n α) (b : Vector α n) (i : Fin n) :
    (F.backward b).get i = Fin.foldr n (fun j rest =>
      if i < j then rest - (F.entries.get i).get j * (F.backward b).get j else rest) (b.get i) /
        (F.entries.get i).get i := by
  obtain ⟨y, value, after, before⟩ := foldr_writes (fun (x : Vector α n) i =>
      Fin.foldr n (fun j rest => if i < j then rest - (F.entries.get i).get j * x.get j else rest)
        (x.get i) / (F.entries.get i).get i) b i
  refine value.trans ?_
  rw [before i (le_refl i)]
  congr 2
  funext j rest
  split
  · rw [after j ‹_›]
    rfl
  · rfl

/-! ## The order of the rows -/

theorem exchange_self (j p i : Fin n) : exchange j p (exchange j p i) = i := by
  unfold exchange
  grind

section
variable {F : Factors n α} {j p : Fin n} {column : Vector α n}
  (reduced : reducedColumn F.entries j = column) (pivot : pivotRow column j = p)
include reduced pivot

theorem get_order_sweep (i : Fin n) : (F.sweep j).order.get i = F.order.get (exchange j p i) := by
  subst reduced pivot
  exact Vector.getElem_ofFn i.isLt

theorem get_entries_sweep {i k row : Fin n}
    (moved : (if k ≤ j ∧ !Scalar.isInvertible (column.get p) then i else exchange j p i) = row) :
    ((F.sweep j).entries.get i).get k =
      if k = j then
        if j < i ∧ Scalar.isInvertible (column.get p) then multiplier (column.get p) (column.get row)
        else column.get row
      else (F.entries.get row).get k := by
  subst reduced pivot moved
  exact Mat.get_ofFn _ i k

end

theorem exchange_refl (j i : Fin n) : exchange j j i = i := by
  unfold exchange
  grind

theorem get_ofFn_id (i : Fin n) : (Vector.ofFn id).get i = i := Vector.getElem_ofFn i.isLt

/-- Every row of the matrix has one place. -/
theorem injective_order (A : Mat n n α) : Function.Injective fun i : Fin n => (of A).order.get i := by
  refine foldl_upTo
    (P := fun _ (F : Factors n α) => Function.Injective fun i : Fin n => F.order.get i)
    ?_ fun j F injective i i' same => ?_
  · intro i i' same
    exact (get_ofFn_id i).symm.trans (same.trans (get_ofFn_id i'))
  · simp only [get_order_sweep rfl rfl] at same
    rw [← exchange_self j _ i, injective same, exchange_self]

theorem bijective_order (A : Mat n n α) : Function.Bijective fun i : Fin n => (of A).order.get i :=
  Finite.injective_iff_bijective.1 (injective_order A)

end

/-! ## Factors of embedded matrices -/

section
variable {K : Type} [Field K] {n : ℕ}

/-- The multipliers below the diagonal, and ones on it. -/
def lower (E : Matrix (Fin n) (Fin n) K) : Matrix (Fin n) (Fin n) K :=
  .of fun i l => if l < i then E i l else if l = i then 1 else 0

/-- The entries on and above the diagonal. -/
def upper (E : Matrix (Fin n) (Fin n) K) : Matrix (Fin n) (Fin n) K :=
  .of fun l j => if l ≤ j then E l j else 0

theorem lower_mulVec (E : Matrix (Fin n) (Fin n) K) (z : Fin n → K) (i : Fin n) :
    (lower E).mulVec z i = z i + ∑ l, if l < i then E i l * z l else 0 := by
  have split (l : Fin n) : lower E i l * z l =
      (if l = i then z l else 0) + if l < i then E i l * z l else 0 := by
    rcases lt_trichotomy l i with less | rfl | greater
    · simp [lower, less, less.ne]
    · simp [lower]
    · simp [lower, greater.not_gt, greater.ne']
  simp only [Matrix.mulVec, dotProduct, split, Finset.sum_add_distrib]
  simp

theorem upper_mulVec (E : Matrix (Fin n) (Fin n) K) (x : Fin n → K) (i : Fin n) :
    (upper E).mulVec x i = E i i * x i + ∑ j, if i < j then E i j * x j else 0 := by
  have split (j : Fin n) : upper E i j * x j =
      (if j = i then E i j * x j else 0) + if i < j then E i j * x j else 0 := by
    rcases lt_trichotomy j i with less | rfl | greater
    · simp [upper, less.not_ge, less.not_gt, less.ne]
    · simp [upper]
    · simp [upper, greater, greater.le, greater.ne']
  simp only [Matrix.mulVec, dotProduct, split, Finset.sum_add_distrib]
  simp

theorem lower_mul_upper (E : Matrix (Fin n) (Fin n) K) (i j : Fin n) : (lower E * upper E) i j =
    upper E i j + ∑ l, if l < i then E i l * upper E l j else 0 :=
  lower_mulVec E (fun l => upper E l j) i

/-- The column `c` is column `j` reduced by the columns before it. -/
def IsReduced (E : Matrix (Fin n) (Fin n) K) (j : Fin n) (c : Fin n → K) : Prop :=
  ∀ i, E i j = c i + ∑ l, if l < i ∧ l < j then E i l * c l else 0

/-- The entries after a sweep over column `j`, which is reduced to `c` and has its pivot in row `p`. -/
def divided (E : Matrix (Fin n) (Fin n) K) (j p : Fin n) (c : Fin n → K) :
    Matrix (Fin n) (Fin n) K :=
  .of fun i k =>
    if k = j then if j < i then c (exchange j p i) / c p else c (exchange j p i)
    else E (exchange j p i) k

/-- The columns before `k` of a matrix, with its rows in some order, are those of the product of the
triangles; the others are as they were. -/
def Swept (M : Matrix (Fin n) (Fin n) K) (k : ℕ) (order : Fin n → Fin n)
    (E : Matrix (Fin n) (Fin n) K) : Prop :=
  ∀ i j, M (order i) j = if (j : ℕ) < k then (lower E * upper E) i j else E i j

theorem exchange_of_lt {j p i : Fin n} (below : j ≤ p) (less : i < j) : exchange j p i = i := by
  simp [exchange, less.ne, (less.trans_le below).ne]

theorem exchange_pivot (j p : Fin n) : exchange j p j = p := by simp [exchange]

theorem le_exchange {j p i : Fin n} (below : j ≤ p) (le : j ≤ i) : j ≤ exchange j p i := by
  unfold exchange
  split
  · exact below
  · split
    · exact le_refl j
    · exact le

/-- The columns before the one that is divided keep their product. -/
theorem divided_before {E : Matrix (Fin n) (Fin n) K} {j p k : Fin n} {c : Fin n → K} (below : j ≤ p)
    (less : k < j) (i : Fin n) : (lower (divided E j p c) * upper (divided E j p c)) i k =
      (lower E * upper E) (exchange j p i) k := by
  have kept (l : Fin n) : upper (divided E j p c) l k = upper E l k := by
    simp only [upper, Matrix.of_apply, divided, less.ne, if_false]
    split
    · rw [exchange_of_lt below (lt_of_le_of_lt ‹_› less)]
    · rfl
  have above {l : Fin n} (far : k < l) : upper E l k = 0 := if_neg far.not_ge
  rw [lower_mul_upper, lower_mul_upper]
  simp only [kept]
  rcases lt_or_ge i j with before | after
  · rw [exchange_of_lt below before]
    congr 1
    refine Finset.sum_congr rfl fun l _ => ?_
    split
    · rename_i less'
      simp [divided, (less'.trans before).ne, exchange_of_lt below before]
    · rfl
  · rw [above (less.trans_le after), above (less.trans_le (le_exchange below after))]
    congr 1
    refine Finset.sum_congr rfl fun l _ => ?_
    rcases lt_or_ge k l with far | near
    · simp [above far]
    · have before : l < j := near.trans_lt less
      simp [divided, before.ne, before.trans_le after, before.trans_le (le_exchange below after)]

/-- The entries of the divided column on and above the diagonal. -/
theorem upper_divided (E : Matrix (Fin n) (Fin n) K) (j p : Fin n) (c : Fin n → K) (l : Fin n) :
    upper (divided E j p c) l j = if l ≤ j then c (exchange j p l) else 0 := by
  simp only [upper, Matrix.of_apply, divided, if_true]
  split
  · rw [if_neg (not_lt.2 ‹_›)]
  · rfl

section
variable {E : Matrix (Fin n) (Fin n) K} {i j p : Fin n} {c : Fin n → K} (below : j ≤ p)
  (reduced : IsReduced E j c)
include below reduced

/-- In a row on or above the diagonal nothing is divided. -/
theorem divided_column_of_le (le : i ≤ j) :
    (lower (divided E j p c) * upper (divided E j p c)) i j = E (exchange j p i) j := by
  have summed (l : Fin n) : l < exchange j p i ∧ l < j ↔ l < i := by
    rcases le.lt_or_eq with before | rfl
    · rw [exchange_of_lt below before]
      exact ⟨And.left, fun less => ⟨less, less.trans before⟩⟩
    · rw [exchange_pivot]
      exact ⟨And.right, fun less => ⟨less.trans_le below, less⟩⟩
  rw [lower_mul_upper, reduced, upper_divided, if_pos le]
  congr 1
  refine Finset.sum_congr rfl fun l _ => ?_
  simp only [summed, upper_divided]
  split
  · rename_i less
    have before := less.trans_le le
    simp [before.le, before.ne, divided, exchange_of_lt below before]
  · rfl

/-- In a row below the diagonal the multiplier gives back the entry of the reduced column. -/
theorem divided_column_of_gt (nothing : c p = 0 → ∀ i, j ≤ i → c i = 0) (after : j < i) :
    (lower (divided E j p c) * upper (divided E j p c)) i j = E (exchange j p i) j := by
  have back : c (exchange j p i) / c p * c p = c (exchange j p i) := by
    by_cases zero : c p = 0
    · rw [nothing zero _ (le_exchange below after.le), zero, mul_zero]
    · exact div_mul_cancel₀ _ zero
  have summed (l : Fin n) :
      (if l < i then divided E j p c i l * upper (divided E j p c) l j else 0) =
        (if l = j then c (exchange j p i) else 0) +
          if l < exchange j p i ∧ l < j then E (exchange j p i) l * c l else 0 := by
    rw [upper_divided]
    rcases lt_trichotomy l j with less | rfl | greater
    · simp [less, less.le, less.ne, less.trans after, less.trans_le (le_exchange below after.le),
        divided, exchange_of_lt below less]
    · simp [after, divided, exchange_pivot, back]
    · simp [greater.not_gt, greater.not_ge, greater.ne']
  rw [lower_mul_upper, reduced, upper_divided, if_neg after.not_ge]
  simp only [summed, Finset.sum_add_distrib]
  simp

/-- The column that is divided has become a product. -/
theorem divided_column (nothing : c p = 0 → ∀ i, j ≤ i → c i = 0) (i : Fin n) :
    (lower (divided E j p c) * upper (divided E j p c)) i j = E (exchange j p i) j := by
  rcases le_or_gt i j with le | after
  · exact divided_column_of_le below reduced le
  · exact divided_column_of_gt below reduced nothing after

end

theorem Swept.next {M E : Matrix (Fin n) (Fin n) K} {order : Fin n → Fin n} {j p : Fin n}
    {c : Fin n → K} (swept : Swept M j order E) (below : j ≤ p) (reduced : IsReduced E j c)
    (nothing : c p = 0 → ∀ i, j ≤ i → c i = 0) :
    Swept M (j + 1) (order ∘ exchange j p) (divided E j p c) := by
  intro i k
  rw [Function.comp_apply, swept]
  rcases lt_trichotomy k j with before | rfl | after
  · rw [if_pos (Fin.lt_def.1 before), if_pos (Nat.lt_succ_of_lt before), divided_before below before]
  · rw [if_neg (lt_irrefl _), if_pos (Nat.lt_succ_self _),
      divided_column below reduced nothing]
  · rw [if_neg (Fin.lt_def.not.1 after.not_gt), if_neg (Nat.not_lt.2 after)]
    simp [divided, after.ne']

/-- All columns are swept: the triangles multiply to the matrix with its rows in order. -/
theorem Swept.product {M E : Matrix (Fin n) (Fin n) K} {order : Fin n → Fin n}
    (swept : Swept M n order E) : M.submatrix order id = lower E * upper E := by
  ext i j
  exact (swept i j).trans (if_pos j.isLt)

/-- A product of triangles is solved by forward and backward substitution. -/
theorem Swept.solved {M E : Matrix (Fin n) (Fin n) K} {order : Fin n → Fin n} {b x z : Fin n → K}
    (swept : Swept M n order E) (forward : (lower E).mulVec z = b ∘ order)
    (backward : (upper E).mulVec x = z) (onto : Function.Surjective order) : M.mulVec x = b := by
  funext i
  obtain ⟨i, rfl⟩ := onto i
  calc M.mulVec x (order i) = ((lower E * upper E).mulVec x) i := by rw [← swept.product]; rfl
    _ = b (order i) := by rw [← Matrix.mulVec_mulVec, backward, forward]; rfl

theorem det_lower (E : Matrix (Fin n) (Fin n) K) : (lower E).det = 1 := by
  have triangle : (lower E).IsLowerTriangular := by
    intro i j above
    have above : i < j := above
    simp [lower, above.not_gt, above.ne']
  rw [Matrix.det_of_isLowerTriangular _ triangle]
  exact Finset.prod_eq_one fun i _ => by simp [lower]

theorem det_upper (E : Matrix (Fin n) (Fin n) K) : (upper E).det = ∏ l, E l l := by
  have triangle : (upper E).IsUpperTriangular := by
    intro i j below
    exact if_neg (not_le.2 below)
  rw [Matrix.det_of_isUpperTriangular triangle]
  exact Finset.prod_congr rfl fun i _ => if_pos le_rfl

/-- A matrix is singular if and only if one of its pivots is zero. -/
theorem Swept.det_eq_zero_iff {M E : Matrix (Fin n) (Fin n) K} {order : Fin n → Fin n}
    (swept : Swept M n order E) (bijective : Function.Bijective order) :
    M.det = 0 ↔ ∃ l, E l l = 0 := by
  have product : (M.submatrix order id).det = ∏ l, E l l := by
    rw [swept.product, Matrix.det_mul, det_lower, one_mul, det_upper]
  have permuted : (M.submatrix order id).det = _ :=
    Matrix.det_permute (Equiv.ofBijective order bijective) M
  have pivots : (∏ l, E l l) = 0 ↔ ∃ l, E l l = 0 := by
    simp [Finset.prod_eq_zero_iff]
  rw [← pivots, ← product, permuted]
  obtain even | odd := Int.units_eq_one_or (Equiv.Perm.sign (Equiv.ofBijective order bijective))
  · rw [even]
    simp
  · rw [odd]
    simp

end

/-! ## The pivot of a column -/

section
variable {K : Type} [Field K] [LinearOrder K] {n : ℕ}

/-- The row of the pivot of a column: no entry on or below the diagonal is larger, and rows are exchanged
only for a pivot that is not zero. -/
structure IsPivot (c : Fin n → K) (j p : Fin n) : Prop where
  below : j ≤ p
  largest : ∀ i, j ≤ i → |c i| ≤ |c p|
  stays : c p = 0 → p = j

/-- The row of the pivot after `k` rows of the search: it is compared with the diagonal and with these
rows. -/
structure PivotSoFar (c : Fin n → K) (j : Fin n) (k : ℕ) (p : Fin n) : Prop where
  below : j ≤ p
  largest : ∀ l, j ≤ l → l = j ∨ (l : ℕ) < k → |c l| ≤ |c p|
  stays : c p = 0 → p = j

namespace PivotSoFar
variable {c : Fin n → K} {i j p l : Fin n}

theorem isPivot (found : PivotSoFar c j n p) : IsPivot c j p :=
  ⟨found.below, fun i below => found.largest i below (.inr i.isLt), found.stays⟩

theorem diagonal (c : Fin n → K) (j : Fin n) : PivotSoFar c j 0 j := by
  refine ⟨le_rfl, fun l _ seen => ?_, fun _ => rfl⟩
  rcases seen with rfl | before
  · exact le_rfl
  · exact absurd before (Nat.not_lt_zero _)

theorem largest_or_last (found : PivotSoFar c j i p) (below : j ≤ l)
    (seen : l = j ∨ (l : ℕ) < i + 1) : |c l| ≤ |c p| ∨ l = i := by
  rcases seen with rfl | before
  · exact .inl (found.largest l below (.inl rfl))
  · rcases Nat.lt_succ_iff_lt_or_eq.1 before with earlier | last
    · exact .inl (found.largest l below (.inr earlier))
    · exact .inr (Fin.ext last)

theorem leave (found : PivotSoFar c j i p) (small : ¬ (j < i ∧ |c p| < |c i|)) :
    PivotSoFar c j (i + 1) p := by
  refine ⟨found.below, fun l below seen => ?_, found.stays⟩
  obtain old | rfl := found.largest_or_last below seen
  · exact old
  · rcases below.lt_or_eq with beyond | rfl
    · exact not_lt.1 fun larger => small ⟨beyond, larger⟩
    · exact found.largest j below (.inl rfl)

theorem take [IsStrictOrderedRing K] (found : PivotSoFar c j i p) (beyond : j < i)
    (larger : |c p| < |c i|) : PivotSoFar c j (i + 1) i := by
  refine ⟨beyond.le, fun l below seen => ?_, fun zero => ?_⟩
  · obtain old | rfl := found.largest_or_last below seen
    · exact old.trans larger.le
    · exact le_rfl
  · exact absurd larger (not_lt.2 ((abs_eq_zero.2 zero).trans_le (abs_nonneg _)))

end PivotSoFar

end

section
variable {K α : Type} [Field K] [LinearOrder K] [Scalar α] {φ : K → α} {n : ℕ} (e : Embeds φ)
  {E : Matrix (Fin n) (Fin n) K} {j : Fin n}
include e

theorem pivotRow_spec [IsStrictOrderedRing K] (c : Fin n → K) (j : Fin n) :
    IsPivot c j (pivotRow (embed φ c) j) := by
  have defined : pivotRow (embed φ c) j = largestRow (embed φ c) j :=
    pivotRow_eq_largestRow fun i _ => (congrArg _ (get_embed φ c i)).trans (e.isNaN _)
  have size (i : Fin n) : Scalar.abs ((embed φ c).get i) = φ |c i| :=
    (congrArg _ (get_embed φ c i)).trans (e.abs _)
  have loop := foldl_upTo (b := j)
    (f := fun p i => if j < i ∧ Scalar.abs ((embed φ c).get p) < Scalar.abs ((embed φ c).get i)
      then i else p) (P := PivotSoFar c j) (.diagonal c j) fun i p found => ?_
  · rw [defined]
    exact loop.isPivot
  · simp only [size, e.lt]
    split
    · rename_i larger
      exact found.take larger.1 larger.2
    · rename_i small
      exact found.leave small

omit [LinearOrder K] [Scalar α] e in
/-- A sum over the indices below a number. -/
theorem sum_below {m : ℕ} (le : m ≤ n) (f : Fin n → K) :
    ∑ k : Fin m, f (k.castLE le) = ∑ l : Fin n, if (l : ℕ) < m then f l else 0 := by
  refine Finset.sum_of_injOn (Fin.castLE le) (Fin.castLE_injective le).injOn
    (fun _ _ => Finset.mem_univ _) (fun l _ outside => if_neg fun less => outside ?_)
    fun k _ => (if_pos k.isLt).symm
  exact ⟨⟨l, less⟩, Finset.mem_coe.2 (Finset.mem_univ _), rfl⟩

/-- A column of an embedded matrix stays embedded when it is reduced. -/
theorem exists_reduced (E : Matrix (Fin n) (Fin n) K) (j : Fin n) :
    ∃ c, reducedColumn (embedMat φ E) j = embed φ c ∧ IsReduced E j c := by
  have step (i : Fin n) (a : Fin n → K)
      (above : ∀ l < i, (reducedColumn (embedMat φ E) j).get l = φ (a l)) :
      (reducedColumn (embedMat φ E) j).get i =
        φ (E i j - ∑ l, if l < i ∧ l < j then E i l * a l else 0) := by
    have le : min i.val j.val ≤ n := by omega
    have lost : (∑ l, if l < i ∧ l < j then E i l * a l else 0) =
        ∑ k : Fin (min i.val j.val), E i (k.castLE le) * a (k.castLE le) := by
      rw [sum_below le fun l => E i l * a l]
      simp only [lt_min_iff, Fin.lt_def]
    rw [get_reducedColumn, lost, ← e.sub, ← e.total, get_embedMat, get_embed]
    congr 2
    funext k
    rw [above _ (Fin.lt_def.2 (by simp; omega)), get_embed, e.mul]
    rfl
  have entry (i : Fin n) : ∃ a, (reducedColumn (embedMat φ E) j).get i = φ a := by
    induction i using WellFoundedLT.induction with
    | ind i ih =>
      choose! a above using ih
      exact ⟨_, step i a above⟩
  obtain ⟨c, column⟩ := exists_embed entry
  refine ⟨c, column, fun i => ?_⟩
  have value := step i c fun l _ => by rw [column, get_embed]
  rw [column, get_embed] at value
  rw [e.injective value]
  ring

theorem forward_embed {F : Factors n α} (here : F.entries = embedMat φ E) (b : Fin n → K) :
    ∃ z, F.forward (embed φ b) = embed φ z ∧ (lower E).mulVec z = b := by
  have step (i : Fin n) (z : Fin n → K) (above : ∀ j < i, (F.forward (embed φ b)).get j = φ (z j)) :
      (F.forward (embed φ b)).get i = φ (b i - ∑ j, if j < i then E i j * z j else 0) := by
    rw [get_forward, get_embed, ← e.foldl_sub]
    congr 1
    funext rest j
    split
    · rw [above j ‹_›, here, get_embedMat, get_embed, e.mul]
    · rfl
  have entry (i : Fin n) : ∃ a, (F.forward (embed φ b)).get i = φ a := by
    induction i using WellFoundedLT.induction with
    | ind i ih =>
      choose! z above using ih
      exact ⟨_, step i z above⟩
  obtain ⟨z, solved⟩ := exists_embed entry
  refine ⟨z, solved, funext fun i => ?_⟩
  have value := step i z fun j _ => by rw [solved, get_embed]
  rw [solved, get_embed] at value
  rw [lower_mulVec, e.injective value]
  ring

theorem backward_embed {F : Factors n α} (here : F.entries = embedMat φ E)
    (nonzero : ∀ l, E l l ≠ 0) (z : Fin n → K) :
    ∃ x, F.backward (embed φ z) = embed φ x ∧ (upper E).mulVec x = z := by
  have step (i : Fin n) (x : Fin n → K)
      (below : ∀ j, i < j → (F.backward (embed φ z)).get j = φ (x j)) :
      (F.backward (embed φ z)).get i =
        φ ((z i - ∑ j, if i < j then E i j * x j else 0) / E i i) := by
    rw [get_backward, get_embed, ← e.div _ (nonzero i), ← e.foldr_sub, here,
      get_embedMat, get_embed]
    congr 2
    funext j rest
    split
    · rw [below j ‹_›, get_embed, e.mul]
    · rfl
  have entry (i : Fin n) : ∃ a, (F.backward (embed φ z)).get i = φ a := by
    induction i using WellFoundedGT.induction with
    | ind i ih =>
      choose! x below using ih
      exact ⟨_, step i x below⟩
  obtain ⟨x, solved⟩ := exists_embed entry
  refine ⟨x, solved, funext fun i => ?_⟩
  have value := step i x fun j _ => by rw [solved, get_embed]
  rw [solved, get_embed] at value
  rw [upper_mulVec, e.injective value, mul_div_cancel₀ _ (nonzero i)]
  ring

variable [IsStrictOrderedRing K]

omit [Scalar α] e in
theorem IsPivot.nothing {c : Fin n → K} {p : Fin n} (pivot : IsPivot c j p) (zero : c p = 0)
    (i : Fin n) (le : j ≤ i) : c i = 0 := by
  have small := pivot.largest i le
  rw [zero, abs_zero] at small
  exact abs_nonpos_iff.1 small

/-- A sweep over an embedded matrix reduces a column, exchanges its rows and divides by the pivot. A
pivot that is zero is not divided by, but below it there are only zeros. -/
theorem sweep_embed {F : Factors n α} (here : F.entries = embedMat φ E) (j : Fin n) :
    ∃ c p, IsPivot c j p ∧ IsReduced E j c ∧
      (F.sweep j).entries = embedMat φ (divided E j p c) ∧
      ∀ i, (F.sweep j).order.get i = F.order.get (exchange j p i) := by
  obtain ⟨c, column, reduced⟩ := exists_reduced e E j
  have spec := pivotRow_spec e c j
  obtain ⟨p, pivot⟩ : ∃ p, pivotRow (embed φ c) j = p := ⟨_, rfl⟩
  rw [pivot] at spec
  rw [← here] at column
  have entry (i k : Fin n) := get_entries_sweep column pivot (i := i) (k := k) rfl
  simp only [here, get_embed, get_embedMat, e.isInvertible] at entry
  refine ⟨c, p, spec, reduced, eq_embedMat fun i k => ?_, get_order_sweep column pivot⟩
  rw [entry]
  by_cases zero : c p = 0
  · obtain rfl := spec.stays zero
    simp only [zero, ne_eq, not_true_eq_false, decide_false, Bool.not_false, and_true,
      Bool.false_eq_true, and_false, if_false, exchange_refl, ite_self, divided, Matrix.of_apply]
    split
    · split
      · rw [spec.nothing zero i (le_of_lt ‹_›), zero_div]
      · rfl
    · rfl
  · have inverse : (φ (1 / c p) == φ 0) = false := by
      rw [e.beq, decide_eq_false (one_div_ne_zero zero)]
    simp only [zero, ne_eq, not_false_eq_true, decide_true, Bool.not_true, Bool.false_eq_true,
      and_false, if_false, and_true, divided, Matrix.of_apply]
    split
    · split
      · rw [multiplier, e.one, e.zero, e.div _ zero, inverse, if_neg Bool.false_ne_true, e.mul,
          mul_one_div]
      · rfl
    · rfl

omit [Scalar α] e in
/-- The multipliers of the column that is divided do not exceed one, and those before only change
places. -/
theorem divided_le_one {c : Fin n → K} {p : Fin n} (pivot : IsPivot c j p)
    (small : ∀ i l, l < i → l < j → |E i l| ≤ 1) (i l : Fin n) (below : l < i) (swept : l ≤ j) :
    |divided E j p c i l| ≤ 1 := by
  obtain before | rfl := swept.lt_or_eq
  · have moved : divided E j p c i l = E (exchange j p i) l := by simp [divided, before.ne]
    have still : l < exchange j p i := by
      obtain above | le := lt_or_ge i j
      · rwa [exchange_of_lt pivot.below above]
      · exact before.trans_le (le_exchange pivot.below le)
    rw [moved]
    exact small _ l still before
  · have quotient : divided E l p c i l = c (exchange l p i) / c p := by simp [divided, below]
    rw [quotient, abs_div]
    exact div_le_one_of_le₀ (pivot.largest _ (le_exchange pivot.below below.le)) (abs_nonneg _)

/-- The factors of an embedded matrix: its triangles, with multipliers that do not exceed one. -/
theorem of_embed (M : Matrix (Fin n) (Fin n) K) : ∃ E, (of (embedMat φ M)).entries = embedMat φ E ∧
    Swept M n (fun i => (of (embedMat φ M)).order.get i) E ∧ ∀ i l, l < i → |E i l| ≤ 1 := by
  have loop := foldl_upTo (P := fun k (F : Factors n α) => ∃ E, F.entries = embedMat φ E ∧
      Swept M k (fun i => F.order.get i) E ∧ ∀ i l : Fin n, l < i → (l : ℕ) < k → |E i l| ≤ 1)
    (f := sweep) (b := ⟨embedMat φ M, Vector.ofFn id⟩) ?_ ?_
  · obtain ⟨E, entries, swept, small⟩ := loop
    exact ⟨E, entries, swept, fun i l below => small i l below l.isLt⟩
  · refine ⟨M, rfl, fun i j => congrArg (M · j) (get_ofFn_id i), fun _ _ _ before => ?_⟩
    exact absurd before (Nat.not_lt_zero _)
  · rintro j F ⟨E, entries, swept, small⟩
    obtain ⟨c, p, pivot, reduced, entries', places⟩ := sweep_embed e entries j
    refine ⟨divided E j p c, entries', ?_, fun i l below before => ?_⟩
    · simp only [places]
      exact swept.next pivot.below reduced pivot.nothing
    · exact divided_le_one pivot (fun i l below before => small i l below (Fin.lt_def.1 before)) i l
        below (Fin.le_def.2 (Nat.le_of_lt_succ before))

omit [IsStrictOrderedRing K] in
/-- A matrix has no small pivot if and only if all the entries on the diagonal of its factors are
larger. -/
theorem smallPivot?_eq_none {F : Factors n α} (here : F.entries = embedMat φ E) {tol : K} :
    F.smallPivot? (φ tol) = none ↔ ∀ l, tol < |E l l| := by
  have entry (l : Fin n) : (F.entries.get l).get l = φ (E l l) := by
    rw [here, get_embedMat, get_embed]
  simp [smallPivot?, List.find?_eq_none, entry, e.abs, e.le]

theorem nonzero_of_smallPivot? {F : Factors n α} (here : F.entries = embedMat φ E) {tol : K}
    (nonneg : 0 ≤ tol) (none : F.smallPivot? (φ tol) = none) (l : Fin n) : E l l ≠ 0 :=
  abs_pos.1 (nonneg.trans_lt ((smallPivot?_eq_none e here).1 none l))

/-- No pivot is zero if and only if the matrix is not singular. -/
theorem smallPivot?_zero_eq_none (M : Matrix (Fin n) (Fin n) K) :
    (of (embedMat φ M)).smallPivot? (φ 0) = none ↔ M.det ≠ 0 := by
  obtain ⟨E, entries, swept, -⟩ := of_embed e M
  rw [smallPivot?_eq_none e entries, ne_eq, swept.det_eq_zero_iff (bijective_order _)]
  simp

/-- Where no pivot is small the matrix is not singular. -/
theorem det_ne_zero_of_smallPivot? {M : Matrix (Fin n) (Fin n) K} {tol : K} (nonneg : 0 ≤ tol)
    (none : (of (embedMat φ M)).smallPivot? (φ tol) = none) : M.det ≠ 0 := by
  obtain ⟨E, entries, swept, -⟩ := of_embed e M
  rw [ne_eq, swept.det_eq_zero_iff (bijective_order _), not_exists]
  exact nonzero_of_smallPivot? e entries nonneg none

/-- A system whose factors have no small pivot is solved. -/
theorem solve_embed {M : Matrix (Fin n) (Fin n) K} {tol : K} (nonneg : 0 ≤ tol)
    (none : (of (embedMat φ M)).smallPivot? (φ tol) = none) (b : Fin n → K) :
    ∃ x, (of (embedMat φ M)).solve (embed φ b) = embed φ x ∧ M.mulVec x = b := by
  obtain ⟨E, entries, swept, -⟩ := of_embed e M
  have order : (Vector.ofFn fun i => (embed φ b).get ((of (embedMat φ M)).order.get i)) =
      embed φ (b ∘ fun i : Fin n => (of (embedMat φ M)).order.get i) := by
    congr 1
    funext i
    exact get_embed φ b _
  obtain ⟨z, forward, lowers⟩ := forward_embed e entries
    (b ∘ fun i : Fin n => (of (embedMat φ M)).order.get i)
  obtain ⟨x, backward, uppers⟩ :=
    backward_embed e entries (nonzero_of_smallPivot? e entries nonneg none) z
  refine ⟨x, ?_, swept.solved lowers uppers (bijective_order _).surjective⟩
  rw [solve, order, forward, backward]

end

end Descent.Factors
