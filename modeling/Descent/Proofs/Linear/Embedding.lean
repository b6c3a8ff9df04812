/-
# Descent.Proofs.Linear.Embedding — fields among the numbers of the algorithms

An ordered field may be a part of the numbers on which the algorithms run, as the
real numbers are a part of those that can also be undefined.  If such an embedding
respects the operations (`Embeds`), sums, products and matrices of embedded numbers
are computed with as in the field.  A field is embedded in itself; its own vectors and
matrices are `stored` and `storedMat`.
-/
import Descent.Linear.Tuple
import Descent.Proofs.Exact
import Mathlib.Data.Matrix.Mul

namespace Descent
set_option autoImplicit false

variable {K α : Type} [Field K] [LinearOrder K] [Scalar α] {φ : K → α} {m n : ℕ}

/-- The numbers of a field among those of the algorithms, with the same operations. Only a division
by zero may be different. -/
structure Embeds (φ : K → α) : Prop where
  zero : 0 = φ 0
  one : 1 = φ 1
  add (x y : K) : φ x + φ y = φ (x + y)
  sub (x y : K) : φ x - φ y = φ (x - y)
  mul (x y : K) : φ x * φ y = φ (x * y)
  neg (x : K) : -φ x = φ (-x)
  div (x : K) {y : K} (nonzero : y ≠ 0) : φ x / φ y = φ (x / y)
  lt (x y : K) : φ x < φ y ↔ x < y
  le (x y : K) : φ x ≤ φ y ↔ x ≤ y
  beq (x y : K) : (φ x == φ y) = decide (x = y)
  abs (x : K) : Scalar.abs (φ x) = φ |x|
  isNaN (x : K) : Scalar.isNaN (φ x) = false
  isInvertible (x : K) : Scalar.isInvertible (φ x) = decide (x ≠ 0)

theorem Embeds.refl : Embeds (id : K → K) where
  zero := rfl
  one := rfl
  add _ _ := rfl
  sub _ _ := rfl
  mul _ _ := rfl
  neg _ := rfl
  div _ _ _ := rfl
  lt _ _ := Iff.rfl
  le _ _ := Iff.rfl
  beq _ _ := rfl
  abs _ := rfl
  isNaN _ := rfl
  isInvertible _ := rfl

theorem total_zero (f : Fin 0 → α) : total 0 f = 0 := rfl

theorem total_succ (f : Fin (n + 1) → α) :
    total (n + 1) f = total n (fun i => f i.castSucc) + f (Fin.last n) :=
  Fin.foldl_succ_last _ _

theorem dot_eq (x y : Vector α n) : dot x y = total n fun i => x.get i * y.get i := rfl

/-- A vector of embedded numbers. -/
def embed (φ : K → α) (v : Fin n → K) : Vector α n := Vector.ofFn fun i => φ (v i)

/-- A matrix of embedded numbers. -/
def embedMat (φ : K → α) (M : Matrix (Fin m) (Fin n) K) : Mat m n α := Mat.ofFn fun i j => φ (M i j)

omit [LinearOrder K] [Field K] [Scalar α] in
@[simp] theorem get_embed (φ : K → α) (v : Fin n → K) (i : Fin n) : (embed φ v).get i = φ (v i) :=
  Vector.getElem_ofFn i.isLt

omit [LinearOrder K] [Field K] [Scalar α] in
@[simp] theorem get_embedMat (φ : K → α) (M : Matrix (Fin m) (Fin n) K) (i : Fin m) :
    (embedMat φ M).get i = embed φ (M i) := Vector.getElem_ofFn i.isLt

omit [LinearOrder K] [Field K] [Scalar α] in
theorem exists_embed {x : Vector α n} (h : ∀ i : Fin n, ∃ a, x.get i = φ a) : ∃ v, x = embed φ v := by
  choose v hv using h
  refine ⟨v, ?_⟩
  ext i hi
  exact (hv ⟨i, hi⟩).trans (get_embed φ v ⟨i, hi⟩).symm

omit [LinearOrder K] [Field K] [Scalar α] in
theorem embed_injective (injective : Function.Injective φ) :
    Function.Injective (embed φ : (Fin n → K) → Vector α n) := by
  intro v w same
  funext i
  refine injective ?_
  rw [← get_embed φ v, ← get_embed φ w, same]

omit [LinearOrder K] [Field K] [Scalar α] in
theorem eq_embedMat {A : Mat m n α} {M : Matrix (Fin m) (Fin n) K}
    (h : ∀ (i : Fin m) (j : Fin n), (A.get i).get j = φ (M i j)) : A = embedMat φ M := by
  ext1 i hi
  refine .trans ?_ (get_embedMat φ M ⟨i, hi⟩).symm
  ext j hj
  exact (h ⟨i, hi⟩ ⟨j, hj⟩).trans (get_embed φ _ ⟨j, hj⟩).symm

omit [LinearOrder K] [Field K] [Scalar α] in
theorem exists_embedMat {A : Mat m n α} (h : ∀ (i : Fin m) (j : Fin n), ∃ a, (A.get i).get j = φ a) :
    ∃ M, A = embedMat φ M := by
  choose M hM using h
  exact ⟨M, eq_embedMat hM⟩

omit [LinearOrder K] [Field K] [Scalar α] in
theorem transpose_embedMat (φ : K → α) (M : Matrix (Fin m) (Fin n) K) :
    (embedMat φ M).transpose = embedMat φ M.transpose :=
  eq_embedMat fun i j => by rw [Mat.get_transpose, get_embedMat, get_embed, Matrix.transpose_apply]

namespace Embeds

variable (e : Embeds φ)
include e

theorem injective : Function.Injective φ := fun x y same =>
  le_antisymm ((e.le x y).1 (same ▸ (e.le x x).2 le_rfl)) ((e.le y x).1 (same ▸ (e.le x x).2 le_rfl))

theorem quotient (x : K) {y : K} (nonzero : y ≠ 0) :
    Descent.quotient (φ x) (φ y) = .ok (φ (x / y)) := by
  rw [Descent.quotient, e.zero, e.beq, decide_eq_false nonzero, e.div x nonzero]
  rfl

theorem total (v : Fin n → K) : Descent.total n (fun i => φ (v i)) = φ (∑ i, v i) := by
  induction n with
  | zero => exact e.zero
  | succ n ih => rw [total_succ, ih, e.add, Fin.sum_univ_castSucc]

/-- A loop upwards that subtracts some of the terms. -/
theorem foldl_sub (p : Fin n → Prop) [DecidablePred p] (a : Fin n → K) (x : K) :
    Fin.foldl n (fun rest i => if p i then rest - φ (a i) else rest) (φ x) =
      φ (x - ∑ i, if p i then a i else 0) := by
  induction n with
  | zero => simp
  | succ n ih =>
    rw [Fin.foldl_succ_last, ih (fun i => p i.castSucc) fun i => a i.castSucc,
      Fin.sum_univ_castSucc]
    split
    · rw [e.sub, sub_sub]
    · rw [add_zero]

/-- A loop downwards that subtracts some of the terms. -/
theorem foldr_sub (p : Fin n → Prop) [DecidablePred p] (a : Fin n → K) (x : K) :
    Fin.foldr n (fun i rest => if p i then rest - φ (a i) else rest) (φ x) =
      φ (x - ∑ i, if p i then a i else 0) := by
  induction n generalizing x with
  | zero => simp
  | succ n ih =>
    have last : (if p (Fin.last n) then φ x - φ (a (Fin.last n)) else φ x) =
        φ (x - if p (Fin.last n) then a (Fin.last n) else 0) := by
      split
      · exact e.sub _ _
      · rw [sub_zero]
    rw [Fin.foldr_succ_last, last, ih (fun i => p i.castSucc) fun i => a i.castSucc,
      Fin.sum_univ_castSucc, add_comm, sub_sub]

theorem dot (v w : Fin n → K) : Descent.dot (embed φ v) (embed φ w) = φ (v ⬝ᵥ w) := by
  simp only [dot_eq, get_embed, e.mul, e.total, dotProduct]

theorem scale (a : K) (v : Fin n → K) : Descent.scale (φ a) (embed φ v) = embed φ (a • v) := by
  ext i hi
  simp [Descent.scale, embed, e.mul]

theorem addVec (v w : Fin n → K) :
    Vector.zipWith (· + ·) (embed φ v) (embed φ w) = embed φ (v + w) := by
  ext i hi
  simp [embed, e.add]

theorem subVec (v w : Fin n → K) :
    Vector.zipWith (· - ·) (embed φ v) (embed φ w) = embed φ (v - w) := by
  ext i hi
  simp [embed, e.sub]

theorem negVec (v : Fin n → K) : (embed φ v).map (- ·) = embed φ (-v) := by
  ext i hi
  simp [embed, e.neg]

theorem zeroVec : Vector.replicate n 0 = embed φ (0 : Fin n → K) := by
  ext i hi
  simp [embed, e.zero]

theorem mulVec (M : Matrix (Fin m) (Fin n) K) (v : Fin n → K) :
    (embedMat φ M).mulVec (embed φ v) = embed φ (M.mulVec v) := by
  ext i hi
  have entry := Mat.get_mulVec (embedMat φ M) (embed φ v) ⟨i, hi⟩
  rw [get_embedMat, e.dot] at entry
  exact entry.trans (get_embed φ (M.mulVec v) ⟨i, hi⟩).symm

theorem gram (M : Matrix (Fin m) (Fin n) K) : (embedMat φ M).gram = embedMat φ (M.transpose * M) := by
  refine eq_embedMat fun i j => ?_
  rw [Mat.gram, Mat.get_ofFn]
  have entry (k : Fin m) (i : Fin n) : (embedMat φ M)[k][i] = φ (M k i) := by
    change ((embedMat φ M).get k).get i = _
    rw [get_embedMat, get_embed]
  simp only [entry, e.mul, e.total]
  rfl

theorem unit (i j : Fin n) : (if i = j then 1 else 0 : α) = φ ((1 : Matrix (Fin n) (Fin n) K) i j) := by
  rw [Matrix.one_apply]
  split
  · exact e.one
  · exact e.zero

theorem identity : (Mat.identity n : Mat n n α) = embedMat φ 1 :=
  eq_embedMat fun i j => by rw [Mat.identity, Mat.get_ofFn, e.unit]

end Embeds

/-! ## The numbers of a field as such -/

/-- A vector over a field, as the algorithms keep it. -/
abbrev stored (v : Fin n → K) : Vector K n := embed id v

/-- A matrix over a field, as the algorithms keep it. -/
abbrev storedMat (M : Matrix (Fin m) (Fin n) K) : Mat m n K := embedMat id M

omit [Field K] [LinearOrder K] in
theorem exists_stored (x : Vector K n) : ∃ v, x = stored v := exists_embed fun i => ⟨x.get i, rfl⟩

theorem dot_stored (v w : Fin n → K) : dot (stored v) (stored w) = v ⬝ᵥ w := Embeds.refl.dot v w

theorem mulVec_stored (M : Matrix (Fin m) (Fin n) K) (v : Fin n → K) :
    (storedMat M).mulVec (stored v) = stored (M.mulVec v) := Embeds.refl.mulVec M v

theorem identity_stored : (Mat.identity n : Mat n n K) = storedMat 1 := Embeds.refl.identity

theorem norm_stored (v : Fin n → K) : norm (stored v) = exactRoot (v ⬝ᵥ v) := by
  rw [← dot_stored]
  rfl

theorem norm_stored_nonneg (v : Fin n → K) : 0 ≤ norm (stored v) := by
  rw [norm_stored]
  exact exactRoot_nonneg _

end Descent
