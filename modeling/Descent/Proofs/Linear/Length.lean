/-
# Descent.Proofs.Linear.Length — lengths of real vectors

`length v` is the Euclidean length of a vector of real numbers.  Numbers that contain the
real ones, with their roots and constants (`EmbedsReals`), compute it exactly: the real
numbers themselves, and those that may also be undefined.  So what a formula of the
algorithms amounts to in the reals is worked out once for both.
-/
import Descent.Proofs.Linear.Wide
import Mathlib.LinearAlgebra.Matrix.DotProduct

namespace Descent
set_option autoImplicit false

variable {n : ℕ} {v w : Fin n → ℝ}

/-- Euclidean length. -/
noncomputable def length (v : Fin n → ℝ) : ℝ := √(v ⬝ᵥ v)

theorem length_nonneg (v : Fin n → ℝ) : 0 ≤ length v := Real.sqrt_nonneg _

theorem length_sq (v : Fin n → ℝ) : length v ^ 2 = v ⬝ᵥ v :=
  Real.sq_sqrt (Wide.dotProduct_self_nonneg v)

theorem length_eq_zero : length v = 0 ↔ v = 0 := by
  rw [length, Real.sqrt_eq_zero (Wide.dotProduct_self_nonneg v), dotProduct_self_eq_zero]

theorem length_pos (nonzero : v ≠ 0) : 0 < length v :=
  (length_nonneg v).lt_of_ne' fun zero => nonzero (length_eq_zero.1 zero)

theorem length_smul (a : ℝ) (v : Fin n → ℝ) : length (a • v) = |a| * length v := by
  rw [length, smul_dotProduct, dotProduct_smul, smul_eq_mul, smul_eq_mul, ← mul_assoc, ← sq,
    Real.sqrt_mul (sq_nonneg a), Real.sqrt_sq_eq_abs, length]

theorem length_neg (v : Fin n → ℝ) : length (-v) = length v := by
  rw [length, neg_dotProduct_neg, length]

/-- A step along `-v`. -/
theorem length_along {a : ℝ} (nonneg : 0 ≤ a) (v : Fin n → ℝ) :
    length (-(a • v)) = a * length v := by
  rw [length_neg, length_smul, abs_of_nonneg nonneg]

theorem length_lt_iff {r : ℝ} (positive : 0 < r) : length v < r ↔ v ⬝ᵥ v < r ^ 2 :=
  Real.sqrt_lt' positive

theorem length_eq_iff {r : ℝ} (nonneg : 0 ≤ r) : length v = r ↔ v ⬝ᵥ v = r ^ 2 := by
  rw [length, Real.sqrt_eq_iff_mul_self_eq (Wide.dotProduct_self_nonneg v) nonneg, ← sq, eq_comm]

/-- No entry is larger than the whole. -/
theorem norm_le_length (v : Fin n → ℝ) : ‖v‖ ≤ length v := by
  refine (pi_norm_le_iff_of_nonneg (length_nonneg v)).2 fun i => ?_
  refine Real.abs_le_sqrt ?_
  rw [sq]
  exact Finset.single_le_sum (f := fun i => v i * v i) (fun i _ => mul_self_nonneg (v i))
    (Finset.mem_univ i)

/-! ## Real numbers among those of the algorithms -/

/-- The real numbers among those of the algorithms, with their roots and constants. -/
structure EmbedsReals {α : Type} [Scalar α] (φ : ℝ → α) : Prop extends Embeds φ where
  sqrt {x : ℝ} (nonneg : 0 ≤ x) : Scalar.sqrt (φ x) = φ √x
  sq (x : ℝ) : Scalar.sq (φ x) = φ (x ^ 2)
  isFinite (x : ℝ) : Scalar.isFinite (φ x) = true
  ofScientific (m : ℕ) (s : Bool) (e : ℕ) :
    (OfScientific.ofScientific m s e : α) = φ (OfScientific.ofScientific m s e)

theorem exactRoot_eq_sqrt {x : ℝ} (nonneg : 0 ≤ x) : exactRoot x = √x := by
  have root := exactRoot_mul_self (Real.sqrt_nonneg x)
  rwa [Real.mul_self_sqrt nonneg] at root

theorem EmbedsReals.refl : EmbedsReals (id : ℝ → ℝ) where
  toEmbeds := .refl
  sqrt nonneg := exactRoot_eq_sqrt nonneg
  sq _ := rfl
  isFinite _ := rfl
  ofScientific _ _ _ := rfl

theorem Wide.embedsReals : EmbedsReals real where
  toEmbeds := embeds
  sqrt := sqrt_real
  sq := sq_real
  isFinite := isFinite_real
  ofScientific := ofScientific_eq

namespace EmbedsReals

variable {α : Type} [Scalar α] {φ : ℝ → α} (e : EmbedsReals φ)
include e

theorem norm (v : Fin n → ℝ) : Descent.norm (embed φ v) = φ (length v) := by
  rw [Descent.norm, e.dot, e.sqrt (Wide.dotProduct_self_nonneg v), length]

theorem square (x : ℝ) : Descent.square (φ x) = .ok (φ (x ^ 2)) := by
  rw [Descent.square, e.sq, e.isFinite, e.isFinite]
  rfl

theorem maxFirst (x y : ℝ) : Scalar.maxFirst (φ x) (φ y) = φ (max x y) := by
  simp only [Scalar.maxFirst, e.lt, max_def_lt]
  split <;> rfl

theorem minFirst (x y : ℝ) : Scalar.minFirst (φ x) (φ y) = φ (min x y) := by
  simp only [Scalar.minFirst, e.lt, min_comm x y, min_def_lt]
  split <;> rfl

end EmbedsReals

end Descent
