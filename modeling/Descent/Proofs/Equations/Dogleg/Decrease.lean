/-
# Descent.Proofs.Equations.Dogleg.Decrease — how far the model falls

The model `m(p) = g·p + p·Bp / 2` with a positive semidefinite `B` falls along the whole path.
So each of the four points where a step can end is as low as any point along `-g` that the
radius admits (`Path.modelAt_le`): the full step is the minimum, a step that is cut off and the
Cauchy step minimize along `-g`, and the way from the Cauchy step to the full step leads down.

A model of least squares has `g = Jᵀy` and `B = JᵀJ + a I`.  It falls no farther than the
linearized residual does (`predicted_eq`), because that leaves out the multiple of the identity.
-/
import Descent.Proofs.Equations.Dogleg.Path
import Descent.Proofs.Objective.Quadratic
import Mathlib.Algebra.Order.Star.Real

namespace Descent.Dogleg
set_option autoImplicit false

open Matrix

variable {m n : ℕ} {g c p q : Fin n → ℝ} {B : Matrix (Fin n) (Fin n) ℝ} {r t : ℝ}

/-- The model with gradient `g` and matrix `B`. -/
noncomputable def modelAt (g : Fin n → ℝ) (B : Matrix (Fin n) (Fin n) ℝ) (p : Fin n → ℝ) : ℝ :=
  g ⬝ᵥ p + 0.5 * (p ⬝ᵥ B *ᵥ p)

theorem half_mul (x : ℝ) : 0.5 * x = x / 2 := by
  norm_num
  ring

theorem modelAt_eq (g : Fin n → ℝ) (B : Matrix (Fin n) (Fin n) ℝ) (p : Fin n → ℝ) :
    modelAt g B p = g ⬝ᵥ p + p ⬝ᵥ B *ᵥ p / 2 := by rw [modelAt, half_mul]

theorem modelAt_along (g : Fin n → ℝ) (B : Matrix (Fin n) (Fin n) ℝ) (t : ℝ) :
    modelAt g B (-(t • g)) = t ^ 2 * (g ⬝ᵥ B *ᵥ g) / 2 - t * length g ^ 2 := by
  simp only [modelAt_eq, mulVec_neg, mulVec_smul, neg_dotProduct, dotProduct_neg, smul_dotProduct,
    dotProduct_smul, smul_eq_mul, length_sq]
  ring

section
variable (psd : B.PosSemidef)
include psd

theorem curvature_nonneg (p : Fin n → ℝ) : 0 ≤ p ⬝ᵥ B *ᵥ p := psd.dotProduct_mulVec_nonneg p

/-- The way to a full step leads down. -/
theorem modelAt_toward_le (solves : B *ᵥ q = -g) (nonneg : 0 ≤ t) (le_one : t ≤ 1) (c : Fin n → ℝ) :
    modelAt g B (c + t • (q - c)) ≤ modelAt g B c := by
  have form (p : Fin n → ℝ) : modelAt g B p = quadraticForm B (-g) p := by
    rw [modelAt_eq, quadraticForm, neg_dotProduct, sub_neg_eq_add, add_comm]
  rw [form, form, quadraticForm_along (isHermitian_iff_isSymm.1 psd.isHermitian) solves]
  have falls : 0 ≤ (t - t ^ 2 / 2) * ((q - c) ⬝ᵥ B *ᵥ (q - c)) :=
    mul_nonneg (by nlinarith) (curvature_nonneg psd _)
  linarith

theorem modelAt_full_le (solves : B *ᵥ q = -g) (p : Fin n → ℝ) : modelAt g B q ≤ modelAt g B p := by
  have down := modelAt_toward_le psd solves zero_le_one le_rfl p
  rwa [one_smul, add_sub_cancel] at down

/-- Up to the Cauchy step the model falls along `-g`. -/
theorem modelAt_along_anti {s : ℝ} (before : t ≤ s) (least : s * (g ⬝ᵥ B *ᵥ g) ≤ length g ^ 2) :
    modelAt g B (-(s • g)) ≤ modelAt g B (-(t • g)) := by
  rw [modelAt_along, modelAt_along]
  have curved := curvature_nonneg psd g
  nlinarith [mul_nonneg (sub_nonneg.2 before) (sub_nonneg.2 least),
    mul_nonneg (mul_self_nonneg (s - t)) curved]

theorem cauchyScale_mul_le : cauchyScale g B r * (g ⬝ᵥ B *ᵥ g) ≤ length g ^ 2 := by
  unfold cauchyScale
  split
  · rw [le_antisymm ‹_› (curvature_nonneg psd g), mul_zero]
    positivity
  · rw [div_mul_cancel₀ _ (not_le.1 ‹_›).ne']

variable (nonzero : g ≠ 0)
include nonzero

/-- The Cauchy step minimizes the model along `-g` as far as the radius admits. -/
theorem modelAt_cauchyPoint_le (admitted : t * length g ≤ r) :
    modelAt g B (cauchyPoint g B r) ≤ modelAt g B (-(t • g)) := by
  rcases le_or_gt t (cauchyScale g B r) with before | beyond
  · exact modelAt_along_anti psd before (cauchyScale_mul_le psd)
  · rw [cauchyPoint, modelAt_along, modelAt_along]
    unfold cauchyScale at beyond ⊢
    split at beyond
    · exact absurd ((le_div_iff₀ (length_pos nonzero)).2 admitted) beyond.not_ge
    · -- past its vertex the parabola rises again
      rename_i curved
      rw [if_neg curved]
      obtain ⟨s, vertex⟩ : ∃ s, s = length g ^ 2 / (g ⬝ᵥ B *ᵥ g) := ⟨_, rfl⟩
      have slope : length g ^ 2 = s * (g ⬝ᵥ B *ᵥ g) := by
        rw [vertex, div_mul_cancel₀ _ (not_le.1 curved).ne']
      rw [← vertex, slope]
      linarith [mul_nonneg (sq_nonneg (t - s)) (not_le.1 curved).le]

/-- A step is as low as any point along `-g` that the radius admits. -/
theorem Path.modelAt_le (positive : 0 < r) (path : Path g B r p) (admitted : t * length g ≤ r) :
    modelAt g B p ≤ modelAt g B (-(t • g)) := by
  cases path with
  | full _ solves _ => exact modelAt_full_le psd solves _
  | cut _ far =>
    have size := length_pos nonzero
    rw [length_cauchyPoint nonzero positive] at far
    refine modelAt_along_anti psd ((le_div_iff₀ size).2 admitted) ?_
    calc r / length g * (g ⬝ᵥ B *ᵥ g)
        ≤ cauchyScale g B r * (g ⬝ᵥ B *ᵥ g) :=
          mul_le_mul_of_nonneg_right ((div_le_iff₀ size).2 far) (curvature_nonneg psd g)
      _ ≤ length g ^ 2 := cauchyScale_mul_le psd
  | cauchy => exact modelAt_cauchyPoint_le psd nonzero admitted
  | bent _ solves _ _ leaves =>
    exact (modelAt_toward_le psd solves leaves.nonneg leaves.le_one _).trans
      (modelAt_cauchyPoint_le psd nonzero admitted)

/-- As long as its curvature does not take back half of it, the slope along `-g` counts. -/
theorem Path.modelAt_le_half (positive : 0 < r) (path : Path g B r p) (nonneg : 0 ≤ t)
    (admitted : t * length g ≤ r) (least : t * (g ⬝ᵥ B *ᵥ g) ≤ length g ^ 2) :
    modelAt g B p ≤ -(t * length g ^ 2 / 2) := by
  refine (path.modelAt_le psd nonzero positive admitted).trans ?_
  rw [modelAt_along]
  linarith [mul_le_mul_of_nonneg_left least nonneg]

theorem Path.modelAt_neg (positive : 0 < r) (path : Path g B r p) : modelAt g B p < 0 := by
  have size := length_pos nonzero
  have curved := curvature_nonneg psd g
  obtain ⟨t, ahead, admitted, least⟩ :
      ∃ t, 0 < t ∧ t * length g ≤ r ∧ t * (g ⬝ᵥ B *ᵥ g + 1) ≤ length g ^ 2 :=
    ⟨min (r / length g) (length g ^ 2 / (g ⬝ᵥ B *ᵥ g + 1)), by positivity,
      (le_div_iff₀ size).1 (min_le_left _ _), (le_div_iff₀ (by positivity)).1 (min_le_right _ _)⟩
  have falls := path.modelAt_le_half psd nonzero positive ahead.le admitted (by linarith)
  exact falls.trans_lt (by rw [neg_lt_zero]; positivity)

/-- A step leads down the gradient. -/
theorem Path.slope_neg (positive : 0 < r) (path : Path g B r p) : g ⬝ᵥ p < 0 := by
  have falls := path.modelAt_neg psd nonzero positive
  rw [modelAt_eq] at falls
  linarith [curvature_nonneg psd p]

end

/-! ## Least squares -/

/-- How far the linearized residual lets half the square of the residual fall. -/
noncomputable def predicted (y : Fin m → ℝ) (J : Matrix (Fin m) (Fin n) ℝ) (p : Fin n → ℝ) : ℝ :=
  0.5 * (y ⬝ᵥ y) - 0.5 * ((y + J *ᵥ p) ⬝ᵥ (y + J *ᵥ p))

section
variable (y : Fin m → ℝ) (J : Matrix (Fin m) (Fin n) ℝ) (p : Fin n → ℝ) {a : ℝ}

theorem predicted_eq_half :
    predicted y J p = y ⬝ᵥ y / 2 - (y + J *ᵥ p) ⬝ᵥ (y + J *ᵥ p) / 2 := by
  rw [predicted, half_mul, half_mul]

theorem predicted_eq_slope : predicted y J p = -(Jᵀ *ᵥ y ⬝ᵥ p) - J *ᵥ p ⬝ᵥ J *ᵥ p / 2 := by
  have slope : Jᵀ *ᵥ y ⬝ᵥ p = y ⬝ᵥ J *ᵥ p := by rw [mulVec_transpose, ← dotProduct_mulVec]
  rw [predicted_eq_half, slope]
  simp only [add_dotProduct, dotProduct_add, dotProduct_comm (J *ᵥ p) y]
  ring

/-- The model leaves out what was added to its matrix. -/
theorem predicted_eq (a : ℝ) : predicted y J p =
    a / 2 * (p ⬝ᵥ p) - modelAt (Jᵀ *ᵥ y) (Jᵀ * J + a • 1) p := by
  have square : p ⬝ᵥ (Jᵀ * J) *ᵥ p = J *ᵥ p ⬝ᵥ J *ᵥ p := by
    rw [← mulVec_mulVec, dotProduct_mulVec, vecMul_transpose]
  rw [predicted_eq_slope, modelAt_eq, add_mulVec, dotProduct_add, square, smul_mulVec, one_mulVec,
    dotProduct_smul, smul_eq_mul]
  ring

variable (nonneg : 0 ≤ a)
include nonneg

theorem posSemidef_leastSquares : (Jᵀ * J + a • 1).PosSemidef := by
  have square : (Jᵀ * J).PosSemidef := by
    rw [← conjTranspose_eq_transpose_of_trivial]
    exact posSemidef_conjTranspose_mul_self J
  exact square.add (PosSemidef.one.smul nonneg)

theorem neg_modelAt_le_predicted :
    -modelAt (Jᵀ *ᵥ y) (Jᵀ * J + a • 1) p ≤ predicted y J p := by
  rw [predicted_eq y J p a]
  linarith [mul_nonneg (half_pos one_pos).le (mul_nonneg nonneg (Wide.dotProduct_self_nonneg p))]

variable {y J p}

/-- Every step is predicted to lead down. -/
theorem Path.predicted_pos (steep : Jᵀ *ᵥ y ≠ 0) (positive : 0 < r)
    (path : Path (Jᵀ *ᵥ y) (Jᵀ * J + a • 1) r p) : 0 < predicted y J p := by
  have falls := path.modelAt_neg (posSemidef_leastSquares J nonneg) steep positive
  linarith [neg_modelAt_le_predicted y J p nonneg]

end

end Descent.Dogleg
