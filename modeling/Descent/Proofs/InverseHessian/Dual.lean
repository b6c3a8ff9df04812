/-
# Descent.Proofs.InverseHessian.Dual — BFGS and DFP are inverse to each other

A BFGS correction of a symmetric estimate is inverse to the DFP correction of the inverse
estimate in which the step and the change of the gradient have changed places.

Let `D` be that DFP correction.  It is symmetric and takes the step to the change of the
gradient, so its image of a vector has with the step the product that the vector has with the
change (`dotProduct_dual`).  Where the estimate takes this image (`mulVec_dual`) gives its product
with the change in the product of the estimate (`image_dual`).  These are all the products that a
BFGS correction reads of a vector, and with them it takes the image back
(`bfgs_mulVec_dual`).
-/
import Descent.Proofs.InverseHessian.Correction
import Mathlib.LinearAlgebra.Matrix.NonsingularInverse

namespace Descent.UpdateRule
set_option autoImplicit false

open Matrix

/-! ## A correction of the inverse -/

section
variable {K : Type} [Field K] {n : ℕ} {Q P : Matrix (Fin n) (Fin n) K} {dx dg : Fin n → K}

theorem dotProduct_dual (regular : Regular .dfp P dg dx) (symm : P.IsSymm) (y : Fin n → K) :
    dx ⬝ᵥ corrected .dfp P dg dx *ᵥ y = dg ⬝ᵥ y := by
  rw [← mulVec_dotProduct_of_isSymm (isSymm_corrected .dfp symm),
    corrected_mulVec_self .dfp regular]

/-- What the estimate makes of a vector that its inverse was corrected for. -/
theorem mulVec_dual (inverse : Q * P = 1) (y : Fin n → K) :
    Q *ᵥ corrected .dfp P dg dx *ᵥ y =
      y - ((P *ᵥ dx ⬝ᵥ y) / (dx ⬝ᵥ P *ᵥ dx)) • dx + ((dg ⬝ᵥ y) / (dx ⬝ᵥ dg)) • Q *ᵥ dg := by
  have back (z : Fin n → K) : Q *ᵥ P *ᵥ z = z := by rw [mulVec_mulVec, inverse, one_mulVec]
  rw [corrected_dfp_mulVec]
  simp only [mulVec_add, mulVec_sub, mulVec_smul, back, smul_smul, dotProduct_comm dg dx]
  congr 2 <;> ring_nf

theorem image_dual (symm : Q.IsSymm) (inverse : Q * P = 1) (y : Fin n → K) :
    Q *ᵥ dg ⬝ᵥ corrected .dfp P dg dx *ᵥ y =
      dg ⬝ᵥ y - (P *ᵥ dx ⬝ᵥ y) / (dx ⬝ᵥ P *ᵥ dx) * (dx ⬝ᵥ dg) +
        (dg ⬝ᵥ y) / (dx ⬝ᵥ dg) * (dg ⬝ᵥ Q *ᵥ dg) := by
  rw [mulVec_dotProduct_of_isSymm symm, mulVec_dual inverse]
  simp only [dotProduct_add, dotProduct_sub, dotProduct_smul, smul_eq_mul, dotProduct_comm dg dx]

/-- The BFGS correction undoes the DFP correction of the inverse. -/
theorem bfgs_mulVec_dual (regular : Regular .dfp P dg dx) (symm : Q.IsSymm) (symm' : P.IsSymm)
    (inverse : Q * P = 1) (y : Fin n → K) :
    corrected .bfgs Q dx dg *ᵥ corrected .dfp P dg dx *ᵥ y = y := by
  have slope : dx ⬝ᵥ dg ≠ 0 := dotProduct_comm dg dx ▸ regular.slope
  rw [corrected_bfgs_mulVec, dotProduct_dual regular symm', image_dual symm inverse,
    mulVec_dual inverse]
  ext i
  simp only [Pi.add_apply, Pi.sub_apply, Pi.smul_apply, smul_eq_mul]
  field_simp
  ring

end

/-! ## Corrections of estimates -/

section
variable {K : Type} [Field K] [LinearOrder K] [IsStrictOrderedRing K] {n : ℕ} {rule : UpdateRule}
  {Q : Matrix (Fin n) (Fin n) K} {dx dg : Fin n → K}

/-- A correction that is not skipped is made. -/
theorem update?_vector_of_ne_none
    (made : rule.update? (.matrix Q) (.vector dx) (.vector dg) ≠ .ok none) :
    rule.Regular Q dx dg ∧ rule.update? (.matrix Q) (.vector dx) (.vector dg) =
      .ok (some (.matrix (rule.corrected Q dx dg))) := by
  obtain ⟨-, skipped⟩ | ⟨taken, corrected⟩ := rule.update?_vector Q dx dg
  · exact absurd skipped made
  · exact ⟨regular_of_not_skips taken, corrected⟩

theorem update?_vector_ne_none (made : ¬ rule.Skips Q dx dg) :
    rule.update? (.matrix Q) (.vector dx) (.vector dg) ≠ .ok none := by
  obtain ⟨skips, -⟩ | ⟨-, corrected⟩ := rule.update?_vector Q dx dg
  · exact absurd skips made
  · rw [corrected]
    nofun

/-- **A BFGS correction of a symmetric matrix and a DFP correction of its inverse, in which the step
and the change of the gradient have changed places, are inverse to each other.** -/
theorem bfgs_dual_dfp (symm : Q.IsSymm) (invertible : IsUnit Q)
    (bfgs : UpdateRule.bfgs.update? (.matrix Q) (.vector dx) (.vector dg) ≠ .ok none)
    (dfp : UpdateRule.dfp.update? (.matrix Q⁻¹) (.vector dg) (.vector dx) ≠ .ok none) :
    ∃ B D : Matrix (Fin n) (Fin n) K,
      UpdateRule.bfgs.update? (.matrix Q) (.vector dx) (.vector dg) = .ok (some (.matrix B)) ∧
      UpdateRule.dfp.update? (.matrix Q⁻¹) (.vector dg) (.vector dx) = .ok (some (.matrix D)) ∧
      B * D = 1 := by
  have inverse : Q * Q⁻¹ = 1 := mul_nonsing_inv Q ((isUnit_iff_isUnit_det Q).1 invertible)
  have symm' : Q⁻¹.IsSymm := by
    rw [IsSymm, transpose_nonsing_inv, symm.eq]
  obtain ⟨-, first⟩ := update?_vector_of_ne_none bfgs
  obtain ⟨regular, second⟩ := update?_vector_of_ne_none dfp
  refine ⟨_, _, first, second, ext_iff_mulVec.2 ?_⟩
  intro y
  rw [← mulVec_mulVec, one_mulVec]
  exact bfgs_mulVec_dual regular symm symm' inverse y

end

/-- An exchange of coordinates, which has a negative eigenvalue. -/
theorem bfgs_dual_dfp_exchange :
    ∃ B D : Matrix (Fin 2) (Fin 2) ℚ,
      UpdateRule.bfgs.update? (.matrix !![0, 1; 1, 0]) (.vector ![3, 4]) (.vector ![5, 0]) =
        .ok (some (.matrix B)) ∧
      UpdateRule.dfp.update? (.matrix !![0, 1; 1, 0]⁻¹) (.vector ![5, 0]) (.vector ![3, 4]) =
        .ok (some (.matrix D)) ∧
      B * D = 1 := by
  have involution : (!![0, 1; 1, 0] : Matrix (Fin 2) (Fin 2) ℚ)⁻¹ = !![0, 1; 1, 0] := by
    apply inv_eq_right_inv
    ext i j
    fin_cases i <;> fin_cases j <;> simp
  -- all lengths are five
  have size {a b : ℚ} (five : a * a + b * b = 5 * 5) : norm (stored ![a, b]) = 5 := by
    have product : ![a, b] ⬝ᵥ ![a, b] = 5 * 5 := by simpa using five
    rw [norm_stored, product, exactRoot_mul_self (by norm_num)]
  refine bfgs_dual_dfp ?_ ?_ (update?_vector_ne_none ?_) (update?_vector_ne_none ?_)
  · decide
  · rw [isUnit_iff_isUnit_det, det_fin_two_of]
    norm_num
  · rintro (small | ⟨other, -⟩)
    · rw [size (by norm_num), size (by norm_num)] at small
      norm_num at small
    · cases other
  · rw [involution]
    have image : !![0, 1; 1, 0] *ᵥ ![3, 4] = ![(4 : ℚ), 3] := by
      ext i
      fin_cases i <;> simp
    rintro (small | ⟨-, small⟩)
    · rw [size (by norm_num), size (by norm_num)] at small
      norm_num at small
    · rw [image, size (by norm_num), size (by norm_num)] at small
      norm_num at small

end Descent.UpdateRule
