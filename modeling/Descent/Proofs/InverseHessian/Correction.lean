/-
# Descent.Proofs.InverseHessian.Correction — what a correction does to an estimate

Arrays of the extent of the estimate are corrected with as vectors (`update?_toArray`), and only
these (`update?_eq_some`).  For vectors over a field, as such or among other numbers, a correction is
skipped, or the estimate becomes the matrix `corrected`; it never fails (`update_embed`).  Of this
matrix the rest is derived:

* `isSymm_corrected`: it is symmetric if the estimate is;
* `corrected_mulVec_self`: it takes the change of the gradient to the step;
* `corrected_mulVec_of_orthogonal`: on vectors that are orthogonal to the step and to the image of
  the change it agrees with the estimate;
* `exists_shift`: its quadratic form is that of the estimate at a vector shifted along the change
  of the gradient, and a multiple of a square.
-/
import Descent.InverseHessian
import Descent.Proofs.Linear.Arrays
import Mathlib.LinearAlgebra.Matrix.DotProduct
import Mathlib.LinearAlgebra.Matrix.Symmetric

namespace Descent
set_option autoImplicit false

open Matrix

namespace UpdateRule

section
variable {α : Type} [Scalar α] {n : ℕ} {rule : UpdateRule} {Q : Mat n n α}

theorem update?_toArray (x y : Vector α n) :
    rule.update? (.ofMat Q) (.ofVec x.toArray) (.ofVec y.toArray) =
      (rule.update Q x y).map (·.map .ofMat) := by
  obtain ⟨P, fitted, number⟩ := bind_eq_ok.1 (Shaped.inner_toArray x y)
  rw [update?, fitted, ok_bind, number, ok_bind]
  obtain ⟨x, rfl⟩ := x
  obtain ⟨y, size⟩ := y
  generalize step : (Shaped.ofVec x).flat = x'
  generalize change : (Shaped.ofVec y).flat = y'
  rw [Shaped.flat_ofVec] at step change
  subst step change
  dsimp only
  rw [dif_pos size, Shaped.square?_ofMat, update]
  by_cases flat : isFlat x.toVector ⟨y, size⟩
  · rw [if_pos flat, if_pos flat]
    rfl
  · rw [if_neg flat, if_neg flat]
    dsimp only
    cases rule.correct Q x.toVector ⟨y, size⟩ <;> rfl

/-- A correction that is made has a step and a change of the extent of the estimate. -/
theorem update?_eq_some {dx dg A : Shaped α} (updated : rule.update? (.ofMat Q) dx dg = .ok (some A)) :
    ∃ (x y : Vector α n) (Q' : Mat n n α), dx = .ofVec x.toArray ∧ dg = .ofVec y.toArray ∧
      rule.update Q x y = .ok (some Q') ∧ A = .ofMat Q' := by
  obtain ⟨P, fitted, updated⟩ := bind_eq_ok.1 updated
  obtain ⟨s, number, updated⟩ := bind_eq_ok.1 updated
  have product : dx.inner dg = .ok s := bind_eq_ok.2 ⟨P, fitted, number⟩
  obtain ⟨k, x, y, rfl, rfl, -⟩ := Shaped.inner_eq_ok product
  have step : .ofVec x.toArray = Shaped.ofVec (Shaped.ofVec x.toArray).flat := by
    rw [Shaped.flat_ofVec]
  have change : .ofVec y.toArray = Shaped.ofVec (Shaped.ofVec y.toArray).flat := by
    rw [Shaped.flat_ofVec]
  dsimp only at updated
  split at updated
  · rename_i size
    split at updated
    · cases updated
    · rename_i steep
      split at updated
      · rename_i body square
        obtain ⟨corrected, stepped, returned⟩ := bind_eq_ok.1 updated
        obtain rfl := Shaped.extent_of_square? square
        rw [Shaped.square?_ofMat] at square
        cases square
        cases corrected with
        | none => cases returned
        | some Q' =>
          cases returned
          refine ⟨(Shaped.ofVec x.toArray).flat.toVector, ⟨_, size⟩, Q', step, change, ?_, rfl⟩
          rw [update, if_neg steep]
          exact stepped
      · cases updated
  · cases updated

end

/-! ## Corrections as matrices -/

section
variable {K : Type} [Field K] {n : ℕ} (rule : UpdateRule) (Q : Matrix (Fin n) (Fin n) K)
  (dx dg : Fin n → K)

/-- The matrix that a correction makes of an estimate. -/
def corrected : Matrix (Fin n) (Fin n) K :=
  let s := dx ⬝ᵥ dg
  let v := Q *ᵥ dg
  match rule with
  | .bfgs => Q - s⁻¹ • (vecMulVec dx v + vecMulVec v dx - (1 + dg ⬝ᵥ v / s) • vecMulVec dx dx)
  | .dfp => Q - (dg ⬝ᵥ v)⁻¹ • vecMulVec v v + s⁻¹ • vecMulVec dx dx

theorem corrected_bfgs_mulVec (y : Fin n → K) :
    corrected .bfgs Q dx dg *ᵥ y = Q *ᵥ y - (dx ⬝ᵥ dg)⁻¹ • ((Q *ᵥ dg ⬝ᵥ y) • dx +
      (dx ⬝ᵥ y) • (Q *ᵥ dg) - (1 + dg ⬝ᵥ Q *ᵥ dg / (dx ⬝ᵥ dg)) • (dx ⬝ᵥ y) • dx) := by
  simp [corrected, sub_mulVec, add_mulVec, smul_mulVec, vecMulVec_mulVec]

theorem corrected_dfp_mulVec (y : Fin n → K) :
    corrected .dfp Q dx dg *ᵥ y = Q *ᵥ y - (dg ⬝ᵥ Q *ᵥ dg)⁻¹ • (Q *ᵥ dg ⬝ᵥ y) • (Q *ᵥ dg) +
      (dx ⬝ᵥ dg)⁻¹ • (dx ⬝ᵥ y) • dx := by
  simp [corrected, sub_mulVec, add_mulVec, smul_mulVec, vecMulVec_mulVec]

variable {Q dx dg}

theorem isSymm_corrected (symm : Q.IsSymm) : (rule.corrected Q dx dg).IsSymm := by
  cases rule with
  | bfgs =>
    simp only [corrected, IsSymm, transpose_sub, transpose_smul, transpose_add,
      transpose_vecMulVec, symm.eq, add_comm]
  | dfp =>
    simp only [corrected, IsSymm, transpose_sub, transpose_smul, transpose_add,
      transpose_vecMulVec, symm.eq]

/-- The denominators of a correction do not vanish. -/
structure Regular (rule : UpdateRule) (Q : Matrix (Fin n) (Fin n) K) (dx dg : Fin n → K) :
    Prop where
  slope : dx ⬝ᵥ dg ≠ 0
  curvature : rule = .dfp → dg ⬝ᵥ Q *ᵥ dg ≠ 0

/-- The corrected matrix takes the change of the gradient to the step. -/
theorem corrected_mulVec_self (regular : rule.Regular Q dx dg) :
    rule.corrected Q dx dg *ᵥ dg = dx := by
  have slope := regular.slope
  cases rule with
  | bfgs =>
    rw [corrected_bfgs_mulVec]
    ext i
    simp only [Pi.sub_apply, Pi.add_apply, Pi.smul_apply, smul_eq_mul, dotProduct_comm (Q *ᵥ dg) dg]
    field_simp
    ring
  | dfp =>
    have curvature := regular.curvature rfl
    rw [corrected_dfp_mulVec]
    ext i
    simp only [Pi.sub_apply, Pi.add_apply, Pi.smul_apply, smul_eq_mul, dotProduct_comm (Q *ᵥ dg) dg]
    field_simp
    ring

/-- On what is orthogonal to the step and to the image of the change a correction changes nothing. -/
theorem corrected_mulVec_of_orthogonal {y : Fin n → K} (step : dx ⬝ᵥ y = 0)
    (image : Q *ᵥ dg ⬝ᵥ y = 0) : rule.corrected Q dx dg *ᵥ y = Q *ᵥ y := by
  cases rule with
  | bfgs => simp [corrected_bfgs_mulVec, step, image]
  | dfp => simp [corrected_dfp_mulVec, step, image]

theorem mulVec_dotProduct_of_isSymm (symm : Q.IsSymm) (x y : Fin n → K) :
    Q *ᵥ x ⬝ᵥ y = x ⬝ᵥ Q *ᵥ y := by
  rw [dotProduct_mulVec, ← mulVec_transpose, symm.eq]

theorem quadratic_shifted (symm : Q.IsSymm) (x : Fin n → K) (t : K) :
    (x - t • dg) ⬝ᵥ Q *ᵥ (x - t • dg) =
      x ⬝ᵥ Q *ᵥ x - 2 * t * (Q *ᵥ dg ⬝ᵥ x) + t ^ 2 * (dg ⬝ᵥ Q *ᵥ dg) := by
  simp only [mulVec_sub, mulVec_smul, dotProduct_sub, sub_dotProduct, dotProduct_smul,
    smul_dotProduct, smul_eq_mul, ← mulVec_dotProduct_of_isSymm symm dg x,
    dotProduct_comm x (Q *ᵥ dg)]
  ring

/-- The quadratic form of the corrected matrix is that of the estimate at a vector shifted along the
change of the gradient, and a multiple of a square. For BFGS the shift makes the vector orthogonal to
the step, for DFP to the change in the product of the estimate. -/
theorem exists_shift (symm : Q.IsSymm) (regular : rule.Regular Q dx dg) (x : Fin n → K) :
    ∃ t : K, x ⬝ᵥ rule.corrected Q dx dg *ᵥ x =
      (x - t • dg) ⬝ᵥ Q *ᵥ (x - t • dg) + (dx ⬝ᵥ x) ^ 2 / (dx ⬝ᵥ dg) := by
  have slope := regular.slope
  cases rule with
  | bfgs =>
    refine ⟨(dx ⬝ᵥ x) / (dx ⬝ᵥ dg), ?_⟩
    rw [quadratic_shifted symm, corrected_bfgs_mulVec]
    simp only [dotProduct_sub, dotProduct_add, dotProduct_smul, smul_eq_mul, dotProduct_comm x dx,
      dotProduct_comm x (Q *ᵥ dg)]
    field_simp
    ring
  | dfp =>
    have curvature := regular.curvature rfl
    refine ⟨(Q *ᵥ dg ⬝ᵥ x) / (dg ⬝ᵥ Q *ᵥ dg), ?_⟩
    rw [quadratic_shifted symm, corrected_dfp_mulVec]
    simp only [dotProduct_sub, dotProduct_add, dotProduct_smul, smul_eq_mul, dotProduct_comm x dx,
      dotProduct_comm x (Q *ᵥ dg)]
    field_simp
    ring

end

/-! ## Exact corrections -/

section
variable {K : Type} [Field K] [LinearOrder K] {n : ℕ} (rule : UpdateRule)
  (Q : Matrix (Fin n) (Fin n) K) (dx dg : Fin n → K)

/-- A denominator of a correction is too small for the lengths of its factors. -/
def Skips : Prop :=
  |dx ⬝ᵥ dg| ≤ 1e-12 * (norm (stored dx) * norm (stored dg)) ∨
    rule = .dfp ∧ |dg ⬝ᵥ Q *ᵥ dg| ≤ 1e-12 * (norm (stored dg) * norm (stored (Q *ᵥ dg)))

theorem isDegenerate_exact (value size : K) :
    isDegenerate value size = decide (|value| ≤ 1e-12 * size) := by
  simp [isDegenerate]

variable {rule Q dx dg}

section
variable [IsStrictOrderedRing K]

/-- What is not too small for lengths does not vanish. -/
theorem ne_zero_of_large {value : K} {v w : Fin n → K}
    (large : ¬ |value| ≤ 1e-12 * (norm (stored v) * norm (stored w))) : value ≠ 0 := by
  rintro rfl
  have size : 0 ≤ norm (stored v) * norm (stored w) :=
    mul_nonneg (norm_stored_nonneg v) (norm_stored_nonneg w)
  have tolerance : (0 : K) ≤ 1e-12 := by norm_num
  apply large
  rw [abs_zero]
  exact mul_nonneg tolerance size

theorem regular_of_not_skips (made : ¬ rule.Skips Q dx dg) : rule.Regular Q dx dg where
  slope := ne_zero_of_large fun small => made (.inl small)
  curvature same := ne_zero_of_large fun small => made (.inr ⟨same, small⟩)

end

/-- Numbers that contain those of a field and find the same products of vectors degenerate. -/
structure Judges {α : Type} [Scalar α] (φ : K → α) : Prop extends Embeds φ where
  degenerate {n : ℕ} (value : K) (v w : Fin n → K) :
    isDegenerate (φ value) (norm (embed φ v) * norm (embed φ w)) =
      decide (|value| ≤ 1e-12 * (norm (stored v) * norm (stored w)))

theorem Judges.refl : Judges (id : K → K) where
  toEmbeds := .refl
  degenerate _ _ _ := isDegenerate_exact _ _

section
variable {α : Type} [Scalar α] {φ : K → α} (e : Judges φ)
include e

theorem bfgsStep_embed (slope : dx ⬝ᵥ dg ≠ 0) :
    bfgsStep (embedMat φ Q) (embed φ dx) (embed φ dg) =
      .ok (embedMat φ (corrected .bfgs Q dx dg)) := by
  rw [bfgsStep, e.dot, e.mulVec, e.dot, e.quotient _ slope, ok_bind]
  refine congrArg Except.ok (eq_embedMat fun i j => ?_)
  rw [Mat.get_ofFn]
  simp only [get_embed, get_embedMat, e.one, e.mul, e.add, e.sub, e.div _ slope]
  simp [corrected, vecMulVec_apply, div_eq_inv_mul]

theorem dfpStep_embed (regular : Regular .dfp Q dx dg) :
    dfpStep (embedMat φ Q) (embed φ dx) (embed φ dg) = embedMat φ (corrected .dfp Q dx dg) := by
  refine eq_embedMat fun i j => ?_
  rw [dfpStep, e.dot, e.mulVec, e.dot, Mat.get_ofFn]
  simp only [get_embed, get_embedMat, e.mul, e.add, e.sub, e.div _ regular.slope,
    e.div _ (regular.curvature rfl)]
  simp [corrected, vecMulVec_apply, div_eq_inv_mul]

variable [IsStrictOrderedRing K] (rule Q dx dg)

/-- A correction by vectors over a field is skipped or made, and never fails. -/
theorem update_embed :
    rule.Skips Q dx dg ∧ rule.update (embedMat φ Q) (embed φ dx) (embed φ dg) = .ok none ∨
      ¬ rule.Skips Q dx dg ∧ rule.update (embedMat φ Q) (embed φ dx) (embed φ dg) =
        .ok (some (embedMat φ (rule.corrected Q dx dg))) := by
  by_cases flat : |dx ⬝ᵥ dg| ≤ 1e-12 * (norm (stored dx) * norm (stored dg))
  · left
    refine ⟨.inl flat, ?_⟩
    rw [update, isFlat, e.dot, e.degenerate, decide_eq_true flat, if_pos rfl]
  · have steep : isFlat (embed φ dx) (embed φ dg) = false := by
      rw [isFlat, e.dot, e.degenerate, decide_eq_false flat]
    rw [update, steep, if_neg Bool.false_ne_true]
    cases rule with
    | bfgs =>
      right
      have made : ¬ Skips .bfgs Q dx dg := by
        rintro (small | ⟨other, -⟩)
        · exact flat small
        · cases other
      refine ⟨made, ?_⟩
      rw [correct, bfgsStep_embed e (regular_of_not_skips made).slope]
      rfl
    | dfp =>
      rw [correct, e.mulVec, e.dot, e.degenerate]
      by_cases level : |dg ⬝ᵥ Q *ᵥ dg| ≤ 1e-12 * (norm (stored dg) * norm (stored (Q *ᵥ dg)))
      · left
        refine ⟨.inr ⟨rfl, level⟩, ?_⟩
        rw [decide_eq_true level]
        rfl
      · right
        have made : ¬ Skips .dfp Q dx dg := by
          rintro (small | ⟨-, small⟩)
          · exact flat small
          · exact level small
        refine ⟨made, ?_⟩
        rw [decide_eq_false level, dfpStep_embed e (regular_of_not_skips made)]
        rfl

end

variable [IsStrictOrderedRing K] (rule Q dx dg)

/-- Over exact numbers a correction is skipped or made, and never fails. -/
theorem update_stored :
    rule.Skips Q dx dg ∧ rule.update (storedMat Q) (stored dx) (stored dg) = .ok none ∨
      ¬ rule.Skips Q dx dg ∧ rule.update (storedMat Q) (stored dx) (stored dg) =
        .ok (some (storedMat (rule.corrected Q dx dg))) :=
  update_embed rule Q dx dg .refl

theorem update?_vector :
    rule.Skips Q dx dg ∧ rule.update? (.matrix Q) (.vector dx) (.vector dg) = .ok none ∨
      ¬ rule.Skips Q dx dg ∧ rule.update? (.matrix Q) (.vector dx) (.vector dg) =
        .ok (some (.matrix (rule.corrected Q dx dg))) := by
  obtain ⟨skips, skipped⟩ | ⟨made, corrected⟩ := rule.update_stored Q dx dg
  · left
    refine ⟨skips, ?_⟩
    rw [update?_toArray, skipped]
    rfl
  · right
    refine ⟨made, ?_⟩
    rw [update?_toArray, corrected]
    rfl

end

end UpdateRule

end Descent
