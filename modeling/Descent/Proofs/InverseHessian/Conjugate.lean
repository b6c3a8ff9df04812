/-
# Descent.Proofs.InverseHessian.Conjugate — corrections along conjugate steps

Along steps that are conjugate for a symmetric matrix `A` the gradient of a quadratic
function changes by `A dx`.  A correction for one step then leaves alone what the estimate
makes of the changes along the steps before (`learnt_next`), so that no secant equation is
ever lost.  As many steps as there are dimensions span everything, and the estimate is the
inverse of `A` (`estimates_terminate`).
-/
import Descent.Proofs.InverseHessian.Correction
import Mathlib.LinearAlgebra.Matrix.NonsingularInverse

namespace Descent
set_option autoImplicit false

open Matrix

/-- A matrix that fixes as many conjugate vectors as there are dimensions is the identity. -/
theorem eq_one_of_conjugate {K : Type} [Field K] {n : ℕ} {A M : Matrix (Fin n) (Fin n) K}
    {x : Fin n → Fin n → K} (curved : ∀ i, x i ⬝ᵥ A *ᵥ x i ≠ 0)
    (conjugate : ∀ i j, i ≠ j → x i ⬝ᵥ A *ᵥ x j = 0) (fixed : ∀ i, M *ᵥ x i = x i) : M = 1 := by
  have gram : of x * (A * (of x)ᵀ) = diagonal fun i => x i ⬝ᵥ A *ᵥ x i := by
    ext i j
    have entry : (of x * (A * (of x)ᵀ)) i j = x i ⬝ᵥ A *ᵥ x j := rfl
    by_cases same : i = j
    · subst same
      rw [entry, diagonal_apply_eq]
    · rw [entry, conjugate i j same, diagonal_apply_ne _ same]
  have volume : (of x).det ≠ 0 := by
    have product : (of x * (A * (of x)ᵀ)).det ≠ 0 := by
      rw [gram, det_diagonal]
      exact Finset.prod_ne_zero_iff.2 fun i _ => curved i
    rw [det_mul] at product
    exact left_ne_zero_of_mul product
  have spans : IsUnit ((of x)ᵀ).det := by
    rw [det_transpose]
    exact volume.isUnit
  have columns : M * (of x)ᵀ = (of x)ᵀ := by
    ext i j
    exact congrFun (fixed j) i
  calc M = M * (of x)ᵀ * ((of x)ᵀ)⁻¹ := (mul_nonsing_inv_cancel_right _ _ spans).symm
    _ = (of x)ᵀ * ((of x)ᵀ)⁻¹ := by rw [columns]
    _ = 1 := mul_nonsing_inv _ spans

namespace UpdateRule

section
variable {α : Type} [Scalar α] (rule : UpdateRule) (n : ℕ) (dx dg : ℕ → Shaped α)

/-- The estimate after the first so many steps and changes of the gradient, from the identity on. One that
is skipped leaves it as it is. -/
def estimates : ℕ → Except (Fault α) (Shaped α)
  | 0 => .ok (.ofMat (Mat.identity n))
  | k + 1 => do
    let Q ← estimates k
    return (← rule.update? Q (dx k) (dg k)).getD Q

/-- No correction is skipped along the first so many steps. -/
def NoneSkipped (k : ℕ) : Prop :=
  ∀ i < k, ∀ Q, rule.estimates n dx dg i = .ok Q → rule.update? Q (dx i) (dg i) ≠ .ok none

end

section
variable {K : Type} [Field K] {n : ℕ} {rule : UpdateRule} {A Q : Matrix (Fin n) (Fin n) K}
  {dx : ℕ → Fin n → K} {k : ℕ}

/-- A symmetric estimate that satisfies the first so many secant equations. -/
structure Learnt (A : Matrix (Fin n) (Fin n) K) (dx : ℕ → Fin n → K) (k : ℕ)
    (Q : Matrix (Fin n) (Fin n) K) : Prop where
  symm : Q.IsSymm
  secant : ∀ i < k, Q *ᵥ (A *ᵥ dx i) = dx i

theorem learnt_one : Learnt A dx 0 1 where
  symm := isSymm_one
  secant i early := absurd early (Nat.not_lt_zero i)

/-- A correction for a step that is conjugate to those before keeps their secant equations and adds its
own. -/
theorem learnt_next (symm : A.IsSymm) (learnt : Learnt A dx k Q)
    (conjugate : ∀ i < k, dx k ⬝ᵥ A *ᵥ dx i = 0) (regular : rule.Regular Q (dx k) (A *ᵥ dx k)) :
    Learnt A dx (k + 1) (rule.corrected Q (dx k) (A *ᵥ dx k)) where
  symm := rule.isSymm_corrected learnt.symm
  secant i early := by
    obtain before | rfl := Nat.lt_succ_iff_lt_or_eq.1 early
    · have image : Q *ᵥ (A *ᵥ dx k) ⬝ᵥ A *ᵥ dx i = 0 := by
        calc Q *ᵥ (A *ᵥ dx k) ⬝ᵥ A *ᵥ dx i = (A *ᵥ dx k) ⬝ᵥ Q *ᵥ (A *ᵥ dx i) :=
              mulVec_dotProduct_of_isSymm learnt.symm _ _
          _ = (A *ᵥ dx k) ⬝ᵥ dx i := by rw [learnt.secant i before]
          _ = dx k ⬝ᵥ A *ᵥ dx i := mulVec_dotProduct_of_isSymm symm _ _
          _ = 0 := conjugate i before
      rw [rule.corrected_mulVec_of_orthogonal (conjugate i before) image]
      exact learnt.secant i before
    · exact rule.corrected_mulVec_self regular

variable [LinearOrder K]

theorem estimates_zero (rule : UpdateRule) (dx dg : ℕ → Shaped K) :
    rule.estimates n dx dg 0 = .ok (.matrix (1 : Matrix (Fin n) (Fin n) K)) := by
  rw [estimates, identity_stored]

variable [IsStrictOrderedRing K]

/-- Over exact numbers there is an estimate after every number of steps. -/
theorem exists_estimates (rule : UpdateRule) (dx dg : ℕ → Fin n → K) (k : ℕ) :
    ∃ Q : Matrix (Fin n) (Fin n) K,
      rule.estimates n (fun i => .vector (dx i)) (fun i => .vector (dg i)) k =
        .ok (.matrix Q) := by
  induction k with
  | zero => exact ⟨1, estimates_zero rule _ _⟩
  | succ k ih =>
    obtain ⟨Q, reached⟩ := ih
    rw [estimates, reached, ok_bind]
    obtain ⟨-, skipped⟩ | ⟨-, corrected⟩ := rule.update?_vector Q (dx k) (dg k)
    · rw [skipped]
      exact ⟨Q, rfl⟩
    · rw [corrected]
      exact ⟨rule.corrected Q (dx k) (dg k), rfl⟩

/-- What holds of the identity and is kept by every correction that is made holds of the estimate after
every number of steps. -/
theorem estimates_learnt (rule : UpdateRule) (symm : A.IsSymm)
    (conjugate : ∀ i < k, ∀ j < k, i ≠ j → dx i ⬝ᵥ A *ᵥ dx j = 0)
    (made : rule.NoneSkipped n (fun i => .vector (dx i)) (fun i => .vector (A *ᵥ dx i)) k) :
    ∃ Q, rule.estimates n (fun i => .vector (dx i)) (fun i => .vector (A *ᵥ dx i)) k =
        .ok (.matrix Q) ∧ Learnt A dx k Q := by
  induction k with
  | zero => exact ⟨1, estimates_zero rule _ _, learnt_one⟩
  | succ k ih =>
    obtain ⟨Q, reached, learnt⟩ := ih
      (fun i hi j hj => conjugate i (Nat.lt_succ_of_lt hi) j (Nat.lt_succ_of_lt hj))
      fun i hi => made i (Nat.lt_succ_of_lt hi)
    have last : ∀ i < k, dx k ⬝ᵥ A *ᵥ dx i = 0 := fun i early =>
      conjugate k (Nat.lt_succ_self k) i (Nat.lt_succ_of_lt early) (Nat.ne_of_gt early)
    obtain ⟨-, skipped⟩ | ⟨taken, corrected⟩ := rule.update?_vector Q (dx k) (A *ᵥ dx k)
    · exact absurd skipped (made k (Nat.lt_succ_self k) _ reached)
    · refine ⟨_, ?_, learnt_next symm learnt last (regular_of_not_skips taken)⟩
      rw [estimates, reached, ok_bind, corrected, ok_bind]
      rfl

/-- **Along conjugate steps every secant equation that was learnt still holds, and after as many steps
as there are dimensions the estimate is the inverse of the matrix.** -/
theorem estimates_terminate (rule : UpdateRule) (dx : ℕ → Fin n → K) (symm : A.IsSymm)
    (positive : ∀ x ≠ 0, 0 < x ⬝ᵥ A *ᵥ x) (nonzero : ∀ i < n, dx i ≠ 0)
    (conjugate : ∀ i < n, ∀ j < n, i ≠ j → dx i ⬝ᵥ A *ᵥ dx j = 0)
    (made : rule.NoneSkipped n (fun i => .vector (dx i)) (fun i => .vector (A *ᵥ dx i)) n) :
    (∀ k ≤ n, ∃ Q : Matrix (Fin n) (Fin n) K,
      rule.estimates n (fun i => .vector (dx i)) (fun i => .vector (A *ᵥ dx i)) k =
        .ok (.matrix Q) ∧ ∀ i < k, Q *ᵥ (A *ᵥ dx i) = dx i) ∧
    rule.estimates n (fun i => .vector (dx i)) (fun i => .vector (A *ᵥ dx i)) n =
      .ok (.matrix A⁻¹) := by
  refine ⟨fun k few => ?_, ?_⟩
  · obtain ⟨Q, reached, learnt⟩ := estimates_learnt (k := k) rule symm
      (fun i hi j hj => conjugate i (hi.trans_le few) j (hj.trans_le few))
      fun i hi => made i (hi.trans_le few)
    exact ⟨Q, reached, learnt.secant⟩
  · obtain ⟨Q, reached, learnt⟩ := estimates_learnt rule symm conjugate made
    have curved (i : Fin n) : dx i ⬝ᵥ A *ᵥ dx i ≠ 0 := ne_of_gt (positive _ (nonzero i i.isLt))
    have inverse : Q * A = 1 := by
      refine eq_one_of_conjugate (x := fun i => dx i) curved (fun i j other => ?_) fun i => ?_
      · exact conjugate i i.isLt j j.isLt fun same => other (Fin.ext same)
      · rw [← mulVec_mulVec]
        exact learnt.secant i i.isLt
    rw [reached, inv_eq_left_inv inverse]

/-- Along two axes, with the curvature one and two. -/
theorem estimates_terminate_of_axes :
    bfgs.estimates 2 (fun i => .vector (if i = 0 then ![(1 : ℚ), 0] else ![0, 1]))
      (fun i => .vector (diagonal ![1, 2] *ᵥ if i = 0 then ![1, 0] else ![0, 1])) 2 =
        .ok (.matrix (diagonal ![1, 2])⁻¹) := by
  have first : diagonal ![(1 : ℚ), 2] *ᵥ ![1, 0] = ![1, 0] := by
    ext i
    fin_cases i <;> simp [mulVec_diagonal]
  have second : diagonal ![(1 : ℚ), 2] *ᵥ ![0, 1] = ![0, 2] := by
    ext i
    fin_cases i <;> simp [mulVec_diagonal]
  have length (y : ℚ) (nonneg : 0 ≤ y) : norm (stored ![y, 0]) = y ∧ norm (stored ![0, y]) = y := by
    rw [norm_stored, norm_stored]
    simp [exactRoot_mul_self nonneg]
  refine (estimates_terminate bfgs (fun i => if i = 0 then ![(1 : ℚ), 0] else ![0, 1])
    (isSymm_diagonal ![1, 2]) ?_ ?_ ?_ ?_).2
  · intro x nonzero
    have form : x ⬝ᵥ diagonal ![1, 2] *ᵥ x = x 0 ^ 2 + 2 * x 1 ^ 2 := by
      simp [dotProduct, mulVec_diagonal, Fin.sum_univ_two]
      ring
    rw [form]
    by_contra small
    have left : x 0 = 0 := by nlinarith [sq_nonneg (x 0), sq_nonneg (x 1)]
    have right : x 1 = 0 := by nlinarith [sq_nonneg (x 0), sq_nonneg (x 1)]
    exact nonzero (funext fun i => by fin_cases i <;> assumption)
  · intro i _
    split <;> simp
  · intro i hi j hj other
    interval_cases i <;> interval_cases j <;> simp_all
  · intro i hi A reached skipped
    obtain ⟨Q, estimate⟩ := exists_estimates bfgs
      (fun i => if i = 0 then ![(1 : ℚ), 0] else ![0, 1])
      (fun i => diagonal ![1, 2] *ᵥ if i = 0 then ![1, 0] else ![0, 1]) i
    cases reached.symm.trans estimate
    obtain ⟨small | ⟨other, -⟩, -⟩ | ⟨-, corrected⟩ := update?_vector bfgs Q
      (if i = 0 then ![(1 : ℚ), 0] else ![0, 1])
      (diagonal ![1, 2] *ᵥ if i = 0 then ![1, 0] else ![0, 1])
    · interval_cases i
      · simp [first, (length 1 zero_le_one).1] at small
        norm_num at small
      · simp [second, (length 1 zero_le_one).2, (length 2 zero_le_two).2] at small
        norm_num at small
    · cases other
    · rw [corrected] at skipped
      cases skipped

end

end UpdateRule

end Descent
