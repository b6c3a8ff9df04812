/-
# Descent.Proofs.InverseHessian.Definite — estimates stay positive definite

Over the reals an estimate that is symmetric positive definite stays so under every correction with a
step along which the gradient does not fall (`posDef_corrected`).  A correction that is skipped or
fails leaves it as it is.  So whatever an estimate is asked from its start on, it is symmetric
positive definite, and its directions lead down the gradients they are made of
(`direction_descends`).
-/
import Descent.Proofs.InverseHessian.Correction
import Mathlib.Analysis.Matrix.PosDef
import Mathlib.Algebra.Order.Star.Real

namespace Descent
set_option autoImplicit false

open Matrix

/-! ## One correction -/

namespace UpdateRule

variable {n : ℕ} {rule : UpdateRule} {Q : Matrix (Fin n) (Fin n) ℝ} {dx dg : Fin n → ℝ}

/-- Where the shift of `exists_shift` leaves nothing of a vector, it is a multiple of the change of the
gradient, and the square does not vanish. -/
theorem posDef_corrected (definite : Q.PosDef) (rises : 0 < dx ⬝ᵥ dg)
    (regular : rule.Regular Q dx dg) : (rule.corrected Q dx dg).PosDef := by
  have symm : Q.IsSymm := isHermitian_iff_isSymm.1 definite.isHermitian
  have hermitian : (rule.corrected Q dx dg).IsHermitian :=
    isHermitian_iff_isSymm.2 (rule.isSymm_corrected symm)
  refine .of_dotProduct_mulVec_pos hermitian fun x nonzero => ?_
  obtain ⟨t, form⟩ := rule.exists_shift symm regular x
  rw [star_trivial, form]
  by_cases rest : x - t • dg = 0
  · have along : x = t • dg := sub_eq_zero.1 rest
    have shifted : t ≠ 0 := by
      rintro rfl
      exact nonzero (along.trans (zero_smul ℝ dg))
    have product : dx ⬝ᵥ x = t * (dx ⬝ᵥ dg) := by rw [along, dotProduct_smul, smul_eq_mul]
    rw [rest, zero_dotProduct, zero_add, product]
    positivity
  · have old : 0 < (x - t • dg) ⬝ᵥ Q *ᵥ (x - t • dg) := definite.dotProduct_mulVec_pos rest
    have square : 0 ≤ (dx ⬝ᵥ x) ^ 2 / (dx ⬝ᵥ dg) := by positivity
    exact add_pos_of_pos_of_nonneg old square

end UpdateRule

/-! ## A run -/

namespace InverseHessian

/-- What changes an estimate. -/
inductive Call (α : Type) where
  | reset
  | update (dx dg : Shaped α)

section
variable {α : Type} [Scalar α]

/-- The estimate after a call. One that fails leaves it as it was. -/
def after (h : InverseHessian α) : Call α → InverseHessian α
  | .reset => h.reset
  | .update dx dg =>
    match (h.learn dx dg : Except (Fault α) (InverseHessian α × Bool)) with
    | .ok (learned, _) => learned
    | .error _ => h

/-- An update is made with a step along which the gradient does not fall. -/
def Call.Rises : Call α → Prop
  | .reset => True
  | .update dx dg => ∀ s, dx.inner dg = .ok s → 0 ≤ s

/-- What is known of an estimate that learns, if it holds of the estimate itself and of each one with a
corrected matrix. -/
theorem after_update {P : InverseHessian α → Prop} {h : InverseHessian α} {dx dg : Shaped α}
    (kept : P h)
    (corrected : ∀ A, h.rule.update? h.matrix dx dg = .ok (some A) → P { h with matrix := A }) :
    P (h.after (.update dx dg)) := by
  rw [after, learn]
  cases updated : h.rule.update? h.matrix dx dg with
  | error e => exact kept
  | ok result =>
    cases result with
    | none => exact kept
    | some A => exact corrected A updated

end

/-- An estimate of an extent whose matrix is symmetric positive definite. -/
def Definite (n : ℕ) (h : InverseHessian ℝ) : Prop :=
  h.dim = n ∧ ∃ Q : Matrix (Fin n) (Fin n) ℝ, h.matrix = .matrix Q ∧ Q.PosDef

variable {n : ℕ} {h : InverseHessian ℝ}

theorem definite_start (rule : UpdateRule) (n : ℕ) : Definite n (start rule n) :=
  ⟨rfl, 1, congrArg Shaped.ofMat identity_stored, PosDef.one⟩

theorem definite_after {call : Call ℝ} (definite : h.Definite n) (rises : call.Rises) :
    (h.after call).Definite n := by
  cases call with
  | reset =>
    obtain ⟨rfl, -⟩ := definite
    exact definite_start h.rule h.dim
  | update dx dg =>
    refine after_update definite fun A updated => ?_
    obtain ⟨dim, Q, matrix, positive⟩ := definite
    rw [matrix] at updated
    obtain ⟨x, y, Q', rfl, rfl, corrected, rfl⟩ := UpdateRule.update?_eq_some updated
    obtain ⟨x, rfl⟩ := exists_stored x
    obtain ⟨y, rfl⟩ := exists_stored y
    have product : 0 ≤ x ⬝ᵥ y := rises _ (Shaped.inner_vector x y)
    obtain ⟨-, skipped⟩ | ⟨taken, stepped⟩ := h.rule.update_stored Q x y
    · rw [skipped] at corrected
      cases corrected
    · rw [stepped] at corrected
      cases corrected
      have regular := UpdateRule.regular_of_not_skips taken
      have rises : 0 < x ⬝ᵥ y := lt_of_le_of_ne product (Ne.symm regular.slope)
      exact ⟨dim, _, rfl, UpdateRule.posDef_corrected positive rises regular⟩

theorem definite_calls {calls : List (Call ℝ)} (definite : h.Definite n)
    (rises : ∀ call ∈ calls, call.Rises) : (calls.foldl after h).Definite n := by
  induction calls generalizing h with
  | nil => exact definite
  | cons call calls ih =>
    rw [List.forall_mem_cons] at rises
    exact ih (definite_after definite rises.1) rises.2

/-- **Whatever resets and updates along rising gradients an estimate has seen, its matrix is symmetric
positive definite, and every direction leads down its gradient.** -/
theorem direction_descends (rule : UpdateRule) (n : ℕ) (calls : List (Call ℝ))
    (rises : ∀ call ∈ calls, call.Rises) :
    ∃ Q : Matrix (Fin n) (Fin n) ℝ,
      (calls.foldl after (start rule n)).matrix = .matrix Q ∧ Q.IsSymm ∧ Q.PosDef ∧
      ∀ g : Fin n → ℝ, g ≠ 0 → ∃ d s,
        (calls.foldl after (start rule n)).direction (.vector g) = .ok d ∧
        d.inner (.vector g) = .ok s ∧ s < 0 := by
  obtain ⟨-, Q, matrix, definite⟩ := definite_calls (definite_start rule n) rises
  have symm : Q.IsSymm := isHermitian_iff_isSymm.1 definite.isHermitian
  refine ⟨Q, matrix, symm, definite, fun g nonzero => ?_⟩
  have curvature : 0 < g ⬝ᵥ Q *ᵥ g := definite.dotProduct_mulVec_pos nonzero
  have slope : -(Q *ᵥ g) ⬝ᵥ g < 0 := by
    rw [neg_dotProduct, dotProduct_comm]
    exact neg_lt_zero.2 curvature
  refine ⟨.vector (-(Q *ᵥ g)), -(Q *ᵥ g) ⬝ᵥ g, ?_, Shaped.inner_vector _ g, slope⟩
  rw [direction, matrix, Shaped.product?_vector, ← Shaped.neg_vector]
  rfl

theorem Call.rises_update {x y : Fin n → ℝ} (product : 0 ≤ x ⬝ᵥ y) :
    Call.Rises (.update (.vector x) (.vector y)) := by
  intro s inner
  rw [Shaped.inner_vector] at inner
  cases inner
  exact product

/-- A step along which the gradient rises, a flat one, a start over, and another step. -/
theorem direction_descends_of_steps :
    ∃ d s, ([.update (.vector ![(1 : ℝ), 0]) (.vector ![2, 1]),
        .update (.vector ![1, 0]) (.vector ![0, 1]), .reset,
        .update (.vector ![0, 3]) (.vector ![-1, 1])].foldl after (start .dfp 2)).direction
          (.vector ![1, -1]) = .ok d ∧
      d.inner (.vector ![1, -1]) = .ok s ∧ s < 0 := by
  obtain ⟨-, -, -, -, descends⟩ := direction_descends .dfp 2
    [.update (.vector ![1, 0]) (.vector ![2, 1]), .update (.vector ![1, 0]) (.vector ![0, 1]),
      .reset, .update (.vector ![0, 3]) (.vector ![-1, 1])] (by
    simp only [List.forall_mem_cons]
    refine ⟨Call.rises_update ?_, Call.rises_update ?_, trivial, Call.rises_update ?_, ?_⟩ <;> simp)
  exact descends ![1, -1] (by simp)

end InverseHessian

end Descent
