/-
# Descent.Proofs.Objective.Estimate — estimates without infinite entries

A correction of an estimate divides by a product of vectors only where that is a real
number and does not vanish, and then the vectors are real (`exists_denominator`).  So over
real numbers, where values may be undefined, an estimate that starts at the identity never
gets an infinite entry and keeps its extent, whatever it learns.
-/
import Descent.Proofs.Effects
import Descent.Proofs.InverseHessian.Correction
import Descent.Proofs.Linear.Wide

namespace Descent
set_option autoImplicit false

open Wide

/-- An estimate of an extent without infinite entries. -/
def InverseHessian.Bounded (n : ℕ) (h : InverseHessian Wide) : Prop :=
  h.dim = n ∧ ∃ Q : Mat n n Wide, h.matrix = .ofMat Q ∧ ∀ i j : Fin n, ((Q.get i).get j).Bounded

namespace UpdateRule

variable {n : ℕ} {Q : Mat n n Wide} {x y : Vector Wide n} {rule : UpdateRule}

/-- A product of vectors that is not degenerate is one of real vectors, and not zero. -/
theorem exists_denominator (h : isDegenerate (dot x y) (norm x * norm y) = false) :
    (∃ r, r ≠ 0 ∧ dot x y = real r) ∧ (∀ i : Fin n, (x.get i).IsReal) ∧
      ∀ i : Fin n, (y.get i).IsReal := by
  simp only [isDegenerate, Bool.or_eq_false_iff, Bool.not_eq_false', decide_eq_false_iff_not] at h
  obtain ⟨finite, large⟩ := h
  have product : (dot x y).IsReal := isFinite_iff.1 finite
  have entries := isReal_of_dot product
  refine ⟨?_, fun i => (entries i).1, fun i => (entries i).2⟩
  obtain ⟨v, rfl⟩ := exists_reals fun i => (entries i).1
  obtain ⟨w, rfl⟩ := exists_reals fun i => (entries i).2
  refine ⟨v ⬝ᵥ w, fun zero => large ?_, embeds.dot v w⟩
  have size : 0 ≤ √(v ⬝ᵥ v) * √(w ⬝ᵥ w) := mul_nonneg (Real.sqrt_nonneg _) (Real.sqrt_nonneg _)
  rw [embeds.dot, zero, abs_real, abs_zero, norm_reals, norm_reals, real_mul, ofScientific_eq,
    real_mul, real_le]
  exact mul_nonneg (by norm_num) size

theorem bounded_mulVec (bounded : ∀ i j : Fin n, ((Q.get i).get j).Bounded)
    (vector : ∀ i : Fin n, (y.get i).Bounded) (i : Fin n) : ((Q.mulVec y).get i).Bounded := by
  rw [Mat.get_mulVec]
  exact .dot (bounded i) vector

variable {Q' : Mat n n Wide} (bounded : ∀ i j : Fin n, ((Q.get i).get j).Bounded)
include bounded

theorem bounded_bfgsStep (steep : isFlat x y = false) (corrected : bfgsStep Q x y = .ok Q')
    (i j : Fin n) : ((Q'.get i).get j).Bounded := by
  obtain ⟨⟨r, nonzero, product⟩, step, change⟩ := exists_denominator steep
  have v := bounded_mulVec bounded fun i => (change i).bounded
  obtain ⟨weight, divided, returned⟩ := bind_eq_ok.1 corrected
  cases returned
  rw [product] at divided ⊢
  unfold quotient at divided
  split at divided
  · cases divided
  · cases divided
    have weight : (1 + dot y (Q.mulVec y) / real r).Bounded :=
      (isReal_real 1).bounded.add
        ((Bounded.dot (fun i => (change i).bounded) v).div_real nonzero)
    rw [Mat.get_ofFn]
    refine (bounded i j).sub (.div_real (.sub (.add ?_ ?_) (weight.mul ?_)) nonzero)
    · exact (step i).bounded.mul (v j)
    · exact (v i).mul (step j).bounded
    · exact (step i).bounded.mul (step j).bounded

theorem bounded_dfpStep (steep : isFlat x y = false)
    (curved : isDegenerate (dot y (Q.mulVec y)) (norm y * norm (Q.mulVec y)) = false) (i j : Fin n) :
    (((dfpStep Q x y).get i).get j).Bounded := by
  obtain ⟨⟨r, nonzero, product⟩, step, -⟩ := exists_denominator steep
  obtain ⟨⟨r', nonzero', curvature⟩, -, v⟩ := exists_denominator curved
  rw [dfpStep, product, curvature, Mat.get_ofFn]
  refine ((bounded i j).sub (.div_real ?_ nonzero')).add (.div_real ?_ nonzero)
  · exact (v i).bounded.mul (v j).bounded
  · exact (step i).bounded.mul (step j).bounded

theorem bounded_correct (steep : isFlat x y = false)
    (corrected : rule.correct Q x y = .ok (some Q')) (i j : Fin n) : ((Q'.get i).get j).Bounded := by
  cases rule with
  | bfgs =>
    unfold correct at corrected
    cases stepped : bfgsStep Q x y with
    | error e =>
      rw [stepped] at corrected
      cases corrected
    | ok Q'' =>
      rw [stepped] at corrected
      cases corrected
      exact bounded_bfgsStep bounded steep stepped i j
  | dfp =>
    unfold correct at corrected
    dsimp only at corrected
    split at corrected
    · cases corrected
    · cases corrected
      exact bounded_dfpStep bounded steep (Bool.eq_false_iff.2 ‹_›) i j

/-- What a correction makes of an estimate without infinite entries. -/
theorem bounded_update? {dx dg A : Shaped Wide}
    (updated : rule.update? (.ofMat Q) dx dg = .ok (some A)) :
    ∃ Q' : Mat n n Wide, A = .ofMat Q' ∧ ∀ i j : Fin n, ((Q'.get i).get j).Bounded := by
  obtain ⟨x, y, Q', -, -, corrected, rfl⟩ := update?_eq_some updated
  unfold update at corrected
  split at corrected
  · cases corrected
  · rename_i steep
    exact ⟨Q', rfl, bounded_correct bounded (Bool.eq_false_iff.2 steep) corrected⟩

end UpdateRule

namespace InverseHessian

variable {n : ℕ} {h : InverseHessian Wide}

theorem bounded_start (rule : UpdateRule) (n : ℕ) : (start rule n : InverseHessian Wide).Bounded n := by
  refine ⟨rfl, Mat.identity n, rfl, fun i j => ?_⟩
  rw [Mat.identity, Mat.get_ofFn]
  split
  · exact (isReal_real 1).bounded
  · exact (isReal_real 0).bounded

theorem bounded_reset (bounded : h.Bounded n) : h.reset.Bounded n := by
  obtain ⟨rfl, -⟩ := bounded
  exact bounded_start h.rule h.dim

theorem bounded_update {dx dg A : Shaped Wide} (bounded : h.Bounded n)
    (updated : h.rule.update? h.matrix dx dg = .ok (some A)) :
    InverseHessian.Bounded n { h with matrix := A } := by
  obtain ⟨dim, Q, matrix, entries⟩ := bounded
  rw [matrix] at updated
  exact ⟨dim, UpdateRule.bounded_update? entries updated⟩

end InverseHessian

end Descent
