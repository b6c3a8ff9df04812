/-
# Descent.Proofs.InverseHessian.Secant — corrections satisfy the secant equation

A corrected estimate takes the change of the gradient to the step, whether or not the
estimate was symmetric, and a correction is skipped where one of its denominators is
negligible against the lengths of the vectors that it is made of (`skips_iff`).

Where values may be undefined the vectors need not be real.  But a correction that was made
has divided by a real number, so its step and its change were real.  An estimate with real
entries keeps them, and afterwards it satisfies the secant equation (`secant_of_update?`).
-/
import Descent.Proofs.InverseHessian.Symmetry
import Descent.Proofs.Linear.Length
import Descent.Proofs.Objective.Estimate

namespace Descent
set_option autoImplicit false

open Matrix

namespace UpdateRule

variable {n : ℕ} {rule : UpdateRule} {Q : Matrix (Fin n) (Fin n) ℝ} {dx dg : Fin n → ℝ}

theorem norm_stored_eq_length (v : Fin n → ℝ) : norm (stored v) = length v := EmbedsReals.refl.norm v

/-- Over the reals a correction is skipped where one of its denominators is negligible. -/
theorem skips_iff : rule.Skips Q dx dg ↔
    |dx ⬝ᵥ dg| ≤ 1e-12 * (length dx * length dg) ∨
      rule = .dfp ∧ |dg ⬝ᵥ Q *ᵥ dg| ≤ 1e-12 * (length dg * length (Q *ᵥ dg)) := by
  simp only [Skips, norm_stored_eq_length]

theorem judges_of_embedsReals {α : Type} [Scalar α] {φ : ℝ → α} (e : EmbedsReals φ) : Judges φ where
  toEmbeds := e.toEmbeds
  degenerate value v w := by
    have small : (1e-12 : α) = φ 1e-12 := e.ofScientific ..
    rw [isDegenerate, e.isFinite, e.abs, e.norm, e.norm, small, e.mul, e.mul, Bool.not_true,
      Bool.false_or, norm_stored_eq_length, norm_stored_eq_length]
    exact decide_eq_decide.2 (e.le ..)

/-- How the correction of a matrix comes out over the reals. -/
structure Corrects (rule : UpdateRule) (Q : Matrix (Fin n) (Fin n) ℝ) (dx dg : Fin n → ℝ) : Prop where
  /-- It is skipped exactly where one of its denominators is negligible. -/
  skipped : rule.update (storedMat Q) (stored dx) (stored dg) = .ok none ↔
    |dx ⬝ᵥ dg| ≤ 1e-12 * (length dx * length dg) ∨
      rule = .dfp ∧ |dg ⬝ᵥ Q *ᵥ dg| ≤ 1e-12 * (length dg * length (Q *ᵥ dg))
  /-- Otherwise it returns a matrix that takes the change of the gradient to the step. -/
  secant : rule.update (storedMat Q) (stored dx) (stored dg) ≠ .ok none →
    ∃ Q', rule.update (storedMat Q) (stored dx) (stored dg) = .ok (some (storedMat Q')) ∧
      Q' *ᵥ dg = dx
  /-- An estimate takes over what it returns, and stays as it is if it is skipped. -/
  answers : ∀ h : InverseHessian ℝ, h.rule = rule → h.matrix = .matrix Q →
    h.answer (.vector dx) (.vector dg) =
      (rule.update (storedMat Q) (stored dx) (stored dg)).map fun
        | none => (h, false)
        | some Q' => ({ h with matrix := .ofMat Q' }, true)

theorem corrects (rule : UpdateRule) (Q : Matrix (Fin n) (Fin n) ℝ) (dx dg : Fin n → ℝ) :
    rule.Corrects Q dx dg where
  skipped := by
    rw [← skips_iff]
    obtain ⟨skips, skipped⟩ | ⟨made, updated⟩ := rule.update_stored Q dx dg
    · exact iff_of_true skipped skips
    · refine iff_of_false ?_ made
      rw [updated]
      nofun
  secant made := by
    obtain ⟨-, skipped⟩ | ⟨taken, updated⟩ := rule.update_stored Q dx dg
    · exact absurd skipped made
    · exact ⟨_, updated, corrected_mulVec_self rule (regular_of_not_skips taken)⟩
  answers := by
    rintro h rfl matrix
    rw [InverseHessian.answer, InverseHessian.learn, ofExcept_plain, matrix, update?_toArray]
    rcases h.rule.update (storedMat Q) (stored dx) (stored dg) with _ | _ | _ <;> rfl

end UpdateRule

namespace InverseHessian

open Wide

/-- An estimate of an extent with real entries. -/
def OfReals (n : ℕ) (h : InverseHessian Wide) : Prop :=
  h.dim = n ∧ ∃ Q : Matrix (Fin n) (Fin n) ℝ, h.matrix = .ofMat (embedMat real Q)

/-- The estimate has real entries and takes one real vector to the other. -/
def Secant (h : InverseHessian Wide) (dx dg : Shaped Wide) : Prop :=
  ∃ (n : ℕ) (Q : Matrix (Fin n) (Fin n) ℝ) (x y : Fin n → ℝ),
    h.matrix = .ofMat (embedMat real Q) ∧ dx = .ofVec (reals x).toArray ∧
      dg = .ofVec (reals y).toArray ∧ Q *ᵥ y = x

variable {n : ℕ} {h : InverseHessian Wide}

theorem ofReals_start (rule : UpdateRule) (n : ℕ) : (start rule n : InverseHessian Wide).OfReals n :=
  ⟨rfl, 1, congrArg Shaped.ofMat embeds.identity⟩

theorem ofReals_reset (ofReals : h.OfReals n) : h.reset.OfReals n := by
  obtain ⟨rfl, -⟩ := ofReals
  exact ofReals_start h.rule h.dim

/-- A correction of an estimate with real entries that was made. -/
theorem secant_of_update? {dx dg A : Shaped Wide} (ofReals : h.OfReals n)
    (updated : h.rule.update? h.matrix dx dg = .ok (some A)) :
    OfReals n { h with matrix := A } ∧ Secant { h with matrix := A } dx dg := by
  obtain ⟨dim, Q, matrix⟩ := ofReals
  rw [matrix] at updated
  obtain ⟨x, y, Q', rfl, rfl, corrected, rfl⟩ := UpdateRule.update?_eq_some updated
  have steep : UpdateRule.isFlat x y = false := by
    by_contra flat
    rw [UpdateRule.update, if_pos (Bool.not_eq_false _ ▸ flat)] at corrected
    cases corrected
  obtain ⟨-, step, change⟩ := UpdateRule.exists_denominator steep
  obtain ⟨x, rfl⟩ := exists_reals step
  obtain ⟨y, rfl⟩ := exists_reals change
  obtain ⟨-, skipped⟩ | ⟨made, taken⟩ :=
    UpdateRule.update_embed h.rule Q x y (UpdateRule.judges_of_embedsReals embedsReals)
  · cases skipped.symm.trans corrected
  · cases taken.symm.trans corrected
    exact ⟨⟨dim, _, rfl⟩, n, _, x, y, rfl, rfl, rfl,
      UpdateRule.corrected_mulVec_self h.rule (UpdateRule.regular_of_not_skips made)⟩

end InverseHessian

end Descent
