/-
# Descent.Proofs.InverseHessian.Symmetry — estimates are symmetric to the last digit

A correction is made of products of entries that stand on both sides of the diagonal in the same
places.  So its entries agree across the diagonal as soon as sums and products do not depend on the
order of their operands (`Commutes`), however they are rounded: nothing is regrouped, and no
number need be defined.  Two parts carry this over any calls: the two steps keep the symmetry
(`isSymmetric_bfgsStep`, `isSymmetric_dfpStep`), and a correction that is skipped or fails leaves
the estimate as it is.
-/
import Descent.Proofs.InverseHessian.Definite
import Descent.Proofs.Linear.Wide

namespace Descent
set_option autoImplicit false

/-- Sums and products do not depend on the order of their two operands. They may be rounded. -/
structure Commutes (α : Type) [Scalar α] : Prop where
  add (a b : α) : a + b = b + a
  mul (a b : α) : a * b = b * a

/-- Entries on both sides of the diagonal are the same. -/
def Mat.IsSymmetric {α : Type} {n : ℕ} (Q : Mat n n α) : Prop :=
  ∀ i j : Fin n, (Q.get i).get j = (Q.get j).get i

section
variable {α : Type} [Scalar α] {n : ℕ}

theorem Mat.isSymmetric_identity : (Mat.identity n : Mat n n α).IsSymmetric := by
  intro i j
  rw [identity, get_ofFn, get_ofFn]
  simp only [eq_comm]

namespace UpdateRule

variable {rule : UpdateRule} {Q Q' : Mat n n α} {dx dg : Vector α n}

/-! ## One correction -/

section
variable (commutes : Commutes α) (symm : Q.IsSymmetric)
include commutes symm

theorem isSymmetric_bfgsStep (stepped : bfgsStep Q dx dg = .ok Q') : Q'.IsSymmetric := by
  obtain ⟨ratio, -, returned⟩ := bind_eq_ok.1 stepped
  cases returned
  intro i j
  have cross (v : Vector α n) : dx.get i * v.get j + v.get i * dx.get j =
      dx.get j * v.get i + v.get j * dx.get i := by
    rw [commutes.add, commutes.mul (v.get i), commutes.mul (dx.get i)]
  rw [Mat.get_ofFn, Mat.get_ofFn, symm i j, cross, commutes.mul (dx.get i) (dx.get j)]

theorem isSymmetric_dfpStep : (dfpStep Q dx dg).IsSymmetric := by
  intro i j
  rw [dfpStep, Mat.get_ofFn, Mat.get_ofFn, symm i j, commutes.mul (dx.get i),
    commutes.mul ((Q.mulVec dg).get i)]

theorem isSymmetric_update (updated : rule.update Q dx dg = .ok (some Q')) : Q'.IsSymmetric := by
  unfold update at updated
  split at updated
  · cases updated
  · cases rule with
    | bfgs =>
      obtain ⟨Q'', stepped, returned⟩ := bind_eq_ok.1 updated
      cases returned
      exact isSymmetric_bfgsStep commutes symm stepped
    | dfp =>
      simp only [correct] at updated
      split at updated
      · cases updated
      · cases updated
        exact isSymmetric_dfpStep commutes symm

end

/-- A denominator of a correction is not a number, or too small for the factors it comes from. -/
def IsDegenerate (rule : UpdateRule) (Q : Mat n n α) (dx dg : Vector α n) : Prop :=
  isDegenerate (dot dx dg) (norm dx * norm dg) ∨
    rule = .dfp ∧ isDegenerate (dot dg (Q.mulVec dg)) (norm dg * norm (Q.mulVec dg))

/-- A correction is skipped exactly where a denominator is degenerate. -/
theorem update_eq_none : rule.update Q dx dg = .ok none ↔ rule.IsDegenerate Q dx dg := by
  unfold update IsDegenerate isFlat
  split
  · rename_i flat
    simp [flat]
  · rename_i steep
    rw [or_iff_right steep]
    cases rule with
    | bfgs =>
      simp only [reduceCtorEq, false_and, iff_false]
      intro skipped
      obtain ⟨_, -, returned⟩ := bind_eq_ok.1 skipped
      cases returned
    | dfp =>
      simp only [correct, true_and]
      split
      · simp_all
      · simp_all

end UpdateRule

/-! ## Any calls -/

namespace InverseHessian

variable {rule : UpdateRule} {h h' : InverseHessian α} {dx dg : Shaped α}

/-- An estimate of a rule and an extent whose matrix is symmetric. -/
structure Symmetric (rule : UpdateRule) (n : ℕ) (h : InverseHessian α) : Prop where
  rule : h.rule = rule
  dim : h.dim = n
  matrix : ∃ Q : Mat n n α, h.matrix = .ofMat Q ∧ Q.IsSymmetric

theorem symmetric_start (rule : UpdateRule) (n : ℕ) :
    (start rule n : InverseHessian α).Symmetric rule n :=
  ⟨rfl, rfl, .identity n, rfl, Mat.isSymmetric_identity⟩

section
variable (commutes : Commutes α) (symm : h.Symmetric rule n)
include commutes symm

theorem symmetric_after (call : Call α) : (h.after call).Symmetric rule n := by
  cases call with
  | reset =>
    obtain ⟨rfl, rfl, -⟩ := symm
    exact symmetric_start h.rule h.dim
  | update dx dg =>
    refine after_update symm fun A updated => ?_
    obtain ⟨rule, dim, Q, matrix, symm⟩ := symm
    rw [matrix] at updated
    obtain ⟨x, y, Q', -, -, corrected, rfl⟩ := UpdateRule.update?_eq_some updated
    exact ⟨rule, dim, Q', rfl, UpdateRule.isSymmetric_update commutes symm corrected⟩

theorem symmetric_calls (calls : List (Call α)) : (calls.foldl after h).Symmetric rule n := by
  induction calls generalizing h with
  | nil => exact symm
  | cons call calls ih => exact ih (symmetric_after commutes symm call)

end

/-- What an update answers: the estimate after it, and whether it was corrected. -/
def answer (h : InverseHessian α) (dx dg : Shaped α) :
    Except (Fault α) (InverseHessian α × Bool) := h.learn dx dg

/-- An update answers that it was skipped only if it was, and then the estimate is the one before. -/
theorem answer_false (skipped : h.answer dx dg = .ok (h', false)) :
    h.rule.update? h.matrix dx dg = .ok none ∧ h' = h := by
  obtain ⟨updated, found, answered⟩ := bind_eq_ok.1 skipped
  rw [ofExcept_plain] at found
  cases updated with
  | some A => cases answered
  | none =>
    cases answered
    exact ⟨found, rfl⟩

/-- An update by vectors of the extent of the estimate is skipped exactly where a denominator is
degenerate. -/
theorem answer_false_iff {Q : Mat n n α} {dx dg : Vector α n} (matrix : h.matrix = .ofMat Q) :
    h.answer (.ofVec dx.toArray) (.ofVec dg.toArray) = .ok (h, false) ↔
      h.rule.IsDegenerate Q dx dg := by
  have skips : h.rule.update? h.matrix (.ofVec dx.toArray) (.ofVec dg.toArray) = .ok none ↔
      h.rule.IsDegenerate Q dx dg := by
    rw [← UpdateRule.update_eq_none, matrix, UpdateRule.update?_toArray]
    rcases h.rule.update Q dx dg with _ | _ | _ <;> simp [Except.map]
  rw [← skips]
  refine ⟨fun answered => (answer_false answered).1, fun skipped => ?_⟩
  rw [answer, learn, skipped]
  rfl

/-- **In any arithmetic with commutative sums and products, whatever resets and updates an estimate
has seen, its matrix is exactly symmetric. An update is skipped exactly where a denominator is
degenerate; then it says so, and the estimate stays as it is.** -/
theorem exactly_symmetric (commutes : Commutes α) (rule : UpdateRule) (n : ℕ)
    (calls : List (Call α)) :
    ∃ (h : InverseHessian α) (Q : Mat n n α), calls.foldl after (start rule n) = h ∧
      h.matrix = .ofMat Q ∧ Q.IsSymmetric ∧
      (∀ dx dg : Vector α n, h.answer (.ofVec dx.toArray) (.ofVec dg.toArray) = .ok (h, false) ↔
        rule.IsDegenerate Q dx dg) ∧
      ∀ dx dg h', h.answer dx dg = .ok (h', false) → h' = h := by
  obtain ⟨same, -, Q, matrix, symm⟩ := symmetric_calls commutes (symmetric_start rule n) calls
  refine ⟨_, Q, rfl, matrix, symm, fun dx dg => ?_, fun dx dg h' skipped => (answer_false skipped).2⟩
  rw [answer_false_iff matrix, same]

/-- A regular step, one that leaves undefined entries, a start over, and another step. -/
theorem exactly_symmetric_of_steps :
    ∃ Q : Mat 2 2 Wide, ([.update (.ofVec #[.real 1, .real 2]) (.ofVec #[.real 3, .real 1]),
        .update (.ofVec #[.posInf, .real 1]) (.ofVec #[.real 1, .real 0]), .reset,
        .update (.ofVec #[.real 0, .real 3]) (.ofVec #[.real (-1), .real 1])].foldl after
          (start .bfgs 2)).matrix = .ofMat Q ∧ Q.IsSymmetric := by
  obtain ⟨h, Q, rfl, matrix, symm, -⟩ := exactly_symmetric ⟨Wide.add_comm, Wide.mul_comm⟩ .bfgs 2
    [.update (.ofVec #[.real 1, .real 2]) (.ofVec #[.real 3, .real 1]),
      .update (.ofVec #[.posInf, .real 1]) (.ofVec #[.real 1, .real 0]), .reset,
      .update (.ofVec #[.real 0, .real 3]) (.ofVec #[.real (-1), .real 1])]
  exact ⟨Q, matrix, symm⟩

end InverseHessian

end

end Descent
