/-
# Descent.Proofs.Linear.Undefined — undefined values in linear systems

An undefined entry of a matrix stays in the factors through every sweep, since no column
is divided by an infinite pivot, and substitution carries every undefined entry, of the
factors or of the right-hand side, on to the solution.  So a solution that is defined
vouches for the whole system (`solve_defined`).
-/
import Descent.Proofs.Linear.Factors
import Descent.Proofs.Linear.Wide

namespace Descent.Factors
set_option autoImplicit false

open Wide

variable {n : ℕ}

/-! ## Substitution -/

section
variable {p : Fin n → Prop} [DecidablePred p] {a : Fin n → Wide} {b : Wide}

theorem foldl_undefined (h : b = undefined ∨ ∃ k, p k ∧ a k = undefined) :
    Fin.foldl n (fun rest i => if p i then rest - a i else rest) b = undefined := by
  have loop := foldl_upTo (b := b) (f := fun rest i => if p i then rest - a i else rest)
    (P := fun m r => (b = undefined ∨ ∃ k : Fin n, (k : ℕ) < m ∧ p k ∧ a k = undefined) →
      r = undefined) ?_ fun i r before known => ?_
  · exact loop (h.imp_right fun ⟨k, taken⟩ => ⟨k, k.isLt, taken⟩)
  · rintro (start | ⟨k, less, -⟩)
    · exact start
    · exact absurd less (Nat.not_lt_zero _)
  · obtain start | ⟨k, after, taken, undef⟩ := known
    · rw [before (.inl start), undefined_sub, ite_self]
    · rcases Nat.lt_succ_iff_lt_or_eq.1 after with earlier | same
      · rw [before (.inr ⟨k, earlier, taken, undef⟩), undefined_sub, ite_self]
      · rw [← Fin.ext same, if_pos taken, undef, sub_undefined]

theorem foldr_undefined (h : b = undefined ∨ ∃ k, p k ∧ a k = undefined) :
    Fin.foldr n (fun i rest => if p i then rest - a i else rest) b = undefined := by
  have loop := foldr_downTo (b := b) (f := fun i rest => if p i then rest - a i else rest)
    (P := fun m r => (b = undefined ∨ ∃ k : Fin n, m ≤ k ∧ p k ∧ a k = undefined) →
      r = undefined) ?_ fun i r before known => ?_
  · exact loop (h.imp_right fun ⟨k, taken⟩ => ⟨k, Nat.zero_le _, taken⟩)
  · rintro (start | ⟨k, le, -⟩)
    · exact start
    · exact absurd k.isLt (Nat.not_lt.2 le)
  · obtain start | ⟨k, after, taken, undef⟩ := known
    · rw [before (.inl start), undefined_sub, ite_self]
    · rcases Nat.lt_or_eq_of_le after with later | same
      · rw [before (.inr ⟨k, later, taken, undef⟩), undefined_sub, ite_self]
      · rw [Fin.ext same, if_pos taken, undef, sub_undefined]

end

section
variable {F : Factors n Wide} {b : Vector Wide n} {i : Fin n}

theorem forward_undefined (h : b.get i = undefined ∨ ∃ k < i, (F.entries.get i).get k = undefined) :
    (F.forward b).get i = undefined := by
  rw [get_forward]
  exact foldl_undefined (h.imp_right fun ⟨k, less, undef⟩ => ⟨k, less, by rw [undef, undefined_mul]⟩)

theorem backward_undefined
    (h : b.get i = undefined ∨ ∃ k, i ≤ k ∧ (F.entries.get i).get k = undefined) :
    (F.backward b).get i = undefined := by
  rw [get_backward]
  obtain start | ⟨k, le, undef⟩ := h
  · rw [foldr_undefined (.inl start), undefined_div]
  · rcases le.lt_or_eq with less | rfl
    · rw [foldr_undefined (.inr ⟨k, less, by rw [undef, undefined_mul]⟩), undefined_div]
    · rw [undef, div_undefined]

/-- A right-hand side with an undefined entry has no defined solution. -/
theorem solve_undefined (A : Mat n n Wide) (undef : b.get i = undefined) :
    ∃ k : Fin n, ((of A).solve b).get k = undefined := by
  obtain ⟨k, rfl⟩ := (bijective_order A).surjective i
  refine ⟨k, backward_undefined (.inl (forward_undefined (.inl ?_)))⟩
  exact (Vector.getElem_ofFn k.isLt).trans undef

/-- Factors with an undefined entry have no defined solution. -/
theorem solve_undefined_of_entry {k : Fin n} (undef : (F.entries.get i).get k = undefined) :
    (F.solve b).get i = undefined := by
  rcases lt_or_ge k i with below | above
  · exact backward_undefined (.inl (forward_undefined (.inr ⟨k, below, undef⟩)))
  · exact backward_undefined (.inr ⟨k, above, undef⟩)

end

/-! ## Factorization -/

/-- The entries are real or undefined, and one of them is undefined. -/
def Clouded (A : Mat n n Wide) : Prop :=
  (∀ i j : Fin n, ((A.get i).get j).Bounded) ∧ ∃ i j : Fin n, (A.get i).get j = undefined

theorem bounded_reducedColumn {A : Mat n n Wide}
    (bounded : ∀ i j : Fin n, ((A.get i).get j).Bounded) (j i : Fin n) :
    ((reducedColumn A j).get i).Bounded := by
  induction i using WellFoundedLT.induction with
  | ind i ih =>
    rw [get_reducedColumn]
    exact (bounded i j).sub (.total fun k => (bounded _ _).mul (ih _ (Fin.lt_def.2 (by simp; omega))))

/-- What a bounded pivot divides. -/
theorem exists_multiplier {pivot : Wide} (bounded : pivot.Bounded)
    (usable : Scalar.isInvertible pivot = true) : ∃ y, multiplier pivot = (· * real y) := by
  obtain ⟨defined, nonzero⟩ := isInvertible_iff.1 usable
  obtain ⟨x, rfl⟩ := bounded defined
  have nonzero : x ≠ 0 := fun zero => nonzero (zero ▸ rfl)
  refine ⟨1 / x, funext fun a => ?_⟩
  have quotient : (1 : Wide) / real x = real (1 / x) := real_div 1 nonzero
  rw [multiplier, quotient, zero_eq, real_beq, decide_eq_false (one_div_ne_zero nonzero),
    if_neg Bool.false_ne_true]

section
variable {F : Factors n Wide} (bounded : ∀ i j : Fin n, ((F.entries.get i).get j).Bounded) (j : Fin n)
include bounded

theorem bounded_sweep (i k : Fin n) : (((F.sweep j).entries.get i).get k).Bounded := by
  have remains (i : Fin n) : ((reducedColumn F.entries j).get i).Bounded :=
    bounded_reducedColumn bounded j i
  rw [get_entries_sweep rfl rfl rfl]
  split
  · split
    · rename_i divided
      obtain ⟨y, divides⟩ := exists_multiplier (remains _) divided.2
      rw [divides]
      exact (remains _).mul (isReal_real y).bounded
    · exact remains _
  · exact bounded _ _

/-- An undefined entry stays undefined in the row to which it moves. -/
theorem undefined_sweep {r k : Fin n} (undef : (F.entries.get r).get k = undefined) :
    ∃ i : Fin n, ((F.sweep j).entries.get i).get k = undefined := by
  obtain ⟨column, reduced⟩ : ∃ column, reducedColumn F.entries j = column := ⟨_, rfl⟩
  obtain ⟨p, pivot⟩ : ∃ p, pivotRow column j = p := ⟨_, rfl⟩
  obtain ⟨i, moved⟩ : ∃ i, (if k ≤ j ∧ !Scalar.isInvertible (column.get p) then i
      else exchange j p i) = r := by
    by_cases stays : k ≤ j ∧ !Scalar.isInvertible (column.get p)
    · exact ⟨r, if_pos stays⟩
    · exact ⟨exchange j p r, (if_neg stays).trans (exchange_self j p r)⟩
  refine ⟨i, ?_⟩
  rw [get_entries_sweep reduced pivot moved]
  split
  · rename_i here
    have lost : column.get r = undefined := by
      rw [← reduced, get_reducedColumn, ← here, undef, undefined_sub]
    split
    · rename_i divided
      have pivotal : (column.get p).Bounded := reduced ▸ bounded_reducedColumn bounded j p
      obtain ⟨y, divides⟩ := exists_multiplier pivotal divided.2
      rw [divides, lost]
      exact undefined_mul _
    · exact lost
  · exact undef

end

theorem clouded_sweep {F : Factors n Wide} (clouded : Clouded F.entries) (j : Fin n) :
    Clouded (F.sweep j).entries := by
  obtain ⟨bounded, r, k, undef⟩ := clouded
  obtain ⟨i, moved⟩ := undefined_sweep bounded j undef
  exact ⟨bounded_sweep bounded j, i, k, moved⟩

theorem clouded_of {A : Mat n n Wide} (clouded : Clouded A) : Clouded (of A).entries :=
  foldl_upTo (P := fun _ (F : Factors n Wide) => Clouded F.entries) clouded fun j _ before =>
    clouded_sweep before j

/-- A system of real or undefined numbers with a defined solution is one of real numbers, and the
solution solves it. -/
theorem solve_defined {A : Mat n n Wide} {b x : Vector Wide n} {tol : ℝ} (nonneg : 0 ≤ tol)
    (matrix : ∀ i j : Fin n, ((A.get i).get j).Bounded) (side : ∀ i : Fin n, (b.get i).Bounded)
    (none : (of A).smallPivot? (real tol) = none) (solved : (of A).solve b = x)
    (defined : ∀ i : Fin n, x.get i ≠ undefined) :
    ∃ M c v, A = embedMat real M ∧ b = reals c ∧ x = reals v ∧ M.mulVec v = c := by
  have entries (i j : Fin n) : ((A.get i).get j).IsReal := matrix i j fun undef => by
    obtain ⟨-, k, l, lost⟩ := clouded_of ⟨matrix, i, j, undef⟩
    exact defined k (solved ▸ solve_undefined_of_entry lost)
  have sides (i : Fin n) : (b.get i).IsReal := side i fun undef => by
    obtain ⟨k, lost⟩ := solve_undefined A undef
    exact defined k (solved ▸ lost)
  obtain ⟨M, rfl⟩ := exists_embedMat entries
  obtain ⟨c, rfl⟩ := exists_reals sides
  obtain ⟨v, value, solves⟩ := solve_embed embeds nonneg none c
  exact ⟨M, c, v, rfl, rfl, solved.symm.trans value, solves⟩

end Descent.Factors
