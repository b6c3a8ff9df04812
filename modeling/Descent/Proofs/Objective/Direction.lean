/-
# Descent.Proofs.Objective.Direction — directions of an estimate lead downhill

Over real numbers, where values may be undefined, a direction of an estimate that is
returned is one of real numbers, and so is the gradient that it was made from
(`reals_of_direction`).  It leads downhill wherever the gradient does not vanish: either the
estimate says so itself, or it was reset and the direction is steepest descent
(`direction_ok`).  Whatever the estimate learned before plays no part in that.
-/
import Descent.Proofs.Objective.Estimate
import Descent.Proofs.Objective.Memory
import Mathlib.LinearAlgebra.Matrix.DotProduct

namespace Descent
set_option autoImplicit false

open Wide

namespace InverseHessian

variable {n : ℕ} {h : InverseHessian Wide} {y : Vector Wide n} {D : Shaped Wide}

/-- Only a gradient of its extent has a direction. -/
theorem extent_of_direction {k : ℕ} {y : Vector Wide k} (bounded : h.Bounded n)
    (directed : h.direction (.ofVec y.toArray) = .ok D) : k = n := by
  obtain ⟨-, Q, matrix, -⟩ := bounded
  obtain ⟨P, product, -⟩ := bind_eq_ok.1 directed
  rw [fit_eq_ok, matrix] at product
  obtain ⟨P', vector, -⟩ := Option.map_eq_some_iff.1
    ((Shaped.product?_ofDense_ofVec ⟨n, n, Q⟩ y.toArray).symm.trans product)
  obtain ⟨size, -⟩ := mulVec?_eq_some.1 vector
  exact y.size_toArray.symm.trans size

/-- A direction that is defined vouches for itself and for the gradient. -/
theorem reals_of_direction (bounded : h.Bounded n) (gradient : ∀ i : Fin n, (y.get i).Bounded)
    (directed : h.direction (.ofVec y.toArray) = .ok D) (defined : D.flat.hasNaN = false) :
    ∃ w v : Fin n → ℝ, y = reals w ∧ D = .ofVec (reals v).toArray := by
  obtain ⟨-, Q, matrix, entries⟩ := bounded
  obtain ⟨P, product, returned⟩ := bind_eq_ok.1 directed
  cases returned
  rw [fit_eq_ok, matrix, Shaped.product?_toArray] at product
  cases product
  rw [Shaped.neg_ofVec, Shaped.flat_ofVec, defined_iff] at defined
  have products : ∀ a ∈ (Q.mulVec y).toArray, -a ≠ undefined := by simpa [Vec.neg] using defined
  have rows (i : Fin n) : (dot (Q.get i) y).IsReal := by
    refine Bounded.dot (entries i) gradient fun undef => forall_toArray.1 products i ?_
    rw [Mat.get_mulVec, undef, neg_undefined]
  obtain ⟨w, rfl⟩ := exists_reals fun i => (isReal_of_dot (rows i) i).2
  obtain ⟨v, product⟩ := exists_reals (x := Q.mulVec (reals w)) fun i => by
    rw [Mat.get_mulVec]
    exact rows i
  refine ⟨w, -v, rfl, ?_⟩
  rw [product, Shaped.neg_ofVec]
  congr 1
  ext i hi <;> simp [Vec.neg, embed]

/-- After a reset the direction is steepest descent. -/
theorem direction_reset (dim : h.dim = n) (w : Fin n → ℝ) :
    h.reset.direction (.ofVec (reals w).toArray) = .ok (.ofVec (reals (-w)).toArray) := by
  subst dim
  have identity : (Mat.identity h.dim : Mat h.dim h.dim Wide) = embedMat real 1 := by
    refine eq_embedMat fun i j => ?_
    rw [Mat.identity, Mat.get_ofFn, Matrix.one_apply, zero_eq, one_eq]
    split <;> rfl
  rw [direction, reset, start, Shaped.product?_toArray, identity, embeds.mulVec, Matrix.one_mulVec]
  refine congrArg Except.ok ((Shaped.neg_ofVec _).trans (congrArg Shaped.ofVec ?_))
  ext i hi <;> simp [Vec.neg, embed]

end InverseHessian

namespace Optimizer

/-- The memory holds an estimate of an extent without infinite entries. -/
def Estimated (n : ℕ) (m : Memory Wide) : Prop := ∃ h, m = some h ∧ h.Bounded n

variable {ω : Type} {F : Problem ω Wide} {n : ℕ} {t u : State ω Wide} {d : Vec Wide}

/-- The estimate at the start. -/
theorem estimated_of_prepare {kind : HessianKind} (approximated : kind ≠ .exact)
    (prepared : (prepare kind : Action ω Wide Unit).outcome t = (.ok ⟨⟩, u)) :
    Estimated t.driver.current.now.x.size u.driver.memory := by
  obtain ⟨rule, rfl⟩ := memory_of_prepare approximated prepared
  exact ⟨_, rfl, InverseHessian.bounded_start rule _⟩

/-- A lesson keeps the estimate without infinite entries. -/
theorem estimated_of_learn (estimated : Estimated n t.driver.memory)
    (learned : (learn : Action ω Wide Unit).outcome t = (.ok ⟨⟩, u)) :
    Estimated n u.driver.memory := by
  obtain ⟨h, here, bounded⟩ := estimated
  obtain ⟨memory, -⟩ | ⟨A, ⟨dx, dg, -, -, updated⟩, memory⟩ := memory_of_learn here learned
  · exact ⟨h, memory, bounded⟩
  · exact ⟨_, memory, InverseHessian.bounded_update bounded updated⟩

/-- A gradient that is not zero makes the direction of an estimate lead downhill. -/
structure Downhill (n : ℕ) (g : Shaped Wide) (d : Vec Wide) (w v : Fin n → ℝ) : Prop where
  gradient : g = .ofVec (reals w).toArray
  direction : d = (reals v).toArray
  falls : w ≠ 0 → v ⬝ᵥ w < 0

/-- Steepest descent leads downhill. -/
theorem downhill_of_reset {h : InverseHessian Wide} {x : Vector Wide n} {D : Shaped Wide}
    (bounded : h.Bounded n) (gradient : ∀ i : Fin n, (x.get i).Bounded)
    (directed : h.reset.direction (.ofVec x.toArray) = .ok D) (defined : D.flat.hasNaN = false) :
    ∃ w v, Downhill n (.ofVec x.toArray) D.flat w v := by
  obtain ⟨w, -, rfl, -⟩ := InverseHessian.reals_of_direction
    (InverseHessian.bounded_reset bounded) gradient directed defined
  rw [InverseHessian.direction_reset bounded.1] at directed
  cases directed
  refine ⟨w, -w, rfl, Shaped.flat_ofVec _, fun nonzero => ?_⟩
  rw [neg_dotProduct, neg_lt_zero]
  exact (dotProduct_self_nonneg w).lt_of_ne fun zero =>
    nonzero (dotProduct_self_eq_zero.1 zero.symm)

/-- So does a direction that is not found to lead uphill. -/
theorem falls_of_not_isUphill {w v : Fin n → ℝ}
    (downhill : ¬ isUphill (real (v ⬝ᵥ w)) (.ofVec (reals w).toArray) = true) (nonzero : w ≠ 0) :
    v ⬝ᵥ w < 0 := by
  obtain ⟨i, entry⟩ := Function.ne_iff.1 nonzero
  by_contra uphill
  refine downhill (Bool.and_eq_true_iff.2 ⟨?_, ?_⟩)
  · rw [zero_eq, decide_eq_true_eq, real_le]
    exact not_lt.1 uphill
  · rw [Shaped.flat_ofVec, Array.any_eq_true']
    refine ⟨real (w i), ?_, ?_⟩
    · simp [embed]
    · rw [zero_eq, real_beq, decide_eq_false (show w i ≠ 0 from entry)]
      rfl

theorem estimated_ok {h : InverseHessian Wide} {g : Shaped Wide} (here : t.driver.memory = some h)
    (bounded : h.Bounded n) (gradient : ∀ a ∈ g.flat, a.Bounded)
    (directed : (estimated h g : Action ω Wide (Vec Wide)).outcome t = (.ok d, u))
    (defined : d.hasNaN = false) : Estimated n u.driver.memory ∧ ∃ w v, Downhill n g d w v := by
  obtain ⟨D, _, found, directed⟩ := Edit.outcome_bind_ok.1 directed
  rw [Edit.outcome_ofExcept] at found
  obtain ⟨first, rfl⟩ := Prod.mk.inj found
  obtain ⟨slope, _, product, directed⟩ := Edit.outcome_bind_ok.1 directed
  rw [Edit.outcome_ofExcept] at product
  obtain ⟨inner, rfl⟩ := Prod.mk.inj product
  obtain ⟨k, x, y, rfl, rfl, rfl⟩ := Shaped.inner_eq_ok inner
  obtain rfl := InverseHessian.extent_of_direction bounded first
  rw [Shaped.flat_ofVec] at gradient
  have entries := forall_toArray.1 gradient
  split at directed
  · obtain ⟨⟨⟩, _, ⟨⟩, directed⟩ := Edit.outcome_bind_ok.1 directed
    obtain ⟨⟨⟩, _, ⟨⟩, directed⟩ := Edit.outcome_bind_ok.1 directed
    obtain ⟨D, _, found, directed⟩ := Edit.outcome_bind_ok.1 directed
    rw [Edit.outcome_ofExcept] at found
    obtain ⟨second, rfl⟩ := Prod.mk.inj found
    cases directed
    exact ⟨⟨h.reset, rfl, InverseHessian.bounded_reset bounded⟩,
      downhill_of_reset bounded entries second defined⟩
  · rename_i downhill
    cases directed
    obtain ⟨w, v, rfl, same⟩ := InverseHessian.reals_of_direction bounded entries first defined
    have flat : x.toArray = (reals v).toArray := by
      rw [← Shaped.flat_ofVec x.toArray, same, Shaped.flat_ofVec]
    obtain rfl : x = reals v := Vector.toArray_inj.1 flat
    rw [embeds.dot] at downhill
    exact ⟨⟨h, here, bounded⟩, w, v, rfl, Shaped.flat_ofVec _, falls_of_not_isUphill downhill⟩

theorem direction_ok {p : ObjectivePoint Wide} (gradient : ∀ a ∈ p.g.flat, a.Bounded)
    (estimated : Estimated n t.driver.memory)
    (directed : (direction F p).outcome t = (.ok d, u)) :
    Estimated n u.driver.memory ∧ ∃ w v, Downhill n p.g d w v := by
  obtain ⟨h, here, bounded⟩ := estimated
  obtain ⟨_, _, ⟨⟩, directed⟩ := Edit.outcome_bind_ok.1 directed
  dsimp only at directed
  rw [here] at directed
  obtain ⟨d', s, found, directed⟩ := Edit.outcome_bind_ok.1 directed
  split at directed
  · cases directed
  · cases directed
    exact estimated_ok here bounded gradient found (Bool.eq_false_iff.2 ‹_›)

end Optimizer

end Descent
