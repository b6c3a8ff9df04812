/-
# Descent.Proofs.LineSearch.Line — lines in real directions

A line starts where it starts, undefined entries or not, if its direction is one of real
numbers; and the point of a line at a step length is the start plus the direction times the
step length, the way in which the next iterate is computed.
-/
import Descent.Proofs.Iteration.Aim
import Descent.Proofs.Linear.Wide

namespace Descent
set_option autoImplicit false

open Wide

variable {x d w : Vec Wide}

theorem linePoint_zero (size : d.size = x.size) (direction : ∀ a ∈ d, a.IsReal) :
    linePoint x d 0 = x := by
  simp only [Array.forall_mem_iff_forall_getElem] at direction
  ext i hi hi'
  · simp [linePoint, Track.point, size]
  · obtain ⟨v, entry⟩ := direction i (size ▸ hi')
    simp only [linePoint, Track.point, Array.getElem_zipWith, entry, zero_eq, real_mul, mul_zero,
      real_zero_add]

/-- The points of a line of real numbers. -/
theorem linePoint_reals {n : ℕ} (x d : Fin n → ℝ) (a : ℝ) :
    linePoint (reals x).toArray (reals d).toArray (real a) = (reals (x + a • d)).toArray := by
  ext i hi hi'
  · simp [linePoint, Track.point]
  · simp only [linePoint, Track.point, embed, Array.getElem_zipWith, Vector.getElem_toArray,
      Vector.getElem_ofFn, real_mul, real_add, Pi.add_apply, Pi.smul_apply, smul_eq_mul, real_inj]
    ring

theorem add?_scale (size : d.size = x.size) (alpha : Wide) :
    Vec.add? x (Vec.scale alpha d) = some (linePoint x d alpha) := by
  have sizes : x.size = (Vec.scale alpha d).size := by simp [Vec.scale, size]
  rw [Vec.add?, Vec.combine?_of_size_eq _ sizes]
  congr 1
  ext i hi hi'
  · simp [linePoint, Track.point, Vec.scale]
    omega
  · simp only [linePoint, Track.point, Vec.scale, Array.getElem_zipWith, Array.getElem_map]
    rw [Wide.add_comm, Wide.mul_comm]

/-- The full step to a point. -/
theorem add?_unit {n : ℕ} (x z : Fin n → ℝ) :
    Vec.add? (reals x).toArray (Vec.scale 1 (reals (z - x)).toArray) = some (reals z).toArray := by
  rw [add?_scale (by simp), one_eq, linePoint_reals, one_smul, add_sub_cancel]

theorem forall_of_assign? {P : Wide → Prop} (h : ∀ a ∈ d, P a) (written : Vec.assign? x d = some w) :
    ∀ a ∈ w, P a := by
  unfold Vec.assign? at written
  split at written
  · cases written
    exact h
  · split at written
    · cases written
      intro a mem
      rw [(Array.mem_replicate.1 mem).2]
      exact h _ (Array.getElem_mem _)
    · cases written

/-- A direction of real numbers after reductions. -/
theorem iterate_scaled {n : ℕ} (θ : ℝ) (v : Fin n → ℝ) (j : ℕ) :
    (Vec.scaled · (real θ))^[j] (reals v).toArray = (reals (θ ^ j • v)).toArray := by
  induction j with
  | zero => rw [pow_zero, one_smul, Function.iterate_zero_apply]
  | succ j ih =>
    rw [Function.iterate_succ_apply', ih]
    ext i hi hi'
    · simp [Vec.scaled]
    · simp [Vec.scaled, embed]
      ring

end Descent
