/-
# Descent.Proofs.LineSearch.Undefined — undefined trial points displace the best one

A trial point of the three-point search moves an end of the bracket if its value is
greater than the one in the middle, and otherwise takes the middle itself.  An undefined
value is not greater than anything, so a trial point without a value takes the middle,
and the best point so far becomes an end (`next_mid_of_undefined`).

As long as all trial points have a value, the middle has one that is not above the first
(`Upheld`).  From the first trial point without a value on it is lost, and a search that
stops there returns a point without a value (`undefined_trials_displace`).
-/
import Descent.Proofs.LineSearch.ThreePoint
import Descent.Proofs.Wide

namespace Descent.Triple
set_option autoImplicit false

open Wide

variable {f : Wide → Wide} {eps : Wide} {p : Triple Wide}

/-! ## Steps with undefined values -/

theorem square_wide (a : Wide) : square a = .ok (Scalar.sq a) := by
  refine if_neg fun overflow => ?_
  simp only [Bool.and_eq_true, Bool.not_eq_true', isFinite_iff] at overflow
  obtain ⟨⟨x, rfl⟩, infinite⟩ := overflow
  simp at infinite

/-- The vertex is a real number or not used, so that there always is a trial point. -/
theorem vertex_wide (p v : Triple Wide) (eps : Wide) : ∃ x, vertex p v eps = .ok x := by
  simp only [vertex, stationary, square_wide, ok_bind]
  split <;> exact ⟨_, rfl⟩

theorem placed_wide (f : Wide → Wide) (eps : Wide) : Placed f eps :=
  placed_of_returns fun p v => vertex_wide p v eps

/-- A trial point without a value takes the middle. -/
theorem next_mid_of_undefined (undefined_trial : f (trial f eps p) = undefined) :
    (next f eps p).mid = trial f eps p := by
  rw [next, undefined_trial, insert]
  split <;> rw [if_neg (not_lt_undefined _)]

/-- The middle of the triple has a value, one that is not above the best one and not above those of
the ends that have one. -/
structure Upheld (f : Wide → Wide) (best : Wide) (q : Triple Wide) : Prop where
  defined : f q.mid ≠ undefined
  lower : f q.mid ≤ best
  falls : f q.left ≠ undefined → f q.mid ≤ f q.left
  rises : f q.right ≠ undefined → f q.mid ≤ f q.right

theorem Upheld.next {best : Wide} (upheld : Upheld f best p)
    (defined_trial : f (trial f eps p) ≠ undefined) : Upheld f best (next f eps p) := by
  obtain ⟨defined, lower, falls, rises⟩ := upheld
  have level := le_of_not_lt defined defined_trial
  unfold Triple.next insert values
  generalize trial f eps p = x at defined_trial level ⊢
  dsimp only
  split <;> split
  · rename_i greater
    exact ⟨defined, lower, falls, fun _ => le_of_lt greater⟩
  · rename_i less
    exact ⟨defined_trial, Wide.le_trans (level less) lower, fun _ => level less,
      fun there => Wide.le_trans (level less) (rises there)⟩
  · rename_i greater
    exact ⟨defined, lower, fun _ => le_of_lt greater, rises⟩
  · rename_i less
    exact ⟨defined_trial, Wide.le_trans (level less) lower,
      fun there => Wide.le_trans (level less) (falls there), fun _ => level less⟩

/-! ## Runs -/

theorem Upheld.run (upheld : Upheld f (f p.mid) p) {n : ℕ}
    (defined_trials : ∀ t ∈ trials f eps n p, f t ≠ undefined) :
    Upheld f (f p.mid) ((Triple.next f eps)^[n] p) := by
  induction n with
  | zero => exact upheld
  | succ n ih =>
    simp only [trials, List.mem_map, List.mem_range, forall_exists_index, and_imp,
      forall_apply_eq_imp_iff₂] at ih defined_trials
    rw [Function.iterate_succ_apply']
    exact (ih fun k before => defined_trials k (by omega)).next (defined_trials n (by omega))

/-- The middle is upheld over a number of steps exactly if their trial points have values. -/
theorem upheld_iff (upheld : Upheld f (f p.mid) p) (n : ℕ) :
    (∀ k ≤ n, Upheld f (f p.mid) ((next f eps)^[k] p)) ↔
      ∀ t ∈ trials f eps n p, f t ≠ undefined := by
  constructor
  · intro always t tried
    simp only [trials, List.mem_map, List.mem_range] at tried
    obtain ⟨k, before, rfl⟩ := tried
    intro undefined_trial
    have after := (always (k + 1) (by omega)).defined
    rw [Function.iterate_succ_apply', next_mid_of_undefined undefined_trial] at after
    exact after undefined_trial
  · intro defined_trials k within
    refine upheld.run fun t tried => defined_trials t ?_
    simp only [trials, List.mem_map, List.mem_range] at tried ⊢
    obtain ⟨i, before, rfl⟩ := tried
    exact ⟨i, by omega, rfl⟩

/-- Whatever the function, the middle of a bracket has a value that is not above the first one for
just as long as all trial points have values: the first one without takes the middle.  So a search
returns such a point if none of its trial points is undefined. -/
theorem undefined_trials_displace (f : Wide → Wide) (eps : Wide) {p : Triple Wide}
    (falls : f p.mid ≤ f p.left) (rises : f p.mid ≤ f p.right) :
    (∀ n, update (known f) ((next f eps)^[n] p) eps = .ok ((next f eps)^[n + 1] p)) ∧
    (∀ n, (∀ k ≤ n, Upheld f (f p.mid) ((next f eps)^[k] p)) ↔
      ∀ t ∈ trials f eps n p, f t ≠ undefined) ∧
    (∀ n, f (trial f eps ((next f eps)^[n] p)) = undefined →
      ((next f eps)^[n + 1] p).mid = trial f eps ((next f eps)^[n] p)) ∧
    ∀ steps, ∃ j ≤ steps, search (known f) p eps steps = .ok ((next f eps)^[j] p).mid ∧
      ((∀ t ∈ trials f eps j p, f t ≠ undefined) →
        f ((next f eps)^[j] p).mid ≠ undefined ∧ f ((next f eps)^[j] p).mid ≤ f p.mid) := by
  have defined : f p.mid ≠ undefined := by
    intro none
    rw [none] at falls
    exact not_undefined_le _ falls
  have upheld : Upheld f (f p.mid) p := ⟨defined, le_self defined, fun _ => falls, fun _ => rises⟩
  refine ⟨fun n => ?_, upheld_iff upheld, fun n none => ?_, fun steps => ?_⟩
  · rw [Function.iterate_succ_apply']
    exact update_eq_next (placed_wide f eps) _
  · rw [Function.iterate_succ_apply']
    exact next_mid_of_undefined none
  · obtain ⟨j, within, -, found, -⟩ := outcome_search (placed_wide f eps) p steps
    exact ⟨j, within, found, fun defined_trials =>
      ⟨(upheld.run defined_trials).defined, (upheld.run defined_trials).lower⟩⟩

/-! ## A gap beside the minimum -/

/-- The distance from the near end of a gap, without a value inside. -/
noncomputable def gapped (near far : ℝ) (a : Wide) : Wide :=
  if real near < a ∧ a < real far then undefined else Scalar.abs (a - real near)

theorem gapped_values :
    values (gapped 1 3) ⟨real 0, real 1, real 3⟩ = ⟨real 1, real 0, real 2⟩ := by
  simp only [values, gapped, real_lt, real_sub, abs_real]
  norm_num

theorem gapped_gap : gapped 1 3 (real 1.25) = undefined := by
  rw [gapped, if_pos]
  simp only [real_lt]
  norm_num

/-- The parabola through the three points has its vertex in the gap. -/
theorem trial_gapped : trial (gapped 1 3) (real 1e-8) ⟨real 0, real 1, real 3⟩ = real 1.25 := by
  have placed : stationary ⟨real 0, real 1, real 3⟩ ⟨real 1, real 0, real 2⟩ =
      .ok (some (real 1.25)) := by
    simp only [stationary, square_wide, ok_bind, sq_real, real_mul, real_sub, real_add, zero_eq,
      real_beq, ofScientific_eq]
    rw [real_div _ (by norm_num), real_div _ (by norm_num), isFinite_real]
    norm_num
    rfl
  have spacing : (Scalar.spacing : Wide) = real (1.0 / 4503599627370496.0) :=
    real_div _ (by norm_num)
  have apart : Scalar.isClose (real 1.25) (real 1) (4.0 * Scalar.spacing) Scalar.spacing = false := by
    rw [spacing]
    simp only [Scalar.isClose, Scalar.isInfinite, isFinite_real, real_beq, ofScientific_eq, real_mul,
      real_sub, abs_real, real_le]
    norm_num [abs_of_neg]
  have kept : repair ⟨real 0, real 1, real 3⟩ (real 1e-8) (real 1.25) = real 1.25 := by
    simp only [repair, apart]
    norm_num
  rw [trial, gapped_values, vertex, placed, ok_bind]
  exact kept

theorem undefined_trials_displace_gapped :
    gapped 1 3 (real 1) ≤ gapped 1 3 (real 0) ∧ gapped 1 3 (real 1) ≤ gapped 1 3 (real 3) ∧
      ¬ ∀ k ≤ 1, Upheld (gapped 1 3) (gapped 1 3 (real 1))
        ((next (gapped 1 3) (real 1e-8))^[k] ⟨real 0, real 1, real 3⟩) := by
  obtain ⟨left, mid, right⟩ := Triple.mk.inj gapped_values
  have falls : gapped 1 3 (real 1) ≤ gapped 1 3 (real 0) := by
    rw [left, mid, real_le]
    exact zero_le_one
  have rises : gapped 1 3 (real 1) ≤ gapped 1 3 (real 3) := by
    rw [mid, right, real_le]
    exact zero_le_two
  obtain ⟨-, upheld, -⟩ := undefined_trials_displace (gapped 1 3) (real 1e-8)
    (p := ⟨real 0, real 1, real 3⟩) falls rises
  refine ⟨falls, rises, fun always => ?_⟩
  exact (upheld 1).1 always (real 1.25) (by simp [trials, trial_gapped]) gapped_gap

/-- The search leaves the least of the three values that it starts from for a point without one. -/
theorem search_loses_minimum :
    real 0 < real 1 ∧ real 1 < real 3 ∧
      values (gapped 1 3) ⟨real 0, real 1, real 3⟩ = ⟨real 1, real 0, real 2⟩ ∧
      search (known (gapped 1 3)) ⟨real 0, real 1, real 3⟩ (real 1e-8) 1 = .ok (real 1.25) ∧
      gapped 1 3 (real 1.25) = undefined := by
  refine ⟨(real_lt 0 1).2 one_pos, (real_lt 1 3).2 (by norm_num), gapped_values, ?_, gapped_gap⟩
  obtain ⟨j, within, some, found, -⟩ :=
    outcome_search (placed_wide (gapped 1 3) (real 1e-8)) ⟨real 0, real 1, real 3⟩ 1
  obtain rfl : j = 1 := le_antisymm within (some le_rfl)
  have undefined_trial :
      gapped 1 3 (trial (gapped 1 3) (real 1e-8) ⟨real 0, real 1, real 3⟩) = undefined := by
    rw [trial_gapped]
    exact gapped_gap
  rw [found, Function.iterate_one, next_mid_of_undefined undefined_trial, trial_gapped]

end Descent.Triple
