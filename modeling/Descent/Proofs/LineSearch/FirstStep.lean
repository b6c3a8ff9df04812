/-
# Descent.Proofs.LineSearch.FirstStep — backtracking takes the first acceptable step

The step lengths that backtracking tries are `alpha`, `alpha p`, …, each the one before
times the factor.  In any arithmetic it returns the first of them that passes the tests,
and the last one if none does (`shorten_known`, by induction on the trials that are left).

Without rounding, a bound on the curvature of the ray says how long a step has to be at
most to be accepted (`decreases_of_short`).  If the last trial is that short there is a
first one; and a step is only tried after one that was too long, so that the one returned
is not shorter than that bound by more than the factor (`backtrack_takes_first`).  All of
this is about steps ahead: from a step length behind the start the values may only rise
(`backtrack_climbs_incline`).
-/
import Descent.Proofs.LineSearch.Stranded

namespace Descent.LineSearch
set_option autoImplicit false

/-! ## The first step length that is accepted -/

section
variable {α : Type} [Scalar α] {c : LineSearch α} {f d : α → α}

/-- The step lengths that backtracking tries, one after the other. -/
def stepLength (c : LineSearch α) (alpha : α) (j : ℕ) : α := (· * c.p)^[j] alpha

/-- A step length passes the tests of backtracking. -/
def Acceptable (c : LineSearch α) (f d : α → α) (alpha : α) : Prop :=
  sufficientDecrease (f alpha) (f 0) (d 0) alpha c.c1 = true ∧
    (c.curvature = true → curvatureCondition (d alpha) (d 0) c.c2 c.strong = true)

instance (c : LineSearch α) (f d : α → α) (alpha : α) : Decidable (c.Acceptable f d alpha) :=
  inferInstanceAs (Decidable (_ ∧ _))

theorem accepts_known (c : LineSearch α) (f d : α → α) (alpha : α) :
    accepts (.known f d) c (f 0) (d 0) alpha = .ok (decide (c.Acceptable f d alpha)) := by
  by_cases decrease : sufficientDecrease (f alpha) (f 0) (d 0) alpha c.c1 = true <;>
    by_cases curved : c.curvature = true <;>
      simp [accepts, Ray.known, known, Acceptable, decrease, curved, pure_ok]

theorem shorten_succ (c : LineSearch α) (f d : α → α) (n : ℕ) (alpha last : α) :
    shorten (.known f d) c (f 0) (d 0) (n + 1) alpha last =
      if c.Acceptable f d alpha then .ok alpha
      else shorten (.known f d) c (f 0) (d 0) n (alpha * c.p) alpha := by
  rw [shorten, accepts_known, ok_bind]
  simp only [decide_eq_true_eq]
  rfl

/-- Shortening returns the first step length that is acceptable, or the last one if none is. -/
theorem shorten_known (c : LineSearch α) (f d : α → α) (n : ℕ) (alpha last : α) :
    (∃ j ≤ n, c.Acceptable f d (c.stepLength alpha j) ∧
      (∀ i < j, ¬ c.Acceptable f d (c.stepLength alpha i)) ∧
      shorten (.known f d) c (f 0) (d 0) (n + 1) alpha last = .ok (c.stepLength alpha j)) ∨
    (∀ i ≤ n, ¬ c.Acceptable f d (c.stepLength alpha i)) ∧
      shorten (.known f d) c (f 0) (d 0) (n + 1) alpha last = .ok (c.stepLength alpha n) := by
  induction n generalizing alpha last with
  | zero =>
    rw [shorten_succ]
    by_cases accepted : c.Acceptable f d alpha
    · rw [if_pos accepted]
      exact .inl ⟨0, le_rfl, accepted, nofun, rfl⟩
    · rw [if_neg accepted]
      refine .inr ⟨fun i within => ?_, rfl⟩
      rwa [Nat.le_zero.1 within]
  | succ n ih =>
    rw [shorten_succ]
    by_cases accepted : c.Acceptable f d alpha
    · rw [if_pos accepted]
      exact .inl ⟨0, Nat.zero_le _, accepted, nofun, rfl⟩
    rw [if_neg accepted]
    obtain ⟨j, within, passes, before, found⟩ | ⟨none, found⟩ := ih (alpha * c.p) alpha
    · refine .inl ⟨j + 1, Nat.succ_le_succ within, passes, fun i earlier => ?_, found⟩
      cases i with
      | zero => exact accepted
      | succ i => exact before i (Nat.lt_of_succ_lt_succ earlier)
    · refine .inr ⟨fun i within => ?_, found⟩
      cases i with
      | zero => exact accepted
      | succ i => exact none i (Nat.le_of_succ_le_succ within)

/-- Along a steep ray backtracking returns the first step length that is acceptable, or the last one
if none is. -/
theorem backtrack_known (valid : c.check = .ok c) (steep : isFlat (d 0) c.tol = false)
    (f : α → α) (alpha₀ : α) :
    (∃ j < c.maxIterations.toNat, c.Acceptable f d (c.stepLength alpha₀ j) ∧
      (∀ i < j, ¬ c.Acceptable f d (c.stepLength alpha₀ i)) ∧
      backtrack (.known f d) alpha₀ c = .ok (c.stepLength alpha₀ j)) ∨
    (∀ i < c.maxIterations.toNat, ¬ c.Acceptable f d (c.stepLength alpha₀ i)) ∧
      backtrack (.known f d) alpha₀ c = .ok (c.stepLength alpha₀ (c.maxIterations.toNat - 1)) := by
  have shortens : backtrack (.known f d) alpha₀ c =
      shorten (.known f d) c (f 0) (d 0) c.maxIterations.toNat alpha₀ alpha₀ := by
    simp [backtrack, Ray.known, known, steep]
  obtain ⟨n, trials⟩ := Nat.exists_eq_add_of_le' (trials_of_check valid)
  rw [shortens, trials, Nat.add_sub_cancel]
  simpa only [Nat.lt_succ_iff] using shorten_known c f d n alpha₀ alpha₀

end

/-! ## Step lengths that are not too short -/

section
variable {K : Type} [Field K] [LinearOrder K] {c : LineSearch K} {f d : K → K} {alpha₀ H t : K}

theorem stepLength_exact (c : LineSearch K) (alpha : K) (j : ℕ) :
    c.stepLength alpha j = alpha * c.p ^ j := by
  induction j generalizing alpha with
  | zero => rw [pow_zero, mul_one, stepLength, Function.iterate_zero_apply]
  | succ j ih =>
    rw [stepLength, Function.iterate_succ_apply, ← stepLength, ih, pow_succ', mul_assoc]

/-- Without the curvature condition the value decides. -/
theorem acceptable_iff (curvature : c.curvature = false) (f d : K → K) (t : K) :
    c.Acceptable f d t ↔ f t ≤ f 0 + c.c1 * t * d 0 := by
  simp [Acceptable, curvature, sufficientDecrease]

/-- The longest step for which a bound on the curvature of the ray vouches; `H` is half of the bound. -/
def safeLength (c : LineSearch K) (slope H : K) : K := (1 - c.c1) * |slope| / H

theorem safeLength_half (c : LineSearch K) (slope M : K) :
    c.safeLength slope (M / 2) = 2 * (1 - c.c1) * |slope| / M := by
  rw [safeLength, div_div_eq_mul_div]
  ring

variable [IsStrictOrderedRing K]

/-- A step that is short for the curvature of the ray decreases the value enough. -/
theorem decreases_of_short (positive : 0 < t) (falls : d 0 < 0) (curved : 0 < H)
    (short : t ≤ c.safeLength (d 0) H) (bound : f t ≤ f 0 + d 0 * t + H * t ^ 2) :
    f t ≤ f 0 + c.c1 * t * d 0 := by
  have slope : t * H ≤ (1 - c.c1) * -d 0 := by
    rwa [safeLength, abs_of_neg falls, le_div_iff₀ curved] at short
  have risen : H * t ^ 2 ≤ (1 - c.c1) * -d 0 * t := by
    have := mul_le_mul_of_nonneg_right slope positive.le
    linarith
  linarith

/-- The step lengths that are tried go down to zero from either side. -/
theorem stepLength_between (shortens : 0 < c.p) (proper : c.p < 1) (j : ℕ) :
    (0 < alpha₀ → 0 < c.stepLength alpha₀ j ∧ c.stepLength alpha₀ j ≤ alpha₀) ∧
      (alpha₀ ≤ 0 → alpha₀ ≤ c.stepLength alpha₀ j) := by
  have power : 0 < c.p ^ j := pow_pos shortens j
  have below : c.p ^ j ≤ 1 := pow_le_one₀ shortens.le proper.le
  rw [stepLength_exact]
  exact ⟨fun positive => ⟨mul_pos positive power, mul_le_of_le_one_right positive.le below⟩,
    fun nonpos => by nlinarith⟩

/-- A ray that falls at its start, and whose values stay below a parabola over the first step. -/
structure UnderParabola (f d : K → K) (alpha₀ H : K) : Prop where
  falls : d 0 < 0
  curved : 0 < H
  bound : ∀ t, 0 < t → t ≤ alpha₀ → f t ≤ f 0 + d 0 * t + H * t ^ 2

namespace UnderParabola

variable (under : UnderParabola f d alpha₀ H) (valid : c.check = .ok c)
  (curvature : c.curvature = false)
include under valid curvature

/-- A step length that is refused is too long. -/
theorem too_long (positive : 0 < alpha₀) {j : ℕ}
    (refused : ¬ c.Acceptable f d (c.stepLength alpha₀ j)) :
    c.safeLength (d 0) H < c.stepLength alpha₀ j := by
  have given := check_ok_iff.1 valid
  obtain ⟨ahead, within⟩ := (stepLength_between given.shortens given.proper j).1 positive
  by_contra! short
  refine refused ((acceptable_iff curvature f d _).2 ?_)
  exact decreases_of_short ahead under.falls under.curved short (under.bound _ ahead within)

/-- A step length that is tried after others is at most by the factor shorter than one that is too
long. -/
theorem long_enough (positive : 0 < alpha₀) {j : ℕ}
    (before : ∀ i < j, ¬ c.Acceptable f d (c.stepLength alpha₀ i)) :
    min alpha₀ (c.p * c.safeLength (d 0) H) ≤ c.stepLength alpha₀ j := by
  have shortens := (check_ok_iff.1 valid).shortens
  cases j with
  | zero => exact min_le_left ..
  | succ j =>
    have long := under.too_long valid curvature positive (before j j.lt_succ_self)
    refine (min_le_right ..).trans ?_
    calc c.p * c.safeLength (d 0) H ≤ c.p * c.stepLength alpha₀ j :=
          mul_le_mul_of_nonneg_left long.le shortens.le
      _ = c.stepLength alpha₀ (j + 1) := by
          rw [stepLength_exact, stepLength_exact, pow_succ]
          ring

/-- Backtracking along such a ray, from a step length ahead. -/
theorem backtrack_ahead (positive : 0 < alpha₀) (steep : isFlat (d 0) c.tol = false)
    (reached : alpha₀ * c.p ^ (c.maxIterations.toNat - 1) ≤ c.safeLength (d 0) H) :
    ∃ alpha, backtrack (.known f d) alpha₀ c = .ok alpha ∧
      min alpha₀ (c.p * c.safeLength (d 0) H) ≤ alpha ∧ f alpha ≤ f 0 + c.c1 * alpha * d 0 := by
  obtain ⟨j, -, accepted, before, found⟩ | ⟨none, -⟩ := backtrack_known valid steep f alpha₀
  · exact ⟨_, found, under.long_enough valid curvature positive before,
      (acceptable_iff curvature f d _).1 accepted⟩
  · have some := trials_of_check valid
    have long := under.too_long valid curvature positive
      (none (c.maxIterations.toNat - 1) (by omega))
    rw [stepLength_exact] at long
    exact absurd reached long.not_ge

end UnderParabola

/-- From zero or a step length behind it, the step lengths only get greater, and zero is acceptable. -/
theorem backtrack_behind (valid : c.check = .ok c) (steep : isFlat (d 0) c.tol = false)
    (f : K → K) (nonpos : alpha₀ ≤ 0) :
    ∃ alpha, backtrack (.known f d) alpha₀ c = .ok alpha ∧ alpha₀ ≤ alpha ∧
      (0 ≤ alpha₀ → f alpha ≤ f 0 + c.c1 * alpha * d 0) := by
  have given := check_ok_iff.1 valid
  obtain ⟨j, found⟩ : ∃ j, backtrack (.known f d) alpha₀ c = .ok (c.stepLength alpha₀ j) := by
    obtain ⟨j, -, -, -, found⟩ | ⟨-, found⟩ := backtrack_known valid steep f alpha₀
    · exact ⟨j, found⟩
    · exact ⟨_, found⟩
  refine ⟨_, found, (stepLength_between given.shortens given.proper j).2 nonpos, fun nonneg => ?_⟩
  obtain rfl : alpha₀ = 0 := le_antisymm nonpos nonneg
  simp [stepLength_exact]

end

/-- Backtracking along a steep ray returns, in any arithmetic, the first of the step lengths that it
tries which passes its tests, and the last one if none does.  Without rounding and without the
curvature condition, along a ray that falls and stays below a parabola of curvature `M` over the
first step, it returns a step length that decreases the value enough and is not shorter than the first
one, or than the factor times the length for which the parabola vouches, provided that the last
trial is within that length.  (A first step length behind the start covers no part of the ray, so
that nothing is known about the values there.) -/
theorem backtrack_takes_first :
    (∀ {α : Type} [Scalar α] (c : LineSearch α) (f d : α → α) (alpha₀ : α), c.check = .ok c →
      isFlat (d 0) c.tol = false →
      (∃ j < c.maxIterations.toNat, c.Acceptable f d (c.stepLength alpha₀ j) ∧
        (∀ i < j, ¬ c.Acceptable f d (c.stepLength alpha₀ i)) ∧
        backtrack (.known f d) alpha₀ c = .ok (c.stepLength alpha₀ j)) ∨
      (∀ i < c.maxIterations.toNat, ¬ c.Acceptable f d (c.stepLength alpha₀ i)) ∧
        backtrack (.known f d) alpha₀ c =
          .ok (c.stepLength alpha₀ (c.maxIterations.toNat - 1))) ∧
    ∀ {K : Type} [Field K] [LinearOrder K] [IsStrictOrderedRing K] (c : LineSearch K) (f d : K → K)
      (alpha₀ M : K), c.check = .ok c → c.curvature = false → c.tol ≤ |d 0| → d 0 < 0 → 0 < M →
      (∀ t, 0 < t → t ≤ alpha₀ → f t ≤ f 0 + d 0 * t + M / 2 * t ^ 2) →
      alpha₀ * c.p ^ (c.maxIterations.toNat - 1) ≤ 2 * (1 - c.c1) * |d 0| / M →
      ∃ alpha, backtrack (.known f d) alpha₀ c = .ok alpha ∧
        min alpha₀ (c.p * (2 * (1 - c.c1) * |d 0| / M)) ≤ alpha ∧
        (0 ≤ alpha₀ → f alpha ≤ f 0 + c.c1 * alpha * d 0) := by
  refine ⟨fun c f d alpha₀ valid steep => backtrack_known valid steep f alpha₀, ?_⟩
  intro K _ _ _ c f d alpha₀ M valid curvature steep falls curved bound reached
  have steep : isFlat (d 0) c.tol = false := by simp [isFlat, steep]
  rw [← safeLength_half] at reached ⊢
  rcases le_or_gt alpha₀ 0 with nonpos | positive
  · obtain ⟨alpha, found, long, decreases⟩ := backtrack_behind valid steep f nonpos
    exact ⟨alpha, found, (min_le_left ..).trans long, decreases⟩
  · obtain ⟨alpha, found, long, decreases⟩ :=
      UnderParabola.backtrack_ahead ⟨falls, half_pos curved, bound⟩ valid curvature positive steep reached
    exact ⟨alpha, found, long, fun _ => decreases⟩

/-- Along a parabola with its minimum at `3 / 10`, where a full step is too long. -/
theorem backtrack_takes_first_parabola :
    ∃ alpha, backtrack (.known (fun t : ℚ => (t - 3 / 10) ^ 2) fun t => 2 * (t - 3 / 10)) 1 standard =
        .ok alpha ∧
      1 / 4 ≤ alpha ∧ (alpha - 3 / 10) ^ 2 < (3 / 10 : ℚ) ^ 2 := by
  have last : (standard : LineSearch ℚ).maxIterations.toNat - 1 = 49 := rfl
  obtain ⟨alpha, found, long, decreases⟩ := backtrack_takes_first.2 (standard : LineSearch ℚ)
    (fun t => (t - 3 / 10) ^ 2) (fun t => 2 * (t - 3 / 10)) 1 2 check_standard rfl
    (by norm_num [standard]) (by norm_num) two_pos (fun t _ _ => by ring_nf; exact le_rfl)
    (by rw [last]; norm_num [standard])
  have forward : 1 / 4 ≤ alpha := le_trans (by norm_num [standard]) long
  have decreases := decreases zero_le_one
  norm_num [standard] at decreases
  exact ⟨alpha, found, forward, by linarith⟩

/-- A line that falls all the way. -/
def incline (t : ℝ) : ℝ := -t

/-- Backtracking with a single trial. -/
noncomputable def single : LineSearch ℝ := { standard with maxIterations := 1 }

theorem check_single : single.check = .ok single :=
  check_ok_iff.2 (by constructor <;> norm_num [single, standard])

/-- Behind the start of the line the values only rise. -/
theorem not_acceptable_incline {t : ℝ} (behind : t < 0) :
    ¬ single.Acceptable incline (fun _ => -1) t := by
  have least : single.c1 = 1 / 10000 := by norm_num [single, standard]
  rw [acceptable_iff rfl, least, incline, incline]
  linarith

/-- From a step length behind the start the parabola bounds no value at all, and the one step length
that is tried increases the value. -/
theorem backtrack_climbs_incline :
    (∀ t, HasDerivAt incline (-1) t) ∧ single.check = .ok single ∧ single.curvature = false ∧
      single.tol ≤ |(-1 : ℝ)| ∧
      (∀ t, 0 < t → t ≤ -1 → incline t ≤ incline 0 + -1 * t + 1 / 2 * t ^ 2) ∧
      -1 * single.p ^ (single.maxIterations.toNat - 1) ≤ 2 * (1 - single.c1) * |(-1 : ℝ)| / 1 ∧
      backtrack (.known incline fun _ => -1) (-1) single = .ok (-1) ∧
      ¬ incline (-1) ≤ incline 0 + single.c1 * -1 * -1 := by
  have behind : ¬ single.Acceptable incline (fun _ => -1) (-1) := not_acceptable_incline (by norm_num)
  have steep : isFlat (-1) single.tol = false := by norm_num [isFlat, single, standard]
  refine ⟨fun t => hasDerivAt_neg t, check_single, rfl, ?_, ?_, ?_, ?_, ?_⟩
  · norm_num [single, standard]
  · intro t positive within
    linarith
  · norm_num [single, standard]
  · obtain ⟨j, within, accepted, -⟩ | ⟨-, last⟩ :=
      backtrack_known (d := fun _ => -1) check_single steep incline (-1)
    · obtain rfl : j = 0 := Nat.lt_one_iff.1 within
      exact absurd accepted behind
    · exact last
  · exact fun decreases => behind ((acceptable_iff rfl _ _ _).2 decreases)

end Descent.LineSearch
