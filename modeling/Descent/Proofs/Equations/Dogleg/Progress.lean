/-
# Descent.Proofs.Equations.Dogleg.Progress — small steps are accepted

Where the residual is differentiable and the gradient of the model does not vanish, a step within
a small radius does most of what was predicted (`exists_radius`): the prediction is at least a
part of the radius, because the Cauchy decrease is, and what it misses is smaller than any part
of the radius.  So every trial within that radius is accepted (`trial_progresses`).

A rejected trial always shrinks the radius.  By induction over the trials an iteration that is
allowed enough of them comes to that radius, and leaves the point where it stands
(`tries_moves`).
-/
import Descent.Proofs.Equations.Dogleg.Prediction
import Mathlib.Analysis.Calculus.FDeriv.Mul
import Mathlib.Analysis.Calculus.FDeriv.Pi

namespace Descent
set_option autoImplicit false

open Wide Matrix Topology

variable {m n : ℕ}

/-- Residuals at real points are vectors of real or undefined entries; near `x` they are the values of
`F`, which is differentiable there, and the Jacobian of the system is its derivative. -/
structure PureEquations.Smooth (G : PureEquations Wide) (F : (Fin n → ℝ) → Fin m → ℝ)
    (x : Fin n → ℝ) (J : Matrix (Fin m) (Fin n) ℝ) : Prop where
  vectors : ∀ z : Fin n → ℝ, ∃ w, G.residual (reals z).toArray = .ok (.ofVec w) ∧ ∀ a ∈ w, a.Bounded
  near : ∀ᶠ z in 𝓝 x, G.residual (reals z).toArray = .ok (.ofVec (reals (F z)).toArray)
  differentiable : HasFDerivAt F J.mulVecLin.toContinuousLinearMap x
  jacobian : G.derivative (reals x).toArray = .ok (.ofDense (Dogleg.denseReals J))

namespace Dogleg

/-! ## Half the square of the residual -/

section
variable {F : (Fin n → ℝ) → Fin m → ℝ} {x : Fin n → ℝ} {J : Matrix (Fin m) (Fin n) ℝ}

/-- Half the square of a residual has the gradient of the model. -/
theorem hasFDerivAt_halfSquare (differentiable : HasFDerivAt F J.mulVecLin.toContinuousLinearMap x) :
    ∃ L : (Fin n → ℝ) →L[ℝ] ℝ, HasFDerivAt (fun z => F z ⬝ᵥ F z / 2) L x ∧
      ∀ p, L p = Jᵀ *ᵥ F x ⬝ᵥ p := by
  -- the derivative is kept as a whole until its value at `p` is asked for
  obtain ⟨D, derivative⟩ : ∃ D, D = J.mulVecLin.toContinuousLinearMap := ⟨_, rfl⟩
  have entry (i : Fin m) : HasFDerivAt (fun z => F z i * F z i / 2)
      (F x i • (ContinuousLinearMap.proj i).comp D) x := by
    have component := hasFDerivAt_pi'.1 (derivative ▸ differentiable) i
    have square : HasFDerivAt (fun z => F z i * F z i) _ x := component.mul component
    simp only [div_eq_mul_inv]
    refine (square.mul_const (2⁻¹ : ℝ)).congr_fderiv ?_
    module
  have sum := HasFDerivAt.fun_sum fun i (_ : i ∈ Finset.univ) => entry i
  refine ⟨_, sum.congr_of_eventuallyEq (.of_forall fun z => ?_), fun p => ?_⟩
  · simp only [dotProduct, Finset.sum_div]
  · rw [mulVec_transpose, ← dotProduct_mulVec, derivative]
    simp [dotProduct]

/-- Near a point half the square of a residual changes as the gradient says, up to any part of the
length of the step. -/
theorem halfSquare_close (differentiable : HasFDerivAt F J.mulVecLin.toContinuousLinearMap x)
    {ε : ℝ} (positive : 0 < ε) : ∀ᶠ p in 𝓝 0,
      |F (x + p) ⬝ᵥ F (x + p) / 2 - F x ⬝ᵥ F x / 2 - Jᵀ *ᵥ F x ⬝ᵥ p| ≤ ε * length p := by
  obtain ⟨L, derivative, gradient⟩ := hasFDerivAt_halfSquare differentiable
  have small := Asymptotics.isLittleO_iff.1 (hasFDerivAt_iff_isLittleO_nhds_zero.1 derivative) positive
  filter_upwards [small] with p close
  rw [gradient, Real.norm_eq_abs] at close
  exact close.trans (mul_le_mul_of_nonneg_left (norm_le_length p) positive.le)

variable {a ρ : ℝ} {p : Fin n → ℝ}

/-- Within a radius so small that the model has not curved up along `-g`, half the product of the
radius and the length of the gradient is predicted. -/
theorem Path.le_predicted {y : Fin m → ℝ} (nonneg : 0 ≤ a) (steep : Jᵀ *ᵥ y ≠ 0) (positive : 0 < ρ)
    (path : Path (Jᵀ *ᵥ y) (Jᵀ * J + a • 1) ρ p)
    (small : ρ * (Jᵀ *ᵥ y ⬝ᵥ (Jᵀ * J + a • 1) *ᵥ (Jᵀ *ᵥ y)) ≤ length (Jᵀ *ᵥ y) ^ 3) :
    ρ * length (Jᵀ *ᵥ y) / 2 ≤ predicted y J p := by
  have size := length_pos steep
  have falls := path.modelAt_le_half (posSemidef_leastSquares J nonneg) steep positive
    (t := ρ / length (Jᵀ *ᵥ y)) (by positivity) (div_mul_cancel₀ _ size.ne').le (by
      rw [div_mul_eq_mul_div, div_le_iff₀ size]
      exact small.trans_eq (pow_succ _ 2))
  have reach : ρ / length (Jᵀ *ᵥ y) * length (Jᵀ *ᵥ y) ^ 2 = ρ * length (Jᵀ *ᵥ y) := by
    field_simp
  rw [reach] at falls
  linarith [neg_modelAt_le_predicted y J p nonneg]

/-- A step that misses the slope by a small part of the radius falls by most of what was predicted. -/
theorem Path.falls_most (nonneg : 0 ≤ a) (steep : Jᵀ *ᵥ F x ≠ 0) (positive : 0 < ρ)
    (path : Path (Jᵀ *ᵥ F x) (Jᵀ * J + a • 1) ρ p)
    (small : ρ * (Jᵀ *ᵥ F x ⬝ᵥ (Jᵀ * J + a • 1) *ᵥ (Jᵀ *ᵥ F x)) ≤ length (Jᵀ *ᵥ F x) ^ 3)
    (close : |F (x + p) ⬝ᵥ F (x + p) / 2 - F x ⬝ᵥ F x / 2 - Jᵀ *ᵥ F x ⬝ᵥ p| ≤
      length (Jᵀ *ᵥ F x) / 16 * length p) :
    3 / 4 * predicted (F x) J p < F x ⬝ᵥ F x / 2 - F (x + p) ⬝ᵥ F (x + p) / 2 := by
  have size := length_pos steep
  have least := path.le_predicted nonneg steep positive small
  have within := (path.within steep positive).length_le
  have missed : length (Jᵀ *ᵥ F x) / 16 * length p ≤ predicted (F x) J p / 8 := by
    calc length (Jᵀ *ᵥ F x) / 16 * length p
        ≤ length (Jᵀ *ᵥ F x) / 16 * ρ := mul_le_mul_of_nonneg_left within (by positivity)
      _ = ρ * length (Jᵀ *ᵥ F x) / 2 / 8 := by ring
      _ ≤ predicted (F x) J p / 8 := by linarith
  have slope := predicted_eq_slope (F x) J p
  have falls : 0 < predicted (F x) J p := path.predicted_pos nonneg steep positive
  linarith [(abs_le.1 close).2, Wide.dotProduct_self_nonneg (J *ᵥ p)]

end

section
variable {G : PureEquations Wide} {F : (Fin n → ℝ) → Fin m → ℝ} {x : Fin n → ℝ}
  {J : Matrix (Fin m) (Fin n) ℝ} {a : ℝ}

/-- A step leads to a real residual, and falls by most of what was predicted. -/
structure Follows (G : PureEquations Wide) (F : (Fin n → ℝ) → Fin m → ℝ) (x : Fin n → ℝ)
    (J : Matrix (Fin m) (Fin n) ℝ) (p : Fin n → ℝ) : Prop where
  value : G.residual (reals (x + p)).toArray = .ok (.ofVec (reals (F (x + p))).toArray)
  falls : 3 / 4 * predicted (F x) J p < F x ⬝ᵥ F x / 2 - F (x + p) ⬝ᵥ F (x + p) / 2

/-- All steps within the radius do. -/
def Trusts (G : PureEquations Wide) (F : (Fin n → ℝ) → Fin m → ℝ) (x : Fin n → ℝ)
    (J : Matrix (Fin m) (Fin n) ℝ) (a D : ℝ) : Prop :=
  ∀ ρ p, 0 < ρ → ρ ≤ D → Path (Jᵀ *ᵥ F x) (Jᵀ * J + a • 1) ρ p → Follows G F x J p

theorem exists_radius (smooth : G.Smooth F x J) (nonneg : 0 ≤ a) (steep : Jᵀ *ᵥ F x ≠ 0) :
    ∃ D : ℝ, 0 < D ∧ Trusts G F x J a D := by
  have size := length_pos steep
  have curved := curvature_nonneg (posSemidef_leastSquares J nonneg) (Jᵀ *ᵥ F x)
  have near : ∀ᶠ p in 𝓝 0, G.residual (reals (x + p)).toArray =
      .ok (.ofVec (reals (F (x + p))).toArray) := by
    have near := smooth.near
    rwa [← map_add_left_nhds_zero x, Filter.eventually_map] at near
  obtain ⟨d, room, close⟩ := Metric.eventually_nhds_iff.1
    (near.and (halfSquare_close smooth.differentiable (div_pos size (by norm_num : (0 : ℝ) < 16))))
  -- the first bound keeps the step where `F` is close to linear, the second where the model still falls
  refine ⟨min (d / 2) (length (Jᵀ *ᵥ F x) ^ 3 /
    (Jᵀ *ᵥ F x ⬝ᵥ (Jᵀ * J + a • 1) *ᵥ (Jᵀ *ᵥ F x) + 1)), by positivity,
    fun ρ p positive le path => ?_⟩
  have short : ‖p‖ < d := by
    have within := (path.within steep positive).length_le
    linarith [norm_le_length p, le.trans (min_le_left _ _)]
  have small : ρ * (Jᵀ *ᵥ F x ⬝ᵥ (Jᵀ * J + a • 1) *ᵥ (Jᵀ *ᵥ F x)) ≤ length (Jᵀ *ᵥ F x) ^ 3 := by
    have least := (le_div_iff₀ (by positivity)).1 (le.trans (min_le_right _ _))
    linarith
  obtain ⟨value, misses⟩ := close (by rwa [dist_zero_right])
  exact ⟨value, path.falls_most nonneg steep positive small misses⟩

end

/-! ## One trial -/

/-- A session has arrived at a real point with a real residual. -/
def Arrived {ω : Type} (x : Fin n → ℝ) (y : Fin m → ℝ) (t : State ω Wide) : Prop :=
  ∃ cache, t.driver.cache = some cache ∧ cache.now = .reals x y ∧ cache.direction.size = n

section
variable {ω : Type} {G : PureEquations Wide} {c : Settings ℝ} {x : Fin n → ℝ} {y : Fin m → ℝ}
  {J : Matrix (Fin m) (Fin n) ℝ} {t u : State ω Wide} {ρ a : ℝ} {b : Probe Wide}

theorem Arrived.now (arrived : Arrived x y t) : t.driver.current.now = .reals x y := by
  obtain ⟨cache, here, now, -⟩ := arrived
  rw [Drive.current, here]
  exact now

theorem Arrived.size (arrived : Arrived x y t) : t.driver.current.direction.size = n := by
  obtain ⟨cache, here, -, size⟩ := arrived
  rw [Drive.current, here]
  exact size

theorem Arrived.of_sameIterates (arrived : Arrived x y t) (same : Drive.SameIterates t u) :
    Arrived x y u := by
  obtain ⟨cache, here, now, size⟩ := arrived
  obtain ⟨cache', there, now', -, size'⟩ := same cache here
  exact ⟨cache', there, now'.trans now, size'.trans size⟩

/-- Where all residuals at real points are vectors no probe fails. -/
theorem exists_probe (vectors : ∀ z : Fin n → ℝ, ∃ w, G.residual (reals z).toArray = .ok (.ofVec w))
    (arrived : Arrived x y t) (steep : Jᵀ *ᵥ y ≠ 0) (nonneg : 0 ≤ a) (positive : 0 < ρ)
    (radius : t.driver.memory.radius = real ρ) :
    ∃ b u, (probe G.actions (.leastSquares y J a)).outcome t = (.ok b, u) := by
  obtain ⟨p, computed, path⟩ := doglegStep_embed embedsReals steep positive (Jᵀ * J + a • 1)
  obtain ⟨w, value⟩ := vectors (x + p)
  have ratio := decreaseRatio_reals J y p w (path.predicted_pos nonneg steep positive)
  have fits : (reals p).toArray.size = t.driver.current.direction.size := by
    rw [arrived.size]
    simp
  have now : (Drive.now : Action ω Wide _).outcome t = (.ok (.reals x y), t) :=
    congrArg (fun p => (Except.ok p, t)) arrived.now
  have present : (region : Action ω Wide _).outcome t = (.ok t.driver.memory, t) := rfl
  rw [probe, Edit.outcome_bind, now, Edit.andThen_ok, Edit.outcome_bind, present, Edit.andThen_ok,
    radius, Edit.outcome_bind, Edit.outcome_ofExcept, doglegStep?_reals steep computed,
    Edit.andThen_ok, Solver.defined, hasNaN_reals]
  simp only [Bool.false_eq_true, if_false, pure_bind]
  rw [Edit.outcome_bind, Drive.outcome_turn, Vec.assign?_of_size_eq fits]
  simp only [Edit.andThen_ok, add?_reals, fit, pure_bind]
  rw [Edit.outcome_bind, G.outcome_residualAt, value]
  simp only [Edit.andThen_ok, Shaped.vec?_ofVec, pure_bind]
  rw [Edit.outcome_bind, Edit.outcome_ofExcept]
  change ∃ b u, Edit.andThen _
    (decreaseRatio (reals y).toArray w (denseReals J) (reals p).toArray, _) = _
  rw [ratio]
  exact ⟨_, _, rfl⟩

/-- So no trial fails. -/
theorem exists_trial (vectors : ∀ z : Fin n → ℝ, ∃ w, G.residual (reals z).toArray = .ok (.ofVec w))
    (arrived : Arrived x y t) (steep : Jᵀ *ᵥ y ≠ 0) (nonneg : 0 ≤ a) (positive : 0 < ρ)
    (radius : t.driver.memory.radius = real ρ) :
    let M := Model.leastSquares y J a
    ∃ b u, (trial G.actions c.wide M.y M.J M.g M.B).outcome t =
        (.ok (decide (c.wide.acceptance < b.ratio), b.x', b.z.hasNaN), u) ∧
      b.Of G (reals x).toArray M ∧ b.radius = real ρ ∧
      u.driver.memory = t.driver.memory.note c.wide b ∧ Arrived x y u := by
  intro M
  obtain ⟨e, u, failed, -⟩ | ⟨b, u, tried, probe, within, noted, -⟩ :=
    outcome_trial (G := G) (c := c.wide) (m := M) (s := t)
  · obtain ⟨b, v, probed⟩ := exists_probe vectors arrived steep nonneg positive radius
    rw [trial_eq, Edit.outcome_bind, probed, Edit.andThen_ok, outcome_takeDown] at failed
    cases failed
  · have here : t.point = (reals x).toArray := congrArg SystemPoint.x arrived.now
    have same : Drive.SameIterates t u :=
      (keeps_trial (G.keeps fun _ _ => trivial) c.wide M.y M.J M.g M.B).related tried
    exact ⟨b, u, tried, here ▸ probe, within.trans radius, noted, arrived.of_sameIterates same⟩

variable {F : (Fin n → ℝ) → Fin m → ℝ} {p : Fin n → ℝ} {D : ℝ}

/-- A trial within a trusted radius has a good ratio. -/
theorem Probe.Stands.good (stands : b.Stands x (F x) J a ρ p)
    (probe : b.Of G (reals x).toArray (.leastSquares (F x) J a)) (trusts : Trusts G F x J a D)
    (positive : 0 < ρ) (small : ρ ≤ D) : ∃ κ, b.ratio = real κ ∧ 3 / 4 < κ := by
  have follows := trusts ρ p positive small stands.path
  obtain ⟨w, there, vector⟩ := probe.value
  rw [stands.leads, follows.value] at there
  cases there
  rw [Shaped.vec?_ofVec, Option.some.injEq] at vector
  refine ⟨_, ?_, (lt_div_iff₀ stands.falls).2 follows.falls⟩
  rw [stands.ratio, ← vector, hasNaN_reals, half_normSq_reals, real_sub, if_neg Bool.false_ne_true,
    real_div _ stands.falls.ne']

/-- A trial within a trusted radius is taken down as a good one. -/
theorem Probe.Stands.trial_good (rules : c.check = .ok c) (stands : b.Stands x (F x) J a ρ p)
    (probe : b.Of G (reals x).toArray (.leastSquares (F x) J a)) (trusts : Trusts G F x J a D)
    (positive : 0 < ρ) (small : ρ ≤ D) :
    real (3 / 4) < (b.trial c.wide).ratio ∧ (b.trial c.wide).accepted = true := by
  obtain ⟨-, -, ⟨-, least⟩, -⟩ := Settings.check_ok rules
  obtain ⟨κ, value, good⟩ := stands.good probe trusts positive small
  have accepts : real c.acceptance < b.ratio := by
    rw [value, real_lt]
    exact (least.trans (by norm_num)).trans good
  have better : real (3 / 4) < b.ratio := by rwa [value, real_lt]
  exact ⟨better, decide_eq_true accepts⟩

/-- A trial that is rejected shrinks the radius. -/
theorem Probe.Stands.radius_of_rejected {r : Region Wide} (rules : c.check = .ok c)
    (stands : b.Stands x y J a ρ p) (probe : b.Of G (reals x).toArray (.leastSquares y J a))
    (bounded : ∀ e ∈ b.z, e.Bounded) (radius : r.radius = real ρ)
    (rejects : ¬ c.wide.acceptance < b.ratio) :
    (r.note c.wide b).radius = real (ρ * c.reduction) := by
  obtain ⟨-, -, ⟨-, small⟩, -⟩ := Settings.check_ok rules
  have number : b.ratio.IsReal ∨ b.ratio = negInf :=
    isReal_ratio probe.ratio (isReal_reals y) (isReal_denseReals J)
      (stands.step ▸ isReal_reals p) bounded
  have next := nextRadius_real c ρ (length p) b.ratio
  rw [← radius, ← stands.norm_eq,
    radiusAfter_of_poor (poor_of_rejected small number rejects)] at next
  exact next

/-- A step moves. -/
theorem Probe.Stands.moves (stands : b.Stands x y J a ρ p) (steep : Jᵀ *ᵥ y ≠ 0) (nonneg : 0 ≤ a)
    (positive : 0 < ρ) : b.x' ≠ (reals x).toArray := by
  rw [stands.leads]
  intro still
  have slope := stands.path.slope_neg (posSemidef_leastSquares J nonneg) steep positive
  have zero : p = 0 := by
    have same := embed_injective embeds.injective (Vector.toArray_inj.1 still)
    rwa [add_eq_left] at same
  rw [zero, dotProduct_zero] at slope
  exact lt_irrefl _ slope

section
variable (rules : c.check = .ok c) (smooth : G.Smooth F x J) (steep : Jᵀ *ᵥ F x ≠ 0)
  (trusts : Trusts G F x J c.regularization D)
include rules smooth steep trusts

/-- A trial is accepted, or it shrinks the radius; within a trusted radius it is accepted. -/
theorem trial_progresses (arrived : Arrived x (F x) t) (positive : 0 < ρ)
    (radius : t.driver.memory.radius = real ρ) :
    let M := Model.leastSquares (F x) J c.regularization
    ∃ (b : Probe Wide) (u : State ω Wide), (trial G.actions c.wide M.y M.J M.g M.B).outcome t =
        (.ok (decide (c.wide.acceptance < b.ratio), b.x', b.z.hasNaN), u) ∧
      Arrived x (F x) u ∧ b.x' ≠ (reals x).toArray ∧
      (¬ c.wide.acceptance < b.ratio → u.driver.memory.radius = real (ρ * c.reduction)) ∧
      (ρ ≤ D → c.wide.acceptance < b.ratio) := by
  intro M
  obtain ⟨-, -, -, -, -, regular, -⟩ := Settings.check_ok rules
  obtain ⟨b, u, tried, probe, within, noted, arrived'⟩ := exists_trial (c := c)
    (fun z => (smooth.vectors z).imp fun _ => And.left) arrived steep (not_lt.1 regular) positive radius
  obtain ⟨p, stands⟩ := probe.stands steep (not_lt.1 regular) positive within
  refine ⟨b, u, tried, arrived', stands.moves steep (not_lt.1 regular) positive, fun rejects => ?_,
    fun small => ?_⟩
  · rw [noted]
    refine stands.radius_of_rejected rules probe ?_ radius rejects
    obtain ⟨w, value, bounded⟩ := smooth.vectors (x + p)
    obtain ⟨w', there, vector⟩ := probe.value
    rw [stands.leads, value] at there
    cases there
    cases vector
    exact bounded
  · exact of_decide_eq_true (stands.trial_good rules probe trusts positive small).2

/-! ## One iteration -/

/-- An iteration that is allowed enough trials to come to a trusted radius moves. -/
theorem tries_moves (k : ℕ) (undefinedBefore : Bool) (arrived : Arrived x (F x) t)
    (positive : 0 < ρ) (radius : t.driver.memory.radius = real ρ)
    (small : ρ * c.reduction ^ k ≤ D) :
    let M := Model.leastSquares (F x) J c.regularization
    ∃ z u, (tries G.actions c.wide M.y M.J M.g M.B (k + 1) undefinedBefore).outcome t = (.ok z, u) ∧
      z ≠ (reals x).toArray := by
  intro M
  obtain ⟨-, -, -, ⟨reduces, -⟩, -⟩ := Settings.check_ok rules
  -- on the reductions that are left: a rejected trial spends one of them on the radius
  induction k generalizing t ρ undefinedBefore with
  | zero =>
    obtain ⟨b, u, tried, arrived', moves, -, accepts⟩ :=
      trial_progresses rules smooth steep trusts arrived positive radius
    refine ⟨b.x', u, ?_, moves⟩
    rw [tries, Edit.outcome_bind, tried, Edit.andThen_ok,
      decide_eq_true (accepts (by rwa [pow_zero, mul_one] at small))]
    rfl
  | succ k ih =>
    obtain ⟨b, u, tried, arrived', moves, shrinks, -⟩ :=
      trial_progresses rules smooth steep trusts arrived positive radius
    rw [tries, Edit.outcome_bind, tried, Edit.andThen_ok]
    by_cases accepts : c.wide.acceptance < b.ratio
    · rw [decide_eq_true accepts]
      exact ⟨b.x', u, rfl, moves⟩
    · rw [decide_eq_false accepts]
      have smaller : ρ * c.reduction * c.reduction ^ k ≤ D := by
        rwa [mul_assoc, ← pow_succ']
      exact ih b.z.hasNaN arrived' (mul_pos positive reduces) (shrinks accepts) smaller

theorem step_moves (arrived : Arrived x (F x) t) (positive : 0 < ρ)
    (radius : t.driver.memory.radius = real ρ)
    (enough : ρ * c.reduction ^ (c.maxTrials.toNat - 1) ≤ D) :
    ∃ z, ((step G.actions c.wide).outcome t).1 = .ok z ∧ z ≠ (reals x).toArray := by
  obtain ⟨-, -, -, -, -, -, some⟩ := Settings.check_ok rules
  obtain ⟨k, trials⟩ : ∃ k, c.maxTrials.toNat = k + 1 := ⟨c.maxTrials.toNat - 1, by omega⟩
  obtain ⟨count, same⟩ := outcome_step_reals (c := c) arrived.now smooth.jacobian steep
  have arrived' : Arrived x (F x) { t with count := count } := arrived
  rw [trials, Nat.add_sub_cancel] at enough
  obtain ⟨z, u, tried, moves⟩ :=
    tries_moves rules smooth steep trusts k false arrived' positive radius enough
  rw [trials, tried] at same
  exact ⟨z, congrArg Prod.fst same, moves⟩

end

end

/-- What the trials of an iteration from a real point come to: those within radius `D` are accepted, and
if the reductions that are allowed lead there, the iteration returns another point, the one that
its last trial leads to. -/
structure Progresses {ω : Type} (G : PureEquations Wide) (c : Settings ℝ) (x : Fin n → ℝ)
    (y : Fin m → ℝ) (J : Matrix (Fin m) (Fin n) ℝ) (D ρ : ℝ) (t : State ω Wide)
    (new : List (Trial Wide)) : Prop where
  taken : ((step G.actions c.wide).outcome t).2.driver.memory.trials = t.driver.memory.trials ++ new
  good : ∀ q ∈ new, ∀ δ : ℝ, q.radius = real δ → δ ≤ D → real (3 / 4) < q.ratio ∧ q.accepted = true
  moves : ρ * c.reduction ^ (c.maxTrials.toNat - 1) ≤ D → ∃ early q p,
    new = early ++ [q] ∧ (∀ e ∈ early, e.accepted = false) ∧ q.accepted = true ∧
    doglegStep (reals (Jᵀ *ᵥ y)) (embedMat real (Jᵀ * J + c.regularization • 1)) q.radius =
      .ok (reals p) ∧
    ((step G.actions c.wide).outcome t).1 = .ok (reals (x + p)).toArray ∧
    (reals (x + p)).toArray ≠ t.point

/-- **Where the residual is differentiable and the gradient of the model does not vanish, every trial
within some radius is accepted, and an iteration that is allowed enough reductions moves.** -/
theorem step_progresses (G : PureEquations Wide) (F : (Fin n → ℝ) → Fin m → ℝ) (x : Fin n → ℝ)
    (J : Matrix (Fin m) (Fin n) ℝ) (c : Settings ℝ) (rules : c.check = .ok c)
    (smooth : G.Smooth F x J) (steep : Jᵀ *ᵥ F x ≠ 0) :
    ∃ D : ℝ, 0 < D ∧ ∀ (ω : Type) (t : State ω Wide) (ρ : ℝ), Arrived x (F x) t → 0 < ρ →
      t.driver.memory.radius = real ρ → ∃ new, Progresses G c x (F x) J D ρ t new := by
  obtain ⟨-, -, -, -, -, regular, -⟩ := Settings.check_ok rules
  obtain ⟨D, room, trusts⟩ := exists_radius smooth (not_lt.1 regular) steep
  refine ⟨D, room, fun ω t ρ arrived positive radius => ?_⟩
  obtain ⟨l, trials, returns⟩ := trials_of_step (c := c) arrived.now smooth.jacobian steep
  have stands {b : Probe Wide} (mem : b ∈ l) :=
    stands_of_mem rules steep ⟨ρ, positive, radius⟩ mem trials
  refine ⟨l.map (Probe.trial c.wide), trials.trials_eq, fun q mem δ within small => ?_,
    fun enough => ?_⟩
  · obtain ⟨b, made, rfl⟩ := List.mem_map.1 mem
    obtain ⟨ρ', p, positive', within', stands⟩ := stands made
    obtain rfl : ρ' = δ := Wide.real.inj (within'.symm.trans within)
    exact stands.trial_good rules (trials.valid_of_mem made) trusts positive' small
  · obtain ⟨z, returned, moves⟩ := step_moves rules smooth steep trusts arrived positive radius enough
    have here : t.point = (reals x).toArray := congrArg SystemPoint.x arrived.now
    obtain ⟨b, mem, accepts, rfl⟩ | ⟨-, rfl⟩ := returns z returned
    · obtain ⟨ρ', p, -, within', stands⟩ := stands mem
      rw [stands.leads] at returned moves
      refine ⟨l.dropLast.map (Probe.trial c.wide), b.trial c.wide, p, ?_, fun e before => ?_,
        decide_eq_true accepts, (congrArg (doglegStep _ _) within').trans stands.computed, returned,
        here ▸ moves⟩
      · exact (congrArg (List.map _) (trials.eq_append_of_accepted mem accepts)).trans List.map_append
      · obtain ⟨b', first, rfl⟩ := List.mem_map.1 before
        exact decide_eq_false (trials.rejected_of_mem_dropLast first)
    · exact absurd rfl moves

end Dogleg

/-! ## Systems of real functions -/

namespace PureEquations

variable (F : (Fin n → ℝ) → Fin m → ℝ) (J : (Fin n → ℝ) → Matrix (Fin m) (Fin n) ℝ) (x : Fin n → ℝ)

/-- Wherever a function is differentiable so is its system. -/
theorem smooth_ofReal (differentiable : HasFDerivAt F (J x).mulVecLin.toContinuousLinearMap x) :
    (ofReal F J).Smooth F x (J x) where
  vectors z := ⟨_, residual_ofReal F J z, fun a mem => (isReal_reals (F z) a mem).bounded⟩
  near := .of_forall (residual_ofReal F J)
  differentiable := differentiable
  jacobian := by
    have real : ∃ v : Fin n → ℝ, (reals v).toArray = (reals x).toArray := ⟨x, rfl⟩
    simp only [derivative, ofReal, dif_pos real, choose_eq real]

end PureEquations

namespace Dogleg

theorem hasFDerivAt_squares (x : Fin n → ℝ) : HasFDerivAt (fun (z : Fin n → ℝ) i => z i ^ 2)
    (diagonal fun i => 2 * x i).mulVecLin.toContinuousLinearMap x := by
  refine hasFDerivAt_pi'.2 fun i => ?_
  refine ((hasFDerivAt_apply i x).pow 2).congr_fderiv ?_
  ext v
  simp [mulVec_diagonal]

/-- The first iteration for `x² = 0` from one. -/
theorem step_progresses_square :
    let F : (Fin 1 → ℝ) → Fin 1 → ℝ := fun z i => z i ^ 2
    let J : (Fin 1 → ℝ) → Matrix (Fin 1) (Fin 1) ℝ := fun z => diagonal fun i => 2 * z i
    ∃ D : ℝ, 0 < D ∧ ∃ new, Progresses (.ofReal F J) .standard ![1] (F ![1]) (J ![1]) D 1
      (standing (Settings.wide .standard) (.reals ![1] (F ![1]))) new := by
  intro F J
  have steep : (J ![1])ᵀ *ᵥ F ![1] ≠ 0 := fun zero => by
    have entry := congrFun zero 0
    simp [J, F, mulVec_diagonal] at entry
  have smooth := PureEquations.smooth_ofReal F J ![1] (hasFDerivAt_squares ![1])
  obtain ⟨D, room, progresses⟩ :=
    step_progresses _ F ![1] (J ![1]) .standard standard_rules smooth steep
  have arrived : Arrived ![1] (F ![1])
      (standing (Settings.wide .standard) (.reals ![1] (F ![1]))) := by
    refine ⟨_, rfl, rfl, ?_⟩
    simp [Cache.start, Vec.zeros, Iterate.point]
  exact ⟨D, room, progresses Unit _ 1 arrived one_pos rfl⟩

end Dogleg

end Descent
