/-
# Descent.Proofs.LineSearch.Unit — rays whose minimum is at one

Along a Newton direction of a linear system, and of a quadratic objective, the minimum of the
ray is at the step length one: the slope vanishes there.  Every policy takes it
(`search_unit`): the bracketing ones because the first step length that they try is flat, or
because the start is, and backtracking because the value at one has fallen by half of what
the slope promised (`LineSearch.Full`).
-/
import Descent.Proofs.LineSearch.Backtracking

namespace Descent.LineSearch
set_option autoImplicit false

open Wide

/-- Parameters with which a search takes a full step to a minimum: a constant step length is one, and
backtracking asks for no more than half of the decrease that the slope promises. -/
structure Full (c : LineSearch ℝ) : Prop where
  admitted : c.check = .ok c
  constant : c.kind = .static → c.alpha = 1
  decrease : c.kind = .backtracking → c.c1 ≤ 1 / 2

/-- A ray of real numbers that falls by half of the slope at its start to a stationary point at
one. -/
structure Valley (ray : Ray (Except (Fault Wide)) Wide) (f₀ d₀ : ℝ) : Prop where
  value : ray.value 0 = .ok (real f₀)
  slope : ray.slope 0 = .ok (real d₀)
  falls : d₀ ≤ 0
  lowest : ray.value 1 = .ok (real (f₀ + d₀ / 2))
  stationary : ray.slope 1 = .ok (real 0)

variable {ray : Ray (Except (Fault Wide)) Wide} {c : LineSearch ℝ} {f₀ d₀ : ℝ}

theorem standard_full : (standard : LineSearch ℝ).Full :=
  ⟨check_standard, nofun, fun _ => by norm_num [standard]⟩

/-- There is a trial for the direction. -/
theorem Full.tries (full : c.Full) : 0 ≤ c.nanMaxIterations := by
  have admitted := full.admitted
  simp only [check] at admitted
  grind

theorem isFlat_real (d tol : ℝ) : isFlat (real d) (real tol) = decide (|d| < tol) := by
  simp [isFlat]

theorem isFlat_zero (proper : c.Proper) : isFlat (real 0) c.wide.tol = true := by
  simp [isFlat_real, wide, map, proper.tol]

/-- The step length one is accepted, with any curvature condition. -/
theorem accepts_unit (admitted : c.check = .ok c) (half : c.c1 ≤ 1 / 2) (valley : Valley ray f₀ d₀)
    (steep : d₀ ≠ 0) : accepts ray c.wide (real f₀) (real d₀) 1 = .ok true := by
  have negative : d₀ < 0 := lt_of_le_of_ne valley.falls steep
  have positive : 0 < c.c2 := by
    simp only [check] at admitted
    grind
  -- half of what the slope promises is enough because `c1` asks for no more
  have decreases : f₀ + d₀ / 2 ≤ f₀ + c.c1 * 1 * d₀ := by nlinarith
  have curved : curvatureCondition (real 0) (real d₀) (real c.c2) c.strong = true := by
    have weak : c.c2 * d₀ ≤ 0 := (mul_neg_of_pos_of_neg positive negative).le
    have strong : 0 < c.c2 * |d₀| := mul_pos positive (abs_pos.2 steep)
    unfold curvatureCondition
    split <;> simp [weak, strong]
  have enough : sufficientDecrease (real (f₀ + d₀ / 2)) (real f₀) (real d₀) 1 c.wide.c1 = true := by
    simpa [sufficientDecrease, one_eq, wide, map] using decreases
  rw [accepts, valley.lowest, ok_bind, if_pos enough]
  split
  · rw [valley.stationary, ok_bind]
    exact congrArg Except.ok curved
  · rfl

theorem backtrack_unit (admitted : c.check = .ok c) (half : c.c1 ≤ 1 / 2)
    (valley : Valley ray f₀ d₀) : backtrack ray 1 c.wide = .ok 1 := by
  have trials : ∃ n, c.wide.maxIterations.toNat = n + 1 := by
    have some : 1 ≤ c.maxIterations := by
      simp only [check] at admitted
      grind
    exact ⟨c.maxIterations.toNat - 1, by simp only [wide, map]; omega⟩
  obtain ⟨n, count⟩ := trials
  rw [backtrack, valley.value, ok_bind, valley.slope, ok_bind]
  split
  · rfl
  · rename_i steep
    have nonzero : d₀ ≠ 0 := by
      rintro rfl
      exact steep (isFlat_zero (proper_of_check admitted))
    rw [count, shorten, accepts_unit admitted half valley nonzero]
    rfl

/-- A policy that asks for the slope at one stops there. -/
theorem flat_at_unit (proper : c.Proper) (valley : Valley ray f₀ d₀)
    (rest : Wide → Except (Fault Wide) Wide) :
    (do
      let d₀ ← ray.slope 0
      if isFlat d₀ c.wide.tol then return 1
      else
        let d₁ ← ray.slope 1
        if isFlat d₁ c.wide.tol then return 1 else rest d₀) = Except.ok (1 : Wide) := by
  rw [valley.slope, ok_bind, valley.stationary, ok_bind, if_pos (isFlat_zero proper)]
  split <;> rfl

/-- Every policy takes the step length at which a ray has its minimum, if it tries it first. -/
theorem search_unit (full : c.Full) (valley : Valley ray f₀ d₀) : c.wide.search ray 1 = .ok 1 := by
  have proper := proper_of_check full.admitted
  unfold search
  cases kind : c.wide.kind with
  | static => exact congrArg (fun a => Except.ok (real a)) (full.constant kind)
  | backtracking => exact backtrack_unit full.admitted (full.decrease kind) valley
  | bisection => exact flat_at_unit proper valley _
  | quadratic =>
    dsimp only
    rw [interpolateSlope, valley.value, ok_bind]
    exact flat_at_unit proper valley _
  | threePoint => exact flat_at_unit proper valley _

/-- So does a search from a session, if this is what its ray is like there. -/
theorem outcome_unit {δ ω : Type} {I : Session δ ω Wide → Prop} {actual : Ray (Act δ ω Wide) Wide}
    {s : Session δ ω Wide} (full : c.Full) (valley : Valley ray f₀ d₀)
    (same : (Correspondence.within I).Rays ray actual) (holds : I s)
    (told : ∀ r : Log.Record Wide, (Correspondence.within I).Rel
      (Reports.report r : Except (Fault Wide) Unit) (Reports.report r : Act δ ω Wide Unit)) :
    ∃ t, (c.wide.search actual 1).outcome s = (.ok 1, t) := by
  have found := (same.search told (fun _ _ => trivial) c.wide 1 s holds).1
  rcases searched : (c.wide.search actual 1).outcome s with ⟨r, t⟩
  rw [searched, search_unit full valley] at found
  exact ⟨t, congrArg (·, t) found⟩

end Descent.LineSearch
