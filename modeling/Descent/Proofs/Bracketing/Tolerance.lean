/-
# Descent.Proofs.Bracketing.Tolerance — how exactly bisection locates a root

Bisection refuses an interval at whose ends the function has one sign, and no other.
What it returns otherwise is a root at one of the ends, a point where the function is
small, or an end of the interval that is left after some halvings (`Halved`): narrow, or
halved as often as allowed.  The loop keeps the value at the left end only, but the
half that it goes on with still straddles a change of sign whichever that is
(`changingHalf_straddles`), and the midpoint that it returns is one of its ends.

So a continuous function has a root no farther from the answer than the width of that
interval, and enough halvings always reach one of the tolerances
(`bisect_meets_tolerances`).
-/
import Descent.Proofs.Bracketing.Bisection
import Mathlib.Analysis.SpecialFunctions.Log.Base

namespace Descent
set_option autoImplicit false

section
variable {K : Type} [Field K] [LinearOrder K] {f : K → K} {lo hi l r x xTol fTol : K} {j n : ℕ}

/-- What is left of an interval after some halvings. -/
def halvings (f : K → K) (j : ℕ) (lo hi : K) : K × K :=
  (fun i => changingHalf f i.1 i.2)^[j] (lo, hi)

/-- The interval that is left after some halvings, one of whose ends was tried last. -/
structure Halved (f : K → K) (lo hi : K) (j : ℕ) (l r x : K) : Prop where
  reached : halvings f j lo hi = (l, r)
  left : lo ≤ l
  right : r ≤ hi
  straddles : Straddles f l r
  width : r - l = (hi - lo) / 2 ^ j
  tried : x = l ∨ x = r

/-- What a point that bisection returns is: a root at an end, a point where the function is small, or
an end of an interval that is narrow or cannot be halved further. -/
def MeetsTolerances (f : K → K) (lo hi xTol fTol : K) (n : ℕ) (x : K) : Prop :=
  (x = lo ∨ x = hi) ∧ f x = 0 ∨ |f x| ≤ fTol ∨
    ∃ j l r, 1 ≤ j ∧ j ≤ n ∧ Halved f lo hi j l r x ∧ (r - l ≤ xTol ∨ j = n)

variable [IsStrictOrderedRing K]

namespace Halved

theorem first (interval : Straddles f lo hi) :
    Halved f lo hi 1 (changingHalf f lo hi).1 (changingHalf f lo hi).2 (0.5 * (lo + hi)) := by
  obtain ⟨left, right, half, tried, width⟩ := changingHalf_straddles interval
  exact ⟨rfl, left, right, half, by rw [pow_one, width], tried⟩

theorem next (interval : Straddles f lo hi)
    (rest : Halved f (changingHalf f lo hi).1 (changingHalf f lo hi).2 j l r x) :
    Halved f lo hi (j + 1) l r x := by
  obtain ⟨left, right, -, -, width⟩ := changingHalf_straddles interval
  obtain ⟨reached, left', right', half, width', tried⟩ := rest
  refine ⟨reached, left.trans left', right'.trans right, half, ?_, tried⟩
  rw [width', width, div_div, pow_succ']

/-- As many halvings as bring the interval down to a width do so. -/
theorem narrow (after : Halved f lo hi j l r x) (enough : hi - lo ≤ xTol * 2 ^ j) :
    r - l ≤ xTol := by
  rw [after.width]
  exact (div_le_iff₀ (pow_pos two_pos j)).2 enough

/-- A point of the interval is no farther away than its width. -/
theorem near (after : Halved f lo hi j l r x) {z : K} (low : l ≤ z) (high : z ≤ r) :
    |z - x| ≤ r - l := by
  rw [abs_le]
  rcases after.tried with rfl | rfl <;> constructor <;> linarith

end Halved

/-! ## The loop -/

/-- Repeated halving ends where the function is small, or at an end of what is left. -/
theorem halve_meets (interval : Straddles f lo hi) {last : K}
    (returned : halve (known f) xTol fTol (n + 1) lo (f lo) hi last = .ok x) :
    |f x| ≤ fTol ∨
      ∃ j l r, 1 ≤ j ∧ j ≤ n + 1 ∧ Halved f lo hi j l r x ∧ (r - l ≤ xTol ∨ j = n + 1) := by
  induction n generalizing lo hi last with
  | zero =>
    rw [halve_succ] at returned
    split at returned
    · rename_i small
      exact .inl (Except.ok.inj returned ▸ small)
    · obtain rfl : 0.5 * (lo + hi) = x := by
        split at returned <;> exact Except.ok.inj returned
      exact .inr ⟨1, _, _, le_rfl, le_rfl, .first interval, .inr rfl⟩
  | succ n ih =>
    rw [halve_succ] at returned
    split at returned
    · rename_i small
      exact .inl (Except.ok.inj returned ▸ small)
    split at returned
    · rename_i narrow
      obtain rfl : 0.5 * (lo + hi) = x := Except.ok.inj returned
      refine .inr ⟨1, _, _, le_rfl, by omega, .first interval, .inl ?_⟩
      exact (le_abs_self _).trans narrow
    · obtain ⟨-, -, half, -⟩ := changingHalf_straddles interval
      obtain small | ⟨j, l, r, some, within, after, stopped⟩ := ih half returned
      · exact .inl small
      · exact .inr ⟨j + 1, l, r, by omega, by omega, after.next interval,
          stopped.imp_right (congrArg (· + 1))⟩

/-! ## Intervals given by two points in either order -/

omit [IsStrictOrderedRing K] in
theorem bisect_min_max (f : K → K) (a b xTol fTol : K) (n : ℕ) :
    bisect (known f) a b xTol fTol n = bisect (known f) (min a b) (max a b) xTol fTol n := by
  rcases le_total a b with order | order
  · rw [min_eq_left order, max_eq_right order]
  · rw [min_eq_right order, max_eq_left order]
    rcases order.eq_or_lt with rfl | strict
    · rfl
    · simp only [bisect, if_neg strict.not_ge, if_pos order]

theorem bisect_refuses_iff (order : lo ≤ hi) :
    bisect (known f) lo hi xTol fTol n = .error (.noSignChange lo hi) ↔ 0 < f lo * f hi := by
  constructor
  · intro refused
    by_contra change
    obtain ⟨x, returned⟩ := bisect_returns f order change xTol fTol n
    cases refused.symm.trans returned
  · intro same
    exact bisect_of_same_sign f order same xTol fTol n

theorem bisect_meets (order : lo ≤ hi) (change : f lo * f hi ≤ 0) (some : 1 ≤ n) (xTol fTol : K) :
    ∃ x, bisect (known f) lo hi xTol fTol n = .ok x ∧ lo ≤ x ∧ x ≤ hi ∧
      MeetsTolerances f lo hi xTol fTol n x := by
  obtain ⟨n, rfl⟩ := Nat.exists_eq_add_of_le' some
  rw [bisect_known f order, if_neg change.not_gt]
  split
  · rename_i root
    exact ⟨lo, rfl, le_rfl, order, .inl ⟨.inl rfl, root⟩⟩
  split
  · rename_i root
    exact ⟨hi, rfl, order, le_rfl, .inl ⟨.inr rfl, root⟩⟩
  · obtain ⟨x, returned, low, high, -⟩ :=
      halve_locates xTol fTol (n + 1) ⟨order, change⟩ (0.5 * (lo + hi)) nofun
    exact ⟨x, returned, low, high, .inr (halve_meets ⟨order, change⟩ returned)⟩

end

/-! ## Continuous functions of a real number -/

section
variable {f : ℝ → ℝ} {lo hi l r x xTol fTol : ℝ} {j n : ℕ}

theorem Straddles.exists_root (interval : Straddles f l r)
    (continuous : ContinuousOn f (Set.Icc l r)) : ∃ z, l ≤ z ∧ z ≤ r ∧ f z = 0 := by
  have mem : (0 : ℝ) ∈ Set.uIcc (f l) (f r) := by
    rw [Set.mem_uIcc]
    exact (mul_nonpos_iff.1 interval.change).symm.imp id And.symm
  rw [← Set.uIcc_of_le interval.ordered] at continuous
  obtain ⟨z, inside, root⟩ := intermediate_value_uIcc continuous mem
  rw [Set.uIcc_of_le interval.ordered] at inside
  exact ⟨z, inside.1, inside.2, root⟩

/-- There is a root in what is left, no farther away than its width. -/
theorem Halved.exists_root (after : Halved f lo hi j l r x)
    (continuous : ContinuousOn f (Set.Icc lo hi)) :
    ∃ z, l ≤ z ∧ z ≤ r ∧ f z = 0 ∧ |z - x| ≤ r - l := by
  obtain ⟨z, low, high, root⟩ := after.straddles.exists_root
    (continuous.mono (Set.Icc_subset_Icc after.left after.right))
  exact ⟨z, low, high, root, after.near low high⟩

theorem width_le_of_logb {w : ℝ} (positive : 0 < xTol) (enough : Real.logb 2 (w / xTol) ≤ n)
    (nonneg : 0 ≤ w) : w ≤ xTol * 2 ^ n := by
  rcases nonneg.eq_or_lt with rfl | wide
  · positivity
  · rw [Real.logb_le_iff_le_rpow one_lt_two (div_pos wide positive), Real.rpow_natCast,
      div_le_iff₀ positive] at enough
    linarith

/-- A point that meets the tolerances after enough halvings meets one of the two given ones. -/
theorem MeetsTolerances.reaches (met : MeetsTolerances f lo hi xTol fTol n x) (order : lo ≤ hi)
    (nonneg : 0 ≤ fTol) (positive : 0 < xTol) (enough : Real.logb 2 ((hi - lo) / xTol) ≤ n) :
    |f x| ≤ fTol ∨ ∃ j l r, j ≤ n ∧ Halved f lo hi j l r x ∧ r - l ≤ xTol := by
  rcases met with ⟨-, root⟩ | small | ⟨j, l, r, -, within, after, narrow | rfl⟩
  · exact .inl (by rwa [root, abs_zero])
  · exact .inl small
  · exact .inr ⟨j, l, r, within, after, narrow⟩
  · exact .inr ⟨j, l, r, le_rfl, after,
      after.narrow (width_le_of_logb positive enough (sub_nonneg.2 order))⟩

end

/-- Bisection between two points in either order refuses them if the function has one sign at both,
and otherwise returns a point between them that meets the tolerances.  A continuous function has a
root no farther from it than the interval that is left is wide, and as many halvings as the binary
logarithm of the width over the tolerance always reach one of the tolerances. -/
theorem bisect_meets_tolerances :
    (∀ {K : Type} [Field K] [LinearOrder K] [IsStrictOrderedRing K] (f : K → K)
      (a b xTol fTol : K) (n : ℕ), 1 ≤ n →
      (bisect (known f) a b xTol fTol n = .error (.noSignChange (min a b) (max a b)) ↔
        0 < f (min a b) * f (max a b)) ∧
      (¬ 0 < f (min a b) * f (max a b) →
        ∃ x, bisect (known f) a b xTol fTol n = .ok x ∧ min a b ≤ x ∧ x ≤ max a b ∧
          MeetsTolerances f (min a b) (max a b) xTol fTol n x)) ∧
    ∀ (f : ℝ → ℝ) (a b xTol fTol : ℝ) (n : ℕ) (x : ℝ), 1 ≤ n → 0 ≤ fTol →
      bisect (known f) a b xTol fTol n = .ok x →
      (ContinuousOn f (Set.Icc (min a b) (max a b)) →
        ∀ j l r, Halved f (min a b) (max a b) j l r x →
          ∃ z, l ≤ z ∧ z ≤ r ∧ f z = 0 ∧ |z - x| ≤ r - l) ∧
      (0 < xTol → Real.logb 2 ((max a b - min a b) / xTol) ≤ n →
        |f x| ≤ fTol ∨
          ∃ j l r, j ≤ n ∧ Halved f (min a b) (max a b) j l r x ∧ r - l ≤ xTol) := by
  refine ⟨fun f a b xTol fTol n some => ?_, fun f a b xTol fTol n x some nonneg returned => ?_⟩
  · rw [bisect_min_max]
    exact ⟨bisect_refuses_iff min_le_max, fun change =>
      bisect_meets min_le_max (not_lt.1 change) some xTol fTol⟩
  · have met : MeetsTolerances f (min a b) (max a b) xTol fTol n x := by
      rw [bisect_min_max] at returned
      have change : ¬ 0 < f (min a b) * f (max a b) := fun same => by
        cases returned.symm.trans ((bisect_refuses_iff min_le_max).2 same)
      obtain ⟨_, found, -, -, met⟩ := bisect_meets min_le_max (not_lt.1 change) some xTol fTol
      exact Except.ok.inj (found.symm.trans returned) ▸ met
    exact ⟨fun continuous _ _ _ after => after.exists_root continuous,
      fun positive enough => met.reaches min_le_max nonneg positive enough⟩

/-- Three halvings between `2` and `0` bring a root of `t ^ 2 - 2` within a quarter. -/
theorem bisect_meets_tolerances_parabola :
    (∃ x, bisect (known fun t : ℚ => t ^ 2 - 2) 2 0 (1 / 4) 0 3 = .ok x) ∧
      bisect (known fun t : ℚ => t ^ 2 + 1) 2 0 (1 / 4) 0 3 = .error (.noSignChange 0 2) ∧
      ∃ x, bisect (known fun t : ℝ => t ^ 2 - 2) 2 0 (1 / 4) 0 3 = .ok x ∧
        ∃ z : ℝ, z ^ 2 - 2 = 0 ∧ |z - x| ≤ 1 / 4 := by
  obtain ⟨general, continuous⟩ := bisect_meets_tolerances
  have low (K : Type) [Field K] [LinearOrder K] [IsStrictOrderedRing K] : min (2 : K) 0 = 0 :=
    min_eq_right zero_le_two
  have high (K : Type) [Field K] [LinearOrder K] [IsStrictOrderedRing K] : max (2 : K) 0 = 2 :=
    max_eq_left zero_le_two
  refine ⟨?_, ?_, ?_⟩
  · obtain ⟨x, found, -⟩ := (general (fun t : ℚ => t ^ 2 - 2) 2 0 (1 / 4) 0 3 (by norm_num)).2
      (by norm_num)
    exact ⟨x, found⟩
  · have refused := (general (fun t : ℚ => t ^ 2 + 1) 2 0 (1 / 4) 0 3 (by norm_num)).1
    rw [low, high] at refused
    exact refused.2 (by norm_num)
  · obtain ⟨x, found, -⟩ := (general (fun t : ℝ => t ^ 2 - 2) 2 0 (1 / 4) 0 3 (by norm_num)).2
      (by norm_num)
    obtain ⟨roots, reaches⟩ := continuous (fun t => t ^ 2 - 2) 2 0 (1 / 4) 0 3 x (by norm_num) le_rfl
      found
    have eighth : Real.logb 2 ((max (2 : ℝ) 0 - min (2 : ℝ) 0) / (1 / 4)) ≤ (3 : ℕ) := by
      have eight : (max (2 : ℝ) 0 - min (2 : ℝ) 0) / (1 / 4) = 2 ^ 3 := by norm_num
      rw [eight, Real.logb_pow, Real.logb_self_eq_one one_lt_two, mul_one]
    obtain small | ⟨j, l, r, -, after, narrow⟩ := reaches (by norm_num) eighth
    · exact ⟨x, found, x, abs_nonpos_iff.1 small, by norm_num⟩
    · obtain ⟨z, -, -, root, near⟩ := roots (by fun_prop) j l r after
      exact ⟨x, found, z, root, near.trans narrow⟩

end Descent
