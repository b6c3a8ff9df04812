/-
# Descent.Proofs.LineSearch.Convex — bisection of the slope along a convex ray

The march that bisection starts from compares values and never looks at the slope, so
along an arbitrary ray its interval may hold no change of sign.  Along a convex ray it
always does.  A convex function lies above each of its tangents (`ConvexRay.tangent_le`),
so two values tell the sign of the slope at one of their points, and the three samples
that stop the march tell it at both ends (`descend_slopes`).

The march may still turn round.  It does so when its first probe rises, and as the ray
starts downhill it rises on the other side as well: the interval is then as far as one
step to either side of zero, the slope is negative at its left end and at zero, and the
first halving takes bisection back to the right (`bisect_turned`).
-/
import Descent.Proofs.Bracketing.Tolerance
import Descent.Proofs.LineSearch.Forward
import Mathlib.Analysis.Calculus.Darboux
import Mathlib.Analysis.Convex.Deriv

namespace Descent
set_option autoImplicit false

/-- A convex function of the step length and its derivative. -/
structure ConvexRay (f d : ℝ → ℝ) : Prop where
  convex : ConvexOn ℝ Set.univ f
  slope : ∀ t, HasDerivAt f (d t) t

namespace ConvexRay

variable {f d : ℝ → ℝ} {a b : ℝ} (ray : ConvexRay f d)
include ray

theorem tangent_le (a b : ℝ) : f a + d a * (b - a) ≤ f b := by
  rcases lt_trichotomy a b with before | rfl | after
  · have secant := ray.convex.le_slope_of_hasDerivAt (Set.mem_univ a) (Set.mem_univ b) before
      (ray.slope a)
    rw [slope_def_field, le_div_iff₀ (sub_pos.2 before)] at secant
    linarith
  · rw [sub_self, mul_zero, add_zero]
  · have secant := ray.convex.slope_le_of_hasDerivAt (Set.mem_univ b) (Set.mem_univ a) after
      (ray.slope a)
    rw [slope_def_field, div_le_iff₀ (sub_pos.2 after)] at secant
    linarith

theorem slope_le (order : a < b) : d a ≤ d b := by
  have left := ray.tangent_le a b
  have right := ray.tangent_le b a
  have both : d a * (b - a) ≤ d b * (b - a) := by linarith
  exact le_of_mul_le_mul_right both (sub_pos.2 order)

/-- A function that does not rise from a point on does not have a rising slope there. -/
theorem slope_nonpos (order : a < b) (fall : f b ≤ f a) : d a ≤ 0 := by
  have tangent := ray.tangent_le a b
  have nonpos : d a * (b - a) ≤ 0 := by linarith
  exact nonpos_of_mul_nonpos_left nonpos (sub_pos.2 order)

/-- A function that has risen up to a point has a rising slope there. -/
theorem slope_pos (order : a < b) (rise : f a < f b) : 0 < d b := by
  have tangent := ray.tangent_le b a
  have positive : 0 < d b * (b - a) := by linarith
  exact pos_of_mul_pos_left positive (sub_pos.2 order).le

/-- A slope that changes sign has a zero on the way, continuous or not. -/
theorem exists_stationary (interval : Straddles d a b) : ∃ z, a ≤ z ∧ z ≤ b ∧ d z = 0 := by
  obtain ⟨order, change⟩ := interval
  have inside (t : ℝ) : t ∈ Set.Icc a b → HasDerivWithinAt f (d t) (Set.Icc a b) t :=
    fun _ => (ray.slope t).hasDerivWithinAt
  have between : ∃ z ∈ Set.Icc a b, d z = 0 := by
    rcases mul_nonpos_iff.1 change with ⟨left, right⟩ | ⟨left, right⟩
    · -- the slope does not fall, so it is zero at both ends
      rcases order.eq_or_lt with rfl | wide
      · exact ⟨a, Set.left_mem_Icc.2 le_rfl, right.antisymm left⟩
      · exact ⟨a, Set.left_mem_Icc.2 order, ((ray.slope_le wide).trans right).antisymm left⟩
    · exact exists_hasDerivWithinAt_eq_of_ge_of_le order inside left right
  obtain ⟨z, ⟨low, high⟩, root⟩ := between
  exact ⟨z, low, high, root⟩

/-! ## The slopes at the ends of a march -/

/-- A march to the right keeps a last move without a rise, and stops at a rise. -/
theorem descend_slopes {growth : ℝ} (grows : 0 < growth) (moves : ℕ) {step low high : ℝ}
    (order : a < b) (moving : 0 < step) (fall : f b ≤ f a)
    (found : descend (known f) growth moves a b (f b) step = .ok (some (low, high))) :
    d low ≤ 0 ∧ 0 < d high := by
  induction moves generalizing a b step with
  | zero => cases found
  | succ moves ih =>
    have next : b < b + step := lt_add_of_pos_right b moving
    rw [descend_succ] at found
    split at found
    · rename_i rise
      rw [ordered, if_pos (order.trans next)] at found
      cases found
      exact ⟨ray.slope_nonpos order fall, ray.slope_pos next rise⟩
    · rename_i level
      exact ih next (mul_pos moving grows) (not_lt.1 level) found

/-- Along a ray that starts downhill a march either goes on to the right of zero, or turns round and
stops at once; the slope changes sign over its interval either way. -/
theorem bracketMinimum_slopes {s : ℝ} (moves : 0 < s) (descends : d 0 < 0)
    (found : bracketMinimum (known f) 0 (.doubling s) = .ok (a, b)) :
    d a ≤ 0 ∧ 0 < d b ∧ (0 ≤ a ∨ a = -s ∧ b = s) := by
  rcases lt_or_ge (f 0) (f s) with rise | fall
  · have turned : f 0 < f (-s) := by
      have tangent := ray.tangent_le 0 (-s)
      have lift := mul_pos_of_neg_of_neg descends (neg_lt_zero.2 moves)
      rw [sub_zero] at tangent
      linarith
    rw [bracketMinimum_of_turn moves rise turned] at found
    cases found
    exact ⟨(ray.slope_le (neg_lt_zero.2 moves)).trans descends.le, ray.slope_pos moves rise,
      .inr ⟨rfl, rfl⟩⟩
  · obtain ⟨-, ⟨-, right⟩ | ⟨rise, -⟩⟩ := bracketMinimum_side f moves found
    · have growth : (0 : ℝ) < (March.doubling s).growth := by norm_num [March.doubling]
      have first : (March.doubling s).step = s := rfl
      simp only [bracketMinimum, check_doubling moves, ofExcept_plain, ok_bind, known, zero_add,
        first, if_neg fall.not_gt] at found
      obtain ⟨_ | _, walked, rest⟩ := bind_eq_ok.1 found
      · cases rest
      · cases rest
        obtain ⟨left, rising⟩ := ray.descend_slopes growth _ moves moves fall walked
        exact ⟨left, rising, .inl right⟩
    · exact absurd rise fall.not_gt

end ConvexRay

/-! ## Back to the right of zero -/

/-- Around zero, bisection ends on the right of it if the function is negative up to zero and
positive at the right end, or at zero itself if the first halving was the last. -/
theorem bisect_turned {K : Type} [Field K] [LinearOrder K] [IsStrictOrderedRing K] {f : K → K}
    {s t xTol fTol : K} {n : ℕ} (ahead : 0 < s) (steep : fTol < |f 0|) (back : f (-s) < 0)
    (falls : f 0 < 0) (rises : 0 < f s) (some : 1 ≤ n)
    (returned : bisect (known f) (-s) s xTol fTol n = .ok t) :
    0 ≤ t ∧ (xTol < s → 2 ≤ n → 0 < t) := by
  obtain ⟨n, rfl⟩ := Nat.exists_eq_add_of_le' some
  rw [bisect_known f (by linarith), if_neg back.ne, if_neg rises.ne',
    if_neg (mul_neg_of_neg_of_pos back rises).not_gt] at returned
  obtain ⟨forward, onward⟩ := halve_turned ahead steep falls returned back
  exact ⟨forward, fun broad two => onward broad (by omega)⟩

namespace LineSearch

/-- What bisection of the slope makes of the interval of a march: a step length in it that is not
negative, where the slope is small or near which there is a stationary point. -/
structure Settles (c : LineSearch ℝ) (d : ℝ → ℝ) (a b t : ℝ) : Prop where
  left : a ≤ t
  right : t ≤ b
  forward : 0 ≤ t
  onward : c.tol < c.s → 2 ≤ c.maxIterations → 0 < t
  stationary : |d t| ≤ c.tol ∨ ∃ z w, a ≤ z ∧ z ≤ b ∧ d z = 0 ∧ |z - t| ≤ w ∧
    (w ≤ c.tol ∨ w = (b - a) / 2 ^ c.maxIterations.toNat)

variable {c : LineSearch ℝ} {f d : ℝ → ℝ} {a b t alpha₀ : ℝ}

/-- Points that meet the tolerances are near a stationary point. -/
theorem stationary_of_meets (valid : c.check = .ok c) (ray : ConvexRay f d)
    (met : MeetsTolerances d a b c.tol c.tol c.maxIterations.toNat t) :
    |d t| ≤ c.tol ∨ ∃ z w, a ≤ z ∧ z ≤ b ∧ d z = 0 ∧ |z - t| ≤ w ∧
      (w ≤ c.tol ∨ w = (b - a) / 2 ^ c.maxIterations.toNat) := by
  have tol := (check_ok_iff.1 valid).tol
  obtain ⟨-, root⟩ | small | ⟨j, l, r, -, -, after, stopped⟩ := met
  · exact .inl (by rw [root, abs_zero]; exact tol.le)
  · exact .inl small
  · obtain ⟨z, low, high, root⟩ := ray.exists_stationary after.straddles
    refine .inr ⟨z, r - l, after.left.trans low, high.trans after.right, root,
      after.near low high, stopped.imp_right ?_⟩
    rintro rfl
    exact after.width

/-- Bisection settles in every interval of a march. -/
theorem bisect_settles (valid : c.check = .ok c) (ray : ConvexRay f d)
    (descends : d 0 < -c.tol)
    (interval : bracketMinimum (known f) 0 (.doubling c.s) = .ok (a, b)) :
    ∃ t, bisect (known d) a b c.tol c.tol c.maxIterations.toNat = .ok t ∧ c.Settles d a b t := by
  have some := trials_of_check valid
  have tol := (check_ok_iff.1 valid).tol
  have moves := (check_ok_iff.1 valid).moves
  have falls : d 0 < 0 := by linarith
  obtain ⟨falling, rising, side⟩ := ray.bracketMinimum_slopes moves falls interval
  obtain ⟨wide, -⟩ := bracketMinimum_side f moves interval
  obtain ⟨t, returned, left, right, met⟩ := bisect_meets wide.le
    (mul_nonpos_of_nonpos_of_nonneg falling rising.le) some c.tol c.tol
  have forward : 0 ≤ t ∧ (c.tol < c.s → 2 ≤ c.maxIterations.toNat → 0 < t) := by
    rcases side with ahead | ⟨rfl, rfl⟩
    · have positive := bisect_pos wide ahead falls.ne some returned
      exact ⟨positive.le, fun _ _ => positive⟩
    · have steep : c.tol < |d 0| := by
        rw [abs_of_neg falls]
        linarith
      have back : d (-c.s) < 0 := (ray.slope_le (neg_lt_zero.2 moves)).trans_lt falls
      exact bisect_turned moves steep back falls rising some returned
  exact ⟨t, returned, left, right, forward.1, fun broad two => forward.2 broad (by omega),
    stationary_of_meets valid ray met⟩

/-- Bisection of the slope along a convex ray that starts downhill returns a step length.  It takes
the first one where the slope is flat there, and leaves the search to backtracking where the march
finds no interval; otherwise it settles in the interval. -/
theorem search_settles (valid : c.check = .ok c) (kind : c.kind = .bisection)
    (ray : ConvexRay f d) (descends : d 0 < -c.tol) (alpha₀ : ℝ) :
    ∃ t, c.search (.known f d) alpha₀ = .ok t ∧
      (|d alpha₀| < c.tol ∧ t = alpha₀ ∨
        c.tol ≤ |d alpha₀| ∧ (∃ e, bracketMinimum (known f) 0 (.doubling c.s) = .error e) ∧
          backtrack (.known f d) alpha₀ c = .ok t ∨
        c.tol ≤ |d alpha₀| ∧ ∃ a b, bracketMinimum (known f) 0 (.doubling c.s) = .ok (a, b) ∧
          c.Settles d a b t) := by
  have moves := (check_ok_iff.1 valid).moves
  have tol := (check_ok_iff.1 valid).tol
  have start : c.tol ≤ |d 0| := by
    rw [abs_of_neg (by linarith)]
    linarith
  simp only [search, kind, bisectSlope_known]
  by_cases flat : |d alpha₀| < c.tol
  · rw [if_neg fun steep : c.Steep d alpha₀ => flat.not_ge steep.2]
    exact ⟨alpha₀, rfl, .inl ⟨flat, rfl⟩⟩
  · have steep : c.tol ≤ |d alpha₀| := not_lt.1 flat
    rw [if_pos ⟨start, steep⟩]
    cases interval : bracketMinimum (known f) 0 (.doubling c.s) with
    | error e =>
      obtain ⟨t, returned⟩ := backtrack_returns f d alpha₀ c
      rw [onBracket_error _ _ _ _ (interval ▸ bracketMinimum_only f 0 moves) rfl]
      exact ⟨t, returned, .inr (.inl ⟨steep, ⟨e, rfl⟩, returned⟩)⟩
    | ok ends =>
      obtain ⟨a, b⟩ := ends
      obtain ⟨t, returned, settled⟩ := bisect_settles valid ray descends interval
      rw [onBracket_ok _ _ _ _ rfl]
      exact ⟨t, returned, .inr (.inr ⟨steep, a, b, rfl, settled⟩)⟩

/-- A parabola that opens upwards is convex. -/
theorem convexRay_parabola {k : ℝ} (opens : 0 ≤ k) (m : ℝ) :
    ConvexRay (fun t => k * (t - m) ^ 2) fun t => k * (2 * (t - m)) where
  convex := by
    refine ⟨convex_univ, fun x _ y _ p q left right whole => ?_⟩
    have gap : 0 ≤ k * (p * q * (x - y) ^ 2) := by positivity
    obtain rfl : q = 1 - p := by linarith
    simp only [smul_eq_mul]
    linarith
  slope t := by
    refine ((((hasDerivAt_id t).sub_const m).pow 2).const_mul k).congr_deriv ?_
    norm_num

/-- A parabola whose vertex the first probe passes by. -/
theorem search_settles_parabola :
    bracketMinimum (known fun t : ℝ => 2 * (t - 1 / 4) ^ 2) 0 (.doubling bisecting.s) =
        .ok (-1, 1) ∧
      ∃ t, bisecting.search
          (.known (fun t : ℝ => 2 * (t - 1 / 4) ^ 2) fun t => 2 * (2 * (t - 1 / 4))) 1 = .ok t ∧
        bisecting.Settles (fun t => 2 * (2 * (t - 1 / 4))) (-1) 1 t ∧ 0 < t := by
  have interval : bracketMinimum (known fun t : ℝ => 2 * (t - 1 / 4) ^ 2) 0
      (.doubling bisecting.s) = .ok (-1, 1) :=
    bracketMinimum_of_turn one_pos (by norm_num [bisecting]) (by norm_num [bisecting])
  have descends : (2 : ℝ) * (2 * (0 - 1 / 4)) < -bisecting.tol := by
    norm_num [bisecting, standard]
  obtain ⟨t, found, flat | ⟨-, ⟨e, lost⟩, -⟩ | ⟨-, a, b, interval', settled⟩⟩ :=
    search_settles check_bisecting rfl (convexRay_parabola zero_le_two (1 / 4)) descends 1
  · norm_num [bisecting, standard] at flat
  · cases interval.symm.trans lost
  · cases interval.symm.trans interval'
    exact ⟨interval, t, found, settled,
      settled.onward (by norm_num [bisecting, standard]) (by norm_num [bisecting, standard])⟩

end LineSearch

end Descent
