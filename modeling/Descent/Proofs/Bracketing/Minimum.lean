/-
# Descent.Proofs.Bracketing.Minimum — which minima the marches enclose

A function is `Unimodal` if it falls strictly up to one point and rises strictly after
it.  Two of its values then tell on which side of the later one the minimum lies:
behind it after a rise (`Unimodal.passed`), and ahead of the earlier one otherwise
(`Unimodal.ahead`).  The three marches keep the last sample but one, or the start, and
stop at the first rise, so the minimum lies strictly between.

What differs is how far they get.  The steps of `bracketMinimum` add up to a geometric
sum, the widths of `bracketMinimumFrom` are powers of the growth factor, and
`bracketTriple` halves its first increment until it is short of the minimum and doubles
it from there on (`marches_enclose`).
-/
import Descent.Proofs.Bracketing.Root

namespace Descent
set_option autoImplicit false

/-- The function falls strictly up to a point and rises strictly after it. -/
structure Unimodal {α : Type} [Preorder α] (f : α → α) (m : α) : Prop where
  falls : StrictAntiOn f (Set.Iic m)
  rises : StrictMonoOn f (Set.Ici m)

namespace Unimodal

section
variable {α : Type} [LinearOrder α] {f : α → α} {m a b : α} (unimodal : Unimodal f m)
include unimodal

theorem lt_of_rise (order : a < b) (rise : f a < f b) : m < b := by
  by_contra! before
  exact rise.asymm (unimodal.falls (order.le.trans before) before order)

theorem lt_of_fall (order : a < b) (fall : f b ≤ f a) : a < m := by
  by_contra! after
  exact fall.not_gt (unimodal.rises after (after.trans order.le) order)

theorem gt_of_rise (order : b < a) (rise : f a < f b) : b < m := by
  by_contra! after
  exact rise.asymm (unimodal.rises after (after.trans order.le) order)

theorem gt_of_fall (order : b < a) (fall : f b ≤ f a) : m < a := by
  by_contra! before
  exact fall.not_gt (unimodal.falls (order.le.trans before) before order)

end

variable {K : Type} [Field K] [LinearOrder K] {f : K → K} {m b : K}
variable [IsStrictOrderedRing K] {step : K}

/-- A step with a rise has passed the minimum. -/
theorem passed (unimodal : Unimodal f m) (moving : step ≠ 0) (rise : f b < f (b + step)) :
    (m - (b + step)) * step < 0 := by
  rcases lt_or_gt_of_ne moving with back | forth
  · have := unimodal.gt_of_rise (add_lt_of_neg_right b back) rise
    exact mul_neg_of_pos_of_neg (sub_pos.2 this) back
  · have := unimodal.lt_of_rise (lt_add_of_pos_right b forth) rise
    exact mul_neg_of_neg_of_pos (sub_neg.2 this) forth

/-- The minimum is ahead of where a step without a rise began. -/
theorem ahead (unimodal : Unimodal f m) (moving : step ≠ 0) (fall : f (b + step) ≤ f b) :
    0 < (m - b) * step := by
  rcases lt_or_gt_of_ne moving with back | forth
  · have := unimodal.gt_of_fall (add_lt_of_neg_right b back) fall
    exact mul_pos_of_neg_of_neg (sub_neg.2 this) back
  · have := unimodal.lt_of_fall (lt_add_of_pos_right b forth) fall
    exact mul_pos (sub_pos.2 this) forth

end Unimodal

variable {K : Type} [Field K] [LinearOrder K] {f : K → K} {m x a b : K}

/-! ## Growing steps in either direction -/

section
variable [IsStrictOrderedRing K] {step growth : K}

/-- Two points with a third one ahead of the first and behind the second. -/
theorem ordered_between {c : K} (ahead : 0 < (m - a) * step) (passed : (m - c) * step < 0) :
    (ordered a c).1 < m ∧ m < (ordered a c).2 := by
  unfold Descent.ordered
  rcases pos_and_pos_or_neg_and_neg_of_mul_pos ahead with ⟨left, forth⟩ | ⟨right, back⟩
  · have after : m < c := sub_neg.1 (neg_of_mul_neg_left passed forth.le)
    rw [if_pos ((sub_pos.1 left).trans after)]
    exact ⟨sub_pos.1 left, after⟩
  · have before : c < m := sub_pos.1 (pos_of_mul_neg_left passed back.le)
    rw [if_neg (before.trans (sub_neg.1 right)).asymm]
    exact ⟨before, sub_neg.1 right⟩

/-- A march towards the minimum encloses it if the steps before its last one reach it. -/
theorem descend_encloses (unimodal : Unimodal f m) (grows : 1 < growth) (n : ℕ) (moving : step ≠ 0)
    (ahead : 0 < (m - a) * step)
    (near : (m - b) * step * (growth - 1) ≤ step * step * (growth ^ n - 1)) :
    ∃ low high, descend (known f) growth (n + 1) a b (f b) step = .ok (some (low, high)) ∧
      low < m ∧ m < high := by
  induction n generalizing a b step with
  | zero =>
    have reached : (m - b) * step ≤ 0 := by
      rw [pow_zero, sub_self, mul_zero] at near
      exact nonpos_of_mul_nonpos_left near (sub_pos.2 grows)
    have rise : f b < f (b + step) := by
      by_contra! fall
      exact reached.not_gt (unimodal.ahead moving fall)
    rw [descend_succ, if_pos rise]
    exact ⟨_, _, rfl, ordered_between ahead (unimodal.passed moving rise)⟩
  | succ n ih =>
    rw [descend_succ]
    split
    · rename_i rise
      exact ⟨_, _, rfl, ordered_between ahead (unimodal.passed moving rise)⟩
    · rename_i fall
      have positive : 0 < growth := zero_lt_one.trans grows
      refine ih (mul_ne_zero moving positive.ne') ?_ ?_
      · rw [← mul_assoc]
        exact mul_pos (unimodal.ahead moving (not_lt.1 fall)) positive
      · -- what is left of the way, in units of the next step
        calc (m - (b + step)) * (step * growth) * (growth - 1)
            = growth * ((m - b) * step * (growth - 1) - step * step * (growth - 1)) := by ring
          _ ≤ growth * (step * step * (growth ^ (n + 1) - 1) - step * step * (growth - 1)) := by
            gcongr
          _ = step * growth * (step * growth) * (growth ^ n - 1) := by ring

/-- The distance at which a march can turn round, as the march takes it. -/
theorem near_along {n : ℕ} {s : K} (grows : 1 < growth) (size : |s| = |step|)
    (near : |m - x| ≤ |step| * ((growth ^ n - 1) / (growth - 1))) :
    (m - x) * s * (growth - 1) ≤ s * s * (growth ^ n - 1) := by
  have wide : 0 < growth - 1 := sub_pos.2 grows
  calc (m - x) * s * (growth - 1)
      ≤ |m - x| * |s| * (growth - 1) := by
        rw [← abs_mul]
        gcongr
        exact le_abs_self _
    _ ≤ |s| * ((growth ^ n - 1) / (growth - 1)) * |s| * (growth - 1) := by
        rw [size]
        gcongr
    _ = s * s * (growth ^ n - 1) := by
        rw [← abs_mul_abs_self s]
        field_simp

theorem bracketMinimum_encloses (unimodal : Unimodal f m) {march : March K}
    (moves : march.step ≠ 0) (grows : 1 < march.growth)
    (near : |m - x| ≤ |march.step| *
      ((march.growth ^ ((march.moves : ℤ) - 1) - 1) / (march.growth - 1))) :
    ∃ a c, bracketMinimum (known f) x march = .ok (a, c) ∧ a < m ∧ m < c := by
  obtain ⟨n, count⟩ : ∃ n, march.moves = n + 1 := by
    -- without any moves the bound on the distance is negative
    refine Nat.exists_eq_succ_of_ne_zero fun none => ?_
    have less : march.growth ^ ((0 : ℕ) - 1 : ℤ) < 1 := zpow_lt_one_of_neg₀ grows (by norm_num)
    have negative := div_neg_of_neg_of_pos (sub_neg.2 less) (sub_pos.2 grows)
    rw [none] at near
    exact (abs_nonneg (m - x)).not_gt
      (near.trans_lt (mul_neg_of_pos_of_neg (abs_pos.2 moves) negative))
  rw [count, Nat.cast_succ, add_sub_cancel_right, zpow_natCast] at near
  have positive : 0 < march.step * march.step := mul_self_pos.2 moves
  simp only [bracketMinimum, check_march moves grows (by omega), ofExcept_plain, ok_bind, known,
    count]
  split
  · -- the first probe has passed the minimum, and the march goes the other way
    rename_i rise
    have passed := unimodal.passed moves rise
    obtain ⟨low, high, found, enclosed⟩ := descend_encloses (a := x + march.step) unimodal grows n
      (neg_ne_zero.2 moves) (by linarith) (near_along grows (abs_neg _) near)
    rw [found]
    exact ⟨low, high, rfl, enclosed⟩
  · rename_i fall
    have near := near_along grows rfl near
    have closer : 0 ≤ march.step * march.step * (march.growth - 1) :=
      (mul_pos positive (sub_pos.2 grows)).le
    obtain ⟨low, high, found, enclosed⟩ := descend_encloses (b := x + march.step) unimodal grows n
      moves (unimodal.ahead moves (not_lt.1 fall)) (by linarith)
    rw [found]
    exact ⟨low, high, rfl, enclosed⟩

/-! ## Growing widths -/

/-- The right end is beyond the minimum when the width before the last one reaches it. -/
theorem widen_encloses (unimodal : Unimodal f m) (grows : 1 < growth) (n : ℕ) {p width : K}
    (positive : 0 < width) (order : p < x + width) (near : m ≤ x + width * growth ^ n) :
    ∃ c, widen (known f) x growth (n + 2) (f p) width = .ok (some c) ∧ m < c := by
  have wider : 0 < width * growth := mul_pos positive (zero_lt_one.trans grows)
  have onward : x + width < x + width * growth :=
    add_lt_add_right (lt_mul_of_one_lt_right positive grows) x
  induction n generalizing p width with
  | zero =>
    rw [widen_succ]
    split
    · rename_i rise
      exact ⟨_, rfl, unimodal.lt_of_rise order rise⟩
    · -- the sample is at the minimum or after it, so the next one rises
      rw [pow_zero, mul_one] at near
      have rise : f (x + width) < f (x + width * growth) := by
        by_contra! fall
        exact near.not_gt (unimodal.lt_of_fall onward fall)
      rw [widen_succ, if_pos rise]
      exact ⟨_, rfl, near.trans_lt onward⟩
  | succ n ih =>
    rw [widen_succ]
    split
    · rename_i rise
      exact ⟨_, rfl, unimodal.lt_of_rise order rise⟩
    · rw [pow_succ', ← mul_assoc] at near
      exact ih wider onward near (mul_pos wider (zero_lt_one.trans grows))
        (add_lt_add_right (lt_mul_of_one_lt_right wider grows) x)

theorem bracketMinimumFrom_encloses (unimodal : Unimodal f m) {march : March K}
    (moves : 0 < march.step) (grows : 1 < march.growth) (some_moves : 2 ≤ march.moves)
    (near : m ≤ x + march.step * march.growth ^ (march.moves - 2)) :
    ∃ c, bracketMinimumFrom (known f) x march = .ok (x, c) ∧ m < c := by
  obtain ⟨n, count⟩ : ∃ n, march.moves = n + 2 := ⟨march.moves - 2, by omega⟩
  rw [count, Nat.add_sub_cancel] at near
  obtain ⟨c, found, beyond⟩ :=
    widen_encloses unimodal grows n moves (lt_add_of_pos_right x moves) near
  simp only [bracketMinimumFrom, check_march moves.ne' grows (by omega), ofExcept_plain, ok_bind,
    known, count]
  rw [found]
  exact ⟨c, rfl, beyond⟩

/-! ## A halving prelude and doubling increments -/

/-- The increment is halved until it is short of the minimum, at the latest. -/
theorem firstDescent_finds (unimodal : Unimodal f m) (halvings : ℕ) {δ : K} (positive : 0 < δ)
    (short : δ / 2 ^ halvings ≤ m - x) :
    ∃ d, firstDescent (known f) x (f x) halvings δ = .ok (x + d, f (x + d), d) ∧ 0 < d ∧
      δ / 2 ^ halvings ≤ d ∧ f (x + d) < f x := by
  induction halvings generalizing δ with
  | zero =>
    rw [pow_zero, div_one] at short ⊢
    have reaches : x + δ ≤ m := by linarith
    have falls : f (x + δ) < f x :=
      unimodal.falls (by simpa using (by linarith : x ≤ m)) reaches (lt_add_of_pos_right x positive)
    rw [firstDescent_step, if_pos falls]
    exact ⟨δ, rfl, positive, le_rfl, falls⟩
  | succ halvings ih =>
    rw [firstDescent_step]
    split
    · rename_i falls
      exact ⟨δ, rfl, positive, div_le_self positive.le (one_le_pow₀ one_le_two), falls⟩
    · have half : δ / 2.0 = δ / 2 := by norm_num
      rw [half]
      rw [pow_succ', ← div_div] at short ⊢
      exact ih (half_pos positive) short

/-- Three points with the least value in the middle, the outer ones around the minimum. -/
structure EnclosingTriple (f : K → K) (m a b c : K) : Prop where
  left : a < b
  right : b < c
  after : a < m
  before : m < c
  falls : f b ≤ f a
  rises : f b < f c

theorem ascend_stops (unimodal : Unimodal f m) (n : ℕ) {increment : K} (positive : 0 < increment)
    (order : a < b) (fall : f b ≤ f a) (rise : f b < f (b + increment * 2.0)) :
    ∃ a' b' c', ascend (known f) (n + 1) a b (f b) increment = .ok (some (a', b', c')) ∧
      EnclosingTriple f m a' b' c' := by
  have onward : b < b + increment * 2.0 := lt_add_of_pos_right b (mul_pos positive (by norm_num))
  rw [ascend_succ, if_pos rise]
  exact ⟨a, b, _, rfl, order, onward, unimodal.lt_of_fall order fall,
    unimodal.lt_of_rise onward rise, fall, rise⟩

/-- The march for three points ends around the minimum if the increments before its last one reach
it. -/
theorem ascend_encloses (unimodal : Unimodal f m) (n : ℕ) {increment : K} (positive : 0 < increment)
    (order : a < b) (fall : f b ≤ f a) (near : m - b ≤ increment * (2 ^ (n + 1) - 2)) :
    ∃ a' b' c', ascend (known f) (n + 1) a b (f b) increment = .ok (some (a', b', c')) ∧
      EnclosingTriple f m a' b' c' := by
  induction n generalizing a b increment with
  | zero =>
    have onward : b < b + increment * 2.0 := lt_add_of_pos_right b (mul_pos positive (by norm_num))
    have reached : m ≤ b := by
      rw [zero_add, pow_one, sub_self, mul_zero] at near
      exact sub_nonpos.1 near
    refine ascend_stops unimodal 0 positive order fall ?_
    by_contra! level
    exact reached.not_gt (unimodal.lt_of_fall onward level)
  | succ n ih =>
    by_cases rise : f b < f (b + increment * 2.0)
    · exact ascend_stops unimodal (n + 1) positive order fall rise
    · have double : increment * 2.0 = increment * 2 := by norm_num
      rw [ascend_succ, if_neg rise]
      rw [double] at rise ⊢
      refine ih (by linarith) (by linarith) (not_lt.1 rise) ?_
      rw [pow_succ] at near
      linarith

theorem bracketTriple_encloses (unimodal : Unimodal f m) {δ : K} {moves : ℕ} (positive : 0 < δ)
    (short : δ / 32 ≤ m - x) (near : m - x ≤ δ / 32 * (2 ^ moves - 1)) :
    ∃ a b c, bracketTriple (known f) x δ moves = .ok (a, b, c) ∧ EnclosingTriple f m a b c := by
  obtain ⟨n, rfl⟩ : ∃ n, moves = n + 1 := by
    refine Nat.exists_eq_succ_of_ne_zero ?_
    rintro rfl
    linarith
  have thirtieth : δ / 2 ^ 5 = δ / 32 := by norm_num
  obtain ⟨d, descended, forth, least, falls⟩ :=
    firstDescent_finds unimodal 5 positive (thirtieth.trans_le short)
  rw [thirtieth] at least
  have doubled : (0 : K) ≤ 2 ^ (n + 1) - 1 := sub_nonneg.2 (one_le_pow₀ one_le_two)
  have reached : m - (x + d) ≤ d * (2 ^ (n + 1) - 2) := by
    have := mul_le_mul_of_nonneg_right least doubled
    linarith
  obtain ⟨a, b, c, ascended, enclosing⟩ :=
    ascend_encloses unimodal n forth (lt_add_of_pos_right x forth) falls.le reached
  simp only [bracketTriple, positive.not_ge, if_false, known, ok_bind, pure_ok]
  exact ⟨a, b, c, by rw [descended, ok_bind, ascended]; rfl, enclosing⟩

/-- Every march encloses the minimum of a unimodal function that is within its reach: a geometric sum
of its steps to either side, its last width but one to the right, and the sum of its doubling
increments to the right, counted from the least one. -/
theorem marches_enclose (unimodal : Unimodal f m) (x : K) :
    (∀ march : March K, march.step ≠ 0 → 1 < march.growth →
      |m - x| ≤ |march.step| *
        ((march.growth ^ ((march.moves : ℤ) - 1) - 1) / (march.growth - 1)) →
      ∃ a c, bracketMinimum (known f) x march = .ok (a, c) ∧ a < m ∧ m < c) ∧
    (∀ march : March K, 0 < march.step → 1 < march.growth → 2 ≤ march.moves → x < m →
      m ≤ x + march.step * march.growth ^ (march.moves - 2) →
      ∃ c, bracketMinimumFrom (known f) x march = .ok (x, c) ∧ x < m ∧ m < c) ∧
    ∀ (δ : K) (moves : ℕ), 0 < δ → δ / 32 ≤ m - x → m - x ≤ δ / 32 * (2 ^ moves - 1) →
      ∃ a b c, bracketTriple (known f) x δ moves = .ok (a, b, c) ∧ a < b ∧ b < c ∧ a < m ∧ m < c ∧
        f b ≤ f a ∧ f b < f c := by
  refine ⟨fun march moves grows near => bracketMinimum_encloses unimodal moves grows near, ?_, ?_⟩
  · intro march moves grows some_moves after near
    obtain ⟨c, found, before⟩ := bracketMinimumFrom_encloses unimodal moves grows some_moves near
    exact ⟨c, found, after, before⟩
  · intro δ moves positive short near
    obtain ⟨a, b, c, found, enclosing⟩ := bracketTriple_encloses unimodal positive short near
    exact ⟨a, b, c, found, enclosing.left, enclosing.right, enclosing.after, enclosing.before,
      enclosing.falls, enclosing.rises⟩

theorem unimodal_distance (m : K) : Unimodal (fun t => |t - m|) m where
  falls a _ b before order := by
    have before : b ≤ m := before
    change |b - m| < |a - m|
    rw [abs_of_nonpos (sub_nonpos.2 before), abs_of_neg (by linarith)]
    linarith
  rises a after b _ order := by
    have after : m ≤ a := after
    change |a - m| < |b - m|
    rw [abs_of_nonneg (sub_nonneg.2 after), abs_of_pos (by linarith)]
    linarith

/-- From zero, the distance from a point has its minimum within reach of every march: at the very end
of it to the left, and to the right of it. -/
theorem marches_enclose_distance :
    (∃ a c, bracketMinimum (known fun t : ℚ => |t - -3|) 0 ⟨1, 2, 3⟩ = .ok (a, c) ∧
      a < -3 ∧ -3 < c) ∧
    (∃ c, bracketMinimumFrom (known fun t : ℚ => |t - 2|) 0 ⟨1, 2, 3⟩ = .ok (0, c) ∧
      0 < (2 : ℚ) ∧ 2 < c) ∧
    ∃ a b c, bracketTriple (known fun t : ℚ => |t - 7|) 0 32 3 = .ok (a, b, c) ∧ a < b ∧ b < c ∧
      a < 7 ∧ 7 < c ∧ |b - 7| ≤ |a - 7| ∧ |b - 7| < |c - 7| := by
  refine ⟨?_, ?_, ?_⟩
  · exact (marches_enclose (unimodal_distance (-3)) 0).1 ⟨1, 2, 3⟩ one_ne_zero one_lt_two
      (by norm_num [abs_of_neg])
  · exact (marches_enclose (unimodal_distance 2) 0).2.1 ⟨1, 2, 3⟩ one_pos one_lt_two
      (by norm_num) two_pos (by norm_num)
  · exact (marches_enclose (unimodal_distance 7) 0).2.2 32 3 (by norm_num) (by norm_num)
      (by norm_num)

end

end Descent
