/-
# Descent.Proofs.LineSearch.Forward — line searches that step backwards

A step length is found along a ray that starts downhill, so it should not be negative.
Three of the policies see to that by where they look: backtracking multiplies a positive
step length by a positive factor, and both interpolating policies march to the right of
zero and keep every later point strictly inside their bracket (`Bracket` and
`Triple.Increasing` are the invariants of the two loops).

Bisection of the slope takes the interval of `bracketMinimum`, and that march turns round
when its first probe rises.  The interval then reaches to the left of zero, and may hold
a stationary point there and no other.  `Reversed` says for which intervals bisection
ends at a negative step length, and `search_reverses_iff` that there are no other cases.
-/
import Descent.Proofs.Bracketing.Bisection
import Descent.Proofs.LineSearch.Stranded

namespace Descent
set_option autoImplicit false

variable {K : Type} [Field K] [LinearOrder K] {f d : K → K} {t : K}

/-! ## Intervals in the direction of a march -/

/-- A march goes on in its direction: both ends of the interval lie ahead of where it started. -/
theorem descend_ahead [IsStrictOrderedRing K] (f : K → K) {growth : K} (grows : 0 < growth)
    (moves : ℕ) {a b fb step low high : K} (moving : step ≠ 0) (ahead : 0 ≤ (b - a) * step)
    (found : descend (known f) growth moves a b fb step = .ok (some (low, high))) :
    low < high ∧ 0 ≤ (low - a) * step ∧ 0 ≤ (high - a) * step := by
  induction moves generalizing a b fb step with
  | zero => cases found
  | succ moves ih =>
    have positive : 0 < step * step := mul_self_pos.2 moving
    rw [descend_succ] at found
    split at found
    · -- the interval has the ends `a` and `b + step`
      have farther : 0 < (b + step - a) * step := by linarith
      have apart : a ≠ b + step := by
        rintro same
        rw [← same, sub_self, zero_mul] at farther
        exact farther.false
      simp only [ordered, Except.ok.injEq, Option.some.injEq] at found
      split at found <;> obtain ⟨rfl, rfl⟩ := Prod.mk.inj found
      · rename_i increasing
        exact ⟨increasing, by rw [sub_self, zero_mul], farther.le⟩
      · rename_i decreasing
        exact ⟨lt_of_le_of_ne (not_lt.1 decreasing) apart.symm, farther.le,
          by rw [sub_self, zero_mul]⟩
    · have onward : 0 ≤ (b + step - b) * (step * growth) := by
        rw [add_sub_cancel_left, ← mul_assoc]
        exact (mul_pos positive grows).le
      obtain ⟨increasing, left, right⟩ := ih (mul_ne_zero moving grows.ne') onward found
      rw [← mul_assoc] at left right
      have left := nonneg_of_mul_nonneg_left left grows
      have right := nonneg_of_mul_nonneg_left right grows
      exact ⟨increasing, by linarith, by linarith⟩

/-- The interval of a minimum lies on the right of zero, unless the first probe rises; then it
reaches as far to either side, or lies on the left. -/
theorem bracketMinimum_side [IsStrictOrderedRing K] (f : K → K) {s a b : K} (moves : 0 < s)
    (found : bracketMinimum (known f) 0 (.doubling s) = .ok (a, b)) :
    a < b ∧ (f s ≤ f 0 ∧ 0 ≤ a ∨ f 0 < f s ∧ (a = -s ∧ b = s ∨ b ≤ 0)) := by
  have growth : (0 : K) < (March.doubling s).growth := by norm_num [March.doubling]
  have hundred : (March.doubling s).moves = 99 + 1 := rfl
  have first : (March.doubling s).step = s := rfl
  simp only [bracketMinimum, check_doubling moves, ofExcept_plain, ok_bind, known, zero_add,
    first] at found
  split at found
  all_goals
    obtain ⟨_ | _, walked, rest⟩ := bind_eq_ok.1 found
    · cases rest
    cases rest
  · rename_i rises
    rw [hundred, descend_succ, zero_add] at walked
    split at walked
    · have turned : -s < s := by linarith
      simp only [ordered, turned.not_gt, if_false, Except.ok.injEq, Option.some.injEq,
        Prod.mk.injEq] at walked
      obtain ⟨rfl, rfl⟩ := walked
      exact ⟨turned, .inr ⟨rises, .inl ⟨rfl, rfl⟩⟩⟩
    · have back : -s * (March.doubling s).growth < 0 := mul_neg_of_neg_of_pos (by linarith) growth
      obtain ⟨increasing, -, right⟩ := descend_ahead f growth 99 back.ne
        (by rw [sub_zero]; exact (mul_pos_of_neg_of_neg (by linarith) back).le) walked
      rw [sub_zero] at right
      exact ⟨increasing, .inr ⟨rises, .inr (nonpos_of_mul_nonneg_left right back)⟩⟩
  · rename_i falls
    obtain ⟨increasing, left, -⟩ := descend_ahead f growth _ moves.ne'
      (by rw [sub_zero]; exact (mul_pos moves moves).le) walked
    rw [sub_zero] at left
    exact ⟨increasing, .inl ⟨not_lt.1 falls, nonneg_of_mul_nonneg_left left moves⟩⟩

/-- A march that turns round, and meets a rise on the other side at once. -/
theorem bracketMinimum_of_turn [IsStrictOrderedRing K] {s : K} (moves : 0 < s) (rises : f 0 < f s)
    (turned : f 0 < f (-s)) : bracketMinimum (known f) 0 (.doubling s) = .ok (-s, s) := by
  have first : (March.doubling s).step = s := rfl
  have hundred : (March.doubling s).moves = 99 + 1 := rfl
  have order : ¬ s < -s := by linarith
  simp only [bracketMinimum, check_doubling moves, ofExcept_plain, ok_bind, known, first, zero_add]
  rw [if_pos rises, hundred, descend_succ, zero_add, if_pos turned, ordered, if_neg order]
  rfl

/-! ## Bisection on an interval -/

section
variable {xTol fTol l h : K} {n : ℕ}

theorem halve_ok {last : K} (returned : halve (known f) xTol fTol (n + 1) l (f l) h last = .ok t) :
    t = 0.5 * (l + h) ∨ ¬ |(changingHalf f l h).2 - (changingHalf f l h).1| ≤ xTol ∧
      halve (known f) xTol fTol n (changingHalf f l h).1 (f (changingHalf f l h).1)
        (changingHalf f l h).2 (0.5 * (l + h)) = .ok t := by
  rw [halve_succ] at returned
  split at returned
  · exact .inl (Except.ok.inj returned).symm
  split at returned
  · exact .inl (Except.ok.inj returned).symm
  · rename_i wide
    exact .inr ⟨wide, returned⟩

variable [IsStrictOrderedRing K]

theorem middle_inside (wide : l < h) : l < 0.5 * (l + h) ∧ 0.5 * (l + h) < h := by
  rw [middle_eq]
  constructor <;> linarith

theorem changingHalf_inside (f : K → K) (wide : l < h) :
    l ≤ (changingHalf f l h).1 ∧ (changingHalf f l h).1 < (changingHalf f l h).2 ∧
      (changingHalf f l h).2 ≤ h := by
  obtain ⟨after, before⟩ := middle_inside wide
  unfold changingHalf
  split
  · exact ⟨after.le, before, le_rfl⟩
  · exact ⟨le_rfl, after, before.le⟩

/-- Halving ends strictly inside an interval. -/
theorem halve_inside (wide : l < h) {last : K}
    (returned : halve (known f) xTol fTol (n + 1) l (f l) h last = .ok t) : l < t ∧ t < h := by
  induction n generalizing l h last with
  | zero =>
    obtain rfl | ⟨-, stopped⟩ := halve_ok returned
    · exact middle_inside wide
    · cases stopped
      exact middle_inside wide
  | succ n ih =>
    obtain ⟨left, still_wide, right⟩ := changingHalf_inside f wide
    obtain rfl | ⟨-, later⟩ := halve_ok returned
    · exact middle_inside wide
    · obtain ⟨after, before⟩ := ih still_wide later
      exact ⟨left.trans_lt after, before.trans_le right⟩

/-- Bisection ends at a root at one of the ends, or strictly between them. -/
theorem bisect_ok (wide : l < h) (halvings : 1 ≤ n)
    (returned : bisect (known f) l h xTol fTol n = .ok t) :
    t = l ∧ f l = 0 ∨ t = h ∧ f h = 0 ∨ l < t ∧ t < h := by
  obtain ⟨n, rfl⟩ := Nat.exists_eq_add_of_le' halvings
  rw [bisect_known f wide.le] at returned
  split at returned
  · rename_i root
    exact .inl ⟨(Except.ok.inj returned).symm, root⟩
  split at returned
  · rename_i root
    exact .inr (.inl ⟨(Except.ok.inj returned).symm, root⟩)
  split at returned
  · cases returned
  · exact .inr (.inr (halve_inside wide returned))

theorem bisect_pos (wide : l < h) (right : 0 ≤ l) (steep : f 0 ≠ 0) (halvings : 1 ≤ n)
    (returned : bisect (known f) l h xTol fTol n = .ok t) : 0 < t := by
  obtain ⟨rfl, root⟩ | ⟨rfl, -⟩ | ⟨after, -⟩ := bisect_ok wide halvings returned
  · refine lt_of_le_of_ne right ?_
    rintro rfl
    exact steep root
  · exact right.trans_lt wide
  · exact right.trans_lt after

theorem bisect_neg (wide : l < h) (left : h ≤ 0) (steep : f 0 ≠ 0) (halvings : 1 ≤ n)
    (returned : bisect (known f) l h xTol fTol n = .ok t) : t < 0 := by
  obtain ⟨rfl, -⟩ | ⟨rfl, root⟩ | ⟨-, before⟩ := bisect_ok wide halvings returned
  · exact wide.trans_le left
  · refine lt_of_le_of_ne left ?_
    rintro rfl
    exact steep root
  · exact before.trans_le left

/-- Around zero, where the function is not small, the first halving ends at zero if the halves are
narrow, and otherwise goes on with one of them. -/
theorem halve_around_zero {s last : K} (ahead : 0 < s) (steep : fTol < |f 0|) :
    halve (known f) xTol fTol (n + 1) (-s) (f (-s)) s last =
      if s ≤ xTol then .ok 0
      else if 0 < f (-s) * f 0 then halve (known f) xTol fTol n 0 (f 0) s 0
      else halve (known f) xTol fTol n (-s) (f (-s)) 0 0 := by
  have middle : 0.5 * (-s + s) = 0 := by rw [neg_add_cancel, mul_zero]
  rw [halve_succ, changingHalf, middle, if_neg steep.not_ge]
  by_cases same : 0 < f (-s) * f 0
  · simp only [if_pos same, sub_zero, abs_of_pos ahead]
  · simp only [if_neg same, zero_sub, neg_neg, abs_of_pos ahead]

section
variable {s last : K} (ahead : 0 < s) (steep : fTol < |f 0|) (falls : f 0 < 0)
  (returned : halve (known f) xTol fTol (n + 1) (-s) (f (-s)) s last = .ok t)
include ahead steep falls returned

/-- If the function is negative at zero and at the left end, halving goes on to the right. -/
theorem halve_turned (back : f (-s) < 0) : 0 ≤ t ∧ (xTol < s → 1 ≤ n → 0 < t) := by
  rw [halve_around_zero ahead steep, if_pos (mul_pos_of_neg_of_neg back falls)] at returned
  split at returned
  · rename_i narrow
    cases returned
    exact ⟨le_rfl, fun broad => absurd narrow broad.not_ge⟩
  · cases n with
    | zero =>
      cases returned
      exact ⟨le_rfl, fun _ some => absurd some (by decide)⟩
    | succ n =>
      have positive := (halve_inside ahead returned).1
      exact ⟨positive.le, fun _ _ => positive⟩

/-- If it is negative at zero and positive at the left end, halving goes on to the left. -/
theorem halve_behind (back : 0 < f (-s)) : t < 0 ↔ xTol < s ∧ 1 ≤ n := by
  rw [halve_around_zero ahead steep, if_neg (mul_neg_of_pos_of_neg back falls).not_gt] at returned
  split at returned
  · rename_i narrow
    cases returned
    simp [narrow.not_gt]
  · rename_i broad
    cases n with
    | zero =>
      cases returned
      simp
    | succ n =>
      exact iff_of_true (halve_inside (neg_lt_zero.2 ahead) returned).2 ⟨not_le.1 broad, by omega⟩

end

/-- Around zero, where the function is negative, bisection ends on the left if the function is zero
at the left end, or positive there and the halvings go on. -/
theorem bisect_neg_iff {s : K} (ahead : 0 < s) (steep : fTol < |f 0|) (falls : f 0 < 0)
    (halvings : 1 ≤ n) (returned : bisect (known f) (-s) s xTol fTol n = .ok t) :
    t < 0 ↔ f (-s) = 0 ∨ 0 < f (-s) ∧ f s < 0 ∧ xTol < s ∧ 2 ≤ n := by
  have wide : -s < s := by linarith
  obtain ⟨n, rfl⟩ := Nat.exists_eq_add_of_le' halvings
  rw [bisect_known f wide.le] at returned
  split at returned
  · rename_i root
    cases returned
    simp [root, ahead]
  split at returned
  · rename_i nonzero root
    cases returned
    simp [root, nonzero, ahead.le]
  split at returned
  · cases returned
  · rename_i left right change
    rcases lt_or_gt_of_ne left with negative | positive
    · have forward := (halve_turned ahead steep falls returned negative).1
      exact iff_of_false forward.not_gt fun h => h.elim left fun h => h.1.not_gt negative
    · have other : f s < 0 :=
        lt_of_le_of_ne (nonpos_of_mul_nonpos_right (not_lt.1 change) positive) right
      simp [halve_behind ahead steep falls returned positive, left, positive, other]

end

/-! ## Three points on the right -/

namespace Triple

/-- Points in increasing order, none of them before `x`. -/
structure Increasing (x : K) (p : Triple K) : Prop where
  start : x ≤ p.left
  left : p.left < p.mid
  right : p.mid < p.right

variable [IsStrictOrderedRing K] {x : K} {p values : Triple K}

/-- The middle of the wider side lies strictly inside, and is not the middle point. -/
theorem widerMiddle_inside (increasing : Increasing x p) :
    p.left < p.widerMiddle ∧ p.widerMiddle < p.right ∧ p.widerMiddle ≠ p.mid := by
  obtain ⟨-, left, right⟩ := increasing
  unfold widerMiddle
  split
  · obtain ⟨after, before⟩ := middle_inside right
    exact ⟨left.trans after, before, after.ne'⟩
  · obtain ⟨after, before⟩ := middle_inside left
    exact ⟨after, before.trans right, before.ne⟩

theorem repair_inside (increasing : Increasing x p) (eps trial : K) :
    p.left < p.repair eps trial ∧ p.repair eps trial < p.right ∧ p.repair eps trial ≠ p.mid := by
  dsimp only [repair]
  generalize (if Scalar.isClose trial p.mid (4.0 * Scalar.spacing) Scalar.spacing = true then _
    else trial) = y
  split
  · exact widerMiddle_inside increasing
  · rename_i usable
    simpa [and_assoc] using usable

theorem vertex_inside (increasing : Increasing x p) {eps trial : K}
    (placed : vertex p values eps = .ok trial) :
    p.left < trial ∧ trial < p.right ∧ trial ≠ p.mid := by
  obtain ⟨_ | y, -, rest⟩ := bind_eq_ok.1 placed
  · cases rest
    exact widerMiddle_inside increasing
  · cases rest
    exact repair_inside increasing eps y

omit [IsStrictOrderedRing K] in
/-- A trial point inside leaves three points in increasing order. -/
theorem insert_increasing (increasing : Increasing x p) {trial : K} (after : p.left < trial)
    (before : trial < p.right) (apart : trial ≠ p.mid) (values : Triple K) (value : K) :
    Increasing x (insert p values trial value).1 := by
  obtain ⟨start, left, right⟩ := increasing
  unfold insert
  split
  · rename_i ahead
    split
    · exact ⟨start, left, ahead⟩
    · exact ⟨start.trans left.le, ahead, before⟩
  · rename_i behind
    have behind : trial < p.mid := lt_of_le_of_ne (not_lt.1 behind) apart
    split
    · exact ⟨start.trans after.le, behind, right⟩
    · exact ⟨start, after, behind⟩

theorem iterate_increasing (f : K → K) (eps : K) (steps : ℕ) {p values q : Triple K}
    (increasing : Increasing x p) (returned : iterate (known f) eps steps p values = .ok q) :
    Increasing x q := by
  induction steps generalizing p values with
  | zero =>
    cases returned
    exact increasing
  | succ steps ih =>
    obtain ⟨⟨p', values'⟩, stepped, rest⟩ := bind_eq_ok.1 returned
    obtain ⟨trial, placed, inserted⟩ := bind_eq_ok.1 stepped
    rw [ofExcept_plain] at placed
    obtain ⟨after, before, apart⟩ := vertex_inside increasing placed
    have next : Increasing x p' := by
      have moved := insert_increasing increasing after before apart values (f trial)
      rwa [Except.ok.inj inserted] at moved
    change (if settled p' values' eps then .ok p' else iterate (known f) eps steps p' values') =
      .ok q at rest
    split at rest
    · cases rest
      exact next
    · exact ih next rest

theorem search_pos {f : K → K} {eps : K} {steps : ℕ} (increasing : Increasing 0 p)
    (returned : search (known f) p eps steps = .ok t) : 0 < t := by
  obtain ⟨values, -, rest⟩ := bind_eq_ok.1 returned
  obtain ⟨q, iterated, rest⟩ := bind_eq_ok.1 rest
  cases rest
  obtain ⟨start, left, -⟩ := iterate_increasing f eps steps increasing iterated
  exact start.trans_lt left

end Triple

section
variable [IsStrictOrderedRing K] {x : K}

theorem firstDescent_ahead (f : K → K) {fx : K} (halvings : ℕ) {δ b fb increment : K}
    (ahead : 0 < δ)
    (found : firstDescent (known f) x fx halvings δ = .ok (b, fb, increment)) :
    x < b ∧ 0 < increment := by
  induction halvings generalizing δ with
  | zero =>
    rw [firstDescent_step] at found
    split at found
    · cases found
      exact ⟨lt_add_of_pos_right x ahead, ahead⟩
    · cases found
  | succ halvings ih =>
    rw [firstDescent_step] at found
    split at found
    · cases found
      exact ⟨lt_add_of_pos_right x ahead, ahead⟩
    · exact ih (div_pos ahead (by norm_num)) found

theorem ascend_increasing (f : K → K) (moves : ℕ) {a b fb increment : K} {p : K × K × K}
    (start : x ≤ a) (left : a < b) (ahead : 0 < increment)
    (found : ascend (known f) moves a b fb increment = .ok (some p)) :
    Triple.Increasing x ⟨p.1, p.2.1, p.2.2⟩ := by
  induction moves generalizing a b fb increment with
  | zero => cases found
  | succ moves ih =>
    have doubled : 0 < increment * 2.0 := mul_pos ahead (by norm_num)
    have right : b < b + increment * 2.0 := lt_add_of_pos_right b doubled
    rw [ascend_succ] at found
    split at found
    · cases found
      exact ⟨start, left, right⟩
    · exact ih (start.trans left.le) right doubled found

/-- The march for three points goes to the right. -/
theorem bracketTriple_increasing (f : K → K) {δ : K} (moves : ℕ) {a b c : K} (ahead : 0 < δ)
    (found : bracketTriple (known f) x δ moves = .ok (a, b, c)) :
    Triple.Increasing x ⟨a, b, c⟩ := by
  simp only [bracketTriple, ahead.not_ge, if_false, known, ok_bind, pure_ok] at found
  obtain ⟨⟨b', fb, increment⟩, descended, found⟩ := bind_eq_ok.1 found
  obtain ⟨_ | p, ascended, rest⟩ := bind_eq_ok.1 found
  · cases rest
  · cases rest
    obtain ⟨right, positive⟩ := firstDescent_ahead f 5 ahead descended
    exact ascend_increasing f moves le_rfl right positive ascended

end

/-! ## Brackets on the right -/

theorem bracketMinimumFrom_start (f : K → K) {x left right : K} {march : March K}
    (found : bracketMinimumFrom (known f) x march = .ok (left, right)) : left = x := by
  obtain ⟨-, -, found⟩ := bind_eq_ok.1 found
  obtain ⟨fx, -, found⟩ := bind_eq_ok.1 found
  obtain ⟨_ | c, -, rest⟩ := bind_eq_ok.1 found
  · cases rest
  · cases rest
    rfl

namespace LineSearch

/-- A bracket on the right of zero whose best point is positive. -/
structure Bracket.Forward (b : Bracket K) : Prop where
  start : 0 ≤ b.left
  wide : b.left < b.right
  best : 0 < b.best

section
variable [IsStrictOrderedRing K] {c : LineSearch K}

theorem interpolate_pos (least : 0 < c.sigma0) (order : c.sigma0 < c.sigma1)
    (greatest : c.sigma1 < 1) (f d : K → K) (trials : ℕ) {b : Bracket K} (forward : b.Forward)
    (returned : interpolate (.known f d) c trials b = .ok t) : 0 < t := by
  induction trials generalizing b with
  | zero =>
    cases returned
    exact forward.best
  | succ trials ih =>
    obtain ⟨start, wide, best⟩ := forward
    obtain ⟨alpha, placed, left, right⟩ := trial_inside least order greatest wide
    have positive : 0 < alpha := start.trans_lt left
    have next : ((b.record alpha (f alpha)).shrink alpha (f alpha) (d alpha)).Forward := by
      unfold Bracket.shrink Bracket.record
      constructor <;> grind
    rw [interpolate, placed] at returned
    change (if isFlat (d alpha) c.tol then .ok alpha
      else interpolate (.known f d) c trials _) = Except.ok t at returned
    split at returned
    · cases returned
      exact positive
    · exact ih next returned

/-- Backtracking multiplies a positive step length by a positive factor. -/
theorem shorten_pos {ray : Ray (Except (Fault K)) K} {f₀ d₀ : K} (shortens : 0 < c.p) (trials : ℕ)
    {alpha last : K} (positive : 0 < alpha) (before : 0 < last)
    (returned : shorten ray c f₀ d₀ trials alpha last = .ok t) : 0 < t := by
  induction trials generalizing alpha last with
  | zero =>
    cases returned
    exact before
  | succ trials ih =>
    obtain ⟨_ | _, -, rest⟩ := bind_eq_ok.1 returned
    · exact ih (mul_pos positive shortens) positive rest
    · cases rest
      exact positive

theorem backtrack_pos {ray : Ray (Except (Fault K)) K} {alpha₀ : K} (shortens : 0 < c.p)
    (positive : 0 < alpha₀) (returned : backtrack ray alpha₀ c = .ok t) : 0 < t := by
  obtain ⟨f₀, -, returned⟩ := bind_eq_ok.1 returned
  obtain ⟨d₀, -, returned⟩ := bind_eq_ok.1 returned
  split at returned
  · cases returned
    exact positive
  · exact shorten_pos shortens _ positive positive returned

/-! ## The policies -/

/-- Bisection of the slope is given an interval that reaches to the left of zero, and ends there:
the interval has no points on the right, or the slope is zero at its left end, or the slope is
positive there and bisection goes on after it has tried zero. -/
structure Reversed (c : LineSearch K) (f d : K → K) (alpha₀ a b : K) : Prop where
  kind : c.kind = .bisection
  steep : c.Steep d alpha₀
  interval : bracketMinimum (known f) 0 (.doubling c.s) = .ok (a, b)
  left : a < 0
  ends : b ≤ 0 ∨ d a = 0 ∨ 0 < d a ∧ d b < 0 ∧ c.tol < c.s ∧ 2 ≤ c.maxIterations

/-- The search in an interval ends ahead of zero if backtracking does. -/
theorem onBracket_pos {β : Type} {bracket : Except (Fault K) β} {alpha₀ : K}
    {search : β → Except (Fault K) K} (valid : c.check = .ok c) (positive : 0 < alpha₀)
    (marching : Fault.Only (·.isBracketing) bracket)
    (searches : ∀ interval, bracket = .ok interval → search interval = .ok t → 0 < t)
    (returned : onBracket bracket (.known f d) alpha₀ c search = .ok t) : 0 < t := by
  have shortens := (check_ok_iff.1 valid).shortens
  cases found : bracket with
  | ok interval =>
    rw [onBracket_ok _ _ _ _ found] at returned
    exact searches interval found returned
  | error e =>
    rw [onBracket_error _ _ _ _ marching found] at returned
    exact backtrack_pos shortens positive returned

/-- Every policy but bisection of the slope steps forward. -/
theorem search_pos {alpha₀ : K} (valid : c.check = .ok c) (positive : 0 < alpha₀)
    (kind : c.kind ≠ .bisection) (returned : c.search (.known f d) alpha₀ = .ok t) : 0 < t := by
  have given := check_ok_iff.1 valid
  unfold search at returned
  cases policy : c.kind <;> simp only [policy] at returned
  case static => exact Except.ok.inj returned ▸ given.constant
  case backtracking => exact backtrack_pos given.shortens positive returned
  case bisection => exact absurd policy kind
  case quadratic =>
    rw [interpolateSlope_known] at returned
    split at returned
    · refine onBracket_pos valid positive (bracketMinimumFrom_only f 0 given.moves) ?_ returned
      rintro ⟨left, right⟩ interval
      obtain rfl : left = 0 := bracketMinimumFrom_start f interval
      have wide := bracketMinimumFrom_lt f given.moves interval
      exact interpolate_pos given.least given.safeguards given.greatest f d _ ⟨le_rfl, wide, wide⟩
    · exact Except.ok.inj returned ▸ positive
  case threePoint =>
    rw [interpolateTriple_known] at returned
    split at returned
    · refine onBracket_pos valid positive (bracketTriple_only f 0 given.moves 100) ?_ returned
      rintro ⟨left, mid, right⟩ found
      exact Triple.search_pos (bracketTriple_increasing f 100 given.moves found)
    · exact Except.ok.inj returned ▸ positive

/-- Bisection on the interval of a march from zero, where the slope is steep and negative. -/
theorem bisect_neg_iff_of_interval (valid : c.check = .ok c) (descends : d 0 < -c.tol) {a b : K}
    (interval : bracketMinimum (known f) 0 (.doubling c.s) = .ok (a, b))
    (returned : bisect (known d) a b c.tol c.tol c.maxIterations.toNat = .ok t) :
    (t < 0 ↔ a < 0 ∧
        (b ≤ 0 ∨ d a = 0 ∨ 0 < d a ∧ d b < 0 ∧ c.tol < c.s ∧ 2 ≤ c.maxIterations)) ∧
      (f c.s ≤ f 0 → 0 < t) := by
  have halvings := trials_of_check valid
  have tol := (check_ok_iff.1 valid).tol
  have moves := (check_ok_iff.1 valid).moves
  have falls : d 0 < 0 := by linarith
  obtain ⟨wide, ⟨-, right⟩ | ⟨rises, ⟨rfl, rfl⟩ | behind⟩⟩ := bracketMinimum_side f moves interval
  · have forward := bisect_pos wide right falls.ne halvings returned
    exact ⟨iff_of_false forward.not_gt fun h => h.1.not_ge right, fun _ => forward⟩
  · have size : c.tol < |d 0| := by
      rw [abs_of_neg falls]
      linarith
    have count : 2 ≤ c.maxIterations.toNat ↔ 2 ≤ c.maxIterations := by omega
    refine ⟨?_, fun level => absurd level rises.not_ge⟩
    rw [bisect_neg_iff moves size falls halvings returned, count]
    simp [moves, moves.not_ge]
  · have backward := bisect_neg wide behind falls.ne halvings returned
    refine ⟨iff_of_true backward ⟨wide.trans_le behind, .inl behind⟩, fun level => ?_⟩
    exact absurd level rises.not_ge

theorem bisectSlope_neg_iff {alpha₀ : K} (valid : c.check = .ok c) (positive : 0 < alpha₀)
    (descends : d 0 < -c.tol) (kind : c.kind = .bisection)
    (returned : bisectSlope (.known f d) alpha₀ c = .ok t) :
    (t < 0 ↔ ∃ a b, c.Reversed f d alpha₀ a b) ∧ (f c.s ≤ f 0 → 0 < t) := by
  have shortens := (check_ok_iff.1 valid).shortens
  have moves := (check_ok_iff.1 valid).moves
  rw [bisectSlope_known] at returned
  split at returned
  · rename_i steep
    cases interval : bracketMinimum (known f) 0 (.doubling c.s) with
    | error e =>
      rw [onBracket_error _ _ _ _ (bracketMinimum_only f 0 moves) interval] at returned
      have forward := backtrack_pos shortens positive returned
      refine ⟨iff_of_false forward.not_gt ?_, fun _ => forward⟩
      rintro ⟨a, b, reversed⟩
      cases interval.symm.trans reversed.interval
    | ok ends =>
      obtain ⟨a, b⟩ := ends
      rw [onBracket_ok _ _ _ _ interval] at returned
      obtain ⟨negative, forward⟩ := bisect_neg_iff_of_interval valid descends interval returned
      refine ⟨negative.trans ⟨fun ⟨left, ends⟩ => ⟨a, b, kind, steep, interval, left, ends⟩, ?_⟩,
        forward⟩
      rintro ⟨a', b', reversed⟩
      cases interval.symm.trans reversed.interval
      exact ⟨reversed.left, reversed.ends⟩
  · rename_i flat
    cases returned
    refine ⟨iff_of_false positive.not_gt ?_, fun _ => positive⟩
    rintro ⟨a, b, reversed⟩
    exact flat reversed.steep

/-- A line search along a ray that starts downhill steps forward, unless it is bisection of the
slope and its march has turned round.  It then steps backwards exactly from the intervals of
`Reversed`. -/
theorem search_reverses_iff (valid : c.check = .ok c) (f d : K → K) {alpha₀ : K}
    (positive : 0 < alpha₀) (descends : d 0 < -c.tol)
    (returned : c.search (.known f d) alpha₀ = .ok t) :
    (t < 0 ↔ ∃ a b, c.Reversed f d alpha₀ a b) ∧
      (c.kind ≠ .bisection ∨ f c.s ≤ f 0 → 0 < t) := by
  by_cases kind : c.kind = .bisection
  · have bisected : bisectSlope (.known f d) alpha₀ c = .ok t := by
      rwa [search, kind] at returned
    obtain ⟨negative, forward⟩ := bisectSlope_neg_iff valid positive descends kind bisected
    exact ⟨negative, fun h => forward (h.resolve_left (not_not.2 kind))⟩
  · have forward : 0 < t := search_pos valid positive kind returned
    refine ⟨iff_of_false forward.not_gt ?_, fun _ => forward⟩
    rintro ⟨a, b, reversed⟩
    exact kind reversed.kind

end

/-! ## A hump behind the start -/

/-- A function with a valley at `1 / 2` and a hump at `-1`. -/
def hump (t : ℝ) : ℝ := 4 * t ^ 3 + 3 * t ^ 2 - 6 * t

def humpSlope (t : ℝ) : ℝ := 12 * t ^ 2 + 6 * t - 6

theorem hasDerivAt_hump (t : ℝ) : HasDerivAt hump (humpSlope t) t := by
  have cube := (hasDerivAt_pow 3 t).const_mul 4
  have square := (hasDerivAt_pow 2 t).const_mul 3
  have line := (hasDerivAt_id t).const_mul 6
  have same : 4 * (((3 : ℕ) : ℝ) * t ^ (3 - 1)) + 3 * (((2 : ℕ) : ℝ) * t ^ (2 - 1)) - 6 * 1 =
      humpSlope t := by
    norm_num [humpSlope]
    ring
  exact ((cube.add square).sub line).congr_deriv same

/-- The march turns round at its first probe and finds the valley between `-1` and `1`, and
bisection takes the left end, on top of the hump. -/
theorem search_hump : bisecting.search (.known hump humpSlope) 1 = .ok (-1) := by
  have steep : bisecting.Steep humpSlope 1 := by norm_num [Steep, bisecting, standard, humpSlope]
  have interval : bracketMinimum (known hump) 0 (.doubling bisecting.s) = .ok (-1, 1) :=
    bracketMinimum_of_turn one_pos (by norm_num [hump, bisecting]) (by norm_num [hump, bisecting])
  have stationary : humpSlope (-1) = 0 := by norm_num [humpSlope]
  change bisectSlope (.known hump humpSlope) 1 bisecting = _
  rw [bisectSlope_known, if_pos steep, onBracket_ok _ _ _ _ interval]
  dsimp only
  rw [bisect_known _ (by norm_num), if_pos stationary]

theorem search_reverses_hump : ∃ a b, bisecting.Reversed hump humpSlope 1 a b := by
  have descends : humpSlope 0 < -bisecting.tol := by norm_num [humpSlope, bisecting, standard]
  exact (search_reverses_iff check_bisecting hump humpSlope one_pos descends search_hump).1.1
    (by norm_num)

/-- The slope at the start is steep and negative, and the step length is negative all the same. -/
theorem search_leaves_valley :
    (∀ t, HasDerivAt hump (humpSlope t) t) ∧ bisecting.check = .ok bisecting ∧
      humpSlope 0 < -bisecting.tol ∧ bisecting.search (.known hump humpSlope) 1 = .ok (-1) ∧
      hump 0 < hump (-1) := by
  refine ⟨hasDerivAt_hump, check_bisecting, ?_, search_hump, ?_⟩
  · norm_num [humpSlope, bisecting, standard]
  · norm_num [hump]

end LineSearch

end Descent
