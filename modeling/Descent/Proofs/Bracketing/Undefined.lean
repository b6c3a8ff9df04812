/-
# Descent.Proofs.Bracketing.Undefined — bisection accepts undefined end values

Bisection refuses an interval at whose ends the function has one sign.  An undefined value
has no sign, hence not the sign of another one, and so an interval with an undefined value
at an end passes although it shows no change of sign.  `bisect_accepts_iff` says that no
other interval passes without one.

With an undefined value at the lower end the loop never sees two values of one sign either,
so that it goes on with the lower half whatever the function does inside
(`halve_retreats`): it leaves every root for the end without a value.
-/
import Descent.Proofs.Bracketing.Known
import Descent.Proofs.Wide

namespace Descent
set_option autoImplicit false

/-! ## Bisection in any arithmetic -/

section
variable {α : Type} [Scalar α]

/-- The lower one of two points. -/
def lowEnd (a b : α) : α := if a ≤ b then a else b

/-- The upper one of two points. -/
def highEnd (a b : α) : α := if a ≤ b then b else a

theorem bisect_ends (f : α → α) (a b xTol fTol : α) (n : ℕ) :
    bisect (known f) a b xTol fTol n =
      if f (lowEnd a b) == 0 then .ok (lowEnd a b)
      else if f (highEnd a b) == 0 then .ok (highEnd a b)
      else if Scalar.sameSign (f (lowEnd a b)) (f (highEnd a b)) then
        .error (.noSignChange (lowEnd a b) (highEnd a b))
      else
        halve (known f) xTol fTol n (lowEnd a b) (f (lowEnd a b)) (highEnd a b)
          (0.5 * (lowEnd a b + highEnd a b)) := by
  by_cases order : a ≤ b <;> simp only [bisect, lowEnd, highEnd, order, if_true, if_false] <;> rfl

end

/-! ## Signs of numbers that may be undefined -/

namespace Wide

theorem beq_zero_iff (u : Wide) : (u == 0) = true ↔ u = 0 := by
  rw [zero_eq]
  cases u with
  | real x => simp
  | _ => exact ⟨nofun, nofun⟩

theorem trichotomy (u : Wide) : u = undefined ∨ u = 0 ∨ 0 < u ∨ u < 0 := by
  rw [zero_eq]
  cases u with
  | real x =>
    obtain negative | zero | positive := lt_trichotomy x 0
    · exact .inr (.inr (.inr negative))
    · exact .inr (.inl (congrArg real zero))
    · exact .inr (.inr (.inl positive))
  | posInf => exact .inr (.inr (.inl trivial))
  | negInf => exact .inr (.inr (.inr trivial))
  | undefined => exact .inl rfl

end Wide

open Wide

/-- Two values with one sign. -/
def Agree (u v : Wide) : Prop := 0 < u ∧ 0 < v ∨ u < 0 ∧ v < 0

/-- Two values with opposite signs. -/
def Opposed (u v : Wide) : Prop := 0 < u ∧ v < 0 ∨ u < 0 ∧ 0 < v

variable {f : Wide → Wide} {a b u v low high xTol fTol : Wide} {n : ℕ}

theorem sameSign_iff_agree (u v : Wide) : Scalar.sameSign u v = true ↔ Agree u v := by
  simp [Scalar.sameSign, Agree]

/-- Values that do not have one sign are opposed, unless one of them is zero or undefined. -/
theorem not_agree_iff (u v : Wide) :
    ¬ Agree u v ↔ u = 0 ∨ v = 0 ∨ Opposed u v ∨ u = undefined ∨ v = undefined := by
  have irreflexive : ¬ (0 : Wide) < 0 := lt_irrefl (0 : ℝ)
  have apart (w : Wide) : ¬ (0 < w ∧ w < 0) := fun h => not_lt_of_le (le_of_lt h.1) h.2
  have above := not_lt_undefined 0
  have below := not_undefined_lt 0
  unfold Agree Opposed
  constructor
  · intro differ
    obtain rfl | rfl | hu | hu := u.trichotomy <;> obtain rfl | rfl | hv | hv := v.trichotomy <;>
      simp_all
  · rintro (rfl | rfl | opposed | rfl | rfl) <;> grind

/-! ## Halving from an undefined value -/

/-- The middle between the lower end and a point. -/
noncomputable def lowerMiddle (low x : Wide) : Wide := 0.5 * (low + x)

/-- A product with an undefined value is not positive, so that the lower half is the next interval. -/
theorem halve_undefined (f : Wide → Wide) (xTol fTol : Wide) (n : ℕ) (low high last : Wide) :
    halve (known f) xTol fTol (n + 1) low undefined high last =
      if Scalar.abs (f (lowerMiddle low high)) ≤ fTol then .ok (lowerMiddle low high)
      else if Scalar.abs (lowerMiddle low high - low) ≤ xTol then .ok (lowerMiddle low high)
      else
        halve (known f) xTol fTol n low undefined (lowerMiddle low high)
          (lowerMiddle low high) := by
  have passes (y : Wide) : ¬ 0 < undefined * y := by
    rw [undefined_mul]
    exact not_lt_undefined 0
  rw [halve]
  simp only [known, ok_bind, passes, if_false]
  rfl

/-- Halving from an undefined value at the lower end only ever takes the lower half. -/
theorem halve_retreats (f : Wide → Wide) (xTol fTol : Wide) (n : ℕ) (low high last : Wide) :
    ∃ j, 1 ≤ j ∧ j ≤ n + 1 ∧
      halve (known f) xTol fTol (n + 1) low undefined high last =
        .ok ((lowerMiddle low)^[j] high) := by
  induction n generalizing high last with
  | zero =>
    refine ⟨1, le_rfl, le_rfl, ?_⟩
    rw [halve_undefined]
    split
    · rfl
    · split <;> rfl
  | succ n ih =>
    rw [halve_undefined]
    split
    · exact ⟨1, le_rfl, by omega, rfl⟩
    split
    · exact ⟨1, le_rfl, by omega, rfl⟩
    · obtain ⟨j, -, within, found⟩ := ih (lowerMiddle low high) (lowerMiddle low high)
      exact ⟨j + 1, by omega, by omega, found⟩

/-- Bisection of an interval with an undefined value at its lower end, and none of zero at the other,
takes lower halves only. -/
theorem bisect_retreats (undefined_low : f (lowEnd a b) = undefined) (nonzero : f (highEnd a b) ≠ 0)
    (xTol fTol : Wide) (n : ℕ) :
    ∃ j, 1 ≤ j ∧ j ≤ max 1 n ∧
      bisect (known f) a b xTol fTol n = .ok ((lowerMiddle (lowEnd a b))^[j] (highEnd a b)) := by
  have low : ¬ (f (lowEnd a b) == 0) = true := by simp [undefined_low]
  have high : ¬ (f (highEnd a b) == 0) = true := by rwa [beq_zero_iff]
  have accepted : ¬ Scalar.sameSign (f (lowEnd a b)) (f (highEnd a b)) = true := by
    rw [sameSign_iff_agree, not_agree_iff]
    exact .inr (.inr (.inr (.inl undefined_low)))
  rw [bisect_ends, if_neg low, if_neg high, if_neg accepted, undefined_low]
  cases n with
  | zero => exact ⟨1, le_rfl, le_max_left .., rfl⟩
  | succ n =>
    obtain ⟨j, some, within, found⟩ := halve_retreats f xTol fTol n (lowEnd a b) (highEnd a b) _
    exact ⟨j, some, within.trans (le_max_right ..), found⟩

/-- Bisection returns for every interval at whose ends the values do not have one sign. -/
theorem bisect_returns_or_refuses (f : Wide → Wide) (a b xTol fTol : Wide) (n : ℕ) :
    ¬ Agree (f (lowEnd a b)) (f (highEnd a b)) ∧ (∃ x, bisect (known f) a b xTol fTol n = .ok x) ∨
      Agree (f (lowEnd a b)) (f (highEnd a b)) ∧
        bisect (known f) a b xTol fTol n = .error (.noSignChange (lowEnd a b) (highEnd a b)) := by
  by_cases agree : Agree (f (lowEnd a b)) (f (highEnd a b))
  · obtain ⟨low, high⟩ : f (lowEnd a b) ≠ 0 ∧ f (highEnd a b) ≠ 0 := by
      constructor <;> intro zero <;> refine not_agree_iff _ _ |>.2 ?_ agree
      · exact .inl zero
      · exact .inr (.inl zero)
    rw [Ne, ← beq_zero_iff] at low high
    rw [bisect_ends, if_neg low, if_neg high, if_pos ((sameSign_iff_agree _ _).2 agree)]
    exact .inr ⟨agree, rfl⟩
  · refine .inl ⟨agree, ?_⟩
    rw [bisect_ends]
    split
    · exact ⟨_, rfl⟩
    split
    · exact ⟨_, rfl⟩
    rw [if_neg ((sameSign_iff_agree _ _).not.2 agree)]
    exact halve_returns ..

/-- Bisection accepts an interval if an end value is zero, if the end values have opposite signs, and
also if one of them is undefined; it refuses all others.  With an undefined value at the lower end
it goes to that end, whatever the function does inside. -/
theorem bisect_accepts_iff (f : Wide → Wide) (a b xTol fTol : Wide) (n : ℕ) :
    ((∃ x, bisect (known f) a b xTol fTol n = .ok x) ↔
      f (lowEnd a b) = 0 ∨ f (highEnd a b) = 0 ∨ Opposed (f (lowEnd a b)) (f (highEnd a b)) ∨
        f (lowEnd a b) = undefined ∨ f (highEnd a b) = undefined) ∧
    (bisect (known f) a b xTol fTol n = .error (.noSignChange (lowEnd a b) (highEnd a b)) ↔
      Agree (f (lowEnd a b)) (f (highEnd a b))) ∧
    (f (lowEnd a b) = undefined → f (highEnd a b) ≠ 0 → ∃ j, 1 ≤ j ∧ j ≤ max 1 n ∧
      bisect (known f) a b xTol fTol n = .ok ((lowerMiddle (lowEnd a b))^[j] (highEnd a b))) := by
  rw [← not_agree_iff]
  refine ⟨?_, ?_, fun low high => bisect_retreats low high xTol fTol n⟩
  all_goals
    obtain ⟨differ, x, found⟩ | ⟨agree, refused⟩ := bisect_returns_or_refuses f a b xTol fTol n
  · exact iff_of_true ⟨x, found⟩ differ
  · exact iff_of_false (fun ⟨x, found⟩ => by cases refused.symm.trans found) (not_not.2 agree)
  · exact iff_of_false (fun refused => by cases found.symm.trans refused) differ
  · exact iff_of_true refused agree

/-! ## A root beside undefined values -/

open Classical in
/-- A line through the root `1` that has no values on the left of zero. -/
noncomputable def halfLine (t : Wide) : Wide := if t < 0 then undefined else t - 1

theorem halfLine_left : halfLine (real (-1)) = undefined := if_pos (by
  change (-1 : ℝ) < 0
  norm_num)

theorem halfLine_right {t : ℝ} (nonneg : 0 ≤ t) : halfLine (real t) = real (t - 1) := by
  rw [halfLine, if_neg (not_lt_of_le nonneg), one_eq, real_sub]

theorem halfLine_ends :
    lowEnd (real (-1)) (real 4) = real (-1) ∧ highEnd (real (-1)) (real 4) = real 4 := by
  have order : real (-1) ≤ real 4 := (real_le _ _).2 (by norm_num)
  exact ⟨if_pos order, if_pos order⟩

theorem bisect_accepts_halfLine :
    ∃ j, 1 ≤ j ∧ j ≤ 2 ∧
      bisect (known halfLine) (real (-1)) (real 4) (2.0 * Scalar.spacing) 0 2 =
        .ok ((lowerMiddle (real (-1)))^[j] (real 4)) := by
  obtain ⟨-, -, retreats⟩ :=
    bisect_accepts_iff halfLine (real (-1)) (real 4) (2.0 * Scalar.spacing) 0 2
  rw [halfLine_ends.1, halfLine_ends.2] at retreats
  refine retreats halfLine_left ?_
  rw [halfLine_right (by norm_num), zero_eq, Ne, real_inj]
  norm_num

/-- An interval with a root inside and no change of sign at its ends is accepted, and bisection leaves
the half with the root. -/
theorem bisect_leaves_root :
    halfLine (real (-1)) = undefined ∧ halfLine (real 4) = real 3 ∧ halfLine 1 = 0 ∧
      ¬ (halfLine (real (-1)) = 0 ∨ halfLine (real 4) = 0 ∨
        Opposed (halfLine (real (-1))) (halfLine (real 4))) ∧
      bisect (known halfLine) (real (-1)) (real 4) (2.0 * Scalar.spacing) 0 2 = .ok (real 0.25) := by
  have right : halfLine (real 4) = real 3 := by
    rw [halfLine_right (by norm_num)]
    norm_num
  have root : halfLine 1 = 0 := by
    rw [one_eq, halfLine_right zero_le_one, sub_self, zero_eq]
  have nonzero : real 3 ≠ 0 := by
    rw [zero_eq, Ne, real_inj]
    exact three_ne_zero
  refine ⟨halfLine_left, right, root, ?_, ?_⟩
  · rw [halfLine_left, right]
    rintro (none | zero | ⟨below, -⟩ | ⟨below, -⟩)
    · cases none
    · exact nonzero zero
    · exact not_lt_undefined 0 below
    · exact not_undefined_lt 0 below
  · have tolerance : (2.0 * Scalar.spacing : Wide) = real (2.0 * (1.0 / 4503599627370496.0)) := by
      rw [Scalar.spacing, ofScientific_eq, ofScientific_eq, ofScientific_eq, real_div _ (by norm_num),
        real_mul]
    have first : lowerMiddle (real (-1)) (real 4) = real 1.5 := by
      rw [lowerMiddle, ofScientific_eq, real_add, real_mul]
      norm_num
    have second : lowerMiddle (real (-1)) (real 1.5) = real 0.25 := by
      rw [lowerMiddle, ofScientific_eq, real_add, real_mul]
      norm_num
    have unsigned : ¬ Scalar.sameSign undefined (real 3) = true := by
      simp [Scalar.sameSign]
    rw [bisect_ends, halfLine_ends.1, halfLine_ends.2, halfLine_left, right,
      if_neg (by simp), if_neg (by rwa [beq_zero_iff]), if_neg unsigned, halve_undefined, first,
      halfLine_right (by norm_num), halve_undefined, second, halfLine_right (by norm_num), tolerance,
      zero_eq]
    simp only [real_sub, abs_real, real_le]
    norm_num
    rfl

end Descent
