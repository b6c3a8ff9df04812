/-
# Descent.Proofs.Wide — exact numbers that may be undefined

A `Wide` number is a real number, an infinity, or undefined.  Real numbers are
added, multiplied, divided and compared without rounding; an operation without a
result is undefined, and so is every operation on an undefined value; an undefined
value compares false with everything.  A nonzero number divided by zero is
infinite.

Two facts carry most arguments about such numbers.  A sum or a product is a real
number only if all its parts are (`IsReal`), so a real result vouches for
everything that it was computed from.  And infinities come from nowhere but
divisions by zero: what is computed from `Bounded` values without these is a real
number or undefined.
-/
import Descent.Scalar
import Mathlib.Analysis.Real.Sqrt
import Mathlib.Tactic

namespace Descent
set_option autoImplicit false

/-- A real number, an infinity, or an undefined value. -/
inductive Wide where
  | real (x : ℝ)
  | posInf
  | negInf
  | undefined

namespace Wide

/-- A number with the sign of the value; zero for an undefined value. -/
def sense : Wide → ℝ
  | real x => x
  | posInf => 1
  | negInf => -1
  | undefined => 0

/-- The value if it is a real number; undefined for an infinity. -/
def finite : Wide → Wide
  | real x => real x
  | _ => undefined

open Classical in
/-- The infinity with the sign of a number; undefined for zero. -/
noncomputable def infinity (sign : ℝ) : Wide :=
  if 0 < sign then posInf else if sign < 0 then negInf else undefined

protected def neg : Wide → Wide
  | real x => real (-x)
  | posInf => negInf
  | negInf => posInf
  | undefined => undefined

protected noncomputable def add : Wide → Wide → Wide
  | real x, real y => real (x + y)
  | undefined, _ | _, undefined => undefined
  | real _, b => b
  | a, real _ => a
  | a, b => infinity (a.sense + b.sense)

protected noncomputable def mul : Wide → Wide → Wide
  | real x, real y => real (x * y)
  | a, b => infinity (a.sense * b.sense)

open Classical in
protected noncomputable def div : Wide → Wide → Wide
  | real x, real y => if y = 0 then infinity x else real (x / y)
  | undefined, _ | _, undefined => undefined
  | real _, _ => real 0
  | a, real y => if y = 0 then a else infinity (a.sense * y)
  | _, _ => undefined

protected def Lt : Wide → Wide → Prop
  | real x, real y => x < y
  | negInf, real _ | negInf, posInf | real _, posInf => True
  | _, _ => False

protected def Le : Wide → Wide → Prop
  | real x, real y => x ≤ y
  | negInf, real _ | negInf, posInf | real _, posInf | negInf, negInf | posInf, posInf => True
  | _, _ => False

open Classical in
protected noncomputable def beq : Wide → Wide → Bool
  | real x, real y => decide (x = y)
  | posInf, posInf | negInf, negInf => true
  | _, _ => false

protected def abs : Wide → Wide
  | real x => real |x|
  | posInf | negInf => posInf
  | undefined => undefined

open Classical in
protected noncomputable def sqrt : Wide → Wide
  | real x => if 0 ≤ x then real (Real.sqrt x) else undefined
  | posInf => posInf
  | negInf | undefined => undefined

open Classical in
noncomputable instance : Extended Wide where
  zero := ⟨real 0⟩
  one := ⟨real 1⟩
  add := ⟨Wide.add⟩
  sub := ⟨fun a b => a.add b.neg⟩
  mul := ⟨Wide.mul⟩
  div := ⟨Wide.div⟩
  neg := ⟨Wide.neg⟩
  ofScientific := ⟨fun m s e => real (OfScientific.ofScientific m s e)⟩
  lt := ⟨Wide.Lt⟩
  le := ⟨Wide.Le⟩
  beq := ⟨Wide.beq⟩
  decLt _ _ := Classical.propDecidable _
  decLe _ _ := Classical.propDecidable _
  abs := Wide.abs
  sqrt := Wide.sqrt
  sq a := a.mul a
  isNaN a := decide (a = undefined)
  isFinite a := decide (∃ x, a = real x)
  isInvertible a := decide (a ≠ undefined ∧ a ≠ real 0)
  inf := posInf
  nan := undefined

/-! ## Real numbers among themselves -/

section
variable (x y : ℝ)

theorem zero_eq : (0 : Wide) = real 0 := rfl

theorem one_eq : (1 : Wide) = real 1 := rfl

theorem ofScientific_eq (m : ℕ) (s : Bool) (e : ℕ) :
    (OfScientific.ofScientific m s e : Wide) = real (OfScientific.ofScientific m s e) := rfl

theorem two_eq : (2.0 : Wide) = real 2 := by
  rw [ofScientific_eq]
  norm_num

@[simp] theorem real_inj : real x = real y ↔ x = y := ⟨real.inj, congrArg real⟩

@[simp] theorem real_add : real x + real y = real (x + y) := rfl

@[simp] theorem real_neg : -real x = real (-x) := rfl

@[simp] theorem real_mul : real x * real y = real (x * y) := rfl

@[simp] theorem real_sub : real x - real y = real (x - y) := by
  rw [sub_eq_add_neg]
  rfl

variable {y} in
theorem real_div (nonzero : y ≠ 0) : real x / real y = real (x / y) := if_neg nonzero

@[simp] theorem real_lt : real x < real y ↔ x < y := Iff.rfl

@[simp] theorem real_le : real x ≤ real y ↔ x ≤ y := Iff.rfl

@[simp] theorem real_beq : (real x == real y) = decide (x = y) := by
  change Wide.beq _ _ = _
  simp [Wide.beq]

@[simp] theorem abs_real : Scalar.abs (real x) = real |x| := rfl

@[simp] theorem sq_real : Scalar.sq (real x) = real (x ^ 2) := by
  rw [sq]
  rfl

variable {x} in
theorem sqrt_real (nonneg : 0 ≤ x) : Scalar.sqrt (real x) = real (Real.sqrt x) := if_pos nonneg

variable {x} in
theorem sqrt_of_neg (negative : x < 0) : Scalar.sqrt (real x) = undefined :=
  if_neg (not_le.2 negative)

@[simp] theorem minFirst_real : Scalar.minFirst (real x) (real y) = real (min x y) := by
  simp only [Scalar.minFirst, real_lt, min_comm x y, min_def_lt]
  split <;> rfl

end

/-! ## Undefined values -/

section
variable {a b : Wide}

open Classical in
@[simp] theorem isNaN_iff : Scalar.isNaN a = true ↔ a = undefined :=
  decide_eq_true_iff (p := a = undefined)

@[simp] theorem isNaN_real (x : ℝ) : Scalar.isNaN (real x) = false := by
  rw [Bool.eq_false_iff, Ne, isNaN_iff]
  exact nofun

open Classical in
@[simp] theorem isFinite_real (x : ℝ) : Scalar.isFinite (real x) = true :=
  decide_eq_true (p := ∃ y, real x = real y) ⟨x, rfl⟩

open Classical in
theorem isInvertible_iff : Scalar.isInvertible a = true ↔ a ≠ undefined ∧ a ≠ real 0 :=
  decide_eq_true_iff (p := a ≠ undefined ∧ a ≠ real 0)

theorem isInvertible_real (x : ℝ) : Scalar.isInvertible (real x) = decide (x ≠ 0) := by
  rw [Bool.eq_iff_iff, isInvertible_iff, decide_eq_true_iff]
  simp

@[simp] theorem undefined_add (a : Wide) : undefined + a = undefined := by cases a <;> rfl

@[simp] theorem add_undefined (a : Wide) : a + undefined = undefined := by cases a <;> rfl

@[simp] theorem neg_undefined : -undefined = undefined := rfl

@[simp] theorem undefined_sub (a : Wide) : undefined - a = undefined := undefined_add (-a)

@[simp] theorem sub_undefined (a : Wide) : a - undefined = undefined := add_undefined a

theorem infinity_zero : infinity 0 = undefined := by simp [infinity]

theorem infinity_of_pos {x : ℝ} (positive : 0 < x) : infinity x = posInf := if_pos positive

theorem infinity_of_neg {x : ℝ} (negative : x < 0) : infinity x = negInf := by
  rw [infinity, if_neg negative.not_gt, if_pos negative]

@[simp] theorem undefined_mul (a : Wide) : undefined * a = undefined := by
  change Wide.mul undefined a = _
  simp [Wide.mul, sense, infinity_zero]

@[simp] theorem mul_undefined (a : Wide) : a * undefined = undefined := by
  change Wide.mul a undefined = _
  cases a <;> simp [Wide.mul, sense, infinity_zero]

@[simp] theorem undefined_div (a : Wide) : undefined / a = undefined := by cases a <;> rfl

@[simp] theorem div_undefined (a : Wide) : a / undefined = undefined := by cases a <;> rfl

@[simp] theorem sqrt_undefined : Scalar.sqrt undefined = undefined := rfl

@[simp] theorem undefined_beq (a : Wide) : (undefined == a) = false := by cases a <;> rfl

@[simp] theorem not_undefined_lt (a : Wide) : ¬ undefined < a := by cases a <;> exact id

@[simp] theorem not_lt_undefined (a : Wide) : ¬ a < undefined := by cases a <;> exact id

@[simp] theorem not_undefined_le (a : Wide) : ¬ undefined ≤ a := by cases a <;> exact id

@[simp] theorem not_le_undefined (a : Wide) : ¬ a ≤ undefined := by cases a <;> exact id

@[simp] theorem maxFirst_undefined (a : Wide) : Scalar.maxFirst undefined a = undefined :=
  if_neg (not_undefined_lt a)

@[simp] theorem minFirst_undefined (a : Wide) : Scalar.minFirst undefined a = undefined :=
  if_neg (not_lt_undefined a)

end

/-! ## Infinities -/

section
variable {a b : Wide} (x : ℝ)

@[simp] theorem neg_posInf : -posInf = negInf := rfl

@[simp] theorem neg_negInf : -negInf = posInf := rfl

@[simp] theorem neg_twice (a : Wide) : - -a = a := by
  cases a with
  | real x => simp
  | _ => rfl

@[simp] theorem sqrt_posInf : Scalar.sqrt posInf = posInf := rfl

protected theorem add_comm (a b : Wide) : a + b = b + a := by
  change a.add b = b.add a
  cases a <;> cases b <;> simp only [Wide.add, add_comm]

protected theorem mul_comm (a b : Wide) : a * b = b * a := by
  change a.mul b = b.mul a
  cases a <;> cases b <;> simp only [Wide.mul, mul_comm]

theorem real_zero_add (a : Wide) : real 0 + a = a := by
  change (real 0).add a = a
  cases a <;> simp [Wide.add]

@[simp] theorem real_add_posInf : real x + posInf = posInf := rfl

@[simp] theorem posInf_add_real : posInf + real x = posInf := rfl

@[simp] theorem real_sub_negInf : real x - negInf = posInf := rfl

@[simp] theorem posInf_sub_negInf : posInf - negInf = posInf := by
  change infinity (1 + 1) = _
  norm_num [infinity]

@[simp] theorem posInf_add_posInf : posInf + posInf = posInf := by
  change infinity (1 + 1) = _
  norm_num [infinity]

@[simp] theorem posInf_mul_posInf : posInf * posInf = posInf := by
  change infinity (1 * 1) = _
  norm_num [infinity]

@[simp] theorem negInf_mul_negInf : negInf * negInf = posInf := by
  change infinity (-1 * -1) = _
  norm_num [infinity]

variable {x} in
theorem real_mul_posInf (positive : 0 < x) : real x * posInf = posInf :=
  infinity_of_pos ((mul_one x).symm ▸ positive)

variable {x} in
theorem real_mul_negInf (positive : 0 < x) : real x * negInf = negInf :=
  infinity_of_neg (by
    change x * -1 < 0
    linarith)

variable {x} in
theorem posInf_mul_real (negative : x < 0) : posInf * real x = negInf :=
  infinity_of_neg ((one_mul x).symm ▸ negative)

@[simp] theorem negInf_add_posInf : negInf + posInf = undefined := by
  change infinity (-1 + 1) = _
  norm_num [infinity]

@[simp] theorem posInf_div_posInf : posInf / posInf = undefined := rfl

@[simp] theorem real_lt_posInf : real x < posInf := trivial

@[simp] theorem not_posInf_lt (a : Wide) : ¬ posInf < a := by cases a <;> exact id

@[simp] theorem not_lt_negInf (a : Wide) : ¬ a < negInf := by cases a <;> exact id

@[simp] theorem negInf_lt_real : negInf < real x := trivial

end

/-! ## Real and bounded values -/

/-- The value is a real number. -/
def IsReal (a : Wide) : Prop := ∃ x, a = real x

/-- The value is a real number unless it is undefined. -/
def Bounded (a : Wide) : Prop := a ≠ undefined → a.IsReal

section
variable {a b : Wide}

@[simp] theorem isReal_real (x : ℝ) : IsReal (real x) := ⟨x, rfl⟩

theorem isFinite_iff : Scalar.isFinite a = true ↔ a.IsReal :=
  @decide_eq_true_iff _ (Classical.propDecidable _)

theorem IsReal.ne_undefined (h : a.IsReal) : a ≠ undefined := by
  obtain ⟨x, rfl⟩ := h
  exact nofun

theorem IsReal.bounded (h : a.IsReal) : a.Bounded := fun _ => h

theorem bounded_finite (a : Wide) : (finite a).Bounded := by
  cases a with
  | real x => exact (isReal_real x).bounded
  | _ => exact fun defined => absurd rfl defined

theorem infinity_not_real (x : ℝ) : ¬ (infinity x).IsReal := by
  unfold infinity
  rintro ⟨y, h⟩
  split at h
  · cases h
  · split at h <;> cases h

theorem IsReal.add (ha : a.IsReal) (hb : b.IsReal) : (a + b).IsReal := by
  obtain ⟨x, rfl⟩ := ha
  obtain ⟨y, rfl⟩ := hb
  exact isReal_real _

theorem IsReal.mul (ha : a.IsReal) (hb : b.IsReal) : (a * b).IsReal := by
  obtain ⟨x, rfl⟩ := ha
  obtain ⟨y, rfl⟩ := hb
  exact isReal_real _

theorem IsReal.neg (ha : a.IsReal) : (-a).IsReal := by
  obtain ⟨x, rfl⟩ := ha
  exact isReal_real _

theorem IsReal.sub (ha : a.IsReal) (hb : b.IsReal) : (a - b).IsReal := ha.add hb.neg

/-- A real sum has real parts. -/
theorem IsReal.of_add (h : (a + b).IsReal) : a.IsReal ∧ b.IsReal := by
  cases a <;> cases b
  case real.real => exact ⟨isReal_real _, isReal_real _⟩
  all_goals
    refine absurd h ?_
    first
      | exact infinity_not_real _
      | rintro ⟨_, h⟩
        cases h

/-- A real product has real parts. -/
theorem IsReal.of_mul (h : (a * b).IsReal) : a.IsReal ∧ b.IsReal := by
  cases a <;> cases b
  case real.real => exact ⟨isReal_real _, isReal_real _⟩
  all_goals exact absurd h (infinity_not_real _)

/-- A real square root is one of a number that is not negative. -/
theorem IsReal.of_sqrt (h : (Scalar.sqrt a).IsReal) : a.IsReal := by
  cases a
  case real => exact isReal_real _
  all_goals
    obtain ⟨_, h⟩ := h
    cases h

/-- A square root that does not exceed a real number is one. -/
theorem isReal_of_sqrt_le {r : ℝ} (h : Scalar.sqrt a ≤ real r) : (Scalar.sqrt a).IsReal := by
  cases a with
  | real x =>
    rcases le_or_gt 0 x with nonneg | negative
    · exact sqrt_real nonneg ▸ isReal_real _
    · rw [sqrt_of_neg negative] at h
      exact absurd h (not_undefined_le _)
  | posInf => exact absurd h id
  | negInf | undefined => exact absurd h (not_undefined_le _)

/-- Zero times an infinity is undefined. -/
theorem isReal_of_zero_mul (h : real 0 * a ≠ undefined) : a.IsReal := by
  cases a
  case real => exact isReal_real _
  all_goals
    refine absurd ?_ h
    change infinity (0 * _) = _
    rw [zero_mul, infinity_zero]

theorem Bounded.add (ha : a.Bounded) (hb : b.Bounded) : (a + b).Bounded := by
  intro defined
  obtain ⟨x, rfl⟩ := ha (by rintro rfl; exact defined (undefined_add b))
  obtain ⟨y, rfl⟩ := hb (by rintro rfl; exact defined (add_undefined _))
  exact isReal_real _

theorem Bounded.neg (ha : a.Bounded) : (-a).Bounded := by
  intro defined
  obtain ⟨x, rfl⟩ := ha (by rintro rfl; exact defined neg_undefined)
  exact isReal_real _

theorem Bounded.sub (ha : a.Bounded) (hb : b.Bounded) : (a - b).Bounded := ha.add hb.neg

theorem Bounded.mul (ha : a.Bounded) (hb : b.Bounded) : (a * b).Bounded := by
  intro defined
  obtain ⟨x, rfl⟩ := ha (by rintro rfl; exact defined (undefined_mul b))
  obtain ⟨y, rfl⟩ := hb (by rintro rfl; exact defined (mul_undefined _))
  exact isReal_real _

theorem Bounded.div_real (ha : a.Bounded) {y : ℝ} (nonzero : y ≠ 0) : (a / real y).Bounded := by
  intro defined
  obtain ⟨x, rfl⟩ := ha (by rintro rfl; exact defined (undefined_div _))
  exact ⟨_, real_div x nonzero⟩

end

/-! ## Order -/

section
variable {a b c : Wide}

theorem lt_of_not_le (ha : a ≠ undefined) (hb : b ≠ undefined) (h : ¬ a ≤ b) : b < a := by
  cases a <;> cases b
  case real.real x y => exact not_le.1 (show ¬ x ≤ y from h)
  all_goals
    first
      | exact trivial
      | exact absurd rfl ha
      | exact absurd rfl hb
      | exact absurd trivial h

theorem le_of_not_lt (ha : a ≠ undefined) (hb : b ≠ undefined) (h : ¬ a < b) : b ≤ a := by
  cases a <;> cases b
  case real.real x y => exact not_lt.1 (show ¬ x < y from h)
  all_goals
    first
      | exact trivial
      | exact absurd rfl ha
      | exact absurd rfl hb
      | exact absurd trivial h

protected theorem le_trans (h : a ≤ b) (h' : b ≤ c) : a ≤ c := by
  cases a <;> cases b <;> cases c
  case real.real.real x y z => exact (show x ≤ y from h).trans (show y ≤ z from h')
  all_goals
    first
      | exact trivial
      | exact absurd h id
      | exact absurd h' id

theorem le_of_lt (h : a < b) : a ≤ b := by
  cases a <;> cases b
  case real.real x y => exact LT.lt.le (show x < y from h)
  all_goals
    first
      | exact trivial
      | exact absurd h id

theorem nonneg_iff : 0 ≤ a ↔ (∃ x, 0 ≤ x ∧ a = real x) ∨ a = posInf := by
  constructor
  · intro h
    cases a
    case real x => exact .inl ⟨x, h, rfl⟩
    case posInf => exact .inr rfl
    all_goals exact absurd h id
  · rintro (⟨x, nonneg, rfl⟩ | rfl)
    · exact nonneg
    · exact trivial

theorem add_nonneg (ha : 0 ≤ a) (hb : 0 ≤ b) : 0 ≤ a + b := by
  rw [nonneg_iff] at ha hb ⊢
  obtain ⟨x, hx, rfl⟩ | rfl := ha <;> obtain ⟨y, hy, rfl⟩ | rfl := hb
  · exact .inl ⟨x + y, by positivity, real_add x y⟩
  · exact .inr (real_add_posInf x)
  · exact .inr (posInf_add_real y)
  · exact .inr posInf_add_posInf

theorem square_nonneg (ha : a ≠ undefined) : 0 ≤ a * a := by
  rw [nonneg_iff]
  cases a
  case real x => exact .inl ⟨x * x, mul_self_nonneg x, real_mul x x⟩
  case posInf => exact .inr posInf_mul_posInf
  case negInf => exact .inr negInf_mul_negInf
  case undefined => exact absurd rfl ha

theorem sqrt_lt_sqrt (ha : 0 ≤ a) (h : a < b) : Scalar.sqrt a < Scalar.sqrt b := by
  obtain ⟨x, hx, rfl⟩ | rfl := nonneg_iff.1 ha
  · rw [sqrt_real hx]
    cases b
    case real y => exact sqrt_real (hx.trans (LT.lt.le h)) ▸ Real.sqrt_lt_sqrt hx h
    case posInf => exact real_lt_posInf _
    all_goals exact absurd h id
  · exact absurd h (not_posInf_lt b)

theorem le_self (ha : a ≠ undefined) : a ≤ a := by
  cases a
  case real x => exact le_refl x
  case undefined => exact absurd rfl ha
  all_goals exact trivial

theorem sqrt_ne_undefined (ha : 0 ≤ a) : Scalar.sqrt a ≠ undefined := by
  obtain ⟨x, hx, rfl⟩ | rfl := nonneg_iff.1 ha
  · rw [sqrt_real hx]
    exact nofun
  · exact nofun

theorem not_lt_of_le (h : a ≤ b) : ¬ b < a := by
  cases a <;> cases b
  case real.real x y => exact not_lt.2 (show x ≤ y from h)
  all_goals
    first
      | exact id
      | exact absurd h id

theorem pos_of_lt (ha : 0 ≤ a) (h : a < b) : 0 < b := by
  obtain ⟨x, hx, rfl⟩ | rfl := nonneg_iff.1 ha
  · cases b
    case real y => exact hx.trans_lt (show x < y from h)
    case posInf => exact trivial
    all_goals exact absurd h id
  · exact absurd h (not_posInf_lt b)

/-- A positive difference is one of a greater number and a smaller one. -/
theorem lt_of_sub_pos (h : 0 < a - b) : b < a := by
  cases a <;> cases b
  case real.real x y =>
    rw [real_sub] at h
    have h : 0 < x - y := h
    exact (sub_pos.1 h : y < x)
  case posInf.posInf => exact absurd h (by
    change ¬ 0 < infinity (1 + -1)
    rw [add_neg_cancel, infinity_zero]
    exact not_lt_undefined _)
  case negInf.negInf => exact absurd h (by
    change ¬ 0 < infinity (-1 + 1)
    rw [neg_add_cancel, infinity_zero]
    exact not_lt_undefined _)
  case negInf.posInf => exact absurd h (by
    change ¬ 0 < infinity (-1 + -1)
    rw [infinity_of_neg (by norm_num)]
    exact not_lt_negInf _)
  all_goals
    first
      | exact trivial
      | exact absurd h id

/-- A quotient is positive over a divisor that is not negative only if its numerator is. -/
theorem pos_of_div_pos (h : 0 < a / b) (divisor : ¬ b ≤ 0) : 0 < a := by
  cases a <;> cases b
  case real.real x y =>
    have positive : 0 < y := not_le.1 divisor
    rw [real_div x positive.ne'] at h
    have h : 0 < x / y := h
    exact ((div_pos_iff_of_pos_right positive).1 h : 0 < x)
  case negInf.real y =>
    have positive : 0 < y := not_le.1 divisor
    refine absurd h ?_
    change ¬ 0 < if y = 0 then negInf else infinity (-1 * y)
    rw [if_neg positive.ne', infinity_of_neg (by linarith)]
    exact not_lt_negInf _
  case real.posInf | real.negInf => exact absurd h (lt_irrefl (0 : ℝ))
  all_goals
    first
      | exact trivial
      | exact absurd h id

/-- Halves are in the order of the whole. -/
theorem lt_of_half_lt (h : 0.5 * a < 0.5 * b) : a < b := by
  have half : (0 : ℝ) < 0.5 := by norm_num
  rw [ofScientific_eq] at h
  cases a <;> cases b
  case real.real x y =>
    rw [real_mul, real_mul] at h
    have h : 0.5 * x < 0.5 * y := h
    exact (show x < y by linarith)
  all_goals
    simp only [real_mul, real_mul_posInf half, real_mul_negInf half, mul_undefined] at h
    first
      | exact trivial
      | exact absurd h id

end

end Wide

end Descent
