/-
# Descent.Proofs.Bracketing.Gap — triples over a gap in the function

The search for a triple halves its increment until the function falls, and then doubles
it until the function rises.  What it samples does not depend on the function
(`Stride`), so a search is described by two numbers: the halvings up to the first fall
and the strides up to the first rise (`FirstRise`).

A comparison with an undefined value fails, and a failed comparison makes the march go
on.  So the last two points of a triple have values, which rise, but nothing has looked
at the first one since the march passed it: it may lie in a gap, and the triple is
admissible for a search inside it exactly if it does not (`bracketTriple_admissible_iff`).
-/
import Descent.Proofs.LineSearch.Undefined
import Mathlib.Order.Bounds.Basic

namespace Descent
set_option autoImplicit false

section
variable {α : Type} [Scalar α]

/-- The value is not an undefined one. -/
def Defined (a : α) : Prop := Scalar.isNaN a = false

variable (α) in
/-- Comparisons are between values that are defined, and these are in order one way or the other. -/
structure Comparable : Prop where
  of_lt {a b : α} : a < b → Defined a ∧ Defined b
  le_of_lt {a b : α} : a < b → a ≤ b
  le_of_not_lt {a b : α} : Defined a → Defined b → ¬ a < b → b ≤ a

/-- Three points with values, the one in the middle not above the left one and below the right one. -/
structure Admissible (f : α → α) (a b c : α) : Prop where
  left : Defined (f a)
  mid : Defined (f b)
  right : Defined (f c)
  falls : f b ≤ f a
  rises : f b < f c

/-! ## What a search samples -/

/-- An increment after a number of halvings. -/
def halved (δ : α) (i : ℕ) : α := (· / 2.0)^[i] δ

/-- Two neighbouring samples and the distance between them. -/
structure Stride (α : Type) where
  back : α
  front : α
  width : α

namespace Stride

/-- A stride of twice the width. -/
def next (s : Stride α) : Stride α := ⟨s.front, s.front + s.width * 2.0, s.width * 2.0⟩

/-- The strides from a point, after a number of halvings of the increment. -/
def nth (x δ : α) (i j : ℕ) : Stride α := next^[j] ⟨x, x + halved δ i, halved δ i⟩

/-- The function is greater at the front end. -/
def Rises (f : α → α) (s : Stride α) : Prop := f s.back < f s.front

theorem back_nth_succ (x δ : α) (i j : ℕ) : (nth x δ i (j + 1)).back = (nth x δ i j).front := by
  rw [nth, Function.iterate_succ_apply']
  rfl

end Stride

/-- The function first falls after `i` halvings, and first rises on the stride after `j` others. -/
structure FirstRise (f : α → α) (x δ : α) (moves i j : ℕ) : Prop where
  halvings : i ≤ 5
  fall : IsLeast {k | f (x + halved δ k) < f x} i
  within : j < moves
  rise : IsLeast {k | (Stride.nth x δ i (k + 1)).Rises f} j

/-! ## The two stages -/

/-- Of a series of trials the first one passes, or the first of the others does. -/
theorem exists_isLeast_succ {p Q : ℕ → Prop} {n : ℕ} :
    (∃ i < n + 1, IsLeast {k | p k} i ∧ Q i) ↔
      p 0 ∧ Q 0 ∨ ¬ p 0 ∧ ∃ i < n, IsLeast {k | p (k + 1)} i ∧ Q (i + 1) := by
  constructor
  · rintro ⟨i, within, ⟨here, least⟩, result⟩
    cases i with
    | zero => exact .inl ⟨here, result⟩
    | succ i =>
      refine .inr ⟨fun first => absurd (least first) (by omega), i, by omega, ⟨here, ?_⟩, result⟩
      exact fun k there => Nat.le_of_succ_le_succ (least there)
  · rintro (⟨first, result⟩ | ⟨later, i, within, ⟨here, least⟩, result⟩)
    · exact ⟨0, n.succ_pos, ⟨first, fun k _ => k.zero_le⟩, result⟩
    · refine ⟨i + 1, by omega, ⟨here, fun k there => ?_⟩, result⟩
      cases k with
      | zero => exact absurd there later
      | succ k => exact Nat.succ_le_succ (least there)

/-- The increment is halved until the function falls. -/
theorem firstDescent_ok (f : α → α) (x fx : α) (halvings : ℕ) (δ : α) {r : α × α × α} :
    firstDescent (known f) x fx halvings δ = .ok r ↔
      ∃ i < halvings + 1, IsLeast {k | f (x + halved δ k) < fx} i ∧
        (x + halved δ i, f (x + halved δ i), halved δ i) = r := by
  have unhalved : halved δ 0 = δ := rfl
  have later (k : ℕ) : halved δ (k + 1) = halved (δ / 2.0) k := rfl
  rw [firstDescent_step, exists_isLeast_succ (p := fun k => f (x + halved δ k) < fx)]
  simp only [unhalved, later]
  by_cases falls : f (x + δ) < fx
  · simp only [falls, if_true, Except.ok.injEq, true_and, not_true, false_and, or_false]
  · simp only [falls, if_false, false_and, not_false_iff, true_and, false_or]
    cases halvings with
    | zero => simp
    | succ halvings => exact firstDescent_ok f x fx halvings (δ / 2.0)

theorem ascend_step (f : α → α) (moves : ℕ) (s : Stride α) :
    ascend (known f) (moves + 1) s.back s.front (f s.front) s.width =
      if f s.front < f s.next.front then .ok (some (s.back, s.front, s.next.front))
      else
        ascend (known f) moves s.next.back s.next.front (f s.next.front) s.next.width := rfl

/-- The increment is doubled until the function rises. -/
theorem ascend_ok (f : α → α) (moves : ℕ) (s : Stride α) {r : α × α × α} :
    ascend (known f) moves s.back s.front (f s.front) s.width = .ok (some r) ↔
      ∃ j < moves, IsLeast {k | (Stride.next^[k + 1] s).Rises f} j ∧
        ((Stride.next^[j] s).back, (Stride.next^[j] s).front, (Stride.next^[j + 1] s).front) = r := by
  induction moves generalizing s with
  | zero => simp [ascend, pure_ok]
  | succ moves ih =>
    have first : (Stride.next^[0 + 1] s).Rises f ↔ f s.front < f s.next.front := Iff.rfl
    rw [ascend_step, exists_isLeast_succ (p := fun k => (Stride.next^[k + 1] s).Rises f), first]
    by_cases rises : f s.front < f s.next.front
    · simp only [rises, if_true, Except.ok.injEq, Option.some.injEq, true_and, not_true, false_and,
        or_false]
      rfl
    · simp only [rises, if_false, false_and, not_false_iff, true_and, false_or]
      exact ih s.next

/-- A search that returns descends first and ascends then. -/
theorem bracketTriple_eq_ok (f : α → α) (x δ : α) (moves : ℕ) {r : α × α × α} :
    bracketTriple (known f) x δ moves = .ok r ↔
      ¬ δ ≤ 0 ∧ ∃ s : α × α × α, firstDescent (known f) x (f x) 5 δ = .ok s ∧
        ascend (known f) moves x s.1 s.2.1 s.2.2 = .ok (some r) := by
  by_cases invalid : δ ≤ 0
  · simp [bracketTriple, invalid, throw_error]
  have evaluated : known f x = .ok (f x) := rfl
  rw [and_iff_right invalid]
  simp only [bracketTriple, if_neg invalid, evaluated, ok_bind, bind_eq_ok]
  refine exists_congr fun s => and_congr_right fun _ => ⟨?_, fun ascended => ⟨_, ascended, rfl⟩⟩
  rintro ⟨found, ascended, returned⟩
  cases found with
  | none => cases returned
  | some triple =>
    cases returned
    exact ascended

/-- A search returns three neighbouring samples around the first rise after the first fall. -/
theorem bracketTriple_ok (f : α → α) (x δ : α) (moves : ℕ) {a b c : α} :
    bracketTriple (known f) x δ moves = .ok (a, b, c) ↔
      ¬ δ ≤ 0 ∧ ∃ i j, FirstRise f x δ moves i j ∧ a = (Stride.nth x δ i j).back ∧
        b = (Stride.nth x δ i j).front ∧ c = (Stride.nth x δ i (j + 1)).front := by
  rw [bracketTriple_eq_ok]
  refine and_congr_right fun _ => ?_
  simp only [firstDescent_ok]
  constructor
  · rintro ⟨_, ⟨i, halvings, fall, rfl⟩, ascended⟩
    obtain ⟨j, within, rise, samples⟩ := (ascend_ok f moves (Stride.nth x δ i 0)).1 ascended
    obtain ⟨rfl, rfl, rfl⟩ : _ ∧ _ ∧ _ := by simpa only [Prod.mk.injEq] using samples
    exact ⟨i, j, ⟨by omega, fall, within, rise⟩, rfl, rfl, rfl⟩
  · rintro ⟨i, j, ⟨halvings, fall, within, rise⟩, rfl, rfl, rfl⟩
    refine ⟨_, ⟨i, by omega, fall, rfl⟩, ?_⟩
    exact (ascend_ok f moves (Stride.nth x δ i 0)).2 ⟨j, within, rise, rfl⟩

/-! ## Which triples are admissible -/

namespace FirstRise

variable {f : α → α} {x δ : α} {moves i j : ℕ} (first : FirstRise f x δ moves i j)
include first

/-- The last stride of a triple rises. -/
theorem rises : f (Stride.nth x δ i j).front < f (Stride.nth x δ i (j + 1)).front := by
  have last : (Stride.nth x δ i (j + 1)).Rises f := first.rise.1
  rwa [Stride.Rises, Stride.back_nth_succ] at last

/-- The two strides up to the first descent have values at their back ends. -/
theorem defined_of_early (comparable : Comparable α) (early : j ≤ 1) :
    Defined (f (Stride.nth x δ i j).back) := by
  have falls := comparable.of_lt first.fall.1
  obtain rfl | rfl : j = 0 ∨ j = 1 := by omega
  · exact falls.2
  · exact falls.1

/-- No stride before the last one rises. -/
theorem falls (comparable : Comparable α) (left : Defined (f (Stride.nth x δ i j).back)) :
    f (Stride.nth x δ i j).front ≤ f (Stride.nth x δ i j).back := by
  cases j with
  | zero => exact comparable.le_of_lt first.fall.1
  | succ j =>
    have level : ¬ (Stride.nth x δ i (j + 1)).Rises f := fun rise =>
      absurd (first.rise.2 rise) (by omega)
    exact comparable.le_of_not_lt left (comparable.of_lt first.rises).1 level

end FirstRise

end

/-! ## A gap to march over -/

namespace Wide

theorem defined_iff_ne_undefined {a : Wide} : Defined a ↔ a ≠ undefined := by
  rw [Defined, Bool.eq_false_iff, Ne, isNaN_iff]

theorem defined_of_lt {a b : Wide} (less : a < b) : Defined a ∧ Defined b := by
  rw [defined_iff_ne_undefined, defined_iff_ne_undefined]
  constructor
  · rintro rfl
    exact not_undefined_lt b less
  · rintro rfl
    exact not_lt_undefined a less

theorem comparable : Comparable Wide where
  of_lt := defined_of_lt
  le_of_lt := le_of_lt
  le_of_not_lt ha hb := le_of_not_lt (defined_iff_ne_undefined.1 ha) (defined_iff_ne_undefined.1 hb)

end Wide

open Wide

/-- From zero on, with the unit for an increment, the samples are one less than powers of two. -/
theorem Stride.nth_unit (j : ℕ) :
    Stride.nth (real 0) (real 1) 0 j = ⟨real (2 ^ j - 1), real (2 ^ (j + 1) - 1), real (2 ^ j)⟩ := by
  induction j with
  | zero =>
    change (⟨real 0, real 0 + real 1, real 1⟩ : Stride Wide) = _
    norm_num
  | succ j ih =>
    have step : Stride.nth (real 0) (real 1) 0 (j + 1) = (Stride.nth (real 0) (real 1) 0 j).next :=
      Function.iterate_succ_apply' ..
    have double : (2.0 : ℝ) = 2 := by norm_num
    rw [step, ih, Stride.next, ofScientific_eq, real_mul, real_add, double]
    simp only [Stride.mk.injEq, real_inj, true_and]
    constructor <;> ring

section
variable {near far t : ℝ}

theorem gapped_of_outside (outside : t ≤ near ∨ far ≤ t) :
    Triple.gapped near far (real t) = real |t - near| := by
  have placed : ¬ (real near < real t ∧ real t < real far) := by
    rintro ⟨after, before⟩
    exact outside.elim (not_le.2 after) (not_le.2 before)
  rw [Triple.gapped, if_neg placed, real_sub, abs_real]

theorem gapped_of_inside (after : near < t) (before : t < far) :
    Triple.gapped near far (real t) = undefined := if_pos ⟨after, before⟩

end

/-- A march from zero on, with the unit for an increment, stops at the first rise between two of
its samples. -/
theorem firstRise_unit {f : Wide → Wide} {moves n : ℕ} (within : n < moves)
    (fall : f (real 1) < f (real 0))
    (rise : f (real (2 ^ (n + 1) - 1)) < f (real (2 ^ (n + 2) - 1)))
    (level : ∀ k < n, ¬ f (real (2 ^ (k + 1) - 1)) < f (real (2 ^ (k + 2) - 1))) :
    FirstRise f (real 0) (real 1) moves 0 n := by
  have rises_iff (k : ℕ) : (Stride.nth (real 0) (real 1) 0 (k + 1)).Rises f ↔
      f (real (2 ^ (k + 1) - 1)) < f (real (2 ^ (k + 2) - 1)) := by
    rw [Stride.nth_unit, Stride.Rises]
  refine ⟨by decide, ⟨?_, fun k _ => k.zero_le⟩, within, (rises_iff n).2 rise, fun k there => ?_⟩
  · change f (real 0 + real 1) < f (real 0)
    rwa [real_add, zero_add]
  · by_contra! before
    exact level k before ((rises_iff k).1 there)

/-! ## Admissible triples -/

/-- A search returns three neighbouring samples around the first rise after the first fall.  The last
two have values, which rise.  Nothing is asked of the value on the left, unless the march began
there or one stride before: the triple is admissible exactly if there is one. -/
theorem bracketTriple_admissible_iff {α : Type} [Scalar α] (comparable : Comparable α) (f : α → α)
    (x δ : α) (moves : ℕ) :
    (∀ a b c, bracketTriple (known f) x δ moves = .ok (a, b, c) ↔
      ¬ δ ≤ 0 ∧ ∃ i j, FirstRise f x δ moves i j ∧ a = (Stride.nth x δ i j).back ∧
        b = (Stride.nth x δ i j).front ∧ c = (Stride.nth x δ i (j + 1)).front) ∧
    (∀ i j, FirstRise f x δ moves i j → j ≤ 1 → Defined (f (Stride.nth x δ i j).back)) ∧
    ∀ a b c, bracketTriple (known f) x δ moves = .ok (a, b, c) →
      Defined (f b) ∧ Defined (f c) ∧ f b < f c ∧ (Admissible f a b c ↔ Defined (f a)) := by
  refine ⟨fun a b c => bracketTriple_ok f x δ moves, fun i j first early =>
    first.defined_of_early comparable early, fun a b c found => ?_⟩
  obtain ⟨-, i, j, first, rfl, rfl, rfl⟩ := (bracketTriple_ok f x δ moves).1 found
  obtain ⟨mid, right⟩ := comparable.of_lt first.rises
  exact ⟨mid, right, first.rises, Admissible.left, fun left =>
    ⟨left, mid, right, first.falls comparable left, first.rises⟩⟩

/-- The march steps over the gap, and its triple is admissible. -/
theorem bracketTriple_admissible_beside :
    bracketTriple (known (Triple.gapped 2 3)) (real 0) (real 1) 3 = .ok (real 1, real 3, real 7) ∧
      Admissible (Triple.gapped 2 3) (real 1) (real 3) (real 7) := by
  obtain ⟨returns, early, admissible⟩ :=
    bracketTriple_admissible_iff comparable (Triple.gapped 2 3) (real 0) (real 1) 3
  have first : FirstRise (Triple.gapped 2 3) (real 0) (real 1) 3 0 1 := by
    apply firstRise_unit
    · decide
    · norm_num [gapped_of_outside]
    · norm_num [gapped_of_outside]
    · intro k early
      interval_cases k
      norm_num [gapped_of_outside]
  have found := (returns (real 1) (real 3) (real 7)).2
    ⟨fun le : (1 : ℝ) ≤ 0 => le.not_gt one_pos, 0, 1, first, by norm_num [Stride.nth_unit]⟩
  have left := early 0 1 first le_rfl
  rw [Stride.nth_unit, pow_one, show (2 : ℝ) - 1 = 1 by norm_num] at left
  exact ⟨found, (admissible _ _ _ found).2.2.2.2 left⟩

/-- A march that lands in the gap goes on, and the triple that it returns has no value on the
left. -/
theorem bracketTriple_leaves_gap :
    bracketTriple (known (Triple.gapped 2 4)) (real 0) (real 1) 3 = .ok (real 3, real 7, real 15) ∧
      ¬ Defined (Triple.gapped 2 4 (real 3)) ∧
      ¬ Admissible (Triple.gapped 2 4) (real 3) (real 7) (real 15) := by
  have missing : Triple.gapped 2 4 (real 3) = undefined :=
    gapped_of_inside (by norm_num) (by norm_num)
  have undefined_left : ¬ Defined (Triple.gapped 2 4 (real 3)) := by
    rw [defined_iff_ne_undefined]
    exact not_not.2 missing
  have first : FirstRise (Triple.gapped 2 4) (real 0) (real 1) 3 0 2 := by
    apply firstRise_unit
    · decide
    · norm_num [gapped_of_outside]
    · norm_num [gapped_of_outside]
    · intro k early
      interval_cases k <;> norm_num [missing]
  refine ⟨?_, undefined_left, fun admissible => undefined_left admissible.left⟩
  exact (bracketTriple_ok _ _ _ _).2
    ⟨fun le : (1 : ℝ) ≤ 0 => le.not_gt one_pos, 0, 2, first, by norm_num [Stride.nth_unit]⟩

end Descent
