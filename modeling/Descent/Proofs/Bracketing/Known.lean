/-
# Descent.Proofs.Bracketing.Known — searches along a function that is known everywhere

Along a function that fails nowhere the searches are plain recursions, and each loop has an equation
for one step.  A march then ends in one of two ways: it returns an interval, or it faults with a
bracketing fault of its own (`bracketMinimum_only` and its companions).

Bisection looks at the sign of a product (`bisect_known`).  It refuses an interval at whose ends the
function has one sign, and returns a point otherwise, whatever the function does inside.
-/
import Descent.Proofs.Correspondence.Algorithms
import Descent.Proofs.Exact

namespace Descent
set_option autoImplicit false

section
variable {α : Type}

theorem known_only (P : Fault α → Prop) (f : α → α) (t : α) : Fault.Only P (known f t) := .ok _

variable [Scalar α]

theorem firstDescent_step (f : α → α) (x fx : α) (halvings : ℕ) (δ : α) :
    firstDescent (known f) x fx halvings δ =
      if f (x + δ) < fx then .ok (x + δ, f (x + δ), δ)
      else match halvings with
        | 0 => .error (.notDecreasing x (x + δ) (f (x + δ)) fx)
        | halvings + 1 => firstDescent (known f) x fx halvings (δ / 2.0) := by
  cases halvings <;> rfl

theorem halve_returns (f : α → α) (xTol fTol : α) (n : ℕ) (low fLow high mid : α) :
    ∃ x, halve (known f) xTol fTol n low fLow high mid = .ok x :=
  ((Correspondence.plain fun _ : Fault α => False).halve (g := known f)
    (known_only _ f) xTol fTol n low fLow high mid).returns

end

variable {K : Type} [Field K] [LinearOrder K] {f : K → K}

/-! ## One step of a march -/

theorem descend_succ (f : K → K) (growth : K) (moves : ℕ) (a b fb step : K) :
    descend (known f) growth (moves + 1) a b fb step =
      if fb < f (b + step) then .ok (some (ordered a (b + step)))
      else descend (known f) growth moves b (b + step) (f (b + step)) (step * growth) := rfl

theorem widen_succ (f : K → K) (x growth : K) (moves : ℕ) (last width : K) :
    widen (known f) x growth (moves + 1) last width =
      if last < f (x + width) then .ok (some (x + width))
      else widen (known f) x growth moves (f (x + width)) (width * growth) := rfl

theorem ascend_succ (f : K → K) (moves : ℕ) (a b fb increment : K) :
    ascend (known f) (moves + 1) a b fb increment =
      if fb < f (b + increment * 2.0) then .ok (some (a, b, b + increment * 2.0))
      else ascend (known f) moves b (b + increment * 2.0) (f (b + increment * 2.0))
        (increment * 2.0) := rfl

theorem reach_succ (f : K → K) (x fx g w : K) (n : ℕ) :
    reach (known f) x fx g (n + 1) w =
      if fx * f (x + w) ≤ 0 then .ok (some (ordered x (x + w)))
      else reach (known f) x fx g n (w * g) := rfl

/-! ## Admitted marches -/

theorem check_march {march : March K} (moves : march.step ≠ 0) (grows : 1 < march.growth)
    (some_moves : 1 ≤ march.moves) : march.check = .ok () := by
  have nonzero : (march.step == 0) = false := beq_eq_false_iff_ne.2 moves
  simp [March.check, nonzero, grows.not_ge, Nat.ne_zero_of_lt some_moves]

theorem bracketTriple_only (f : K → K) (x : K) {s : K} (moves : 0 < s) (n : ℕ) :
    Fault.Only (·.isBracketing) (bracketTriple (known f) x s n) :=
  (Correspondence.plain _).bracketTriple (g := known f) (known_only _ f) x s n
    (fun small => absurd small moves.not_ge) (fun _ _ _ => rfl) rfl

section
variable [IsStrictOrderedRing K]

theorem check_doubling {s : K} (moves : 0 < s) : (March.doubling s).check = .ok () :=
  check_march moves.ne' (by norm_num [March.doubling]) (by norm_num [March.doubling])

theorem doubling_only (P : Fault K → Prop) {s : K} (moves : 0 < s) :
    Fault.Only P (March.doubling s).check := by
  rw [check_doubling moves]
  exact .ok _

theorem bracketMinimum_only (f : K → K) (x : K) {s : K} (moves : 0 < s) :
    Fault.Only (·.isBracketing) (bracketMinimum (known f) x (.doubling s)) :=
  (Correspondence.plain _).bracketMinimum (g := known f) (known_only _ f) (doubling_only _ moves) rfl

theorem bracketMinimumFrom_only (f : K → K) (x : K) {s : K} (moves : 0 < s) :
    Fault.Only (·.isBracketing) (bracketMinimumFrom (known f) x (.doubling s)) :=
  (Correspondence.plain _).bracketMinimumFrom (g := known f) (known_only _ f) (doubling_only _ moves)
    rfl

/-! ## Intervals of marches -/

/-- A march that meets a rise in its first move. -/
theorem bracketMinimum_of_rise {f : K → K} {x s : K} (moves : 0 < s) (falls : ¬ f x < f (x + s))
    (rises : f (x + s) < f (x + s + s)) :
    bracketMinimum (known f) x (.doubling s) = .ok (ordered x (x + s + s)) := by
  have first : (March.doubling s).step = s := rfl
  have hundred : (March.doubling s).moves = 99 + 1 := rfl
  have walked : descend (known f) (March.doubling s).growth (March.doubling s).moves x (x + s)
      (f (x + s)) s = .ok (some (ordered x (x + s + s))) := by
    rw [hundred, descend_succ, if_pos rises]
  simp only [bracketMinimum, check_doubling moves, ofExcept_plain, ok_bind, known, first]
  rw [if_neg falls, walked]
  rfl

/-- The interval of a minimum is in increasing order. -/
theorem descend_le (f : K → K) (growth : K) (moves : ℕ) (a b fb step : K) {low high : K}
    (found : descend (known f) growth moves a b fb step = .ok (some (low, high))) : low ≤ high := by
  induction moves generalizing a b fb step with
  | zero => cases found
  | succ moves ih =>
    rw [descend_succ] at found
    split at found
    · simp only [ordered, Except.ok.injEq, Option.some.injEq] at found
      grind
    · exact ih _ _ _ _ found

theorem bracketMinimum_le (f : K → K) {s low high : K} (moves : 0 < s)
    (found : bracketMinimum (known f) 0 (.doubling s) = .ok (low, high)) : low ≤ high := by
  simp only [bracketMinimum, check_doubling moves, ofExcept_plain, ok_bind, known] at found
  split at found
  all_goals
    obtain ⟨_ | _, walked, rest⟩ := bind_eq_ok.1 found
    · cases rest
    · cases rest
      exact descend_le f _ _ _ _ _ _ walked

theorem widen_gt (f : K → K) {x growth : K} (grows : 0 < growth) (moves : ℕ) {last width c : K}
    (ahead : 0 < width) (found : widen (known f) x growth moves last width = .ok (some c)) :
    x < c := by
  induction moves generalizing last width with
  | zero => cases found
  | succ moves ih =>
    rw [widen_succ] at found
    split at found
    · cases found
      exact lt_add_of_pos_right x ahead
    · exact ih (mul_pos ahead grows) found

/-- An interval that starts at a point ends after it. -/
theorem bracketMinimumFrom_lt (f : K → K) {s x low high : K} (moves : 0 < s)
    (found : bracketMinimumFrom (known f) x (.doubling s) = .ok (low, high)) : low < high := by
  simp only [bracketMinimumFrom, check_doubling moves, ofExcept_plain, ok_bind, known] at found
  obtain ⟨_ | c, widened, rest⟩ := bind_eq_ok.1 found
  · cases rest
  · cases rest
    exact widen_gt f (by norm_num [March.doubling]) _ moves widened

/-! ## Bisection -/

theorem sameSign_iff (x y : K) : Scalar.sameSign x y = true ↔ 0 < x * y := by
  rw [mul_pos_iff]
  simp [Scalar.sameSign]

theorem bisect_known (f : K → K) {a b : K} (increasing : a ≤ b) (xTol fTol : K) (n : ℕ) :
    bisect (known f) a b xTol fTol n =
      if f a = 0 then .ok a
      else if f b = 0 then .ok b
      else if 0 < f a * f b then .error (.noSignChange a b)
      else halve (known f) xTol fTol n a (f a) b (0.5 * (a + b)) := by
  simp [bisect, increasing, known, sameSign_iff, throw_error, pure_ok]

theorem bisect_of_same_sign (f : K → K) {a b : K} (increasing : a ≤ b) (same : 0 < f a * f b)
    (xTol fTol : K) (n : ℕ) :
    bisect (known f) a b xTol fTol n = .error (.noSignChange a b) := by
  rw [bisect_known f increasing, if_neg (left_ne_zero_of_mul same.ne'),
    if_neg (right_ne_zero_of_mul same.ne'), if_pos same]

theorem bisect_returns (f : K → K) {a b : K} (increasing : a ≤ b) (change : ¬ 0 < f a * f b)
    (xTol fTol : K) (n : ℕ) : ∃ t, bisect (known f) a b xTol fTol n = .ok t := by
  rw [bisect_known f increasing, if_neg change]
  split
  · exact ⟨_, rfl⟩
  · split
    · exact ⟨_, rfl⟩
    · exact halve_returns f xTol fTol n a (f a) b _

end

end Descent
