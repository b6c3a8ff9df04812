/-
# Descent.Proofs.LineSearch.ThreePoint — brackets of three points shrink

Where every step has a trial point (`Placed`) a search is a run of steps: `next` is one
step, and the run tries the points `trials` one after the other (`outcome_search`).

Without rounding every step has a trial point, because a quotient is taken only where
its divisor is not zero, and the point lies strictly inside the bracket and beside its
middle.  Then `Tightened` holds of each step, whatever the function: the bracket stays
one, it gets narrower, and the value in the middle is the least so far
(`steps_tighten`).
-/
import Descent.Proofs.LineSearch.Cached
import Descent.Proofs.LineSearch.Forward

namespace Descent
set_option autoImplicit false

namespace Triple

/-! ## Runs of steps that have trial points -/

section
variable {α : Type} [Scalar α]

/-- Every step has a trial point. -/
def Placed (f : α → α) (eps : α) : Prop := ∀ p, vertex p (p.values f) eps = .ok (trial f eps p)

variable {f : α → α} {eps : α} {p : Triple α}

theorem placed_of_returns (returns : ∀ p v, ∃ x, vertex p v eps = .ok x) : Placed f eps := by
  intro p
  obtain ⟨x, placed⟩ := returns p (p.values f)
  rw [trial, placed]

theorem update_eq_next (placed : Placed f eps) (p : Triple α) :
    update (known f) p eps = .ok (next f eps p) := by
  rw [update_known, placed p]
  rfl

theorem updates_eq_next (placed : Placed f eps) (p : Triple α) (n : ℕ) :
    updates f eps p n = .ok ((next f eps)^[n] p) := by
  induction n with
  | zero => rfl
  | succ n ih =>
    rw [updates_succ, ih, ok_bind, update_eq_next placed, Function.iterate_succ_apply']

/-- A search asks at the three points it starts from and at the trial points of its steps, and returns
the middle after them. -/
theorem asks_search (placed : Placed f eps) (p : Triple α) (steps : ℕ) :
    ∃ j ≤ steps, (1 ≤ steps → 1 ≤ j) ∧
      search (known f) p eps steps = .ok ((next f eps)^[j] p).mid ∧
      Edit.Asks (search (listed f) p eps steps) (.ok ((next f eps)^[j] p).mid)
        ([p.left, p.mid, p.right] ++ trials f eps j p) := by
  obtain ⟨j, stops⟩ := exists_stopsAt f eps p steps
  obtain ⟨points, asked, tried⟩ := stops.asks_search
  have reached := updates_eq_next placed p j
  have found := stops.search_eq
  rw [tried _ reached, reached] at asked
  rw [reached] at found
  exact ⟨j, stops.within, stops.some, found, asked⟩

theorem outcome_search (placed : Placed f eps) (p : Triple α) (steps : ℕ) :
    ∃ j ≤ steps, (1 ≤ steps → 1 ≤ j) ∧
      search (known f) p eps steps = .ok ((next f eps)^[j] p).mid ∧
      (search (listed f) p eps steps).outcome [] =
        (.ok ((next f eps)^[j] p).mid, [p.left, p.mid, p.right] ++ trials f eps j p) := by
  obtain ⟨j, within, some, found, asked⟩ := asks_search placed p steps
  exact ⟨j, within, some, found, asked []⟩

end

/-! ## Steps without rounding -/

variable {K : Type} [Field K] [LinearOrder K] {f : K → K} {eps x : K} {p : Triple K}

/-- Points in increasing order with the least value in the middle. -/
structure Brackets (f : K → K) (p : Triple K) : Prop where
  left : p.left < p.mid
  right : p.mid < p.right
  falls : f p.mid ≤ f p.left
  rises : f p.mid ≤ f p.right

omit [Field K] in
theorem Brackets.increasing (brackets : Brackets f p) : Increasing p.left p :=
  ⟨le_rfl, brackets.left, brackets.right⟩

/-- The numerator of twice the stationary point of the parabola through three points. -/
def dividend (p v : Triple K) : K :=
  v.left * (p.mid ^ 2 - p.right ^ 2) + v.mid * (p.right ^ 2 - p.left ^ 2) +
    v.right * (p.left ^ 2 - p.mid ^ 2)

/-- Its denominator. -/
def divisor (p v : Triple K) : K :=
  v.left * (p.mid - p.right) + v.mid * (p.right - p.left) + v.right * (p.left - p.mid)

/-- The stationary point is a quotient, and it is taken only if there is one. -/
theorem stationary_exact (p v : Triple K) :
    stationary p v =
      if divisor p v = 0 then .ok none
      else (quotient (0.5 * dividend p v) (divisor p v)).map some := by
  have checked : stationary p v =
      if (divisor p v == 0 || !Scalar.isFinite (dividend p v / divisor p v)) = true then .ok none
      else .ok (some (0.5 * dividend p v / divisor p v)) := rfl
  have finite : Scalar.isFinite (dividend p v / divisor p v) = true := rfl
  simp only [checked, finite, Bool.not_true, Bool.or_false, beq_iff_eq]
  split
  · rfl
  · rename_i nonzero
    rw [quotient_of_ne_zero _ nonzero]
    rfl

/-- A trial point is the repaired quotient, or the middle of the wider side where the divisor is
zero. -/
theorem vertex_quotient {v : Triple K} (placed : vertex p v eps = .ok x) :
    divisor p v = 0 ∧ x = p.widerMiddle ∨
      ∃ y, quotient (0.5 * dividend p v) (divisor p v) = .ok y ∧ x = p.repair eps y := by
  rw [vertex, stationary_exact] at placed
  by_cases zero : divisor p v = 0
  · rw [if_pos zero] at placed
    cases placed
    exact .inl ⟨zero, rfl⟩
  · rw [if_neg zero, quotient_of_ne_zero _ zero] at placed
    cases placed
    exact .inr ⟨_, quotient_of_ne_zero _ zero, rfl⟩

/-- What a step with a trial point makes of a bracket. -/
structure Tightened (f : K → K) (eps : K) (p : Triple K) (x : K) (q : Triple K) : Prop where
  placed : vertex p (p.values f) eps = .ok x
  updated : update (known f) p eps = .ok q
  divides : divisor p (p.values f) = 0 ∧ x = p.widerMiddle ∨
    ∃ y, quotient (0.5 * dividend p (p.values f)) (divisor p (p.values f)) = .ok y ∧
      x = p.repair eps y
  after : p.left < x
  before : x < p.right
  apart : x ≠ p.mid
  brackets : Brackets f q
  left : p.left ≤ q.left
  right : q.right ≤ p.right
  narrower : q.right - q.left < p.right - p.left
  lower : f q.mid ≤ f p.mid
  least : f q.mid ≤ f x

/-- Three of four points, the least value among them in the middle. -/
theorem insert_brackets (brackets : Brackets f p) (after : p.left < x) (before : x < p.right)
    (apart : x ≠ p.mid) :
    Brackets f (insert p (p.values f) x (f x)).1 ∧
      f (insert p (p.values f) x (f x)).1.mid ≤ f p.mid ∧
      f (insert p (p.values f) x (f x)).1.mid ≤ f x := by
  obtain ⟨-, left, right⟩ :=
    insert_increasing brackets.increasing after before apart (p.values f) (f x)
  obtain ⟨-, -, falls, rises⟩ := brackets
  suffices values : f (insert p (p.values f) x (f x)).1.mid ≤
        f (insert p (p.values f) x (f x)).1.left ∧
      f (insert p (p.values f) x (f x)).1.mid ≤ f (insert p (p.values f) x (f x)).1.right ∧
      f (insert p (p.values f) x (f x)).1.mid ≤ f p.mid ∧
      f (insert p (p.values f) x (f x)).1.mid ≤ f x from
    ⟨⟨left, right, values.1, values.2.1⟩, values.2.2⟩
  unfold insert values
  split <;> split
  · rename_i greater
    exact ⟨falls, greater.le, le_rfl, greater.le⟩
  · rename_i less
    have less := not_lt.1 less
    exact ⟨less, less.trans rises, less, le_rfl⟩
  · rename_i greater
    exact ⟨greater.le, rises, le_rfl, greater.le⟩
  · rename_i less
    have less := not_lt.1 less
    exact ⟨less.trans falls, less, less, le_rfl⟩

theorem placed_exact (f : K → K) (eps : K) : Placed f eps :=
  placed_of_returns fun p v => (vertex_only (fun _ => False) p v eps).returns

variable [IsStrictOrderedRing K]

/-- A trial point inside takes the place of one end, or the middle does. -/
theorem insert_narrower (left : p.left < p.mid) (right : p.mid < p.right) (after : p.left < x)
    (before : x < p.right) (v : Triple K) (fx : K) :
    p.left ≤ (insert p v x fx).1.left ∧ (insert p v x fx).1.right ≤ p.right ∧
      (insert p v x fx).1.right - (insert p v x fx).1.left < p.right - p.left := by
  unfold insert
  split <;> split
  · exact ⟨le_rfl, before.le, sub_lt_sub_right before _⟩
  · exact ⟨left.le, le_rfl, sub_lt_sub_left left _⟩
  · exact ⟨after.le, le_rfl, sub_lt_sub_left after _⟩
  · exact ⟨le_rfl, right.le, sub_lt_sub_right right _⟩

theorem Brackets.tightened (brackets : Brackets f p) (eps : K) :
    Tightened f eps p (trial f eps p) (next f eps p) := by
  have placed := placed_exact f eps p
  obtain ⟨after, before, apart⟩ := vertex_inside brackets.increasing placed
  obtain ⟨within, lower, least⟩ := insert_brackets brackets after before apart
  obtain ⟨left, right, narrower⟩ :=
    insert_narrower brackets.left brackets.right after before (p.values f) (f (trial f eps p))
  exact ⟨placed, update_eq_next (placed_exact f eps) p, vertex_quotient placed, after, before, apart,
    within, left, right, narrower, lower, least⟩

/-- A bracket stays one, inside the one that a run started from. -/
theorem Brackets.iterate (brackets : Brackets f p) (eps : K) (n : ℕ) :
    Brackets f ((next f eps)^[n] p) ∧ p.left ≤ ((next f eps)^[n] p).left ∧
      ((next f eps)^[n] p).right ≤ p.right := by
  induction n with
  | zero => exact ⟨brackets, le_rfl, le_rfl⟩
  | succ n ih =>
    obtain ⟨within, left, right⟩ := ih
    have step := within.tightened eps
    rw [Function.iterate_succ_apply']
    exact ⟨step.brackets, left.trans step.left, step.right.trans right⟩

/-- The value in the middle never grows. -/
theorem Brackets.antitone (brackets : Brackets f p) (eps : K) :
    Antitone fun n => f ((next f eps)^[n] p).mid := by
  refine antitone_nat_of_succ_le fun n => ?_
  rw [Function.iterate_succ_apply']
  exact ((brackets.iterate eps n).1.tightened eps).lower

/-- The middle after some steps has the least value of all points that were asked for. -/
theorem Brackets.least (brackets : Brackets f p) (eps : K) (j : ℕ) :
    ∀ t ∈ [p.left, p.mid, p.right] ++ trials f eps j p, f ((next f eps)^[j] p).mid ≤ f t := by
  intro t asked
  have start : f ((next f eps)^[j] p).mid ≤ f p.mid := brackets.antitone eps j.zero_le
  simp only [List.cons_append, List.nil_append, List.mem_cons, trials, List.mem_map,
    List.mem_range] at asked
  rcases asked with rfl | rfl | rfl | ⟨i, before, rfl⟩
  · exact start.trans brackets.falls
  · exact start
  · exact start.trans brackets.rises
  · have step := (brackets.iterate eps i).1.tightened eps
    have later := brackets.antitone eps (Nat.succ_le_of_lt before)
    dsimp only at later
    rw [Function.iterate_succ_apply'] at later
    exact later.trans step.least

/-- Each step tightens a bracket of three points, for any number of steps and whatever the function.
A search is a run of such steps, and returns a point with the least value of all that it asked
for. -/
theorem steps_tighten (brackets : Brackets f p) (eps : K) :
    (∀ n, Tightened f eps ((next f eps)^[n] p) (trial f eps ((next f eps)^[n] p))
        ((next f eps)^[n + 1] p) ∧
      p.left ≤ ((next f eps)^[n] p).left ∧ ((next f eps)^[n] p).right ≤ p.right) ∧
    ∀ steps, ∃ j ≤ steps, search (known f) p eps steps = .ok ((next f eps)^[j] p).mid ∧
      (search (listed f) p eps steps).outcome [] =
        (.ok ((next f eps)^[j] p).mid, [p.left, p.mid, p.right] ++ trials f eps j p) ∧
      ∀ t ∈ [p.left, p.mid, p.right] ++ trials f eps j p, f ((next f eps)^[j] p).mid ≤ f t := by
  refine ⟨fun n => ?_, fun steps => ?_⟩
  · obtain ⟨within, left, right⟩ := brackets.iterate eps n
    rw [Function.iterate_succ_apply']
    exact ⟨within.tightened eps, left, right⟩
  · obtain ⟨j, within, -, found, asked⟩ := outcome_search (placed_exact f eps) p steps
    exact ⟨j, within, found, asked, brackets.least eps j⟩

/-- A bracket around a kink, where the function is no parabola. -/
theorem steps_tighten_kink :
    ∃ j ≤ 3, search (known fun t : ℚ => |t - 1|) ⟨0, 2, 5⟩ 0 3 =
      .ok ((next (fun t => |t - 1|) 0)^[j] ⟨0, 2, 5⟩).mid ∧
      |((next (fun t : ℚ => |t - 1|) 0)^[j] ⟨0, 2, 5⟩).mid - 1| ≤ 1 := by
  have brackets : Brackets (fun t : ℚ => |t - 1|) ⟨0, 2, 5⟩ := by
    constructor <;> norm_num
  obtain ⟨j, within, found, -, least⟩ := (steps_tighten brackets 0).2 3
  exact ⟨j, within, found, (least 2 (by simp)).trans_eq (by norm_num)⟩

end Triple

end Descent
