/-
# Descent.Proofs.LineSearch.Cached — a three-point search is the iteration of its updates

A step of the three-point search places a trial point and keeps three of the four points,
with the values that belong to them (`insert_values`).  An update asks for the values at
all three of its points.  A search asks for them once, and from then on carries a triple of
values along with the triple of points; a step moves both, and so one value at the wrong
place would be noticed only later.

The two agree in any arithmetic, whether or not its numbers are ordered or equal to
themselves: what is carried is always the values at the points that an iterated update
has reached (`carried_eq`), and a step faults where that update does.  So a search stops
after the first update whose points are settled, or after the last one, and it asks for
one value in each step (`search_iterates_update`).
-/
import Descent.Proofs.LineSearch.Asked

namespace Descent
set_option autoImplicit false

namespace Triple

open Edit

/-! ## Runs of steps -/

variable {α : Type}

/-- The values of a function at three points. -/
def values (f : α → α) (p : Triple α) : Triple α := ⟨f p.left, f p.mid, f p.right⟩

variable [Scalar α]

/-- The trial point of a step; the middle if there is none. -/
def trial (f : α → α) (eps : α) (p : Triple α) : α :=
  match vertex p (p.values f) eps with
  | .ok x => x
  | .error _ => p.mid

/-- The points after one step. -/
def next (f : α → α) (eps : α) (p : Triple α) : Triple α :=
  (insert p (p.values f) (trial f eps p) (f (trial f eps p))).1

/-- The trial points of a number of steps. -/
def trials (f : α → α) (eps : α) (steps : ℕ) (p : Triple α) : List α :=
  (List.range steps).map fun i => trial f eps ((next f eps)^[i] p)

variable (f : α → α) (eps : α) (p : Triple α)

/-- The points after a number of updates, each of which asks for the values at all three points. -/
def updates : ℕ → Except (Fault α) (Triple α)
  | 0 => .ok p
  | n + 1 => do update (known f) (← updates n) eps

/-- The points and values after a number of steps, each of which asks for one value. -/
def carried : ℕ → Except (Fault α) (Triple α × Triple α)
  | 0 => do return (p, ← valuesOf (known f) p)
  | n + 1 => do
    let (points, values) ← carried n
    step (known f) points values eps

/-- The number of the first update, of at most so many, after which the points are settled; the
number of the first one that faults, if there is one before; otherwise that of the last one. -/
structure StopsAt (steps j : ℕ) : Prop where
  some : 1 ≤ steps → 1 ≤ j
  within : j ≤ steps
  before : ∀ i, 1 ≤ i → i < j →
    ∃ q, updates f eps p i = .ok q ∧ settled q (q.values f) eps = false
  last : j = steps ∨ ∀ q, updates f eps p j = .ok q → settled q (q.values f) eps = true

variable {f eps p} {q : Triple α} {steps j k : ℕ}

/-! ## One step and one update -/

/-- The values go with the points. -/
theorem insert_values (f : α → α) (p : Triple α) (x : α) :
    insert p (p.values f) x (f x) =
      ((insert p (p.values f) x (f x)).1, (insert p (p.values f) x (f x)).1.values f) := by
  unfold insert
  split <;> split <;> rfl

theorem update_known (p : Triple α) :
    update (known f) p eps =
      (vertex p (p.values f) eps).map fun x => (insert p (p.values f) x (f x)).1 := by
  have valued : valuesOf (known f) p = .ok (p.values f) := rfl
  rw [update, valued, ok_bind, step, ofExcept_plain]
  cases vertex p (p.values f) eps <;> rfl

/-- A step with the right values makes the update, and leaves the right values. -/
theorem step_known (p : Triple α) :
    step (known f) p (p.values f) eps =
      (update (known f) p eps).map fun q => (q, q.values f) := by
  rw [update_known, step, ofExcept_plain]
  cases vertex p (p.values f) eps with
  | error e => rfl
  | ok x => exact congrArg Except.ok (insert_values f p x)

theorem next_of_update (updated : update (known f) p eps = .ok q) :
    vertex p (p.values f) eps = .ok (trial f eps p) ∧ next f eps p = q := by
  rw [update_known] at updated
  cases placed : vertex p (p.values f) eps with
  | error e =>
    rw [placed] at updated
    cases updated
  | ok x =>
    rw [placed] at updated
    have tried : trial f eps p = x := by rw [trial, placed]
    rw [next, tried]
    exact ⟨rfl, Except.ok.inj updated⟩

/-- A step asks for the value at its trial point. -/
theorem asks_step_of_update (updated : update (known f) p eps = .ok q) :
    Asks (step (listed f) p (p.values f) eps) (.ok (q, q.values f)) [trial f eps p] := by
  obtain ⟨placed, rfl⟩ := next_of_update updated
  have placing : Asks (ofExcept (vertex p (p.values f) eps) : Edit α (List α) α)
      (.ok (trial f eps p)) [] := placed ▸ .ofExcept _
  refine placing.bind (Asks.ask ?_)
  rw [insert_values f p (trial f eps p)]
  exact .pure _

theorem asks_step_of_fault {e : Fault α} (updated : update (known f) p eps = .error e) :
    Asks (step (listed f) p (p.values f) eps) (.error e) [] := by
  have placed : vertex p (p.values f) eps = .error e := by
    rw [update_known] at updated
    cases placed : vertex p (p.values f) eps with
    | error e' =>
      rw [placed] at updated
      exact congrArg Except.error (Except.error.inj updated)
    | ok x =>
      rw [placed] at updated
      cases updated
  have placing : Asks (ofExcept (vertex p (p.values f) eps) : Edit α (List α) α)
      (.error e) [] := placed ▸ .ofExcept _
  exact placing.fault

theorem updates_succ (n : ℕ) :
    updates f eps p (n + 1) = updates f eps p n >>= fun q => update (known f) q eps := rfl

/-- The values that are carried are those at the points that the updates reach. -/
theorem carried_eq (f : α → α) (eps : α) (p : Triple α) (n : ℕ) :
    carried f eps p n = (updates f eps p n).map fun q => (q, q.values f) := by
  induction n with
  | zero => rfl
  | succ n ih =>
    rw [carried, ih, updates_succ]
    cases updates f eps p n with
    | error e => rfl
    | ok q => exact step_known q

theorem iterate_next_of_updates (n : ℕ) (reached : updates f eps p n = .ok q) :
    (next f eps)^[n] p = q := by
  induction n generalizing q with
  | zero => exact Except.ok.inj reached
  | succ n ih =>
    rw [updates_succ] at reached
    obtain ⟨r, earlier, updated⟩ := bind_eq_ok.1 reached
    rw [Function.iterate_succ_apply', ih earlier]
    exact (next_of_update updated).2

theorem trials_concat (n : ℕ) (reached : updates f eps p n = .ok q) :
    trials f eps (n + 1) p = trials f eps n p ++ [trial f eps q] := by
  rw [trials, List.range_succ, List.map_append, List.map_singleton,
    iterate_next_of_updates n reached, trials]

/-! ## The run of a search -/

theorem exists_stopsAt (f : α → α) (eps : α) (p : Triple α) (steps : ℕ) :
    ∃ j, StopsAt f eps p steps j := by
  induction steps with
  | zero => exact ⟨0, id, le_rfl, fun _ _ none => absurd none (by omega), .inl rfl⟩
  | succ steps ih =>
    obtain ⟨j, some, within, before, last⟩ := ih
    by_cases stops : 1 ≤ j ∧ ∀ q, updates f eps p j = .ok q → settled q (q.values f) eps = true
    · exact ⟨j, fun _ => stops.1, by omega, before, .inr stops.2⟩
    · refine ⟨steps + 1, fun _ => by omega, le_rfl, fun i first earlier => ?_, .inl rfl⟩
      by_cases sooner : i < j
      · exact before i first sooner
      · -- update `j` was the last one allowed, and its points are not settled
        obtain rfl | settles := last
        · obtain rfl : i = j := by omega
          by_contra! unsettled
          exact stops ⟨first, fun q reached => by simpa using unsettled q reached⟩
        · exact absurd ⟨by omega, settles⟩ stops

theorem StopsAt.reaches (stops : StopsAt f eps p steps j) (earlier : k < j) :
    ∃ q, updates f eps p k = .ok q := by
  cases k with
  | zero => exact ⟨p, rfl⟩
  | succ k =>
    obtain ⟨q, reached, -⟩ := stops.before (k + 1) (by omega) earlier
    exact ⟨q, reached⟩

/-- Before it stops, a search goes on from the points of the updates with the values at them. -/
theorem StopsAt.outcome_iterate (stops : StopsAt f eps p steps j) (earlier : k < j)
    (reached : updates f eps p k = .ok q) (s : List α) :
    (iterate (listed f) eps steps p (p.values f)).outcome s =
      (iterate (listed f) eps (steps - k) q (q.values f)).outcome (s ++ trials f eps k p) := by
  induction k generalizing q with
  | zero =>
    obtain rfl := Except.ok.inj reached
    rw [trials, List.range_zero, List.map_nil, List.append_nil, Nat.sub_zero]
  | succ k ih =>
    obtain ⟨_, reached', unsettled⟩ := stops.before (k + 1) (by omega) earlier
    obtain rfl := Except.ok.inj (reached.symm.trans reached')
    rw [updates_succ] at reached
    obtain ⟨r, before, updated⟩ := bind_eq_ok.1 reached
    have rest : steps - k = steps - (k + 1) + 1 := by
      have := stops.within
      omega
    rw [ih (by omega) before, rest, iterate, outcome_bind, asks_step_of_update updated, andThen_ok,
      trials_concat k before, List.append_assoc]
    dsimp only
    rw [unsettled]
    rfl

/-- The last step returns the points of its update, or faults as the update does. -/
theorem StopsAt.asks_last (stops : StopsAt f eps p steps (k + 1))
    (before : updates f eps p k = .ok q) :
    ∃ points, Asks (iterate (listed f) eps (steps - k) q (q.values f)) (updates f eps p (k + 1))
        points ∧
      ∀ r, updates f eps p (k + 1) = .ok r → points = [trial f eps q] := by
  have rest : steps - k = steps - (k + 1) + 1 := by
    have := stops.within
    omega
  have last := stops.last
  rw [rest, iterate]
  have updated : updates f eps p (k + 1) = update (known f) q eps := by
    rw [updates_succ, before, ok_bind]
  rw [updated] at last ⊢
  cases moved : update (known f) q eps with
  | error e => exact ⟨[], (asks_step_of_fault moved).fault, fun r returned => by cases returned⟩
  | ok r =>
    refine ⟨[trial f eps q], (asks_step_of_update moved).finish ?_, fun _ _ => rfl⟩
    dsimp only
    split
    · exact .pure r
    · rename_i unsettled
      obtain done | settles := last
      · rw [← done, Nat.sub_self]
        exact .pure r
      · exact absurd (settles r moved) unsettled

/-- A search asks for the values at the three points it starts from. -/
theorem outcome_search_start (f : α → α) (eps : α) (p : Triple α) (steps : ℕ) (s : List α) :
    (search (listed f) p eps steps).outcome s =
      (do return (← iterate (listed f) eps steps p (p.values f)).mid : Edit α (List α) α).outcome
        (s ++ [p.left, p.mid, p.right]) := by
  have valued : Asks (valuesOf (listed f) p) (.ok (p.values f)) [p.left, p.mid, p.right] :=
    .ask (.ask (.ask (.pure _)))
  rw [search, outcome_bind, valued, andThen_ok]

/-- Before it stops, a search goes on from the points of the updates with the values at them. -/
theorem StopsAt.outcome_search (stops : StopsAt f eps p steps j) (earlier : k < j)
    (reached : updates f eps p k = .ok q) (s : List α) :
    (search (listed f) p eps steps).outcome s =
      (do return (← iterate (listed f) eps (steps - k) q (q.values f)).mid :
        Edit α (List α) α).outcome (s ++ [p.left, p.mid, p.right] ++ trials f eps k p) := by
  rw [outcome_search_start, outcome_bind, outcome_bind, stops.outcome_iterate earlier reached]

/-- After that it asks for one value in each step. -/
theorem StopsAt.asks_search (stops : StopsAt f eps p steps j) :
    ∃ points, Asks (search (listed f) p eps steps) ((updates f eps p j).map (·.mid)) points ∧
      ∀ q, updates f eps p j = .ok q → points = [p.left, p.mid, p.right] ++ trials f eps j p := by
  cases j with
  | zero =>
    obtain rfl : steps = 0 := by
      have := stops.some
      omega
    refine ⟨[p.left, p.mid, p.right], fun s => outcome_search_start f eps p 0 s, fun _ _ => ?_⟩
    rw [trials, List.range_zero, List.map_nil, List.append_nil]
  | succ k =>
    obtain ⟨q, before⟩ := stops.reaches k.lt_succ_self
    obtain ⟨points, asks, tried⟩ := stops.asks_last before
    refine ⟨[p.left, p.mid, p.right] ++ trials f eps k p ++ points, fun s => ?_, fun r moved => ?_⟩
    · rw [stops.outcome_search k.lt_succ_self before, outcome_bind, asks]
      simp only [List.append_assoc]
      cases updates f eps p (k + 1) <;> rfl
    · rw [tried r moved, trials_concat k before, List.append_assoc]

/-- What it returns on a plain function. -/
theorem StopsAt.search_eq (stops : StopsAt f eps p steps j) :
    search (known f) p eps steps = (updates f eps p j).map (·.mid) := by
  obtain ⟨_, asks, -⟩ := stops.asks_search
  obtain ⟨_, same⟩ := Correspondence.asking.searchTriple (asking_listed f) (fun _ _ _ _ => trivial)
    p steps
  exact same.result_eq asks

/-- A search carries the values at its points along, and returns the middle after the first update
whose points are settled, or after the last one.  Until then it is always about to go on from the
points of an iterated update and the values at these very points.  It asks for three values at the
start and for one in each step. -/
theorem search_iterates_update (f : α → α) (eps : α) (p : Triple α) (steps : ℕ) :
    (∀ n, carried f eps p n = (updates f eps p n).map fun q => (q, q.values f)) ∧
      ∃ j, StopsAt f eps p steps j ∧
        (∀ k < j, ∃ q, updates f eps p k = .ok q ∧ ∀ s,
          (search (listed f) p eps steps).outcome s =
            (do return (← iterate (listed f) eps (steps - k) q (q.values f)).mid :
              Edit α (List α) α).outcome (s ++ [p.left, p.mid, p.right] ++ trials f eps k p)) ∧
        search (known f) p eps steps = (updates f eps p j).map (·.mid) ∧
        ∀ q, updates f eps p j = .ok q → ∃ points, points.length = 3 + j ∧
          (search (listed f) p eps steps).outcome [] = (.ok q.mid, points) := by
  obtain ⟨j, stops⟩ := exists_stopsAt f eps p steps
  obtain ⟨points, asks, tried⟩ := stops.asks_search
  refine ⟨carried_eq f eps p, j, stops, fun k earlier => ?_, stops.search_eq, fun q reached => ?_⟩
  · obtain ⟨q, reached⟩ := stops.reaches earlier
    exact ⟨q, reached, stops.outcome_search earlier reached⟩
  · refine ⟨points, ?_, ?_⟩
    · rw [tried q reached, trials, List.length_append, List.length_map, List.length_range]
      rfl
    · rw [asks, reached]
      rfl

/-- Around a kink, with a width that the first step reaches, a search asks for four values. -/
theorem search_iterates_update_kink :
    ∃ t points, points.length = 4 ∧
      (search (listed fun t : ℚ => |t - 1|) ⟨0, 2, 5⟩ 5 3).outcome [] = (.ok t, points) := by
  obtain ⟨-, j, stops, -, -, returned⟩ :=
    search_iterates_update (fun t : ℚ => |t - 1|) 5 ⟨0, 2, 5⟩ 3
  have one : updates (fun t : ℚ => |t - 1|) 5 ⟨0, 2, 5⟩ 1 = .ok ⟨0, 1, 2⟩ := by
    with_unfolding_all rfl
  have first : ¬ 1 < j := fun later => by
    obtain ⟨q, reached, unsettled⟩ := stops.before 1 le_rfl later
    obtain rfl := Except.ok.inj (one.symm.trans reached)
    norm_num [settled] at unsettled
  obtain rfl : j = 1 := by
    have := stops.some (by norm_num)
    omega
  obtain ⟨points, four, outcome⟩ := returned _ one
  exact ⟨_, points, four, outcome⟩

end Triple

end Descent
