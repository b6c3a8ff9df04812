/-
# Descent.Proofs.Iteration.Run — the iterations of a run

`Method.After h k phase s` says that a run that stands before its first iteration
in session `h` has made `k` iterations, the last of them with the verdict `phase`,
and now is in session `s`.  It does not count down to a limit, so it describes the
iterations as the driver makes them: for as long as the verdict is to run.

The loop makes these iterations and no others (`Method.loop_outcome`), which gives
the ways in which a run ends: it returns after an iteration with another verdict
(`Method.run_returned`), or it fails before its first iteration or in one
(`Method.run_failed`).
-/
import Descent.Iteration.Loop
import Descent.Proofs.Effects

namespace Descent
open Text
set_option autoImplicit false

variable {ι π μ ω α : Type} [Extended α] [Iterate ι π α]

/-- The session of a driver. -/
abbrev Drive.State (ι π μ ω α : Type) : Type := Session (Drive ι π μ α) ω α

/-- The present point. -/
def Session.point (s : Drive.State ι π μ ω α) : Vec α := Iterate.point s.driver.current.now

/-- The actions of a method stay within a relation of sessions, with faults of one kind. -/
structure Method.Keeps (R : Drive.State ι π μ ω α → Drive.State ι π μ ω α → Prop)
    (P : Fault α → Prop) (M : Method ι π μ ω α) : Prop where
  evaluate : ∀ x, Edit.Keeps R P (M.evaluate x)
  prepare : Edit.Keeps R P M.prepare
  step : Edit.Keeps R P M.step
  learn : Edit.Keeps R P M.learn

namespace Method

variable (M : Method ι π μ ω α)

/-- A run that stands before its first iteration in session `h` has made a number of iterations. -/
inductive After (h : Drive.State ι π μ ω α) : (iterations : Nat) → (verdict : Phase) →
    (now : Drive.State ι π μ ω α) → Prop
  | none : After h 0 .running h
  | one {k : Nat} {s t : Drive.State ι π μ ω α} {phase : Phase} : After h k .running s →
      M.advance.outcome s = (.ok phase, t) → After h (k + 1) phase t

variable {M} {h s t u : Drive.State ι π μ ω α} {j k : Nat} {phase phase' : Phase}

/-- There is one run only. -/
theorem After.unique (first : M.After h k phase s) (second : M.After h k phase' t) :
    phase = phase' ∧ s = t := by
  induction first generalizing phase' t with
  | none =>
    cases second
    exact ⟨rfl, rfl⟩
  | one _ advanced ih =>
    cases second with
    | one before advanced' =>
      obtain rfl := (ih before).2
      rw [advanced] at advanced'
      cases advanced'
      exact ⟨rfl, rfl⟩

/-- Before any iteration the verdict is to run. -/
theorem After.before (after : M.After h k phase s) (less : j < k) :
    ∃ t, M.After h j .running t := by
  induction after with
  | none => omega
  | @one k s t phase before advanced ih =>
    by_cases last : j = k
    · exact ⟨s, last ▸ before⟩
    · exact ih (by omega)

/-- No iteration comes after one that failed. -/
theorem After.le_of_failed {e : Fault α} (after : M.After h k phase t)
    (before : M.After h j .running s) (failed : M.advance.outcome s = (.error e, u)) : k ≤ j := by
  rcases Nat.lt_or_ge j k with beyond | within
  · exfalso
    obtain ⟨verdict, v, next⟩ : ∃ phase v, M.After h (j + 1) phase v := by
      rcases Nat.lt_or_eq_of_le beyond with further | rfl
      · exact ⟨_, after.before further⟩
      · exact ⟨_, _, after⟩
    cases next with
    | one before' advanced =>
      obtain rfl := (before.unique before').2
      rw [failed] at advanced
      cases advanced
  · exact within

/-- No iteration comes after one that did not ask for it. -/
theorem After.le_of_stopped (stopped : M.After h k phase s) (ended : phase ≠ .running)
    (after : M.After h j phase' t) : j ≤ k := by
  rcases Nat.lt_or_ge k j with beyond | within
  · obtain ⟨_, running⟩ := after.before beyond
    exact absurd (stopped.unique running).1 ended
  · exact within

/-! ## One iteration -/

section
variable {e : Fault α} {new : ι}

theorem advance_of_error (failed : M.propose.outcome s = (.error e, u)) :
    M.advance.outcome s = (.error e, u) := by
  rw [advance, Edit.outcome_bind, failed, Edit.andThen_error]

theorem advance_of_diverged (proposed : M.propose.outcome s = (.ok (new, .diverged), u)) :
    M.advance.outcome s =
      (.error (.diverged M.name (Iterate.progress (ι := ι) u.driver.progress) u.point), u) := by
  rw [advance, Edit.outcome_bind, proposed]
  rfl

theorem advance_of_proposed (proposed : M.propose.outcome s = (.ok (new, phase), u))
    (valid : phase ≠ .diverged) :
    M.advance.outcome s = Edit.andThen (fun _ => pure phase) ((M.accept new).outcome u) := by
  rw [advance, Edit.outcome_bind, proposed, Edit.andThen_ok]
  simp only [valid, if_false]
  rw [Edit.outcome_bind]

/-- An iteration that returns has moved on to what it proposed. -/
theorem advance_ok : M.advance.outcome s = (.ok phase, t) ↔
    ∃ new u, M.propose.outcome s = (.ok (new, phase), u) ∧ phase ≠ .diverged ∧
      (M.accept new).outcome u = (.ok ⟨⟩, t) := by
  constructor
  · intro advanced
    rcases proposed : M.propose.outcome s with ⟨e | ⟨new, verdict⟩, u⟩
    · rw [advance_of_error proposed] at advanced
      cases advanced
    · by_cases diverges : verdict = .diverged
      · subst diverges
        rw [advance_of_diverged proposed] at advanced
        cases advanced
      · rw [advance_of_proposed proposed diverges] at advanced
        rcases accepted : (M.accept new).outcome u with ⟨e | ⟨⟩, v⟩ <;> rw [accepted] at advanced
        · cases advanced
        · cases advanced
          exact ⟨new, u, rfl, diverges, accepted⟩
  · rintro ⟨new, u, proposed, valid, accepted⟩
    rw [advance_of_proposed proposed valid, accepted]
    rfl

/-- An iteration fails with its proposal, with the verdict on it, or when it moves on. -/
theorem advance_error (failed : M.advance.outcome s = (.error e, t)) :
    M.propose.outcome s = (.error e, t) ∨
      (∃ new, M.propose.outcome s = (.ok (new, .diverged), t) ∧
        e = .diverged M.name (Iterate.progress (ι := ι) t.driver.progress) t.point) ∨
      ∃ new phase u, M.propose.outcome s = (.ok (new, phase), u) ∧ phase ≠ .diverged ∧
        (M.accept new).outcome u = (.error e, t) := by
  rcases proposed : M.propose.outcome s with ⟨e' | ⟨new, verdict⟩, u⟩
  · rw [advance_of_error proposed] at failed
    cases failed
    exact .inl rfl
  · by_cases diverges : verdict = .diverged
    · subst diverges
      rw [advance_of_diverged proposed] at failed
      cases failed
      exact .inr (.inl ⟨new, rfl, rfl⟩)
    · rw [advance_of_proposed proposed diverges] at failed
      refine .inr (.inr ⟨new, verdict, u, rfl, diverges, ?_⟩)
      rcases accepted : (M.accept new).outcome u with ⟨e'' | ⟨⟩, v⟩ <;> rw [accepted] at failed
      · cases failed
        rfl
      · cases failed

end

/-! ## The trace -/

/-- What a run keeps of the points that it visited: all of them, or nothing. -/
def Traced (M : Method ι π μ ω α) (h : Drive.State ι π μ ω α) (iterations : Nat)
    (points : List (Vec α)) : Prop :=
  if M.options.keepTrace then
    points.length = iterations + 1 ∧
      ∀ k phase s, M.After h k phase s → k ≤ iterations → points[k]? = some s.point
  else points = []

theorem outcome_extend (trace : List (Vec α)) (s : Drive.State ι π μ ω α) :
    (M.extend trace).outcome s =
      (.ok (if M.options.keepTrace then trace ++ [s.point] else trace), s) := by
  unfold extend
  split <;> rfl

theorem Traced.start : M.Traced h 0 (if M.options.keepTrace then [] ++ [h.point] else []) := by
  unfold Traced
  split
  · refine ⟨rfl, fun k phase s after none => ?_⟩
    obtain rfl : k = 0 := by omega
    cases after
    rfl
  · rfl

theorem Traced.next {trace : List (Vec α)} (traced : M.Traced h k trace)
    (after : M.After h (k + 1) phase s) :
    M.Traced h (k + 1) (if M.options.keepTrace then trace ++ [s.point] else trace) := by
  unfold Traced at traced ⊢
  split at traced
  · rename_i keeps
    obtain ⟨count, entries⟩ := traced
    simp only [keeps, if_true]
    refine ⟨by simp [count], fun j phase' t after' within => ?_⟩
    by_cases last : j = k + 1
    · subst last
      obtain rfl := (after.unique after').2
      rw [List.getElem?_append_right (by omega), count, Nat.sub_self]
      rfl
    · rw [List.getElem?_append_left (by omega)]
      exact entries j phase' t after' (by omega)
  · rename_i drops
    simp only [drops]
    exact traced

/-! ## The loop -/

/-- From the head of an iteration the loop goes on to one that fails or that has another verdict, or
until no iterations are left. -/
theorem loop_outcome (n : Nat) {j : Nat} {s : Drive.State ι π μ ω α} {trace : List (Vec α)}
    (before : M.After h j .running s) (traced : M.Traced h j trace) :
    (∃ k t e u, M.After h k .running t ∧ M.advance.outcome t = (.error e, u) ∧
        (M.loop n trace).outcome s = (.error e, u)) ∨
      ∃ k phase t trace', M.After h k phase t ∧ M.Traced h k trace' ∧
        (phase = .running → k = j + n) ∧
        (M.loop n trace).outcome s =
          (.ok (if phase = .running then .exhausted else phase, trace'), t) := by
  induction n generalizing j s trace with
  | zero => exact .inr ⟨j, .running, s, trace, before, traced, fun _ => rfl, rfl⟩
  | succ n ih =>
    rw [loop, Edit.outcome_bind]
    rcases advanced : M.advance.outcome s with ⟨e | phase, t⟩
    · exact .inl ⟨j, s, e, t, before, advanced, rfl⟩
    · have after := before.one advanced
      rw [Edit.andThen_ok, Edit.outcome_bind, outcome_extend, Edit.andThen_ok]
      by_cases goes_on : phase = .running
      · subst goes_on
        simp only [if_true]
        obtain failed | ⟨k, phase, u, trace', after', traced', count, ended⟩ :=
          ih after (traced.next after)
        · exact .inl failed
        · exact .inr ⟨k, phase, u, trace', after', traced', fun r => by rw [count r]; omega, ended⟩
      · simp only [goes_on, if_false]
        exact .inr ⟨j + 1, phase, t, _, after, traced.next after, fun r => absurd r goes_on, by
          simp [goes_on]⟩

/-! ## The whole run -/

/-- The session in which the first iterate stands. -/
def placed (first : ι) (x : Vec α) (s : Drive.State ι π μ ω α) : Drive.State ι π μ ω α :=
  { s with
    driver := { s.driver with
      cache := some (Cache.start first)
      progress := Iterate.start first
      phase := .ready }
    track := Track.zeros x.size }

theorem outcome_place (x : Vec α) (s : Drive.State ι π μ ω α) : (M.place x).outcome s =
    match M.checkStart x with
    | .error e => (.error e, s)
    | .ok _ => match (M.evaluate x).outcome { s with count := {} } with
      | (.error e, u) => (.error e, u)
      | (.ok first, u) => (.ok ⟨⟩, placed first x u) := by
  rw [place, Edit.outcome_bind, Edit.outcome_ofExcept]
  cases M.checkStart x with
  | error e => rfl
  | ok admitted =>
    rw [Edit.andThen_ok, Edit.outcome_bind, Edit.outcome_modify, Edit.andThen_ok, Edit.outcome_bind]
    dsimp only
    rcases (M.evaluate x).outcome { s with count := {} } with ⟨e | first, u⟩ <;> rfl

theorem place_ok {x : Vec α} : (M.place x).outcome s = (.ok ⟨⟩, t) ↔
    M.checkStart x = .ok ⟨⟩ ∧
      ∃ first u, (M.evaluate x).outcome { s with count := {} } = (.ok first, u) ∧
        t = placed first x u := by
  simp only [place, Edit.outcome_bind_ok, Edit.outcome_ofExcept]
  constructor
  · rintro ⟨⟨⟩, _, checked, ⟨⟩, _, ⟨⟩, first, u, evaluated, ⟨⟩, _, ⟨⟩, ⟨⟩⟩
    obtain ⟨admitted, rfl⟩ := Prod.mk.inj checked
    exact ⟨admitted, first, u, evaluated, rfl⟩
  · rintro ⟨admitted, first, u, evaluated, rfl⟩
    exact ⟨⟨⟩, s, by rw [admitted], ⟨⟩, _, rfl, first, u, evaluated, ⟨⟩, _, rfl, rfl⟩

/-- What comes before the first iteration. -/
theorem enter_ok {x : Vec α} {trace : List (Vec α)} :
    (M.enter x).outcome s = (.ok trace, h) ↔
      ∃ t u, (M.place x).outcome s = (.ok ⟨⟩, t) ∧ M.prepare.outcome t = (.ok ⟨⟩, u) ∧
        h = { u with driver := { u.driver with phase := .running } } ∧
        trace = if M.options.keepTrace then [] ++ [u.point] else [] := by
  simp only [enter, Edit.outcome_bind_ok, outcome_extend]
  constructor
  · rintro ⟨⟨⟩, t, placed, ⟨⟩, u, prepared, _, _, ⟨⟩, _, _, ⟨⟩, ⟨⟩⟩
    exact ⟨t, u, placed, prepared, rfl, rfl⟩
  · rintro ⟨t, u, placed, prepared, rfl, rfl⟩
    exact ⟨⟨⟩, t, placed, ⟨⟩, u, prepared, _, _, rfl, ⟨⟩, _, rfl, rfl⟩

theorem outcome_conclude (phase : Phase) (points : List (Vec α)) (s : Drive.State ι π μ ω α) :
    (M.conclude phase points).outcome s =
      let progress := Iterate.progress (ι := ι) s.driver.progress
      (.ok { last := s.driver.current.now, iterations := progress.iteration, phase,
             count := s.count, trace := points },
        { s with log := s.log ++ (M.remarks phase progress).toArray }) := by
  rw [conclude, Edit.outcome_bind, Edit.outcome_get, Edit.andThen_ok, Edit.outcome_bind,
    Act.outcome_reports]
  rfl

/-- A run that returns has made iterations up to one with another verdict, or as many as there may
be, and then was concluded. -/
theorem run_concluded {x : Vec α} {out : Outcome ι α}
    (returned : (M.run x).outcome s = (.ok out, u)) :
    ∃ trace h k phase t points, (M.enter x).outcome s = (.ok trace, h) ∧ M.After h k phase t ∧
      M.Traced h k points ∧ (phase = .running → k = M.options.maxIterations.toNat) ∧
      (M.conclude (if phase = .running then .exhausted else phase) points).outcome t =
        (.ok out, u) := by
  simp only [run, Edit.outcome_bind_ok] at returned
  obtain ⟨trace, h, entered, ⟨_, points⟩, t, looped, concluded⟩ := returned
  have traced : M.Traced h 0 trace := by
    obtain ⟨_, _, -, -, rfl, rfl⟩ := enter_ok.1 entered
    exact Traced.start
  rcases loop_outcome M.options.maxIterations.toNat .none traced with
    ⟨_, _, _, _, _, _, failed⟩ | ⟨k, phase, _, _, after, traced, count, ended⟩
  · rw [failed] at looped
    cases looped
  · rw [ended] at looped
    cases looped
    exact ⟨trace, h, k, phase, _, _, entered, after, traced, fun r => by rw [count r]; omega,
      concluded⟩

/-- What a run that returns has to show. -/
theorem run_returned {x : Vec α} {out : Outcome ι α}
    (returned : (M.run x).outcome s = (.ok out, u)) :
    ∃ trace h k phase t, (M.enter x).outcome s = (.ok trace, h) ∧ M.After h k phase t ∧
      M.Traced h k out.trace ∧ (phase = .running → k = M.options.maxIterations.toNat) ∧
      out.phase = (if phase = .running then .exhausted else phase) ∧
      out.last = t.driver.current.now ∧
      out.iterations = (Iterate.progress (ι := ι) t.driver.progress).iteration ∧
      out.count = t.count ∧ u.driver = t.driver := by
  obtain ⟨trace, h, k, phase, t, points, entered, after, traced, full, concluded⟩ :=
    run_concluded returned
  rw [outcome_conclude] at concluded
  cases concluded
  exact ⟨trace, h, k, phase, t, entered, after, traced, full, rfl, rfl, rfl, rfl, rfl⟩

/-- A run fails before its first iteration or in one. -/
theorem run_failed {x : Vec α} {e : Fault α} (failed : (M.run x).outcome s = (.error e, u)) :
    (M.enter x).outcome s = (.error e, u) ∨
      ∃ trace h k t, (M.enter x).outcome s = (.ok trace, h) ∧ M.After h k .running t ∧
        M.advance.outcome t = (.error e, u) := by
  simp only [run, Edit.outcome_bind_error] at failed
  obtain entering | ⟨trace, h, entered, looping | ⟨⟨_, points⟩, t, -, concluding⟩⟩ := failed
  · exact .inl entering
  · have traced : M.Traced h 0 trace := by
      obtain ⟨_, _, -, -, rfl, rfl⟩ := enter_ok.1 entered
      exact Traced.start
    rcases loop_outcome M.options.maxIterations.toNat .none traced with
      ⟨k, t, _, _, after, advanced, ended⟩ | ⟨_, _, _, _, _, _, _, ended⟩
    · rw [ended] at looping
      cases looping
      exact .inr ⟨trace, h, k, t, entered, after, advanced⟩
    · rw [ended] at looping
      cases looping
  · rw [outcome_conclude] at concluding
    cases concluding

/-! ## Runs that do not start again -/

/-- The session with the driver marked as running, or as not running. -/
def marked (running : Bool) (s : Drive.State ι π μ ω α) : Drive.State ι π μ ω α :=
  { s with driver := { s.driver with running } }

theorem outcome_solve (x : Vec α) (idle : s.driver.running = false) :
    (M.solve x).outcome s =
      (((M.run x).outcome (marked true s)).1,
        marked false ((M.run x).outcome (marked true s)).2) := by
  rw [solve, Edit.outcome_bind, Act.outcome_driver, Edit.andThen_ok, idle]
  simp only [Bool.false_eq_true, if_false, Edit.outcome_bind, Act.outcome_changeDriver,
    Edit.andThen_ok, Edit.outcome_attempt, Edit.outcome_ofExcept]
  rfl

theorem outcome_solve_of_running (x : Vec α) (running : s.driver.running = true) :
    (M.solve x).outcome s = (.error (.alreadySolving M.kind), s) := by
  rw [solve, Edit.outcome_bind, Act.outcome_driver, Edit.andThen_ok, running]
  rfl

/-- A driver that returns was not running. -/
theorem idle_of_returned {x : Vec α} {out : Outcome ι α}
    (returned : (M.solve x).outcome s = (.ok out, t)) : s.driver.running = false := by
  rcases running : s.driver.running
  · rfl
  · rw [outcome_solve_of_running x running] at returned
    cases returned

end Method

end Descent
