/-
# Descent.Proofs.Iteration.Alike — methods that run alike

Two methods that start alike and whose iterations have the same outcome wherever a
run of the first one gets to have the same runs: the loop goes from the head of one
iteration to the head of the next.
-/
import Descent.Proofs.Iteration.Run

namespace Descent.Method
set_option autoImplicit false

variable {ι π μ ω α : Type} [Extended α] [Iterate ι π α] {M M' : Method ι π μ ω α} {x : Vec α}
  {s h t : Drive.State ι π μ ω α} {k : Nat}

/-- What is judged when a new iterate is there. -/
theorem outcome_judge (new : ι) : (M.judge new).outcome s =
    match (Iterate.update new s.driver.current.now).outcome s.driver.progress with
    | (.error e, progress) => (.error e, { s with driver := { s.driver with progress } })
    | (.ok _, p) =>
      let progress := Iterate.assess (ι := ι) M.options p
      let phase := Iterate.verdict (ι := ι) M.options progress
      (.ok phase, { s with driver := { s.driver with progress, phase } }) := by
  rw [judge, Edit.outcome_bind]
  change Edit.outcome (Act.edit _ _ _ >>= _) s = _
  rw [Edit.outcome_bind, Act.outcome_edit]
  rcases (Iterate.update new s.driver.current.now).outcome s.driver.progress with ⟨_ | _, _⟩ <;> rfl

/-- A new iterate is judged alike if what is measured is. -/
theorem judge_congr {new : ι} (alike : ∀ p,
      (Iterate.update new s.driver.current.now).outcome s.driver.progress = (.ok ⟨⟩, p) →
      Iterate.assess (ι := ι) M'.options p = Iterate.assess (ι := ι) M.options p ∧
        Iterate.verdict (ι := ι) M'.options (Iterate.assess (ι := ι) M.options p) =
          Iterate.verdict (ι := ι) M.options (Iterate.assess (ι := ι) M.options p)) :
    (M'.judge new).outcome s = (M.judge new).outcome s := by
  rw [outcome_judge, outcome_judge]
  rcases updated : (Iterate.update new s.driver.current.now).outcome s.driver.progress with
    ⟨_ | _, p⟩
  · rfl
  · obtain ⟨assessed, verdict⟩ := alike p updated
    simp only [assessed, verdict]

/-- Iterations that do the same and judge alike have the same outcome. -/
theorem advance_congr (name : M'.name = M.name) (step : M'.step = M.step)
    (evaluate : M'.evaluate = M.evaluate) (accept : M'.accept = M.accept)
    (judge : ∀ z u new v, M.step.outcome t = (.ok z, u) → (M.evaluate z).outcome u = (.ok new, v) →
      (M'.judge new).outcome v = (M.judge new).outcome v) :
    M'.advance.outcome t = M.advance.outcome t := by
  have proposes : M'.propose.outcome t = M.propose.outcome t := by
    rw [propose, propose, step, evaluate, Edit.outcome_bind, Edit.outcome_bind]
    rcases stepped : M.step.outcome t with ⟨_ | z, u⟩
    · rfl
    · rw [Edit.andThen_ok, Edit.andThen_ok, Edit.outcome_bind, Edit.outcome_bind]
      rcases evaluated : (M.evaluate z).outcome u with ⟨_ | new, v⟩
      · rfl
      · rw [Edit.andThen_ok, Edit.andThen_ok, Edit.outcome_bind, Edit.outcome_bind,
          judge z u new v stepped evaluated]
  rw [advance, advance, name, accept, Edit.outcome_bind, Edit.outcome_bind, proposes]

/-- Apart from their iterations the methods do the same from a start, and their iterations have the
same outcomes in the runs of the first one. -/
structure Alike (M M' : Method ι π μ ω α) (x : Vec α) (s : Drive.State ι π μ ω α) : Prop where
  kind : M'.kind = M.kind
  enter : M'.enter x = M.enter x
  conclude : M'.conclude = M.conclude
  extend : M'.extend = M.extend
  limit : M'.options.maxIterations = M.options.maxIterations
  advance : ∀ trace h k t, (M.enter x).outcome s = (.ok trace, h) → M.After h k .running t →
    M'.advance.outcome t = M.advance.outcome t

namespace Alike

theorem outcome_loop (alike : M.Alike M' x s) {trace : List (Vec α)}
    (entered : (M.enter x).outcome s = (.ok trace, h)) (before : M.After h k .running t) (n : Nat)
    (points : List (Vec α)) : (M'.loop n points).outcome t = (M.loop n points).outcome t := by
  induction n generalizing k t points with
  | zero => rfl
  | succ n ih =>
    rw [loop, loop, Edit.outcome_bind, Edit.outcome_bind, alike.advance _ _ _ _ entered before]
    rcases advanced : M.advance.outcome t with ⟨_ | phase, u⟩
    · rfl
    · rw [Edit.andThen_ok, Edit.andThen_ok, alike.extend, Edit.outcome_bind, Edit.outcome_bind,
        outcome_extend, Edit.andThen_ok, Edit.andThen_ok]
      split
      case isTrue running =>
        subst running
        exact ih (before.one advanced) _
      case isFalse => rfl

theorem outcome_run (alike : M.Alike M' x s) : (M'.run x).outcome s = (M.run x).outcome s := by
  rw [run, run, alike.enter, Edit.outcome_bind, Edit.outcome_bind]
  rcases entered : (M.enter x).outcome s with ⟨_ | trace, h⟩
  · rfl
  · rw [Edit.andThen_ok, Edit.andThen_ok, Edit.outcome_bind, Edit.outcome_bind, alike.limit,
      alike.outcome_loop entered .none, alike.conclude]

/-- Methods that are alike have the same runs. -/
theorem outcome_solve (alike : M.Alike M' x (marked true s)) (idle : s.driver.running = false) :
    (M'.solve x).outcome s = (M.solve x).outcome s := by
  rw [Method.outcome_solve x idle, Method.outcome_solve x idle, alike.outcome_run]

end Alike

end Descent.Method
