/-
# Descent.Proofs.Iteration.Renewal — runs that owe nothing to the runs before

What a driver keeps between two runs is overwritten before it is read: the number of
evaluations is set back before the start is evaluated, the cache, the measures and the line
are new once it is evaluated, and then the memory of the method is (`Method.Renews`).  Only
the user's functions could look at what is left while the start is evaluated; those that do
not are `Discreet`.  A function that solves again with the driver that calls it is discreet
too, because a driver that runs refuses (`discreet_solve`).

So from the first iteration on a run is the same, whatever state an earlier one ended in
(`Renews.solve`), and a driver that was used any number of times solves like a new one
(`Renews.independent`).
-/
import Descent.Proofs.Correspondence
import Descent.Proofs.Iteration.Run

namespace Descent
set_option autoImplicit false

variable {ι π μ ω α β : Type} [Extended α] [Iterate ι π α]

/-! ## Drivers with different pasts -/

namespace Drive

/-- The world around two drivers is the same: the state of the user's functions, and the log. -/
structure SameWorld (s t : State ι π μ ω α) : Prop where
  env : s.env = t.env
  log : s.log = t.log

/-- Two drivers run, in the same world and with as many evaluations. What earlier runs left in them may
be different. -/
structure Abreast (s t : State ι π μ ω α) : Prop extends SameWorld s t where
  left : s.driver.running = true
  right : t.driver.running = true
  count : s.count = t.count

/-- Actions that do the same in drivers with different pasts. -/
def abreast : Correspondence α (Action ι π μ ω α) (Action ι π μ ω α) :=
  Correspondence.between Abreast

/-- An action that does not depend on what earlier runs left in the driver. -/
def Discreet (act : Action ι π μ ω α β) : Prop := abreast.Rel act act

omit [Extended α] [Iterate ι π α] in
theorem discreet_ofExcept (r : Except (Fault α) β) :
    Discreet (ofExcept r : Action ι π μ ω α β) := Correspondence.between_ofExcept r

omit [Extended α] [Iterate ι π α] in
theorem discreet_tally (cost : Evaluations) :
    Discreet (Act.tally cost : Action ι π μ ω α Unit) := by
  intro s t abreast
  refine ⟨rfl, ⟨abreast.env, abreast.log⟩, abreast.left, abreast.right, ?_⟩
  change s.count + cost = t.count + cost
  rw [abreast.count]

omit [Extended α] [Iterate ι π α] in
theorem discreet_counted {act : Action ι π μ ω α (β × Evaluations)} (discreet : Discreet act) :
    Discreet (Act.counted act) :=
  abreast.bind discreet fun p => abreast.bind (discreet_tally p.2) fun _ => abreast.pure p.1

/-- An action that fails in two sessions, with the same fault and the same world around it. -/
def FailsAlike (act : Action ι π μ ω α β) (s t : State ι π μ ω α) : Prop :=
  ∃ e u v, act.outcome s = (.error e, u) ∧ act.outcome t = (.error e, v) ∧ SameWorld u v

omit [Extended α] [Iterate ι π α] in
/-- Whatever would have come next is not reached. -/
theorem FailsAlike.bind {γ : Type} {act : Action ι π μ ω α β} {s t : State ι π μ ω α}
    (fails : FailsAlike act s t) (next : β → Action ι π μ ω α γ) :
    FailsAlike (act >>= next) s t := by
  obtain ⟨e, u, v, failed, failed', world⟩ := fails
  refine ⟨e, u, v, ?_, ?_, world⟩
  · rw [Edit.outcome_bind, failed]
    rfl
  · rw [Edit.outcome_bind, failed']
    rfl

/-- The session with something else in the memory of its method. -/
def recalling (memory : μ) (s : State ι π μ ω α) : State ι π μ ω α :=
  { s with driver := { s.driver with memory } }

end Drive

open Drive

namespace Method

variable {M : Method ι π μ ω α} {x : Vec α} {s t : Drive.State ι π μ ω α}

/-- A driver that runs refuses to start, whatever is left in it. -/
theorem discreet_solve (M : Method ι π μ ω α) (x : Vec α) : Discreet (M.solve x) := by
  intro s t abreast
  rw [outcome_solve_of_running x abreast.left, outcome_solve_of_running x abreast.right]
  exact ⟨rfl, abreast⟩

/-- A method that evaluates without looking at what is left of earlier runs, and whose preparation
overwrites its memory. -/
structure Renews (M : Method ι π μ ω α) : Prop where
  evaluate : ∀ x, Discreet (M.evaluate x)
  prepare : ∀ s memory, (∃ e, M.prepare.outcome s = (.error e, s) ∧
      M.prepare.outcome (recalling memory s) = (.error e, recalling memory s)) ∨
    M.prepare.outcome (recalling memory s) = M.prepare.outcome s

/-! ## One run -/

theorem placed_abreast (abreast : Abreast s t) (first : ι) (x : Vec α) :
    placed first x t = recalling t.driver.memory (placed first x s) := by
  obtain ⟨⟨env, log⟩, left, right, count⟩ := abreast
  simp only [placed, recalling, left, right, env, log, count]

section
variable (renews : M.Renews) (world : SameWorld s t) (left : s.driver.running = true)
  (right : t.driver.running = true)
include renews world left right

/-- Once the start is evaluated there is nothing left of earlier runs but the memory. -/
theorem Renews.place (x : Vec α) : FailsAlike (M.place x) s t ∨
    ∃ u memory, (M.place x).outcome s = (.ok ⟨⟩, u) ∧
      (M.place x).outcome t = (.ok ⟨⟩, recalling memory u) := by
  unfold FailsAlike
  rw [outcome_place, outcome_place]
  cases M.checkStart x with
  | error e => exact .inl ⟨e, s, t, rfl, rfl, world⟩
  | ok admitted =>
    have abreast : Abreast { s with count := {} } { t with count := {} } :=
      ⟨⟨world.env, world.log⟩, left, right, rfl⟩
    obtain ⟨same, still⟩ := renews.evaluate x _ _ abreast
    dsimp only
    rcases used : (M.evaluate x).outcome { s with count := {} } with ⟨e | first, u⟩ <;>
      rcases new : (M.evaluate x).outcome { t with count := {} } with ⟨e' | first', v⟩ <;>
      rw [used, new] at same still <;> cases same
    · exact .inl ⟨e, u, v, rfl, rfl, still.toSameWorld⟩
    · exact .inr ⟨placed first x u, v.driver.memory, rfl, congrArg _ (placed_abreast still first x)⟩

/-- Before the first iteration there is nothing left of earlier runs. -/
theorem Renews.enter (x : Vec α) : FailsAlike (M.enter x) s t ∨
    ∃ trace h, (M.enter x).outcome s = (.ok trace, h) ∧ (M.enter x).outcome t = (.ok trace, h) := by
  obtain fails | ⟨u, memory, used, new⟩ := renews.place world left right x
  · exact .inl (fails.bind _)
  unfold FailsAlike
  rw [Method.enter, Edit.outcome_bind, Edit.outcome_bind, used, new, Edit.andThen_ok,
    Edit.andThen_ok, Edit.outcome_bind, Edit.outcome_bind]
  obtain ⟨e, failed, failed'⟩ | same := renews.prepare u memory
  · rw [failed, failed']
    exact .inl ⟨e, u, recalling memory u, rfl, rfl, rfl, rfl⟩
  · rw [same]
    rcases M.prepare.outcome u with ⟨e | ⟨⟩, v⟩
    · exact .inl ⟨e, v, v, rfl, rfl, rfl, rfl⟩
    · rw [Edit.andThen_ok, Edit.outcome_bind, outcome_extend]
      exact .inr ⟨_, _, rfl, rfl⟩

end

/-- A run that gets to its first iteration is the same in both. -/
theorem outcome_run_of_enter {x : Vec α} {trace : List (Vec α)} {h : Drive.State ι π μ ω α}
    (used : (M.enter x).outcome s = (.ok trace, h)) (new : (M.enter x).outcome t = (.ok trace, h)) :
    (M.run x).outcome s = (M.run x).outcome t := by
  rw [Method.run, Edit.outcome_bind, Edit.outcome_bind, used, new]

/-! ## Any number of runs -/

/-- The session of a new driver. -/
def unused (memory : μ) (env : ω) (log : Array (Log.Record α)) : Drive.State ι π μ ω α :=
  { driver := Drive.idle memory, env, log }

/-- The sessions that a new driver gets to by solving, however each run ends, while the world changes in
between. -/
inductive Used (M : Method ι π μ ω α) (memory : μ) : Drive.State ι π μ ω α → Prop
  | new (env : ω) (log : Array (Log.Record α)) : Used M memory (unused memory env log)
  | solve {s : Drive.State ι π μ ω α} (x : Vec α) : Used M memory s →
      Used M memory ((M.solve x).outcome s).2
  | world {s : Drive.State ι π μ ω α} (env : ω) (log : Array (Log.Record α)) : Used M memory s →
      Used M memory { s with env, log }

/-- After every run a driver may start again. -/
theorem idle_of_solve (x : Vec α) (idle : s.driver.running = false) :
    ((M.solve x).outcome s).2.driver.running = false := by
  rw [outcome_solve x idle]
  rfl

theorem Used.idle {memory : μ} (used : M.Used memory s) : s.driver.running = false := by
  induction used with
  | new env log => rfl
  | solve x _ ih => exact idle_of_solve x ih
  | world env log _ ih => exact ih

/-- A driver in a session solves from a point as a new one does in the same world, and may start again
afterwards. -/
structure Renewed (M : Method ι π μ ω α) (memory : μ) (x : Vec α) (s : Drive.State ι π μ ω α) :
    Prop where
  result : ((M.solve x).outcome s).1 = ((M.solve x).outcome (unused memory s.env s.log)).1
  world : SameWorld ((M.solve x).outcome s).2 ((M.solve x).outcome (unused memory s.env s.log)).2
  idle : ((M.solve x).outcome s).2.driver.running = false
  /-- If there is a first iteration nothing at all is left of the runs before. -/
  session : ∀ trace h, (M.enter x).outcome (marked true s) = (.ok trace, h) →
    ((M.solve x).outcome s).2 = ((M.solve x).outcome (unused memory s.env s.log)).2

theorem Renews.renewed (renews : M.Renews) {memory : μ} (used : M.Used memory s) (x : Vec α) :
    M.Renewed memory x s := by
  have idle := used.idle
  have solve_eq := outcome_solve (M := M) x idle
  have fresh_eq := outcome_solve (M := M) (s := unused memory s.env s.log) x rfl
  obtain fails | ⟨trace, h, entered, entered'⟩ :=
    renews.enter (s := marked true s) (t := marked true (unused memory s.env s.log)) ⟨rfl, rfl⟩ rfl rfl x
  · obtain ⟨e, u, v, failed, failed', world⟩ : FailsAlike (M.run x) (marked true s)
      (marked true (unused memory s.env s.log)) := fails.bind _
    rw [failed] at solve_eq
    rw [failed'] at fresh_eq
    refine ⟨?_, ?_, idle_of_solve x idle, fun trace h entered => ?_⟩
    · rw [solve_eq, fresh_eq]
    · rw [solve_eq, fresh_eq]
      exact ⟨world.env, world.log⟩
    · obtain ⟨e, u, v, refused, -⟩ := fails
      rw [entered] at refused
      cases refused
  · have equal : (M.solve x).outcome s = (M.solve x).outcome (unused memory s.env s.log) := by
      rw [solve_eq, fresh_eq, outcome_run_of_enter entered entered']
    refine ⟨congrArg Prod.fst equal, ?_, idle_of_solve x idle, fun _ _ _ => congrArg Prod.snd equal⟩
    rw [equal]
    exact ⟨rfl, rfl⟩

end Method

end Descent
