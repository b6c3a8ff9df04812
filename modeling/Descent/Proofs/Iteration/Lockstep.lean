/-
# Descent.Proofs.Iteration.Lockstep — two methods side by side

Two sessions are `Drive.Twins` if they have the same driver and the same line; what has
been counted, the log and the states of the user's functions may be different.  A driver
cannot tell twins apart, so two methods of which every step from twins leads to twins run
in lockstep (`Method.InStep`): they make the same iterations (`InStep.after`), and they end
alike (`InStep.parallel`) up to the name that a fault carries.
-/
import Descent.Proofs.Correspondence
import Descent.Proofs.Iteration.Run

namespace Descent
set_option autoImplicit false

variable {ι π μ ω ω' α β γ : Type}

/-! ## Twins -/

/-- Two sessions with the same driver and the same line; if it matters, as many values were
counted in one of them as in the other. -/
structure Drive.Twins (counted : Prop) (s : Drive.State ι π μ ω α) (t : Drive.State ι π μ ω' α) :
    Prop where
  driver : s.driver = t.driver
  track : s.track = t.track
  values : counted → s.count.values = t.count.values

/-- Actions that do the same in twins. -/
abbrev Drive.twins (counted : Prop) :
    Correspondence α (Drive.Action ι π μ ω α) (Drive.Action ι π μ ω' α) :=
  .between (Twins counted)

namespace Drive

variable {counted : Prop} {s : State ι π μ ω α} {t : State ι π μ ω' α}

theorem Twins.symm (twins : Twins counted s t) : Twins counted t s :=
  ⟨twins.driver.symm, twins.track.symm, fun c => (twins.values c).symm⟩

theorem Twins.tallied {cost cost' : Evaluations} (twins : Twins counted s t)
    (same : counted → cost.values = cost'.values) :
    Twins counted { s with count := s.count + cost } { t with count := t.count + cost' } := by
  refine ⟨twins.driver, twins.track, fun c => ?_⟩
  change s.count.values + cost.values = t.count.values + cost'.values
  rw [twins.values c, same c]

theorem twins_plain {act : Action ι π μ ω α β} {act' : Action ι π μ ω' α β}
    {r : Except (Fault α) β} {cost cost' : Evaluations} (plain : act.Plain r cost)
    (plain' : act'.Plain r cost') (same : counted → cost.values = cost'.values) :
    (twins counted).Rel act act' :=
  Correspondence.between_plain plain plain' fun _ _ twins => twins.tallied same

theorem twins_driver : (twins counted).Rel (Act.driver : Action ι π μ ω α _)
    (Act.driver : Action ι π μ ω' α _) := by
  intro s t twins
  exact ⟨congrArg Except.ok twins.driver, twins⟩

theorem twins_changeDriver (f : Drive ι π μ α → Drive ι π μ α) :
    (twins counted).Rel (Act.changeDriver f : Action ι π μ ω α Unit)
      (Act.changeDriver f : Action ι π μ ω' α Unit) :=
  fun _ _ twins => ⟨rfl, congrArg f twins.driver, twins.track, twins.values⟩

theorem twins_edit {τ : Type} (view : Drive ι π μ α → τ)
    (put : τ → Drive ι π μ α → Drive ι π μ α) (act : Edit α τ β) :
    (twins counted).Rel (Act.edit view put act : Action ι π μ ω α β)
      (Act.edit view put act : Action ι π μ ω' α β) := by
  intro s t twins
  rw [Act.outcome_edit, Act.outcome_edit, twins.driver]
  exact ⟨rfl, rfl, twins.track, twins.values⟩

theorem twins_onTrack (act : Edit α (Track α) β) :
    (twins counted).Rel (Act.onTrack act : Action ι π μ ω α β)
      (Act.onTrack act : Action ι π μ ω' α β) := by
  intro s t twins
  rw [Act.onTrack, Act.onTrack, Edit.outcome_focus, Edit.outcome_focus, twins.track]
  exact ⟨rfl, twins.driver, rfl, twins.values⟩

theorem twins_report (r : Log.Record α) :
    (twins counted).Rel (Reports.report r : Action ι π μ ω α Unit)
      (Reports.report r : Action ι π μ ω' α Unit) :=
  fun _ _ twins => ⟨rfl, twins.driver, twins.track, twins.values⟩

variable [Scalar α] [Iterate ι π α]

theorem twins_now : (twins counted).Rel (now : Action ι π μ ω α ι) (now : Action ι π μ ω' α ι) :=
  (twins counted).bind twins_driver fun _ => (twins counted).pure _

end Drive

/-! ## The same end, up to a name -/

/-- The same fault, but for the name of the driver in it. -/
inductive Fault.SameButName : Fault α → Fault α → Prop
  | same (e : Fault α) : SameButName e e
  | diverged (name name' : String) (progress : Progress α) (x : Vec α) :
      SameButName (.diverged name progress x) (.diverged name' progress x)
  | alreadySolving (kind kind' : String) :
      SameButName (.alreadySolving kind) (.alreadySolving kind')

/-- Results that are related, or the same fault but for a name. -/
inductive Fault.EndAlike (R : β → β → Prop) : Except (Fault α) β → Except (Fault α) β → Prop
  | ok {b b' : β} : R b b' → EndAlike R (.ok b) (.ok b')
  | error {e e' : Fault α} : SameButName e e' → EndAlike R (.error e) (.error e')

theorem Fault.EndAlike.of_eq {r r' : Except (Fault α) β} (same : r = r') : EndAlike Eq r r' := by
  subst same
  cases r with
  | ok b => exact .ok rfl
  | error e => exact .error (.same e)

/-- The same results, but for the evaluations; if it matters, with as many values. -/
structure Outcome.Alike (counted : Prop) (o o' : Outcome ι α) : Prop where
  last : o.last = o'.last
  iterations : o.iterations = o'.iterations
  phase : o.phase = o'.phase
  trace : o.trace = o'.trace
  values : counted → o.count.values = o'.count.values

namespace Method

open Drive

variable [Extended α] [Iterate ι π α] {M : Method ι π μ ω α} {M' : Method ι π μ ω' α}
  {counted : Prop} {x : Vec α} {s h t u : State ι π μ ω α} {s' h' t' u' : State ι π μ ω' α}
  {k : Nat} {phase : Phase}

/-- Two methods that evaluate, prepare and judge alike, and whose steps from twins at the heads of
iterations have the same results and lead to twins. -/
structure InStep (counted : Prop) (M : Method ι π μ ω α) (M' : Method ι π μ ω' α) (x : Vec α)
    (s : State ι π μ ω α) (s' : State ι π μ ω' α) : Prop where
  options : M'.options = M.options
  dim : M'.dim = M.dim
  evaluate : ∀ x, ∃ r cost, (M.evaluate x).Plain r cost ∧ (M'.evaluate x).Plain r cost
  prepare : ∃ memory, M.prepare = Act.changeDriver (fun d => { d with memory }) ∧
    M'.prepare = Act.changeDriver fun d => { d with memory }
  learn : (twins counted).Rel M.learn M'.learn
  step : ∀ trace trace' h h' k t t', (M.enter x).outcome s = (.ok trace, h) →
    (M'.enter x).outcome s' = (.ok trace', h') → M.After h k .running t →
    M'.After h' k .running t' → Twins counted t t' →
      (M.step.outcome t).1 = (M'.step.outcome t').1 ∧
        Twins counted (M.step.outcome t).2 (M'.step.outcome t').2

/-- Outcomes that are alike, in twins. -/
def Alongside (counted : Prop) (o : Except (Fault α) β × State ι π μ ω α)
    (o' : Except (Fault α) β × State ι π μ ω' α) : Prop :=
  Fault.EndAlike Eq o.1 o'.1 ∧ Twins counted o.2 o'.2

omit [Extended α] [Iterate ι π α] in
theorem Alongside.bind {act : Action ι π μ ω α β} {act' : Action ι π μ ω' α β}
    {next : β → Action ι π μ ω α γ} {next' : β → Action ι π μ ω' α γ}
    (first : Alongside counted (act.outcome s) (act'.outcome s'))
    (rest : ∀ b t t', act.outcome s = (.ok b, t) → act'.outcome s' = (.ok b, t') →
      Twins counted t t' → Alongside counted ((next b).outcome t) ((next' b).outcome t')) :
    Alongside counted ((act >>= next).outcome s) ((act' >>= next').outcome s') := by
  rw [Edit.outcome_bind, Edit.outcome_bind]
  rcases left : act.outcome s with ⟨r, t⟩
  rcases right : act'.outcome s' with ⟨r', t'⟩
  rw [left, right] at first
  obtain ⟨ends, twins⟩ := first
  cases ends with
  | ok same =>
    subst same
    exact rest _ t t' left right twins
  | error same => exact ⟨.error same, twins⟩

omit [Extended α] [Iterate ι π α] in
theorem Alongside.of_rel {act : Action ι π μ ω α β} {act' : Action ι π μ ω' α β}
    (same : (twins counted).Rel act act') (related : Twins counted s s') :
    Alongside counted (act.outcome s) (act'.outcome s') :=
  ⟨.of_eq (same s s' related).1, (same s s' related).2⟩

namespace InStep

theorem symm (inStep : M.InStep counted M' x s s') : M'.InStep counted M x s' s where
  options := inStep.options.symm
  dim := inStep.dim.symm
  evaluate z := by
    obtain ⟨r, cost, plain, plain'⟩ := inStep.evaluate z
    exact ⟨r, cost, plain', plain⟩
  prepare := by
    obtain ⟨memory, prepares, prepares'⟩ := inStep.prepare
    exact ⟨memory, prepares', prepares⟩
  learn s t twins := by
    obtain ⟨same, still⟩ := inStep.learn t s twins.symm
    exact ⟨same.symm, still.symm⟩
  step trace trace' h h' k t t' entered entered' before before' twins := by
    obtain ⟨same, still⟩ := inStep.step _ _ _ _ _ _ _ entered' entered before' before twins.symm
    exact ⟨same.symm, still.symm⟩

variable (inStep : M.InStep counted M' x s s')
include inStep

/-- What comes before the first iteration fails alike, or leads to twins. -/
theorem enter (running : s.driver.running = s'.driver.running) :
    (∃ e h h', (M.enter x).outcome s = (.error e, h) ∧ (M'.enter x).outcome s' = (.error e, h')) ∨
      ∃ trace h h', (M.enter x).outcome s = (.ok trace, h) ∧
        (M'.enter x).outcome s' = (.ok trace, h') ∧ Twins counted h h' := by
  obtain ⟨r, cost, plain, plain'⟩ := inStep.evaluate x
  obtain ⟨memory, prepares, prepares'⟩ := inStep.prepare
  have checks : M'.checkStart x = M.checkStart x := by rw [checkStart, checkStart, inStep.dim]
  rw [Method.enter, Method.enter, Edit.outcome_bind, Edit.outcome_bind, outcome_place,
    outcome_place, checks, plain, plain']
  cases M.checkStart x with
  | error e => exact .inl ⟨e, s, s', rfl, rfl⟩
  | ok admitted =>
    cases r with
    | error e => exact .inl ⟨e, _, _, rfl, rfl⟩
    | ok first =>
      simp only [Edit.andThen_ok, Edit.outcome_bind, prepares, prepares', Act.outcome_changeDriver,
        outcome_extend, inStep.options]
      refine .inr ⟨_, _, _, rfl, rfl, ?_, rfl, fun _ => rfl⟩
      simp only [placed, running]

theorem rel_evaluate (z : Vec α) : (twins counted).Rel (M.evaluate z) (M'.evaluate z) := by
  obtain ⟨r, cost, plain, plain'⟩ := inStep.evaluate z
  exact twins_plain plain plain' fun _ => rfl

theorem rel_judge (new : ι) : (twins counted).Rel (M.judge new) (M'.judge new) := by
  unfold judge
  rw [inStep.options]
  exact (twins counted).bind twins_now fun _ => (twins counted).bind (twins_edit _ _ _) fun _ =>
    (twins counted).bind twins_driver fun _ => (twins counted).bind (twins_changeDriver _) fun _ =>
      (twins counted).pure _

theorem rel_accept (new : ι) : (twins counted).Rel (M.accept new) (M'.accept new) :=
  (twins counted).bind (twins_edit _ _ _) fun _ => inStep.learn

theorem rel_extend (trace : List (Vec α)) :
    (twins counted).Rel (M.extend trace) (M'.extend trace) := by
  unfold extend
  rw [inStep.options]
  exact (twins counted).ite ((twins counted).bind twins_now fun _ => (twins counted).pure _)
    ((twins counted).pure _)

section
variable {trace trace' : List (Vec α)} (entered : (M.enter x).outcome s = (.ok trace, h))
  (entered' : (M'.enter x).outcome s' = (.ok trace', h'))
include entered entered'

/-- An iteration of both methods. -/
theorem advance (before : M.After h k .running t) (before' : M'.After h' k .running t')
    (twins : Twins counted t t') :
    Alongside counted (M.advance.outcome t) (M'.advance.outcome t') := by
  have steps : Alongside counted (M.step.outcome t) (M'.step.outcome t') := by
    obtain ⟨same, still⟩ := inStep.step _ _ _ _ _ _ _ entered entered' before before' twins
    exact ⟨.of_eq same, still⟩
  have proposes : Alongside counted (M.propose.outcome t) (M'.propose.outcome t') :=
    steps.bind fun z v v' _ _ twins => .of_rel ((Drive.twins counted).bind (inStep.rel_evaluate z)
      fun new => (Drive.twins counted).bind (inStep.rel_judge new) fun _ =>
        (Drive.twins counted).pure _) twins
  refine proposes.bind fun ⟨new, phase⟩ v v' _ _ twins => ?_
  dsimp only
  split
  · rw [Edit.outcome_bind, Edit.outcome_bind]
    refine ⟨.error ?_, twins⟩
    rw [twins.driver]
    exact .diverged _ _ _ _
  · exact .of_rel ((Drive.twins counted).bind (inStep.rel_accept new) fun _ =>
      (Drive.twins counted).pure _) twins

/-- Both methods make the same iterations. -/
theorem after (twins : Twins counted h h') (after : M.After h k phase t) :
    ∃ t', M'.After h' k phase t' ∧ Twins counted t t' := by
  induction after with
  | none => exact ⟨h', .none, twins⟩
  | @one k t u phase before advanced ih =>
    obtain ⟨t', before', twins⟩ := ih
    obtain ⟨ends, still⟩ := inStep.advance entered entered' before before' twins
    rcases right : M'.advance.outcome t' with ⟨r, u'⟩
    rw [advanced, right] at ends still
    cases ends with
    | ok same =>
      subst same
      exact ⟨u', before'.one right, still⟩

theorem loop (n : Nat) (before : M.After h k .running t) (before' : M'.After h' k .running t')
    (twins : Twins counted t t') (points : List (Vec α)) :
    Alongside counted ((M.loop n points).outcome t) ((M'.loop n points).outcome t') := by
  induction n generalizing k t t' points with
  | zero => exact ⟨.ok rfl, twins⟩
  | succ n ih =>
    refine (inStep.advance entered entered' before before' twins).bind
      fun phase u u' left right twins => ?_
    refine (Alongside.of_rel (inStep.rel_extend points) twins).bind
      fun points v v' kept kept' twins => ?_
    have unchanged : v = u := by
      rw [outcome_extend] at kept
      cases kept
      rfl
    have unchanged' : v' = u' := by
      rw [outcome_extend] at kept'
      cases kept'
      rfl
    subst unchanged unchanged'
    split
    case isTrue running =>
      subst running
      exact ih (before.one left) (before'.one right) twins points
    case isFalse => exact ⟨.ok rfl, twins⟩

end

theorem run (running : s.driver.running = s'.driver.running) :
    Fault.EndAlike (Outcome.Alike counted) ((M.run x).outcome s).1 ((M'.run x).outcome s').1 := by
  rw [Method.run, Method.run, Edit.outcome_bind, Edit.outcome_bind]
  obtain ⟨e, h, h', failed, failed'⟩ | ⟨trace, h, h', entered, entered', twins⟩ :=
    inStep.enter running
  · rw [failed, failed']
    exact .error (.same e)
  · obtain ⟨ends, still⟩ :=
      inStep.loop entered entered' M.options.maxIterations.toNat .none .none twins trace
    rw [entered, entered', Edit.andThen_ok, Edit.andThen_ok, Edit.outcome_bind, Edit.outcome_bind,
      inStep.options]
    rcases left : (M.loop M.options.maxIterations.toNat trace).outcome h with ⟨r, u⟩
    rcases right : (M'.loop M.options.maxIterations.toNat trace).outcome h' with ⟨r', u'⟩
    rw [left, right] at ends still
    cases ends with
    | error same => exact .error same
    | @ok result _ same =>
      subst same
      rw [Edit.andThen_ok, Edit.andThen_ok, outcome_conclude, outcome_conclude]
      obtain ⟨driver, -, values⟩ := still
      rw [driver]
      exact .ok ⟨rfl, rfl, rfl, rfl, values⟩

end InStep

/-- Two methods make the same iterations from a point, and end alike. -/
structure Parallel (counted : Prop) (M : Method ι π μ ω α) (M' : Method ι π μ ω' α) (x : Vec α)
    (s : State ι π μ ω α) (s' : State ι π μ ω' α) : Prop where
  /-- Both get to a first iteration, or neither does. -/
  enters : ∀ trace, (∃ h, (M.enter x).outcome (marked true s) = (.ok trace, h)) ↔
    ∃ h', (M'.enter x).outcome (marked true s') = (.ok trace, h')
  /-- Wherever a run of one gets to, the run of the other gets to a twin. -/
  iterates : ∀ trace trace' h h', (M.enter x).outcome (marked true s) = (.ok trace, h) →
    (M'.enter x).outcome (marked true s') = (.ok trace', h') → ∀ k phase,
      (∀ t, M.After h k phase t → ∃ t', M'.After h' k phase t' ∧ Twins counted t t') ∧
        ∀ t', M'.After h' k phase t' → ∃ t, M.After h k phase t ∧ Twins counted t t'
  ends : Fault.EndAlike (Outcome.Alike counted) ((M.solve x).outcome s).1
    ((M'.solve x).outcome s').1

/-- Methods in step have the same runs. -/
theorem InStep.parallel (inStep : M.InStep counted M' x (marked true s) (marked true s'))
    (running : s.driver.running = s'.driver.running) : M.Parallel counted M' x s s' := by
  refine ⟨fun trace => ?_, ?_, ?_⟩
  · obtain ⟨e, h, h', failed, failed'⟩ | ⟨trace', h, h', entered, entered', -⟩ := inStep.enter rfl
    · rw [failed, failed']
      exact ⟨nofun, nofun⟩
    · rw [entered, entered']
      constructor <;> rintro ⟨_, ⟨⟩⟩ <;> exact ⟨_, rfl⟩
  · intro trace trace' h h' entered entered' k phase
    obtain ⟨e, _, _, failed, -⟩ | ⟨_, _, _, there, there', twins⟩ := inStep.enter rfl
    · rw [failed] at entered
      cases entered
    · rw [there] at entered
      rw [there'] at entered'
      cases entered
      cases entered'
      refine ⟨fun t after => inStep.after there there' twins after, fun t' after => ?_⟩
      obtain ⟨t, after, still⟩ := inStep.symm.after there' there twins.symm after
      exact ⟨t, after, still.symm⟩
  · rcases idle : s.driver.running
    · rw [outcome_solve x idle, outcome_solve x (running.symm.trans idle)]
      exact inStep.run rfl
    · rw [outcome_solve_of_running x idle, outcome_solve_of_running x (running.symm.trans idle)]
      exact .error (.alreadySolving _ _)

end Method

end Descent
