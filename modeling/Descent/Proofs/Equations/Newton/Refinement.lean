/-
# Descent.Proofs.Equations.Newton.Refinement — the thrifty variant with a period of one

With a period of one the thrifty variant takes the Jacobian in every iteration, as Newton's
method does, and at the same point (`direction_every_one`).  What is left of the difference is
the line search: Newton's method takes the Jacobian anew wherever a slope is asked for, and
the variant goes on with the one that the direction solves.  Over real numbers, where values
may be undefined, a line starts at the present point, so a policy that asks for no slope but
the one at the start (`LineSearch.OneSlope`) cannot tell the two apart.  Both methods run in
lockstep, faults and all (`thrifty_refines_newton`).
-/
import Descent.Proofs.Equations.Newton.Schedule
import Descent.Proofs.Iteration.Lockstep

namespace Descent.Newton
set_option autoImplicit false

open Drive

section
variable {ω ω' α : Type} [Extended α] {counted : Prop}

/-! ## An iteration in twins -/

section
variable (G : PureEquations α)

omit [Extended α] in
theorem twins_residualAt (x : Vec α) : (twins counted).Rel
    (G.actions.residualAt x : Action ω α (Shaped α)) (G.actions.residualAt x : Action ω' α _) := by
  obtain ⟨cost, plain⟩ := G.plain_residualAt x
  exact twins_plain (plain _ _) (plain _ _) fun _ => rfl

theorem twins_jacobianAt (x : Vec α) : (twins counted).Rel
    (G.actions.jacobianAt x : Action ω α (Shaped α)) (G.actions.jacobianAt x : Action ω' α _) := by
  obtain ⟨cost, -, plain⟩ := G.plain_jacobianAt x
  exact twins_plain (plain _ _) (plain _ _) fun _ => rfl

theorem twins_adopt (J : Shaped α) : (twins counted).Rel (adopt J : Action ω α Unit)
    (adopt J : Action ω' α Unit) := by
  refine (twins counted).bind (twins_changeDriver _) fun _ => (twins counted).attempt
    (twins_edit _ _ _) (fun _ => (twins counted).pure _) fun e _ => ?_
  cases e <;> exact (twins counted).throw trivial

theorem twins_solution : (twins counted).Rel (solution : Action ω α (Vec α))
    (solution : Action ω' α (Vec α)) := by
  refine (twins counted).bind twins_driver fun d => (twins counted).bind twins_now fun p =>
    (twins counted).bind (Correspondence.between_ofExcept _) fun v => ?_
  exact (twins counted).ite ((twins counted).throw trivial) ((twins counted).pure v)

theorem twins_refresh : (twins counted).Rel (refresh G.actions : Action ω α Unit)
    (refresh G.actions : Action ω' α Unit) := by
  rw [refresh_eq, refresh_eq]
  exact (twins counted).bind twins_now fun p =>
    (twins counted).bind (twins_jacobianAt G p.x) twins_adopt

theorem twins_direction (schedule : Schedule) : (twins counted).Rel
    (direction G.actions schedule : Action ω α (Vec α))
    (direction G.actions schedule : Action ω' α (Vec α)) := by
  rw [direction_eq, direction_eq]
  refine (twins counted).bind twins_driver fun d => ?_
  exact (twins counted).ite ((twins counted).bind (twins_refresh G) fun _ => twins_solution)
    twins_solution

omit [Extended α] in
theorem twins_frozen (schedule : Schedule) : (twins counted).Rel
    (frozen schedule : Action ω α (Option (Shaped α)))
    (frozen schedule : Action ω' α (Option (Shaped α))) := by
  cases schedule with
  | always => exact (twins counted).pure none
  | every period => exact (twins counted).bind twins_driver fun d => (twins counted).pure _

theorem twins_aim (c : Settings α) : (twins counted).Rel (aim G.actions c : Action ω α (Line α))
    (aim G.actions c : Action ω' α (Line α)) := by
  refine (twins counted).bind (twins_direction G _) fun full => (twins counted).bind twins_now
    fun p => (twins counted).bind ?_ fun d => (twins counted).bind (twins_frozen _) fun J =>
      (twins counted).pure _
  refine (twins counted).bind ((twins counted).shortenUndefined (twins_residualAt G) twins_report
    (fun _ _ => trivial) _ _ _ _ _) fun d => ?_
  exact (twins counted).bind (twins_edit _ _ _) fun _ => (twins counted).bind (twins_onTrack _)
    fun _ => (twins counted).pure _

end

/-! ## Searches that get to the same point -/

/-- Actions that do the same in twins with a line from `x` along `w`, and leave it there. -/
abbrev aligned (counted : Prop) (x w : Vec α) :
    Correspondence α (Action ω α) (Action ω' α) :=
  .between fun s t => Twins counted s t ∧ s.Along x w

section
variable {x w : Vec α}

omit [Extended α] in
theorem aligned_plain {β : Type} {act : Action ω α β} {act' : Action ω' α β}
    {r : Except (Fault α) β} {cost cost' : Evaluations} (plain : act.Plain r cost)
    (plain' : act'.Plain r cost') (same : counted → cost.values = cost'.values) :
    (aligned counted x w).Rel act act' :=
  Correspondence.between_plain plain plain' fun _ _ related => ⟨related.1.tallied same, related.2⟩

theorem aligned_visit {β : Type} {alpha : α} {k : Vec α → Action ω α β} {l : Vec α → Action ω' α β}
    (next : (aligned counted x w).Rel (k (linePoint x w alpha)) (l (linePoint x w alpha))) :
    (aligned counted x w).Rel (Act.onTrack (Track.visit alpha) >>= k)
      (Act.onTrack (Track.visit alpha) >>= l) := by
  rintro s t ⟨⟨driver, track, values⟩, rfl, rfl⟩
  have visit (ρ : Type) (s : State ρ α) :
      (Act.onTrack (Track.visit alpha) : Action ρ α (Vec α)).outcome s =
        (.ok (s.track.point alpha),
          { s with track := { s.track with trial := s.track.point alpha } }) := rfl
  rw [Edit.outcome_bind, Edit.outcome_bind, visit, visit, ← track]
  exact next _ _ ⟨⟨driver, rfl, values⟩, rfl, rfl⟩

omit [Extended α] in
theorem aligned_report (r : Log.Record α) : (aligned counted x w).Rel
    (Reports.report r : Action ω α Unit) (Reports.report r : Action ω' α Unit) :=
  fun s t related => ⟨rfl, (twins_report r s t related.1).2, related.2⟩

theorem aligned_value (G : PureEquations α) (J J' : Option (Shaped α)) (alpha : α) :
    (aligned counted x w).Rel ((G.actions.ray J).value alpha : Action ω α α)
      ((G.actions.ray J').value alpha : Action ω' α α) := by
  obtain ⟨cost, plain⟩ := G.plain_residualAt (linePoint x w alpha)
  exact aligned_visit <| (aligned counted x w).bind
    (aligned_plain (plain _ _) (plain _ _) fun _ => rfl) fun y => Correspondence.between_ofExcept _

/-- Where the line starts the Jacobian taken anew is the one that was handed over. -/
theorem aligned_slope {G : PureEquations α} {J : Shaped α} (unmoved : linePoint x w 0 = x)
    (derivative : G.derivative x = .ok J) : (aligned (G.jacobian ≠ none) x w).Rel
      ((G.actions.ray none).slope 0 : Action ω α α)
      ((G.actions.ray (some J)).slope 0 : Action ω' α α) := by
  let C : Correspondence α (Action ω α) (Action ω' α) := aligned (G.jacobian ≠ none) x w
  obtain ⟨cost, evaluates⟩ := G.plain_residualAt x
  obtain ⟨cost', free, differentiates⟩ := G.plain_jacobianAt x
  rw [derivative] at differentiates
  refine aligned_visit ?_
  rw [unmoved]
  refine C.bind (aligned_plain (evaluates _ _) (evaluates _ _) fun _ => rfl) fun y => ?_
  refine C.bind (aligned_plain (differentiates _ _) (Act.plain_pure J) free) fun A => ?_
  rintro s t ⟨twins, along⟩
  rw [Edit.outcome_bind, Edit.outcome_bind]
  dsimp only [Edit.outcome_get, Edit.andThen_ok]
  rw [twins.track]
  exact C.bind (C.fit trivial) (fun r => C.bind (Correspondence.between_ofExcept _) fun a =>
    C.pure _) s t ⟨twins, along⟩

end

/-! ## A period of one -/

/-- With a period of one the Jacobian is taken in every iteration. -/
theorem direction_every_one (F : Solver.Problem (Memory α) ω α) :
    direction F (.every 1) = direction F .always := by
  have due (k : ℕ) : (Schedule.every 1).due k = Schedule.always.due k := by
    simp [Schedule.due, Nat.mod_one]
  unfold direction
  simp only [due]

/-- The line is the same but for the Jacobian that is handed over. -/
theorem aim_every_one (F : Solver.Problem (Memory α) ω α) (c : Settings α) :
    aim F { c with schedule := .every 1 } = (do
      let l ← aim F { c with schedule := .always }
      return { l with frozen := (← Act.driver).memory.jacobian }) := by
  simp only [aim, direction_every_one, frozen, bind_assoc, pure_bind]

end

/-! ## Over real numbers -/

section
open Wide

variable {ω ω' : Type} {G : PureEquations Wide} {o : Options Wide} {search : LineSearch ℝ} {tol : ℝ}
  {x : Vec Wide} {s : State ω Wide} {s' : State ω' Wide}

/-- Newton's method hands no Jacobian over. -/
theorem frozen_of_aim {t u : State ω Wide} {l : Line Wide}
    (aimed : (aim G.actions (.exact o search tol .always)).outcome t = (.ok l, u)) :
    l.frozen = none := by
  obtain ⟨full, _, -, aimed⟩ := Edit.outcome_bind_ok.1 aimed
  obtain ⟨p, _, -, aimed⟩ := Edit.outcome_bind_ok.1 aimed
  obtain ⟨d, _, -, aimed⟩ := Edit.outcome_bind_ok.1 aimed
  cases aimed
  rfl

/-- With the Jacobian where the line starts a search goes as far as with a Jacobian taken anew. -/
theorem aligned_walk (one : search.OneSlope) {x w : Vec Wide} {J : Shaped Wide}
    (unmoved : linePoint x w 0 = x) (derivative : G.derivative x = .ok J) (start d : Vec Wide) :
    (aligned (G.jacobian ≠ none) x w).Rel
      (do
        let alpha ← search.wide.search (G.actions.ray none) 1
        fit (Vec.add? start (Vec.scale alpha d)) : Action ω Wide (Vec Wide))
      (do
        let alpha ← search.wide.search (G.actions.ray (some J)) 1
        fit (Vec.add? start (Vec.scale alpha d)) : Action ω' Wide (Vec Wide)) := by
  have wide : search.wide.OneSlope := one
  exact (aligned (G.jacobian ≠ none) x w).bind (wide.search (aligned_value G none (some J))
    (aligned_slope unmoved derivative) aligned_report 1) fun alpha =>
      (aligned (G.jacobian ≠ none) x w).fit trivial

section
variable {trace trace' : List (Vec Wide)} {h t : State ω Wide} {h' t' : State ω' Wide} {k : ℕ}
  (nonneg : 0 ≤ tol) (bounded : G.Bounded)
  (entered : ((method G.actions (.exact o search tol .always)).enter x).outcome s = (.ok trace, h))
  (entered' : ((method G.actions (.exact o search tol (.every 1))).enter x).outcome s' =
    (.ok trace', h'))
  (before : (method G.actions (.exact o search tol .always)).After h k .running t)
  (before' : (method G.actions (.exact o search tol (.every 1))).After h' k .running t')
  (twins : Twins (G.jacobian ≠ none) t t')
include nonneg bounded entered entered' before before' twins

/-- From twins at the heads of iterations both methods fail to aim alike, or they aim alike: the one
hands no Jacobian over, the other one the Jacobian where the line starts. -/
theorem twins_of_aim :
    (∃ e u u', (aim G.actions (.exact o search tol .always)).outcome t = (.error e, u) ∧
      (aim G.actions (.exact o search tol (.every 1))).outcome t' = (.error e, u') ∧
      Twins (G.jacobian ≠ none) u u') ∨
    ∃ l J w u u', l.frozen = none ∧
      (aim G.actions (.exact o search tol .always)).outcome t = (.ok l, u) ∧
      (aim G.actions (.exact o search tol (.every 1))).outcome t' =
        (.ok { l with frozen := some J }, u') ∧
      Twins (G.jacobian ≠ none) u u' ∧ G.derivative t.point = .ok J ∧
      linePoint t.point w 0 = t.point ∧ u.Along t.point w := by
  obtain ⟨same, still⟩ := twins_aim G (.exact o search tol .always) t t' twins
  have aims := congrArg (Edit.outcome · t') (aim_every_one G.actions (.exact o search tol .always))
  rw [Edit.outcome_bind] at aims
  rcases left : (aim G.actions (.exact o search tol .always)).outcome t with ⟨r, u⟩
  rcases right : (aim G.actions (.exact o search tol .always)).outcome t' with ⟨r', u'⟩
  rw [left, right] at same still
  rw [right] at aims
  dsimp only at same aims
  subst same
  cases r with
  | error e => exact .inl ⟨e, u, u', rfl, aims, still⟩
  | ok l =>
    replace aims : (aim G.actions (.exact o search tol (.every 1))).outcome t' =
      (.ok { l with frozen := u'.driver.memory.jacobian }, u') := aims
    obtain ⟨ready, base, direction, value⟩ := ready_at_head nonneg bounded entered before
    obtain ⟨-, j, _, w, aimed⟩ := aimed_of_aim nonneg bounded value ready base direction left
    obtain ⟨v, J, head, derivative, -, handed⟩ :=
      (timely nonneg bounded entered' before').line _ _ aims
    dsimp only at handed
    -- with a period of one the last iteration in which the Jacobian was due is this one
    rw [Nat.mod_one, Nat.sub_zero] at head
    obtain rfl := (head.unique before').2
    have here : v.point = t.point :=
      congrArg (fun d : Drive _ _ (Memory Wide) Wide => d.current.now.x) twins.driver.symm
    exact .inr ⟨l, J, w, u, u', frozen_of_aim left, rfl, handed ▸ aims, still, here ▸ derivative,
      aimed.unmoved, aimed.along⟩

/-- From twins at the heads of iterations both methods step to the same point. -/
theorem twins_of_step (one : search.OneSlope) :
    ((method G.actions (.exact o search tol .always)).step.outcome t).1 =
        ((method G.actions (.exact o search tol (.every 1))).step.outcome t').1 ∧
      Twins (G.jacobian ≠ none) ((method G.actions (.exact o search tol .always)).step.outcome t).2
        ((method G.actions (.exact o search tol (.every 1))).step.outcome t').2 := by
  rw [step_eq, step_eq, Edit.outcome_bind, Edit.outcome_bind]
  obtain ⟨e, u, u', failed, failed', still⟩ |
      ⟨l, J, w, u, u', none, aimed, aimed', twins, derivative, unmoved, along⟩ :=
    twins_of_aim nonneg bounded entered entered' before before' twins
  · rw [failed, failed']
    exact ⟨rfl, still⟩
  · obtain ⟨ends, still, -⟩ := aligned_walk one unmoved derivative l.x l.direction u u'
      ⟨twins, along⟩
    rw [aimed, aimed', Edit.andThen_ok, Edit.andThen_ok, none]
    exact ⟨ends, still⟩

end

/-- With a period of one the thrifty variant runs in step with Newton's method. -/
theorem inStep_every_one (nonneg : 0 ≤ tol) (bounded : G.Bounded) (one : search.OneSlope) :
    (method G.actions (.exact o search tol .always)).InStep (G.jacobian ≠ none)
      (method G.actions (.exact o search tol (.every 1))) x s s' where
  options := rfl
  dim := rfl
  evaluate z := by
    obtain ⟨cost, plain⟩ := G.plain_evaluate z
    exact ⟨G.pointAt z, cost, plain _ _, plain _ _⟩
  prepare := ⟨blank (.exact o search tol .always), rfl, rfl⟩
  learn := (twins _).pure _
  step _ _ _ _ _ _ _ entered entered' before before' twins :=
    twins_of_step nonneg bounded entered entered' before before' twins one

end

open Wide in
/-- A thrifty variant that takes the Jacobian in every iteration makes the iterations of Newton's
method and ends as it does, with as many residuals if the Jacobian is known. -/
theorem thrifty_refines_newton {ω ω' : Type} (G : PureEquations Wide) (o : Options Wide)
    (search : LineSearch ℝ) (tol : ℝ) (x : Vec Wide) (s : State ω Wide) (s' : State ω' Wide)
    (nonneg : 0 ≤ tol) (bounded : G.Bounded) (one : search.OneSlope)
    (running : s.driver.running = s'.driver.running) :
    (method G.actions (.exact o search tol .always)).Parallel (G.jacobian ≠ none)
      (method G.actions (.exact o search tol (.every 1))) x s s' :=
  (inStep_every_one nonneg bounded one).parallel running

open Wide PureEquations in
theorem thrifty_refines_newton_rosenbrock :
    let c : Settings Wide := .exact .standard .standard 0 .always
    let c' : Settings Wide := .exact .standard .standard 0 (.every 1)
    let M : Solver (Memory Wide) Unit Wide := method rosenbrock.actions c
    let x := (reals rosenbrockStart).toArray
    let s : State Unit Wide := ⟨Drive.idle (blank c), (), {}, {}, #[]⟩
    let s' : State Unit Wide := ⟨Drive.idle (blank c'), (), {}, {}, #[]⟩
    (∃ trace h, (M.enter x).outcome (Method.marked true s) = (.ok trace, h)) ∧
      M.Parallel (rosenbrock.jacobian ≠ none) (method rosenbrock.actions c') x s s' := by
  intro c c' M x s s'
  exact ⟨(sound rosenbrock c).reaches_head rfl
      (pointAt_rosenbrock rosenbrockStart) (fun u => rfl) _,
    thrifty_refines_newton _ _ _ _ _ _ _ le_rfl (bounded_ofReal _ _) (.inr ⟨rfl, rfl⟩) rfl⟩

end Descent.Newton
