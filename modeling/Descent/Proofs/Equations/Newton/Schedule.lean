/-
# Descent.Proofs.Equations.Newton.Schedule — when the Jacobian is taken

The thrifty variant of Newton's method reads the schedule off the number of iterations
that the driver has counted.  At the head of every iteration but the first its memory is
`Current`: it holds factors, and with them the Jacobian at the last point in whose
iteration it was due (`current_at_head`).  So over real numbers, where values may be
undefined, the direction of every iteration solves the system of that Jacobian, and the
line search is given the same one (`timely`).
-/
import Descent.Proofs.Equations.Newton.Descent

namespace Descent
set_option autoImplicit false

theorem Equations.Keeps.part {δ ω α τ ρ : Type} {p : Session δ ω α → τ} {P : Fault α → Prop}
    {F : Equations δ ω α} (keeps : F.Keeps (Edit.Unchanged p) P) (q : τ → ρ) :
    F.Keeps (Edit.Unchanged fun s => q (p s)) P :=
  ⟨fun x => (keeps.residual x).part q, fun J known x => (keeps.jacobian J known x).part q⟩

namespace Newton

variable {ω α : Type} [Extended α] {F : Solver.Problem (Memory α) ω α} {c : Settings α}
  {schedule : Schedule} {s t u h : State ω α}
  {d : Vec α} {k r : ℕ} {phase : Phase}

/-! ## One direction -/

/-- A Jacobian that is taken is remembered, and there are factors of it. -/
theorem remembered_of_refresh (refreshed : (refresh F).outcome t = (.ok ⟨⟩, u)) :
    u.driver.memory.linear.factorized = true ∧
      ∃ A v, (F.jacobianAt t.point).outcome t = (.ok A, v) ∧ u.driver.memory.jacobian = some A := by
  obtain ⟨p, _, ⟨⟩, refreshed⟩ := Edit.outcome_bind_ok.1 refreshed
  obtain ⟨A, v, taken, refreshed⟩ := Edit.outcome_bind_ok.1 refreshed
  obtain ⟨linear, factorized, rfl⟩ := adopt_ok refreshed
  obtain ⟨n, body, -, -, rfl⟩ := LinearSolver.factorize_ok factorized
  exact ⟨rfl, A, v, taken, rfl⟩

/-- To solve with the factors that are kept changes nothing. -/
theorem keeps_solution : Edit.Keeps Eq (fun _ => True) (solution : Action ω α (Vec α)) := by
  have drives : Edit.Keeps Eq (fun _ => True) (Act.driver : Action ω α _) :=
    .bind .get fun _ => .pure _
  have defined (d : Vec α) :
      Edit.Keeps Eq (fun _ => True) (Solver.defined d : Action ω α (Vec α)) := by
    unfold Solver.defined
    split
    · exact .throw trivial
    · exact .pure _
  exact .bind drives fun _ => .bind (.bind drives fun _ => .pure _) fun _ =>
    .bind (.ofExcept fun _ _ => trivial) defined

/-- In an iteration in which the Jacobian is due it is taken first; in others it is not. -/
theorem outcome_direction :
    (direction F schedule).outcome t =
      if schedule.due t.driver.progress.iteration || !t.driver.memory.linear.factorized then
        Edit.andThen (fun _ => solution) ((refresh F).outcome t)
      else solution.outcome t := by
  rw [direction_eq, Edit.outcome_bind, Act.outcome_driver, Edit.andThen_ok]
  dsimp only
  split
  · rw [Edit.outcome_bind]
  · rfl

/-- The memory after a direction that was found: what it was before, or with the Jacobian at the
present point. -/
theorem remembered_of_direction (directed : (direction F schedule).outcome t = (.ok d, u)) :
    if schedule.due t.driver.progress.iteration || !t.driver.memory.linear.factorized then
      u.driver.memory.linear.factorized = true ∧
        ∃ A v, (F.jacobianAt t.point).outcome t = (.ok A, v) ∧ u.driver.memory.jacobian = some A
    else u = t := by
  rw [outcome_direction] at directed
  split at directed <;> rename_i taken
  · rw [if_pos taken]
    rw [← Edit.outcome_bind] at directed
    obtain ⟨⟨⟩, v, refreshed, solved⟩ := Edit.outcome_bind_ok.1 directed
    obtain rfl : v = u := keeps_solution.related solved
    exact remembered_of_refresh refreshed
  · rw [if_neg taken]
    exact (keeps_solution.related directed).symm

/-! ## The memory at the head of an iteration -/

/-- The memory with which the `i`-th iteration after session `h` takes aim: factors, and with them
the Jacobian at the last point at which it was due. -/
structure Current (F : Solver.Problem (Memory α) ω α) (c : Settings α) (r : ℕ)
    (h : State ω α) (i : ℕ) (m : Memory α) :
    Prop where
  factorized : m.linear.factorized = true
  jacobian : ∃ w A v v', (method F c).After h (i - i % r) .running w ∧
    (F.jacobianAt w.point).outcome v = (.ok A, v') ∧ m.jacobian = some A

/-- Between two iterations in which the Jacobian is due the last one of them stays the same. -/
theorem last_due (due : (k + 1) % r ≠ 0) : k + 1 - (k + 1) % r = k - k % r := by
  have quotient : (k + 1) / r = k / r := by
    rw [Nat.succ_div_of_not_dvd fun divides => due (Nat.mod_eq_zero_of_dvd divides)]
  have upper := Nat.mod_add_div (k + 1) r
  have lower := Nat.mod_add_div k r
  rw [quotient] at upper
  omega

/-- A direction is found with the memory that is current, and leaves such a memory. -/
theorem current_of_direction (every : c.schedule = .every r)
    (count : t.driver.progress.iteration = k) (before : (method F c).After h k .running t)
    (kept : k % r ≠ 0 → Current F c r h k t.driver.memory)
    (directed : (direction F c.schedule).outcome t = (.ok d, u)) :
    Current F c r h k u.driver.memory := by
  have remembered := remembered_of_direction directed
  rw [every, count] at remembered
  by_cases due : k % r = 0
  · rw [if_pos (by simp [Schedule.due, due])] at remembered
    obtain ⟨factorized, A, v, taken, jacobian⟩ := remembered
    exact ⟨factorized, t, A, t, v, by rwa [due, Nat.sub_zero], taken, jacobian⟩
  · rw [if_neg (by simp [Schedule.due, due, (kept due).factorized])] at remembered
    exact remembered ▸ kept due

section
variable (every : c.schedule = .every r)
  (quiet : F.Keeps (Edit.Unchanged fun s => s.driver) fun _ => True)
include quiet

theorem own_of_quiet : (method F c).Private := keeps_method (quiet.part fun d => d.progress) c

/-- After its direction an iteration does not write the memory. -/
theorem memory_of_advance (advanced : (method F c).advance.outcome s = (.ok phase, t)) :
    ∃ d u, (direction F c.schedule).outcome s = (.ok d, u) ∧
      t.driver.memory = u.driver.memory := by
  have kept := quiet.part fun d => d.memory
  obtain ⟨new, v, proposed, -, -⟩ := Method.advance_ok.1 advanced
  obtain ⟨z, w, stepped, -⟩ := Edit.outcome_bind_ok.1 proposed
  have rest := Method.beyond_step (M := method F c) (R := Edit.Unchanged fun s => s.driver.memory)
    (Solver.keeps_evaluate kept) (.pure _) s
  rw [stepped, advanced] at rest
  obtain ⟨d, u, directed, walked⟩ := Edit.outcome_bind_ok.1 stepped
  have walks := Solver.keeps_lineStep kept c.search c.options.verbosity (keeps_frozen c.schedule) d
  exact ⟨d, u, directed, rest.trans (walks.preserves walked)⟩

variable {x : Vec α} {trace : List (Vec α)}
  (entered : ((method F c).enter x).outcome s = (.ok trace, h))
include entered

theorem count_at_head (after : (method F c).After h k phase t) : t.driver.progress.iteration = k :=
  (after.judged (own_of_quiet quiet) (Method.enter_counts (own_of_quiet quiet) entered)).1

include every

/-- Where the Jacobian is not due the memory is current. -/
theorem current_at_head (after : (method F c).After h k phase t) (kept : k % r ≠ 0) :
    Current F c r h k t.driver.memory := by
  induction after with
  | none => exact absurd (Nat.zero_mod r) kept
  | @one k t u phase before advanced ih =>
    obtain ⟨d, v, directed, memory⟩ := memory_of_advance quiet advanced
    obtain ⟨factorized, w, A, v', v'', head, taken, jacobian⟩ :=
      current_of_direction every (count_at_head quiet entered before) before ih directed
    rw [← last_due kept] at head
    rw [memory]
    exact ⟨factorized, w, A, v', v'', head, taken, jacobian⟩

end

/-! ## Over real numbers -/

section
open Wide

variable {ω : Type} {G : PureEquations Wide} {o : Options Wide} {search : LineSearch ℝ} {tol : ℝ}
  {x : Vec Wide} {s h t u : State ω Wide} {trace : List (Vec Wide)} {d : Vec Wide} {l : Line Wide}
  {i r : ℕ}

/-- The direction of the `i`-th iteration after session `h` solves the system of the Jacobian at the
last point at which it was due, and the line search is given this Jacobian. -/
structure Timely (G : PureEquations Wide) (c : Settings Wide) (r : ℕ) (h : State ω Wide) (i : ℕ)
    (t : State ω Wide) : Prop where
  /-- An iteration takes aim, and then searches along the line. -/
  searches : (method (ω := ω) G.actions c).step = (do
    let l ← aim G.actions c
    let alpha ← c.search.search (G.actions.ray l.frozen) 1
    fit (Vec.add? l.x (Vec.scale alpha l.direction)))
  direction : ∀ d u, (direction G.actions c.schedule).outcome t = (.ok d, u) →
    ∃ w J, (method G.actions c).After h (i - i % r) .running w ∧ G.derivative w.point = .ok J ∧
      Solves J t.driver.current.now.y d
  line : ∀ l u, (aim G.actions c).outcome t = (.ok l, u) →
    ∃ w J, (method G.actions c).After h (i - i % r) .running w ∧ G.derivative w.point = .ok J ∧
      Solves J t.driver.current.now.y l.full ∧ l.frozen = some J

theorem timely (nonneg : 0 ≤ tol) (bounded : G.Bounded)
    (entered : ((method G.actions (.exact o search tol (.every r))).enter x).outcome s =
      (.ok trace, h))
    (before : (method G.actions (.exact o search tol (.every r))).After h i .running t) :
    Timely G (.exact o search tol (.every r)) r h i t := by
  have quiet : (G.actions : Solver.Problem (Memory Wide) ω Wide).Keeps
      (Edit.Unchanged fun s => s.driver) fun _ => True := G.keeps fun _ _ => trivial
  obtain ⟨ready, -, -, value⟩ := ready_at_head nonneg bounded entered before
  have directs {d : Vec Wide} {u : State ω Wide}
      (directed : (Newton.direction G.actions (.every r)).outcome t = (.ok d, u)) :
      ∃ w J, (method G.actions (.exact o search tol (.every r))).After h (i - i % r) .running w ∧
        G.derivative w.point = .ok J ∧ Solves J t.driver.current.now.y d ∧
        u.driver.memory.jacobian = some J := by
    obtain ⟨-, w, A, v, v', head, taken, remembered⟩ :=
      current_of_direction (c := .exact o search tol (.every r)) rfl
        (count_at_head quiet entered before) before (current_at_head rfl quiet entered before)
        directed
    obtain ⟨-, J, remembered', solves, -⟩ := direction_ok nonneg bounded value ready directed
    obtain rfl : A = J := Option.some.inj (remembered.symm.trans remembered')
    have derivative := G.result_of_jacobianAt w.point v
    rw [taken] at derivative
    exact ⟨w, A, head, derivative.symm, solves, remembered⟩
  refine ⟨step_eq _ _, ?_, ?_⟩
  · intro d u directed
    obtain ⟨w, J, head, taken, solves, -⟩ := directs directed
    exact ⟨w, J, head, taken, solves⟩
  · intro l u aimed
    obtain ⟨full, s', directed, aimed⟩ := Edit.outcome_bind_ok.1 aimed
    obtain ⟨p, _, ⟨⟩, aimed⟩ := Edit.outcome_bind_ok.1 aimed
    obtain ⟨d, v, laid, aimed⟩ := Edit.outcome_bind_ok.1 aimed
    obtain ⟨_, _, ⟨⟩, ⟨⟩⟩ := Edit.outcome_bind_ok.1 aimed
    obtain ⟨w, J, head, taken, solves, remembered⟩ := directs directed
    have memory : u.driver.memory = s'.driver.memory :=
      (Drive.keeps_aim (R := Edit.Unchanged fun s : State ω Wide => s.driver.memory)
        (P := fun _ => True) (Solver.keeps_residualAt (G.keeps fun _ _ => trivial)) _ _).preserves
        laid
    exact ⟨w, J, head, taken, solves, memory ▸ remembered⟩

end

end Newton

end Descent
