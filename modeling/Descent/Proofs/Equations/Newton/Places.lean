/-
# Descent.Proofs.Equations.Newton.Places — where the Jacobian is taken

The state of the user's functions may list the points at which the Jacobian is taken
(`Equations.Notes`).  In an iteration of the thrifty variant the list grows by the present
point if the Jacobian is due, and else not at all: a line search finds it in the memory.
So along a run, also one that fails, it grows by the points at the multiples of the period
among those from which iterations began, and a run that returns has counted them
(`Newton.Punctual`).
-/
import Descent.Proofs.Equations.Ledger
import Descent.Proofs.Equations.Newton.Schedule
import Mathlib.Algebra.Order.Floor.Div

namespace Descent
set_option autoImplicit false

namespace Newton.Schedule

variable {β : Type} {r : ℕ}

/-- The entries of a list at the iterations in which the Jacobian is taken. -/
def pick (schedule : Schedule) (l : List β) : List β :=
  (l.zipIdx.filter fun entry => schedule.due entry.2).map Prod.fst

theorem pick_append (schedule : Schedule) (l : List β) (b : β) :
    schedule.pick (l ++ [b]) = schedule.pick l ++ if schedule.due l.length then [b] else [] := by
  rw [pick, List.zipIdx_append, List.filter_append, List.map_append, ← pick]
  cases due : schedule.due l.length <;> simp [due]

theorem succ_ceilDiv (positive : 1 ≤ r) (n : ℕ) :
    (n + 1) ⌈/⌉ r = n ⌈/⌉ r + if n % r = 0 then 1 else 0 := by
  have next : (n + 1) ⌈/⌉ r = (n + r - 1 + 1) / r :=
    (Nat.ceilDiv_eq_add_pred_div ..).trans (congrArg (· / r) (by omega))
  have divides : r ∣ n + r - 1 + 1 ↔ n % r = 0 := by
    have sum : n + r - 1 + 1 = n + r := by omega
    rw [sum, Nat.dvd_add_self_right, Nat.dvd_iff_mod_eq_zero]
  rw [next, Nat.succ_div, Nat.ceilDiv_eq_add_pred_div]
  simp only [divides]

/-- Every so many entries there is one, beginning with the first. -/
theorem length_pick (positive : 1 ≤ r) (l : List β) :
    ((every r).pick l).length = l.length ⌈/⌉ r := by
  induction l using List.reverseRecOn with
  | nil =>
    rw [List.length_nil, zero_ceilDiv]
    rfl
  | append_singleton l b ih =>
    rw [pick_append, List.length_append, ih, List.length_append, List.length_singleton,
      succ_ceilDiv positive]
    by_cases takes : l.length % r = 0 <;> simp [due, takes]

example : (every 2).pick [0, 1, 2, 3, 4] = [0, 2, 4] := by decide

end Newton.Schedule

/-- The state of the user's functions lists the points at which a known Jacobian is taken. The
functions leave the driver and the counts alone, and residuals also the list. -/
structure Equations.Notes {δ ω α : Type} (places : ω → List (Vec α)) (F : Equations δ ω α) :
    Prop where
  known : F.jacobian ≠ none
  residual : ∀ x, Edit.Keeps
    (Edit.Unchanged fun s : Session δ ω α => (places s.env, s.driver, s.count)) (fun _ => True)
    (F.residual x)
  jacobian : ∀ J, F.jacobian = some J → ∀ x s r t, (J x).outcome s = (r, t) →
    places t.env = places s.env ++ [x] ∧ t.driver = s.driver ∧ t.count = s.count

/-- A system of plain functions that lists the points at which the Jacobian is taken. -/
def PureEquations.listed {δ α : Type} (G : PureEquations α) :
    Equations δ (List (Vec α)) α where
  residual x := ofExcept (G.residual x)
  jacobian := G.jacobian.map fun J x => do
    modify fun s => { s with env := s.env ++ [x] }
    ofExcept (J x)
  dim := G.dim

theorem PureEquations.notes_listed {δ α : Type} {G : PureEquations α} (known : G.jacobian ≠ none) :
    (G.listed : Equations δ (List (Vec α)) α).Notes id where
  known := by simpa [PureEquations.listed] using known
  residual x := .ofExcept fun _ _ => trivial
  jacobian J there x s r t ran := by
    obtain ⟨J', -, rfl⟩ := Option.map_eq_some_iff.1 there
    rw [Edit.outcome_bind, Edit.outcome_modify, Edit.andThen_ok, Edit.outcome_ofExcept] at ran
    cases ran
    exact ⟨rfl, rfl, rfl⟩

/-- Iterations after session `h` began at these points, one after the other. -/
def Method.Begins {ι π μ ω α : Type} [Extended α] [Iterate ι π α] (M : Method ι π μ ω α)
    (h : Drive.State ι π μ ω α) (points : List (Vec α)) : Prop :=
  ∀ i p, points[i]? = some p → ∃ t, M.After h i .running t ∧ t.point = p

theorem Method.Begins.append {ι π μ ω α : Type} [Extended α] [Iterate ι π α]
    {M : Method ι π μ ω α} {h t : Drive.State ι π μ ω α} {points : List (Vec α)}
    (begins : M.Begins h points) (before : M.After h points.length .running t) :
    M.Begins h (points ++ [t.point]) := by
  intro i p there
  rw [List.getElem?_append] at there
  split at there
  · exact begins i p there
  · obtain ⟨rfl, rfl⟩ : i = points.length ∧ t.point = p := by
      obtain ⟨less, same⟩ := List.getElem?_eq_some_iff.1 there
      simp only [List.length_singleton] at less
      exact ⟨by omega, by simpa using same⟩
    exact ⟨t, before, rfl⟩

namespace Newton

variable {ω α : Type} [Extended α] {F : Solver.Problem (Memory α) ω α} {c : Settings α}
  {schedule : Schedule} {s t u h : State ω α}
  {d : Vec α} {k r : ℕ} {phase : Phase}

/-! ## Where the Jacobian is taken -/

section
variable {places : ω → List (Vec α)} (notes : F.Notes places)
include notes

omit [Extended α] in
theorem quiet_of_notes : F.Keeps (Edit.Unchanged fun s => s.driver) fun _ => True where
  residual x := (notes.residual x).part fun p => p.2.1
  jacobian J known x :=
    { state := fun s => (notes.jacobian J known x s _ _ rfl).2.1
      fault := fun _ _ _ => trivial }

omit [Extended α] in
/-- Residuals do not take the Jacobian. -/
theorem blind_of_notes : ({ F with jacobian := none } : Solver.Problem (Memory α) ω α).Keeps
    (Edit.Unchanged fun s => places s.env) fun _ => True where
  residual x := (notes.residual x).part fun p => p.1
  jacobian := nofun

theorem places_of_jacobianAt (x : Vec α) (t : State ω α) :
    places ((F.jacobianAt x).outcome t).2.env = places t.env ++ [x] := by
  obtain ⟨J, known⟩ := Option.ne_none_iff_exists'.1 notes.known
  rw [Equations.jacobianAt, Act.counted, Equations.jacobianCost, known, Edit.outcome_bind,
    Edit.outcome_bind]
  rcases ran : (J x).outcome t with ⟨e | A, u⟩ <;> exact (notes.jacobian J known x t _ _ ran).1

theorem places_of_refresh : places ((refresh F).outcome t).2.env = places t.env ++ [t.point] := by
  have rest : Edit.Unchanged (fun s => places s.env) ((F.jacobianAt t.point).outcome t).2
      ((F.jacobianAt t.point >>= adopt).outcome t).2 :=
    Edit.Keeps.beyond (P := fun _ => True) keeps_adopt t
  exact rest.trans (places_of_jacobianAt notes t.point t)

theorem places_of_direction (every : c.schedule = .every r)
    (count : t.driver.progress.iteration = k)
    (kept : k % r ≠ 0 → t.driver.memory.linear.factorized = true) :
    places ((direction F c.schedule).outcome t).2.env =
      places t.env ++ if (Schedule.every r).due k then [t.point] else [] := by
  have solves (u : State ω α) :
      ((solution : Action ω α (Vec α)).outcome u).2 = u := (keeps_solution.state u).symm
  rw [outcome_direction, every, count]
  by_cases due : k % r = 0
  · rw [if_pos (by simp [Schedule.due, due]), if_pos (by simp [Schedule.due, due]),
      ← places_of_refresh notes]
    rcases (refresh F).outcome t with ⟨e | ⟨⟩, u⟩
    · rfl
    · rw [Edit.andThen_ok, solves]
  · rw [if_neg (by simp [Schedule.due, due, kept due]), if_neg (by simp [Schedule.due, due]),
      solves, List.append_nil]

/-- With a Jacobian in the memory the second half of a step is what it would be if none was
known. -/
theorem outcome_lineStep {A : Shaped α} (remembered : t.driver.memory.jacobian = some A)
    (search : LineSearch α) (verbosity : Int) (d : Vec α) :
    (Solver.lineStep F search verbosity (frozen (.every r)) d).outcome t =
      (Solver.lineStep { F with jacobian := none } search verbosity (pure (some A)) d).outcome
        t := by
  have kept := (quiet_of_notes notes).part fun d => d.memory
  have same {β : Type} {act : Action ω α β} {b : β} {s u : State ω α}
      (keeps : Edit.Keeps (Edit.Unchanged fun s => s.driver.memory) (fun _ => True) act)
      (ran : act.outcome s = (.ok b, u)) (before : s.driver.memory.jacobian = some A) :
      u.driver.memory.jacobian = some A := by
    rw [keeps.preserves ran]
    exact before
  refine Edit.outcome_bind_congr fun p u₁ read => ?_
  refine Edit.outcome_bind_congr fun d u₂ shortened => ?_
  refine Edit.outcome_bind_congr fun _ u₃ turned => ?_
  refine Edit.outcome_bind_congr fun _ u₄ laid => ?_
  have still : u₄.driver.memory.jacobian = some A :=
    same (Drive.keeps_reset _ _) laid <| same (Drive.keeps_turn _) turned <|
      same (Drive.keeps_shortenUndefined (Solver.keeps_residualAt kept) _ _ _ _ _) shortened <|
        same Drive.keeps_now read remembered
  have found : (frozen (.every r) : Action ω α _).outcome u₄ = (.ok (some A), u₄) := by
    rw [frozen, Edit.outcome_bind, Act.outcome_driver, Edit.andThen_ok, Edit.outcome_pure, still]
  rw [Edit.outcome_bind, found, Edit.outcome_bind, Edit.outcome_pure, Edit.andThen_ok,
    Edit.andThen_ok]
  have ray : F.ray (some A) = Equations.ray { F with jacobian := none } (some A) := rfl
  rw [ray]

/-- An iteration takes the Jacobian at its point if it is due there, and nowhere else. -/
theorem places_of_advance (every : c.schedule = .every r)
    (count : t.driver.progress.iteration = k) (before : (method F c).After h k .running t)
    (kept : k % r ≠ 0 → Current F c r h k t.driver.memory) :
    places ((method F c).advance.outcome t).2.env =
      places t.env ++ if (Schedule.every r).due k then [t.point] else [] := by
  have blind := blind_of_notes notes
  have evaluates (x : Vec α) : Edit.Keeps (Edit.Unchanged fun s => places s.env) (fun _ => True)
      (Solver.evaluate F x) := Solver.keeps_evaluate blind x
  have after : places ((method F c).advance.outcome t).2.env =
      places ((method F c).step.outcome t).2.env :=
    Method.beyond_step (M := method F c) (R := Edit.Unchanged fun s => places s.env) evaluates
      (.pure _) t
  rw [after, ← places_of_direction notes every count fun due => (kept due).factorized]
  change places (Edit.outcome (direction F c.schedule >>= fun d => Solver.lineStep F c.search
    c.options.verbosity (frozen c.schedule) d) t).2.env = _
  rw [Edit.outcome_bind]
  rcases directed : (direction F c.schedule).outcome t with ⟨e | d, u⟩
  · rfl
  · obtain ⟨-, -, A, -, -, -, -, remembered⟩ :=
      current_of_direction every count before kept directed
    rw [Edit.andThen_ok, every, outcome_lineStep notes remembered]
    exact (Solver.keeps_lineStep blind c.search c.options.verbosity (.pure _) d).state u

section
variable {x : Vec α} {trace : List (Vec α)} (every : c.schedule = .every r)

/-- Before the first iteration the Jacobian is not taken. -/
theorem places_of_enter : places ((method F c).enter x |>.outcome s).2.env = places s.env := by
  let R : State ω α → State ω α → Prop := Edit.Unchanged fun s => places s.env
  have evaluates : Edit.Keeps R (fun _ => True) (Solver.evaluate F x) :=
    Solver.keeps_evaluate (blind_of_notes notes) x
  have extends' (l : List (Vec α)) : Edit.Keeps R (fun _ => True) ((method F c).extend l) := by
    unfold Method.extend
    split
    · exact .bind Drive.keeps_now fun _ => .pure _
    · exact .pure _
  have places' : Edit.Keeps R (fun _ => True) ((method F c).place x) :=
    .bind (.ofExcept fun _ _ => trivial) fun _ => .bind (.change fun _ => rfl) fun _ =>
      .bind evaluates fun _ => .bind (.change fun _ => rfl) fun _ =>
        { state := fun _ => rfl, fault := fun _ _ _ => trivial }
  have enters : Edit.Keeps R (fun _ => True) ((method F c).enter x) :=
    .bind places' fun _ => .bind (.change fun _ => rfl) fun _ => .bind (extends' []) fun _ =>
      .bind (.change fun _ => rfl) fun _ => .pure _
  exact enters.state s

include every

theorem places_at_head (entered : ((method F c).enter x).outcome s = (.ok trace, h))
    (after : (method F c).After h k phase t) :
    ∃ points, (method F c).Begins h points ∧ points.length = k ∧
      places t.env = places h.env ++ (Schedule.every r).pick points := by
  have quiet := quiet_of_notes notes
  induction after with
  | none => exact ⟨[], nofun, rfl, (List.append_nil _).symm⟩
  | @one k t u phase before advanced ih =>
    obtain ⟨points, begins, rfl, listed⟩ := ih
    have taken := places_of_advance notes every (count_at_head quiet entered before) before
      (current_at_head every quiet entered before)
    rw [advanced, listed] at taken
    refine ⟨points ++ [t.point], begins.append before, by simp, ?_⟩
    rw [taken, Schedule.pick_append, List.append_assoc]

end

/-! ## Runs -/

/-- Between two sessions as many Jacobians were counted as points were listed. -/
def Listed (places : ω → List (Vec α)) (s t : State ω α) : Prop :=
  (places t.env).length + s.count.first = (places s.env).length + t.count.first

omit [Extended α] notes in
instance : Act.Ledger (Listed places) where
  refl _ := rfl
  trans _ _ _ before after := by
    unfold Listed at before after ⊢
    omega
  aside _ _ _ _ := rfl

theorem settles_of_notes : F.Settles (Listed places) where
  residual x := by
    have kept : Edit.Keeps (Listed places) (fun _ => True) (F.residual x) :=
      { state := fun s => by
          obtain ⟨listed, -, count⟩ : places ((F.residual x).outcome s).2.env = places s.env ∧
              ((F.residual x).outcome s).2.driver = s.driver ∧
              ((F.residual x).outcome s).2.count = s.count := by
            simpa only [Edit.Unchanged, Prod.mk.injEq] using (notes.residual x).state s
          rw [Listed, listed, count]
        fault := fun _ _ _ => trivial }
    exact .of_keeps (.bind kept fun _ => .bind (.change fun _ => rfl) fun _ => .pure _)
  jacobian x := by
    intro s only
    obtain ⟨J, known⟩ := Option.ne_none_iff_exists'.1 notes.known
    rw [Equations.jacobianAt, Act.counted, Equations.jacobianCost, known, Edit.outcome_bind,
      Edit.outcome_bind] at only ⊢
    rcases ran : (J x).outcome s with ⟨e | A, t⟩ <;> rw [ran] at only
    · exact (only e rfl).elim
    · obtain ⟨listed, -, count⟩ := notes.jacobian J known x s _ _ ran
      change (places t.env).length + s.count.first = (places s.env).length + (t.count.first + 1)
      rw [listed, count, List.length_append, List.length_singleton]
      omega

end

/-- The Jacobian is taken at every multiple of the period among the points from which iterations of
a run began, and nowhere else. A run that returns has counted them. -/
structure Punctual (places : ω → List (Vec α)) (F : Solver.Problem (Memory α) ω α) (c : Settings α)
    (r : ℕ) (x : Vec α) (s : State ω α) : Prop where
  returned : ∀ out t, ((method F c).solve x).outcome s = (.ok out, t) →
    ∃ trace h points, ((method F c).enter x).outcome (Method.marked true s) = (.ok trace, h) ∧
      (method F c).Begins h points ∧ points.length = out.iterations ∧
      places t.env = places s.env ++ (Schedule.every r).pick points ∧
      out.count.first = out.iterations ⌈/⌉ r
  failed : ∀ e t, ((method F c).solve x).outcome s = (.error e, t) →
    ((∃ u, ((method F c).enter x).outcome (Method.marked true s) = (.error e, u)) ∧
        places t.env = places s.env) ∨
      ∃ trace h k u v points,
        ((method F c).enter x).outcome (Method.marked true s) = (.ok trace, h) ∧
        (method F c).After h k .running u ∧ (method F c).advance.outcome u = (.error e, v) ∧
        (method F c).Begins h points ∧ points.length = k + 1 ∧
        places t.env = places s.env ++ (Schedule.every r).pick points

section
variable {places : ω → List (Vec α)} (notes : F.Notes places) (every : c.schedule = .every r)
  {x : Vec α} {trace : List (Vec α)}
include notes every

/-- What is listed at the head of an iteration. -/
theorem places_of_run (entered : ((method F c).enter x).outcome (Method.marked true s) =
      (.ok trace, h)) (after : (method F c).After h k phase t) :
    ∃ points, (method F c).Begins h points ∧ points.length = k ∧
      places t.env = places s.env ++ (Schedule.every r).pick points := by
  obtain ⟨points, begins, length, listed⟩ := places_at_head notes every entered after
  have start := places_of_enter (c := c) (s := Method.marked true s) (x := x) notes
  rw [entered] at start
  exact ⟨points, begins, length, start ▸ listed⟩

theorem punctual (positive : 1 ≤ r) (x : Vec α) (idle : s.driver.running = false) :
    Punctual places F c r x s := by
  have quiet := quiet_of_notes notes
  constructor
  · intro out t returned
    have counted := ((settles_method (settles_of_notes notes) c).solve returned).1
    rw [Method.outcome_solve x idle] at returned
    rcases ended : ((method F c).run x).outcome (Method.marked true s) with ⟨result, w⟩
    rw [ended] at returned
    cases returned
    obtain ⟨trace, h, k, phase, v, path, entered, after, -, -, concluded⟩ :=
      Method.run_concluded ended
    obtain ⟨points, begins, rfl, listed⟩ := places_of_run notes every entered after
    have iterations := count_at_head quiet entered after
    rw [Method.outcome_conclude] at concluded
    cases concluded
    refine ⟨trace, h, points, entered, begins, iterations.symm, listed, ?_⟩
    have sum : (places v.env).length + 0 = (places s.env).length + v.count.first := counted
    rw [listed, List.length_append, Schedule.length_pick positive] at sum
    change v.count.first = v.driver.progress.iteration ⌈/⌉ r
    rw [iterations]
    omega
  · intro e t failed
    rw [Method.outcome_solve x idle] at failed
    obtain ⟨ran, rfl⟩ := Prod.mk.inj failed
    rcases Method.run_failed (Prod.ext ran rfl) with
      entering | ⟨trace, h, k, u, entered, before, failing⟩
    · have same := places_of_enter (c := c) (s := Method.marked true s) (x := x) notes
      rw [entering] at same
      exact .inl ⟨⟨_, entering⟩, same⟩
    · obtain ⟨points, begins, rfl, listed⟩ := places_of_run notes every entered before
      have taken := places_of_advance notes every (count_at_head quiet entered before) before
        (current_at_head every quiet entered before)
      rw [failing, listed] at taken
      refine .inr ⟨trace, h, _, u, _, points ++ [u.point], entered, before, failing,
        begins.append before, by simp, ?_⟩
      rw [Schedule.pick_append, ← List.append_assoc]
      exact taken

end

/-- **The Jacobian is taken on schedule**: in the iterations at the multiples of the period, at the
points from which they begin, and nowhere else, whatever the arithmetic and also in runs that fail.
Over real numbers, where values may be undefined, every direction solves the system of the last
Jacobian that was taken so, and the line search is given the same one. -/
theorem jacobian_on_schedule :
    (∀ {ω α : Type} [Extended α] (places : ω → List (Vec α)) (F : Solver.Problem (Memory α) ω α)
      (c : Settings α) (r : ℕ) x s, F.Notes places → c.schedule = .every r → 1 ≤ r →
      s.driver.running = false → Punctual places F c r x s) ∧
    ∀ {ω : Type} (G : PureEquations Wide) (o : Options Wide) (search : LineSearch ℝ) (tol : ℝ)
      (r : ℕ) (x : Vec Wide) (s : State ω Wide), 0 ≤ tol → G.Bounded → ∀ trace h i t,
      ((method G.actions (.exact o search tol (.every r))).enter x).outcome s = (.ok trace, h) →
      (method G.actions (.exact o search tol (.every r))).After h i .running t →
      Timely G (.exact o search tol (.every r)) r h i t := by
  constructor
  · intro ω α _ places F c r x s notes every positive idle
    exact punctual notes every positive x idle
  · intro ω G o search tol r x s nonneg bounded trace h i t entered before
    exact timely nonneg bounded entered before

open PureEquations in
theorem jacobian_on_schedule_rosenbrock :
    let c : Settings Wide := .exact .standard .standard 0 (.every 5)
    let x := (Wide.reals rosenbrockStart).toArray
    let s : State Unit Wide := ⟨Drive.idle (blank c), (), {}, {}, #[]⟩
    Punctual id rosenbrock.listed c 5 x ⟨Drive.idle (blank c), [], {}, {}, #[]⟩ ∧
      ∃ trace h, ((method rosenbrock.actions c).enter x).outcome s = (.ok trace, h) ∧
        ∀ i t, (method rosenbrock.actions c).After h i .running t → Timely rosenbrock c 5 h i t := by
  intro c x s
  obtain ⟨trace, h, entered⟩ := (sound rosenbrock c).reaches_head rfl
    (pointAt_rosenbrock rosenbrockStart) (fun u => rfl) s
  exact ⟨jacobian_on_schedule.1 id _ _ _ _ _ (notes_listed (Option.some_ne_none _)) rfl
      (by decide) rfl,
    trace, h, entered, fun i t before =>
      jacobian_on_schedule.2 _ _ _ _ _ _ _ le_rfl (bounded_ofReal _ _) _ _ _ _ entered before⟩

end Newton

end Descent
