/-
# Descent.Proofs.Equations.Newton.Descent — Newton directions lead downhill

Over real numbers, where residuals may be undefined, the line search of every iteration of
Newton's method and of its thrifty variant starts at the square of the residual, with a
slope of minus twice that square times what the reductions have left of the direction
(`Line.Falls`): the direction solves the system of the very Jacobian that the slope is
taken with, however old its factors are.  So a step by backtracking that was neither at a
flat slope nor exhausted makes the residual shorter.
-/
import Descent.Proofs.Equations.Newton.Direction
import Descent.Proofs.Equations.Ray
import Descent.Proofs.Iteration.Memory
import Descent.Proofs.LineSearch.Backtracking
import Descent.Proofs.LineSearch.Line

namespace Descent.Newton
set_option autoImplicit false

open Wide

/-! ## The line of an iteration -/

/-- A line to search along: where it starts, the direction before and after it is shortened, and the
Jacobian that is handed over for the slopes. -/
structure Line (α : Type) where
  x : Vec α
  full : Vec α
  direction : Vec α
  frozen : Option (Shaped α)

section
variable {ω α : Type} [Extended α]

/-- The part of an iteration that comes before the search. -/
def aim (F : Solver.Problem (Memory α) ω α) (c : Settings α) : Action ω α (Line α) := do
  let full ← direction F c.schedule
  let x := (← Drive.now).x
  let direction ← Drive.aim F.residualAt c.search c.options.verbosity x full
  return ⟨x, full, direction, ← frozen c.schedule⟩

/-- An iteration takes aim, searches along the line and goes as far as the search says. -/
theorem step_eq (F : Solver.Problem (Memory α) ω α) (c : Settings α) : (method F c).step = (do
    let l ← aim F c
    let alpha ← c.search.search (F.ray l.frozen) 1
    fit (Vec.add? l.x (Vec.scale alpha l.direction))) := by
  simp only [method, Solver.lineStep, aim, Drive.aim, bind_assoc, pure_bind]

end

/-- Real parameters of the search, and a real size up to which pivots count as zero. -/
noncomputable abbrev Settings.exact (o : Options Wide) (search : LineSearch ℝ) (tol : ℝ)
    (schedule : Schedule) : Settings Wide :=
  ⟨o, search.wide, real tol, schedule⟩

section
variable {ω : Type} {G : PureEquations Wide} {o : Options Wide} {search : LineSearch ℝ} {tol : ℝ}
  {schedule : Schedule} {t u : State ω Wide} {l : Line Wide}

/-- The line of an iteration lies along a Newton direction after `j` reductions, and the Jacobian that
the direction solves is the one that slopes at the start are taken with. -/
structure Aimed (G : PureEquations Wide) (search : LineSearch ℝ) (p : SystemPoint Wide)
    (u : State ω Wide) (l : Line Wide) (j : ℕ) (J : Shaped Wide) (w : Vec Wide) : Prop where
  start : l.x = p.x
  solves : Solves J p.y l.full
  jacobian : l.frozen = some J ∨ l.frozen = none ∧ G.derivative p.x = .ok J
  reductions : (j : ℤ) ≤ search.nanMaxIterations
  shortened : Shortened G.residual p.x l.full (real search.nanFactor) j l.direction
  written : Vec.assign? p.x l.direction = some w
  along : u.Along p.x w

theorem aimed_of_aim (nonneg : 0 ≤ tol) (bounded : G.Bounded)
    (value : G.residual t.driver.current.now.x = .ok t.driver.current.now.y)
    (ready : t.driver.memory.Ready tol)
    (base : t.track.base.size = t.driver.current.now.x.size)
    (direction : t.track.direction.size = t.driver.current.now.x.size)
    (aimed : (aim G.actions (.exact o search tol schedule)).outcome t = (.ok l, u)) :
    u.driver.memory.Ready tol ∧ ∃ j J w, Aimed G search t.driver.current.now u l j J w := by
  have kept {R : State ω Wide → State ω Wide → Prop} [IsPreorder (State ω Wide) R] :
      (G.actions : Solver.Problem (Memory Wide) ω Wide).Keeps R fun _ => True :=
    G.keeps fun _ _ => trivial
  obtain ⟨full, s, directed, aimed⟩ := Edit.outcome_bind_ok.1 aimed
  obtain ⟨p, _, ⟨⟩, aimed⟩ := Edit.outcome_bind_ok.1 aimed
  obtain ⟨d, s', laid, aimed⟩ := Edit.outcome_bind_ok.1 aimed
  obtain ⟨frozen, s'', read, returned⟩ := Edit.outcome_bind_ok.1 aimed
  cases returned
  obtain ⟨ready', J, remembered, solves, fresh⟩ := direction_ok nonneg bounded value ready directed
  have now : s.driver.current.now = t.driver.current.now :=
    (keeps_direction (R := Drive.sameNow) kept schedule).preserves directed
  have alike : t.track.Alike s.track :=
    (keeps_direction (R := Drive.sameTrack) kept schedule).related directed
  have memory : s'.driver.memory = s.driver.memory :=
    (Drive.keeps_aim (R := Edit.Unchanged fun s : State ω Wide => s.driver.memory)
      (P := fun _ => True) (Solver.keeps_residualAt kept) _ _).preserves laid
  rw [now] at laid
  obtain ⟨⟨j, reductions, shortened⟩, w, written, along⟩ := Drive.aim_ok
    (fun z => G.rel_residualAt z fun _ _ => id) (Solver.keeps_residualAt kept)
    (alike.1.trans base) (alike.2.trans direction) laid
  have last : u = s' ∧ (frozen = some J ∨ frozen = none ∧
      G.derivative t.driver.current.now.x = .ok J) := by
    cases schedule with
    | always =>
      cases read
      exact ⟨rfl, .inr ⟨rfl, fresh rfl⟩⟩
    | every period =>
      cases read
      exact ⟨rfl, .inl (memory ▸ remembered)⟩
  obtain ⟨rfl, jacobian⟩ := last
  exact ⟨memory ▸ ready', j, J, w, congrArg SystemPoint.x now, solves, jacobian, reductions, shortened,
    written, along⟩

/-! ## The ray at its start -/

/-- The slope of the square of the residual along a multiple of the direction that solves the system. -/
theorem slope_along {n : ℕ} {M : Matrix (Fin n) (Fin n) ℝ} {b v : Fin n → ℝ}
    (solves : M.mulVec v = -b) (c : ℝ) :
    (do
      let rise ← fit ((Shaped.ofMat (embedMat real M)).product? (.ofVec (reals (c • v)).toArray))
      return 2.0 * (← (Shaped.ofVec (reals b).toArray).inner rise)) =
    (Except.ok (real (-2 * c * (b ⬝ᵥ b))) : Except (Fault Wide) Wide) := by
  rw [Shaped.product?_toArray, embeds.mulVec, Matrix.mulVec_smul, solves]
  simp only [fit, pure_ok, ok_bind, Shaped.inner_toArray, embeds.dot, two_eq, real_mul, smul_neg,
    dotProduct_neg, dotProduct_smul, smul_eq_mul]
  refine congrArg (fun a => Except.ok (real a)) ?_
  ring

theorem product?_misfit {n : ℕ} (A : Mat n n Wide) {w : Vec Wide} (misfit : w.size ≠ n) :
    (Shaped.ofMat A).product? (.ofVec w) = none := by
  refine (Shaped.product?_ofDense_ofVec ⟨n, n, A⟩ w).trans ?_
  rw [Dense.mulVec?, dif_neg misfit]
  rfl

/-- What is left of a real direction after `j` reductions. -/
theorem shortened_reals {V : Vec Wide → Except (Fault Wide) (Shaped Wide)} {x d : Vec Wide} {θ : ℝ}
    {j n : ℕ} {v : Fin n → ℝ} (shortened : Shortened V x (reals v).toArray (real θ) j d) :
    d = (reals (θ ^ j • v)).toArray := by
  rw [shortened.direction, iterate_scaled]

/-- The line of an iteration starts where the iteration does. -/
theorem Aimed.unmoved {p : SystemPoint Wide} {j : ℕ} {J : Shaped Wide} {w : Vec Wide}
    (aimed : Aimed G search p u l j J w) : linePoint p.x w 0 = p.x := by
  obtain ⟨n, M, b, v, -, -, full, -⟩ := aimed.solves
  have direction := shortened_reals (full ▸ aimed.shortened)
  exact linePoint_zero (Vec.size_of_assign? aimed.written)
    (forall_of_assign? (direction ▸ isReal_reals _) aimed.written)

/-- The square of the residual and its slope at the start of a line. A direction that stands for more
entries than it has has no product with the Jacobian. -/
theorem ray_at_start {p : SystemPoint Wide} {j : ℕ} {J : Shaped Wide} {w : Vec Wide}
    (value : G.residual p.x = .ok p.y) (aimed : Aimed G search p u l j J w) :
    ∃ a, 0 ≤ a ∧ p.y.flat.normSq = real a ∧ (G.ray p.x w l.frozen).value 0 = .ok (real a) ∧
      (G.ray p.x w l.frozen).slope 0 = if l.direction.size = p.x.size then
        .ok (real (-2 * search.nanFactor ^ j * a)) else .error .shapeMismatch := by
  obtain ⟨n, M, b, v, rfl, residual, full, solves⟩ := aimed.solves
  have direction := shortened_reals (full ▸ aimed.shortened)
  have size := Vec.size_of_assign? aimed.written
  have start := aimed.unmoved
  have square : dot (reals b) (reals b) = real (b ⬝ᵥ b) := embeds.dot b b
  have inner : p.y.inner p.y = .ok (real (b ⬝ᵥ b)) := by
    rw [residual, Shaped.inner_toArray, square]
  refine ⟨b ⬝ᵥ b, dotProduct_self_nonneg b, ?_, ?_, ?_⟩
  · rw [residual, Shaped.flat_ofVec, Vec.normSq_toArray, square]
  · change (G.residual (linePoint p.x w 0) >>= fun y => y.inner y) = _
    rw [start, value, ok_bind, inner]
  · have slope : (G.ray p.x w l.frozen).slope 0 = (do
        let rise ← fit ((Shaped.ofMat (embedMat real M)).product? (.ofVec w))
        return 2.0 * (← p.y.inner rise)) := by
      obtain frozen | ⟨frozen, taken⟩ := aimed.jacobian
      · simp only [PureEquations.ray, start, value, frozen, ok_bind, pure_ok]
      · simp only [PureEquations.ray, start, value, frozen, taken, ok_bind]
    have entries : l.direction.size = n := by simp [direction]
    rw [slope]
    split
    · rename_i fits
      obtain rfl : l.direction = w :=
        Option.some.inj ((Vec.assign?_of_size_eq fits).symm.trans aimed.written)
      rw [direction, residual]
      exact slope_along solves _
    · rename_i repeated
      rw [product?_misfit _ fun same => repeated (entries.trans (same.symm.trans size))]
      rfl

/-- A defined product of a residual with itself is the square of its length. -/
theorem normSq_of_inner {x : Vec Wide} {y : Shaped Wide} {n : ℕ} {f : Wide} (bounded : G.Bounded)
    (residual : G.residual x = .ok y) (vector : y.extents = [n]) (product : y.inner y = .ok f)
    (defined : f ≠ undefined) : ∃ b, f = real b ∧ y.flat.normSq = real b := by
  obtain ⟨v, rfl⟩ := Shaped.exists_ofVec vector
  have entries := bounded.residual _ _ residual
  rw [Shaped.inner_ofVec, fit_eq_ok, Vec.dot?, dif_pos rfl] at product
  rw [Shaped.flat_ofVec] at entries ⊢
  have square : v.normSq = f := Option.some.inj product
  have part : v.normSq.Bounded := .dot (forall_entries.1 entries) (forall_entries.1 entries)
  obtain ⟨b, real⟩ := part (square ▸ defined)
  exact ⟨b, square.symm.trans real, real⟩

/-- A step that backtracking takes elsewhere than at a flat slope, and before it is exhausted. -/
theorem shorter_of_backtrack {p : SystemPoint Wide} {j : ℕ} {J : Shaped Wide} {w : Vec Wide} {a : ℝ}
    {alpha : Wide} {z : Vec Wide} (bounded : G.Bounded) (proper : search.Proper)
    (value : G.residual p.x = .ok p.y) (aimed : Aimed G search p u l j J w)
    (square : p.y.flat.normSq = real a)
    (steep : search.tol ≤ |-2 * search.nanFactor ^ j * a|)
    (searched : LineSearch.backtrack (G.ray p.x w l.frozen) 1 search.wide = .ok alpha)
    (unexhausted : ¬ ∀ i < search.maxIterations.toNat,
      LineSearch.accepts (G.ray p.x w l.frozen) search.wide (real a)
        (real (-2 * search.nanFactor ^ j * a)) (real (search.p ^ i)) = .ok false)
    (added : Vec.add? p.x (Vec.scale alpha l.direction) = some z) :
    ∃ i < search.maxIterations.toNat, alpha = real (search.p ^ i) ∧
      ∃ y b, G.residual z = .ok y ∧ y.flat.normSq = real b ∧
        b ≤ (1 - 2 * search.c1 * search.p ^ i * search.nanFactor ^ j) * a ∧
        (1 - 2 * search.c1 * search.p ^ i * search.nanFactor ^ j) * a < a := by
  obtain ⟨a', nonneg, square', first, slope⟩ := ray_at_start value aimed
  obtain rfl : a = a' := real.inj (square.symm.trans square')
  -- the slope is there, so the direction has an entry for every unknown
  have fits : l.direction.size = p.x.size := by
    obtain ⟨_, d₀, -, there, -⟩ := LineSearch.backtrack_ok searched
    by_contra repeated
    rw [slope, if_neg repeated] at there
    cases there
  rw [if_pos fits] at slope
  obtain rfl : l.direction = w :=
    Option.some.inj ((Vec.assign?_of_size_eq fits).symm.trans aimed.written)
  obtain ⟨i, less, power, f, there, le⟩ :=
    LineSearch.decrease_of_backtrack first slope steep searched unexhausted
  rw [add?_scale fits] at added
  cases added
  obtain ⟨y, residual, product⟩ := bind_eq_ok.1 there
  obtain ⟨b, square', le⟩ : ∃ b, y.flat.normSq = real b ∧
      b ≤ a + search.c1 * search.p ^ i * (-2 * search.nanFactor ^ j * a) := by
    obtain ⟨_, _, _, _, -, vector, -⟩ := aimed.solves
    have size : (linePoint p.x l.direction alpha).size = p.x.size := by
      simp [linePoint, Track.point, fits]
    have extents := G.fixed _ _ _ _ size value residual
    obtain ⟨b, rfl, square⟩ := normSq_of_inner bounded residual
      (extents.trans (congrArg Shaped.extents vector)) product fun undef =>
        not_undefined_le _ (undef ▸ le)
    exact ⟨b, square, le⟩
  have positive : 0 < a :=
    lt_of_le_of_ne nonneg (right_ne_zero_of_mul (proper.ne_zero steep)).symm
  have part : 0 < search.c1 * search.p ^ i * search.nanFactor ^ j * a :=
    mul_pos (mul_pos (mul_pos proper.decrease (pow_pos proper.shortens i))
      (pow_pos proper.reduces j)) positive
  exact ⟨i, less, power, y, b, residual, square', by linarith, by linarith⟩

end

/-! ## Runs -/

section
variable {ω : Type} {G : PureEquations Wide} {o : Options Wide} {search : LineSearch ℝ} {tol : ℝ}
  {schedule : Schedule} {x : Vec Wide} {s h t u : State ω Wide} {trace : List (Vec Wide)} {k : ℕ}
  {phase : Phase} {l : Line Wide}
  (nonneg : 0 ≤ tol) (bounded : G.Bounded)
  (entered : ((method G.actions (.exact o search tol schedule)).enter x).outcome s = (.ok trace, h))
include nonneg bounded entered

/-- At the heads of iterations the factors that are kept belong to the Jacobian in the memory. -/
theorem ready_at_head (after : (method G.actions (.exact o search tol schedule)).After h k phase t) :
    t.driver.memory.Ready tol ∧ t.track.base.size = t.driver.current.now.x.size ∧
      t.track.direction.size = t.driver.current.now.x.size ∧
      G.residual t.driver.current.now.x = .ok t.driver.current.now.y := by
  have sound := sound (ω := ω) G (.exact o search tol schedule)
  have keeps : (method (ω := ω) G.actions (.exact o search tol schedule)).Keeps Drive.sameTrack
      fun _ => True := keeps_method (G.keeps fun _ _ => trivial) _
  have present {k : ℕ} {phase : Phase} {t : State ω Wide}
      (after : (method G.actions (.exact o search tol schedule)).After h k phase t) :
      G.residual t.driver.current.now.x = .ok t.driver.current.now.y ∧
        t.track.base.size = t.driver.current.now.x.size ∧
        t.track.direction.size = t.driver.current.now.x.size := by
    obtain ⟨-, value, size⟩ := (after.coherent sound entered).present
    obtain ⟨base, direction⟩ := keeps.track entered after
    exact ⟨G.residual_of_pointAt value, base.trans size.symm, direction.trans size.symm⟩
  have start : h.driver.memory.Ready tol := by
    obtain ⟨_, _, -, prepared, rfl, -⟩ := Method.enter_ok.1 entered
    cases prepared
    exact ⟨rfl, nofun⟩
  have upheld := after.upheld (R := Drive.Upholds (Memory.Ready tol))
    (Solver.keeps_evaluate (G.keeps fun _ _ => trivial))
    (fun k t z u before stepped ready => ?_) (by rintro t u ⟨⟩; exact id) start
  · exact ⟨upheld, (present after).2.1, (present after).2.2, (present after).1⟩
  · obtain ⟨value, base, direction⟩ := present before
    rw [step_eq] at stepped
    obtain ⟨l, v, aimed, rest⟩ := Edit.outcome_bind_ok.1 stepped
    obtain ⟨ready', -⟩ := aimed_of_aim nonneg bounded value ready base direction aimed
    have searches : Edit.Keeps (Edit.Unchanged fun s : State ω Wide => s.driver.memory)
        (fun _ => True) (do
          let alpha ← search.wide.search (G.actions.ray l.frozen) 1
          fit (Vec.add? l.x (Vec.scale alpha l.direction)) : Action ω Wide (Vec Wide)) :=
      .bind ((Solver.keeps_ray (G.keeps fun _ _ => trivial) _).search Drive.keeps_report
        (fun _ _ => trivial) _ 1) fun _ => Drive.keeps_fit _
    exact searches.preserves rest ▸ ready'

end

/-- The line of a search that starts in session `u`, in the iteration from the head `t`: at the start the
square of the residual is `a`, and it falls with twice what `j` reductions leave of it. There is no slope
where a single entry stands for a direction with more of them. -/
structure Line.Falls {ω : Type} (G : PureEquations Wide) (search : LineSearch ℝ) (t u : State ω Wide)
    (l : Line Wide) (j : ℕ) (a : ℝ) : Prop where
  start : l.x = t.point
  reductions : (j : ℤ) ≤ search.nanMaxIterations
  shortened : Shortened G.residual t.point l.full (real search.nanFactor) j l.direction
  square : t.driver.current.now.y.flat.normSq = real a
  value : (((G.actions.ray l.frozen).value 0).outcome u).1 = .ok (real a)
  slope : (((G.actions.ray l.frozen).slope 0).outcome u).1 =
    if l.direction.size = t.point.size then .ok (real (-2 * search.nanFactor ^ j * a))
    else .error .shapeMismatch

section
variable {ω : Type} {G : PureEquations Wide} {search : LineSearch ℝ} {t u : State ω Wide}
  {l : Line Wide} {j : ℕ} {J : Shaped Wide} {w : Vec Wide}

/-- The ray of a solver along a line. -/
theorem rays (x w : Vec Wide) (frozen : Option (Shaped Wide)) :
    (Correspondence.within (Session.Along x w)).Rays (G.ray x w frozen)
      (G.actions.ray frozen : Ray (Action ω Wide) Wide) := G.rel_ray x w frozen

theorem Aimed.falls (value : G.residual t.driver.current.now.x = .ok t.driver.current.now.y)
    (aimed : Aimed G search t.driver.current.now u l j J w) : ∃ a, l.Falls G search t u j a := by
  obtain ⟨a, -, square, first, slope⟩ := ray_at_start value aimed
  refine ⟨a, ?_⟩
  exact
    { start := aimed.start
      reductions := aimed.reductions
      shortened := aimed.shortened
      square
      value := ((rays _ _ _).value 0 u aimed.along).1.trans first
      slope := ((rays _ _ _).slope 0 u aimed.along).1.trans slope }

end

/-- How the residual falls along the lines and with the steps of the runs from `x` in session `s`. -/
structure Descends {ω : Type} (G : PureEquations Wide) (c : Settings Wide) (search : LineSearch ℝ)
    (x : Vec Wide) (s : State ω Wide) : Prop where
  /-- An iteration takes aim, and then searches along the line. -/
  searches : (method (ω := ω) G.actions c).step = (do
    let l ← aim G.actions c
    let alpha ← c.search.search (G.actions.ray l.frozen) 1
    fit (Vec.add? l.x (Vec.scale alpha l.direction)))
  /-- Every line falls. -/
  lines : ∀ trace h k t l u,
    ((method G.actions c).enter x).outcome (Method.marked true s) = (.ok trace, h) →
    (method G.actions c).After h k .running t → (aim G.actions c).outcome t = (.ok l, u) →
    ∃ j a, l.Falls G search t u j a
  /-- A step by backtracking makes the residual shorter, unless the slope was flat or the search was
  exhausted. -/
  steps : ∀ trace h k t z v, search.kind = .backtracking →
    ((method G.actions c).enter x).outcome (Method.marked true s) = (.ok trace, h) →
    (method G.actions c).After h k .running t →
    (method G.actions c).step.outcome t = (.ok z, v) →
    ∃ l u j a, (aim G.actions c).outcome t = (.ok l, u) ∧ l.Falls G search t u j a ∧
      (search.tol ≤ |-2 * search.nanFactor ^ j * a| →
        ¬ LineSearch.Exhausted (G.actions.ray l.frozen) search (real a)
          (real (-2 * search.nanFactor ^ j * a)) u →
        ∃ i < search.maxIterations.toNat,
          Vec.add? l.x (Vec.scale (real (search.p ^ i)) l.direction) = some z ∧
          ∃ y b, G.residual z = .ok y ∧ y.flat.normSq = real b ∧
            b ≤ (1 - 2 * search.c1 * search.p ^ i * search.nanFactor ^ j) * a ∧
            (1 - 2 * search.c1 * search.p ^ i * search.nanFactor ^ j) * a < a)

/-- With an admitted search Newton steps, with fresh or old factors, are descent steps of the square of
the residual. -/
theorem steps_descend {ω : Type} (G : PureEquations Wide) (o : Options Wide) (search : LineSearch ℝ)
    (tol : ℝ) (schedule : Schedule) (x : Vec Wide) (s : State ω Wide)
    (admitted : search.check = .ok search) (nonneg : 0 ≤ tol) (bounded : G.Bounded) :
    Descends G (.exact o search tol schedule) search x s := by
  refine ⟨step_eq _ _, ?lines, ?steps⟩
  case lines =>
    intro trace h k t l u entered before aiming
    obtain ⟨ready, base, direction, value⟩ := ready_at_head nonneg bounded entered before
    obtain ⟨-, j, J, w, aimed⟩ := aimed_of_aim nonneg bounded value ready base direction aiming
    obtain ⟨a, line⟩ := aimed.falls value
    exact ⟨j, a, line⟩
  case steps =>
    intro trace h k t z v kind entered before stepped
    obtain ⟨ready, base, direction, value⟩ := ready_at_head nonneg bounded entered before
    rw [step_eq] at stepped
    obtain ⟨l, u, aiming, rest⟩ := Edit.outcome_bind_ok.1 stepped
    obtain ⟨alpha, u', searched, added⟩ := Edit.outcome_bind_ok.1 rest
    obtain ⟨-, j, J, w, aimed⟩ := aimed_of_aim nonneg bounded value ready base direction aiming
    obtain ⟨a, line⟩ := aimed.falls value
    refine ⟨l, u, j, a, aiming, line, fun steep unexhausted => ?_⟩
    rw [LineSearch.exhausted_iff (rays _ _ _) aimed.along] at unexhausted
    have found := LineSearch.backtrack_of_search (rays _ _ _) aimed.along
      Correspondence.along_report kind searched
    have sum := (Edit.outcome_fit_ok.1 added).1
    obtain ⟨i, less, rfl, shorter⟩ := shorter_of_backtrack bounded
      (LineSearch.proper_of_check admitted) value aimed line.square steep found unexhausted
      (aimed.start ▸ sum)
    exact ⟨i, less, sum, shorter⟩

open PureEquations in
/-- From the usual start the full step overshoots, and has to be shortened. -/
theorem steps_descend_rosenbrock :
    let c : Settings Wide := .exact .standard .standard 0 (.every 5)
    let x := (reals rosenbrockStart).toArray
    let s : State Unit Wide := ⟨Drive.idle (blank c), (), {}, {}, #[]⟩
    (∃ trace h, ((method rosenbrock.actions c).enter x).outcome (Method.marked true s) =
      (.ok trace, h)) ∧ Descends rosenbrock c .standard x s := by
  intro c x s
  exact ⟨(sound rosenbrock c).reaches_head rfl
      (pointAt_rosenbrock rosenbrockStart) (fun u => rfl) _,
    steps_descend _ _ _ _ _ _ _ LineSearch.check_standard le_rfl (bounded_ofReal _ _)⟩

end Descent.Newton
