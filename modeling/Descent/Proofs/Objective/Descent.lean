/-
# Descent.Proofs.Objective.Descent — quasi-Newton steps lead downhill

Over real numbers, where values may be undefined, the line search of every iteration with an
estimate of the inverse Hessian starts at the value of the present point, with the slope
that the gradient has along the direction, and that is negative unless the gradient vanishes
(`Line.Falls`).  So a step by backtracking that was neither at a flat slope nor exhausted
decreases the value.
-/
import Descent.Proofs.Iteration.Memory
import Descent.Proofs.LineSearch.Backtracking
import Descent.Proofs.LineSearch.Line
import Descent.Proofs.Objective.Direction
import Descent.Proofs.Objective.Ray

namespace Descent
set_option autoImplicit false

open Wide

/-- The value as an array. -/
def PureObjective.shown {α : Type} (G : PureObjective α) (x : Vec α) :
    Except (Fault α) (Shaped α) :=
  return .ofNumber (← G.value x)

namespace Optimizer

/-! ## The line of an iteration -/

/-- A line to search along: the iterate where it starts, and the direction before and after it is
shortened. -/
structure Line (α : Type) where
  start : ObjectivePoint α
  full : Vec α
  direction : Vec α

section
variable {ω α : Type} [Extended α]

/-- The value as an array, counted. -/
def shownAt (F : Problem ω α) (x : Vec α) : Action ω α (Shaped α) :=
  return .ofNumber (← F.valueAt x)

/-- The part of an iteration that comes before the search. -/
def aim (F : Problem ω α) (c : Settings α) : Action ω α (Line α) := do
  let p ← Drive.now
  let full ← direction F p
  let direction ← Drive.aim (shownAt F) c.search c.options.verbosity p.x full
  return ⟨p, full, direction⟩

/-- An iteration takes aim, searches along the line and goes as far as the search says. -/
theorem step_eq (F : Problem ω α) (c : Settings α) : step F c = (do
    let l ← aim F c
    let alpha ← c.search.search F.ray 1
    fit (Vec.add? l.start.x (Vec.scale alpha l.direction))) := by
  simp only [step, aim, Drive.aim, bind_assoc, pure_bind]
  rfl

end

/-- Real parameters of the search. -/
noncomputable abbrev Settings.exact (kind : HessianKind) (search : LineSearch ℝ) (o : Options Wide) :
    Settings Wide :=
  ⟨kind, search.wide, o⟩

section
variable {ω : Type} {G : PureObjective Wide} {o : Options Wide} {search : LineSearch ℝ}
  {kind : HessianKind} {t u : State ω Wide} {l : Line Wide}

/-- The line of an iteration lies along a direction of the estimate after `j` reductions. -/
structure Aimed (G : PureObjective Wide) (search : LineSearch ℝ) (p : ObjectivePoint Wide)
    (u : State ω Wide) (l : Line Wide) (j : ℕ) (w v : Fin p.x.size → ℝ) : Prop where
  start : l.start = p
  downhill : Downhill p.x.size p.g l.full w v
  reductions : (j : ℤ) ≤ search.nanMaxIterations
  shortened : Shortened G.shown p.x l.full (real search.nanFactor) j l.direction
  along : u.Along p.x l.direction

theorem aimed_of_aim (gradient : ∀ a ∈ t.driver.current.now.g.flat, a.Bounded)
    (estimated : Estimated t.driver.current.now.x.size t.driver.memory)
    (base : t.track.base.size = t.driver.current.now.x.size)
    (direction : t.track.direction.size = t.driver.current.now.x.size)
    (aimed : (aim G.actions (.exact kind search o)).outcome t = (.ok l, u)) :
    Estimated t.driver.current.now.x.size u.driver.memory ∧
      ∃ j w v, Aimed G search t.driver.current.now u l j w v := by
  have kept {R : State ω Wide → State ω Wide → Prop} [IsPreorder (State ω Wide) R] :
      (G.actions : Problem ω Wide).Keeps R fun _ => True := G.keeps fun _ _ => trivial
  obtain ⟨p, _, ⟨⟩, aimed⟩ := Edit.outcome_bind_ok.1 aimed
  obtain ⟨full, s, directed, aimed⟩ := Edit.outcome_bind_ok.1 aimed
  obtain ⟨d, s', laid, returned⟩ := Edit.outcome_bind_ok.1 aimed
  cases returned
  obtain ⟨estimated', w, v, downhill⟩ := direction_ok gradient estimated directed
  have alike : t.track.Alike s.track :=
    (keeps_direction (R := Drive.sameTrack) kept _).related directed
  have memory : u.driver.memory = s.driver.memory :=
    (Drive.keeps_aim (R := Edit.Unchanged fun s : State ω Wide => s.driver.memory)
      (P := fun _ => True) (keeps_shown kept) _ _).preserves laid
  obtain ⟨⟨j, reductions, shortened⟩, w', written, along⟩ := Drive.aim_ok (V := G.shown)
    (fun z => (Correspondence.within _).bind (G.rel_valueAt (fun _ _ => id) z) fun _ =>
      (Correspondence.within _).pure _) (keeps_shown kept)
    (alike.1.trans base) (alike.2.trans direction) laid
  have size : d.size = t.driver.current.now.x.size := by
    have entries : d = (Vec.scaled · (real search.nanFactor))^[j] full := shortened.direction
    rw [entries, downhill.direction, iterate_scaled]
    simp
  rw [Vec.assign?_of_size_eq size] at written
  cases written
  exact ⟨memory ▸ estimated', j, w, v, rfl, downhill, reductions, shortened, along⟩

/-- The value and the slope at the start of a line. -/
theorem ray_at_start {p : ObjectivePoint Wide} {j : ℕ} {w v : Fin p.x.size → ℝ}
    (value : G.value p.x = .ok p.f) (gradient : G.slope p.x = .ok p.g)
    (reduces : 0 < search.nanFactor) (aimed : Aimed G search p u l j w v) :
    l.direction.size = p.x.size ∧ (G.ray p.x l.direction).value 0 = .ok p.f ∧
      ∃ σ, p.g.inner (.ofVec l.direction) = .ok (real σ) ∧
        (G.ray p.x l.direction).slope 0 = .ok (real σ) ∧
        ((∃ a ∈ p.g.flat, a ≠ 0) → σ < 0) ∧ (σ ≠ 0 → σ < 0) := by
  have direction : l.direction = (reals (search.nanFactor ^ j • v)).toArray := by
    rw [aimed.shortened.direction, aimed.downhill.direction, iterate_scaled]
  have size : l.direction.size = p.x.size := by simp [direction]
  have start : linePoint p.x l.direction 0 = p.x := linePoint_zero size (direction ▸ isReal_reals _)
  have product : p.g.inner (.ofVec l.direction) =
      .ok (real (search.nanFactor ^ j * (v ⬝ᵥ w))) := by
    rw [aimed.downhill.gradient, direction, Shaped.inner_toArray, embeds.dot, dotProduct_smul,
      dotProduct_comm, smul_eq_mul]
  have falls (nonzero : w ≠ 0) : search.nanFactor ^ j * (v ⬝ᵥ w) < 0 :=
    mul_neg_of_pos_of_neg (pow_pos reduces j) (aimed.downhill.falls nonzero)
  refine ⟨size, ?_, _, product, ?_, ?_, ?_⟩
  · change G.value (linePoint p.x l.direction 0) = _
    rw [start, value]
  · change (G.slope (linePoint p.x l.direction 0) >>= fun g => g.inner (.ofVec l.direction)) = _
    rw [start, gradient, ok_bind, product]
  · rintro ⟨a, mem, nonzero⟩
    refine falls fun zero => nonzero ?_
    rw [aimed.downhill.gradient, Shaped.flat_ofVec, zero] at mem
    exact forall_toArray (P := (· = 0)).2 (fun i => get_embed real 0 i) a mem
  · intro nonzero
    refine falls fun zero => nonzero ?_
    rw [zero, dotProduct_zero, mul_zero]

/-- A step that backtracking takes elsewhere than at a flat slope, and before it is exhausted. -/
theorem lower_of_backtrack {p : ObjectivePoint Wide} {d : Vec Wide} {σ : ℝ} {alpha : Wide}
    {z : Vec Wide} (bounded : G.Bounded) (proper : search.Proper) (size : d.size = p.x.size)
    (value : (G.ray p.x d).value 0 = .ok p.f) (slope : (G.ray p.x d).slope 0 = .ok (real σ))
    (falls : σ ≠ 0 → σ < 0) (here : p.f.Bounded) (steep : search.tol ≤ |σ|)
    (searched : LineSearch.backtrack (G.ray p.x d) 1 search.wide = .ok alpha)
    (unexhausted : ¬ ∀ i < search.maxIterations.toNat,
      LineSearch.accepts (G.ray p.x d) search.wide p.f (real σ) (real (search.p ^ i)) = .ok false)
    (added : Vec.add? p.x (Vec.scale alpha d) = some z) :
    ∃ i < search.maxIterations.toNat, alpha = real (search.p ^ i) ∧
      ∃ a b, p.f = real a ∧ G.value z = .ok (real b) ∧ b ≤ a + search.c1 * search.p ^ i * σ ∧
        a + search.c1 * search.p ^ i * σ < a := by
  obtain ⟨i, less, power, f, there, le⟩ :=
    LineSearch.decrease_of_backtrack value slope steep searched unexhausted
  rw [add?_scale size] at added
  cases added
  obtain ⟨a, present⟩ := here fun undef => by
    rw [undef, undefined_add] at le
    exact not_le_undefined _ le
  rw [present, real_add] at le
  obtain ⟨b, rfl⟩ := bounded.value _ _ there fun undef => not_undefined_le _ (undef ▸ le)
  have part : search.c1 * search.p ^ i * σ < 0 :=
    mul_neg_of_pos_of_neg (mul_pos proper.decrease (pow_pos proper.shortens i))
      (falls (proper.ne_zero steep))
  exact ⟨i, less, power, a, b, present, there, le, by linarith⟩

end

/-! ## Runs -/

section
variable {ω : Type} {G : PureObjective Wide} {o : Options Wide} {search : LineSearch ℝ}
  {kind : HessianKind} {x : Vec Wide} {s h t u : State ω Wide} {trace : List (Vec Wide)} {k : ℕ}
  {phase : Phase} (approximated : kind ≠ .exact) (bounded : G.Bounded)
  (entered : ((method G.actions (.exact kind search o)).enter x).outcome s = (.ok trace, h))

/-- What is known at the head of an iteration: the values of the present point, an estimate without
infinite entries, and a line of the size of the point. -/
structure Head (G : PureObjective Wide) (t : State ω Wide) : Prop where
  value : G.value t.driver.current.now.x = .ok t.driver.current.now.f
  gradient : G.slope t.driver.current.now.x = .ok t.driver.current.now.g
  estimated : Estimated t.driver.current.now.x.size t.driver.memory
  base : t.track.base.size = t.driver.current.now.x.size
  direction : t.track.direction.size = t.driver.current.now.x.size

section
include entered

theorem head_of_estimated (after : (method G.actions (.exact kind search o)).After h k phase t)
    (estimated : Estimated x.size t.driver.memory) : Head G t := by
  have keeps : (method (ω := ω) G.actions (.exact kind search o)).Keeps Drive.sameTrack
      fun _ => True := keeps_method (G.keeps fun _ _ => trivial) _
  obtain ⟨-, value, size⟩ := (after.coherent (sound G (.exact kind search o)) entered).present
  obtain ⟨base, direction⟩ := keeps.track entered after
  obtain ⟨f, there, rest⟩ := bind_eq_ok.1 value
  obtain ⟨g, slope, returned⟩ := bind_eq_ok.1 rest
  have here := (Except.ok.inj returned).symm
  change t.driver.current.now.x.size = x.size at size
  exact
    { value := there.trans (congrArg Except.ok (congrArg ObjectivePoint.f here).symm)
      gradient := slope.trans (congrArg Except.ok (congrArg ObjectivePoint.g here).symm)
      estimated := size ▸ estimated
      base := base.trans size.symm
      direction := direction.trans size.symm }

include approximated in
theorem estimated_of_entered : Estimated x.size h.driver.memory := by
  obtain ⟨u, v, placed, prepared, rfl, -⟩ := Method.enter_ok.1 entered
  have size : u.driver.current.now.x.size = x.size :=
    ((sound G (.exact kind search o)).coherent_of_placed placed).present.2.2
  have estimated : Estimated u.driver.current.now.x.size v.driver.memory :=
    estimated_of_prepare approximated prepared
  rwa [size] at estimated

end

include approximated bounded entered

theorem head_of_after (after : (method G.actions (.exact kind search o)).After h k phase t) :
    Head G t := by
  have kept {R : State ω Wide → State ω Wide → Prop} [IsPreorder (State ω Wide) R] :
      (G.actions : Problem ω Wide).Keeps R fun _ => True := G.keeps fun _ _ => trivial
  refine head_of_estimated entered after (after.upheld (R := Drive.Upholds (Estimated x.size))
    (keeps_evaluate kept) (fun k t z u before stepped estimated => ?_)
    (fun _ _ learned estimated => estimated_of_learn estimated learned)
    (estimated_of_entered approximated entered))
  have now := head_of_estimated entered before estimated
  change (step G.actions _).outcome t = _ at stepped
  rw [step_eq] at stepped
  obtain ⟨l, v, aimed, rest⟩ := Edit.outcome_bind_ok.1 stepped
  have size : t.driver.current.now.x.size = x.size :=
    (before.coherent (sound G (.exact kind search o)) entered).present.2.2
  obtain ⟨estimated', -⟩ := aimed_of_aim (bounded.slope now.gradient) now.estimated now.base
    now.direction aimed
  -- the search after the aim leaves the estimate as it is
  have searches : Edit.Keeps (Edit.Unchanged fun s : State ω Wide => s.driver.memory)
      (fun _ => True) (do
        let alpha ← search.wide.search G.actions.ray 1
        fit (Vec.add? l.start.x (Vec.scale alpha l.direction)) : Action ω Wide (Vec Wide)) :=
    .bind ((keeps_ray kept).search Drive.keeps_report (fun _ _ => trivial) _ 1) fun _ =>
      Drive.keeps_fit _
  rw [size, ← searches.preserves rest] at estimated'
  exact estimated'

end

/-- The line of a search that starts in session `u`, in the iteration from the head `t`: its slope is
that of the gradient along the direction, which leads downhill unless the gradient vanishes. -/
structure Line.Falls {ω : Type} (G : PureObjective Wide) (search : LineSearch ℝ) (t u : State ω Wide)
    (l : Line Wide) (σ : ℝ) : Prop where
  start : l.start = t.driver.current.now
  shortened : ∃ j : ℕ, (j : ℤ) ≤ search.nanMaxIterations ∧
    Shortened G.shown t.point l.full (real search.nanFactor) j l.direction
  product : t.driver.current.now.g.inner (.ofVec l.direction) = .ok (real σ)
  downhill : (∃ a ∈ t.driver.current.now.g.flat, a ≠ 0) → σ < 0
  value : ((G.actions.ray.value 0).outcome u).1 = .ok t.driver.current.now.f
  slope : ((G.actions.ray.slope 0).outcome u).1 = .ok (real σ)

section
variable {ω : Type} {G : PureObjective Wide} {search : LineSearch ℝ} {t u : State ω Wide}
  {l : Line Wide} {j : ℕ} {w v : Fin t.driver.current.now.x.size → ℝ}

/-- The ray of the optimizer along a line. -/
theorem rays (x d : Vec Wide) : (Correspondence.within (Session.Along x d)).Rays (G.ray x d)
    (G.actions.ray : Ray (Action ω Wide) Wide) := G.rel_ray x d

theorem Aimed.falls (aimed : Aimed G search t.driver.current.now u l j w v) (head : Head G t)
    (reduces : 0 < search.nanFactor) :
    ∃ σ, l.Falls G search t u σ ∧ (σ ≠ 0 → σ < 0) ∧
      l.direction.size = t.driver.current.now.x.size ∧
      (G.ray t.driver.current.now.x l.direction).value 0 = .ok t.driver.current.now.f ∧
      (G.ray t.driver.current.now.x l.direction).slope 0 = .ok (real σ) := by
  obtain ⟨size, first, σ, product, slope, downhill, falls⟩ :=
    ray_at_start head.value head.gradient reduces aimed
  refine ⟨σ, ?_, falls, size, first, slope⟩
  exact
    { start := aimed.start
      shortened := ⟨j, aimed.reductions, aimed.shortened⟩
      product
      downhill
      value := ((rays _ _).value 0 u aimed.along).1.trans first
      slope := ((rays _ _).slope 0 u aimed.along).1.trans slope }

end

/-- How the objective falls along the lines and with the steps of the runs from `x` in session `s`. -/
structure Descends {ω : Type} (G : PureObjective Wide) (c : Settings Wide) (search : LineSearch ℝ)
    (x : Vec Wide) (s : State ω Wide) : Prop where
  /-- An iteration takes aim, and then searches along the line. -/
  searches : (method (ω := ω) G.actions c).step = (do
    let l ← aim G.actions c
    let alpha ← c.search.search G.actions.ray 1
    fit (Vec.add? l.start.x (Vec.scale alpha l.direction)))
  /-- Every line falls. -/
  lines : ∀ trace h k t l u,
    ((method G.actions c).enter x).outcome (Method.marked true s) = (.ok trace, h) →
    (method G.actions c).After h k .running t → (aim G.actions c).outcome t = (.ok l, u) →
    G.pointAt t.point = .ok t.driver.current.now ∧ ∃ σ, l.Falls G search t u σ
  /-- A step by backtracking decreases the value, unless the slope was flat or the search was
  exhausted. -/
  steps : ∀ trace h k t z v, search.kind = .backtracking →
    ((method G.actions c).enter x).outcome (Method.marked true s) = (.ok trace, h) →
    (method G.actions c).After h k .running t →
    (method G.actions c).step.outcome t = (.ok z, v) →
    ∃ l u σ, (aim G.actions c).outcome t = (.ok l, u) ∧ l.Falls G search t u σ ∧
      (search.tol ≤ |σ| →
        ¬ LineSearch.Exhausted G.actions.ray search t.driver.current.now.f (real σ) u →
        ∃ i < search.maxIterations.toNat,
          Vec.add? l.start.x (Vec.scale (real (search.p ^ i)) l.direction) = some z ∧
          ∃ a b, t.driver.current.now.f = real a ∧ G.value z = .ok (real b) ∧
            b ≤ a + search.c1 * search.p ^ i * σ ∧ a + search.c1 * search.p ^ i * σ < a)

/-- With an admitted search and an estimate of the inverse Hessian every direction leads downhill. -/
theorem directions_descend {ω : Type} (G : PureObjective Wide) (kind : HessianKind)
    (search : LineSearch ℝ) (o : Options Wide) (x : Vec Wide) (s : State ω Wide)
    (approximated : kind ≠ .exact) (admitted : search.check = .ok search) (bounded : G.Bounded) :
    Descends G (.exact kind search o) search x s := by
  have proper := LineSearch.proper_of_check admitted
  refine ⟨step_eq _ _, ?lines, ?steps⟩
  case lines =>
    intro trace h k t l u entered before aiming
    have head := head_of_after approximated bounded entered before
    obtain ⟨-, j, w, v, aimed⟩ := aimed_of_aim (bounded.slope head.gradient) head.estimated head.base
      head.direction aiming
    obtain ⟨σ, line, -⟩ := aimed.falls head proper.reduces
    exact ⟨(before.coherent (sound G _) entered).present.2.1, σ, line⟩
  case steps =>
    intro trace h k t z v backtracks entered before stepped
    have head := head_of_after approximated bounded entered before
    change (step G.actions _).outcome t = _ at stepped
    rw [step_eq] at stepped
    obtain ⟨l, u, aiming, rest⟩ := Edit.outcome_bind_ok.1 stepped
    obtain ⟨alpha, u', searched, added⟩ := Edit.outcome_bind_ok.1 rest
    obtain ⟨-, j, w, v, aimed⟩ := aimed_of_aim (bounded.slope head.gradient) head.estimated head.base
      head.direction aiming
    obtain ⟨σ, line, falls, size, first, slope⟩ := aimed.falls head proper.reduces
    refine ⟨l, u, σ, aiming, line, fun steep unexhausted => ?_⟩
    rw [LineSearch.exhausted_iff (rays _ _) aimed.along] at unexhausted
    have found := LineSearch.backtrack_of_search (rays _ _) aimed.along
      Correspondence.along_report backtracks searched
    have sum := (Edit.outcome_fit_ok.1 added).1
    obtain ⟨i, less, rfl, lower⟩ := lower_of_backtrack bounded proper size first slope falls
      (bounded.value _ _ head.value) steep found unexhausted (aimed.start ▸ sum)
    exact ⟨i, less, sum, lower⟩

theorem directions_descend_valley :
    ∃ h, ((method PureObjective.valley.actions (.exact .bfgs .standard .standard)).enter
        #[real 1]).outcome (Method.marked true ⟨Drive.idle none, (), {}, {}, #[]⟩) = (.ok [], h) ∧
      Descends .valley (.exact .bfgs .standard .standard) .standard #[real 1]
        ⟨Drive.idle none, (), {}, {}, #[]⟩ :=
  ⟨_, rfl, directions_descend _ _ _ _ _ _ nofun LineSearch.check_standard
    PureObjective.valley_bounded⟩

end Optimizer

end Descent
