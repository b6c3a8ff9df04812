/-
# Descent.Proofs.Equations.Coherence — the caches of the solvers of systems

For a system of plain functions, with residuals of fixed extents, every solver is
sound: Newton's method and its thrifty variant, fixed-point iteration and the
trust-region solver.  What has to be said of each of them is that a step keeps the
size of the point.  It does because a direction that is not of that size, and not a
single entry either, is refused where it is written into the cache.
-/
import Descent.Proofs.Equations.Frame
import Descent.Proofs.Iteration.Coherence

namespace Descent
set_option autoImplicit false

/-- A system of plain functions; residuals at points of one size have the same extents. -/
structure PureEquations (α : Type) where
  residual : Vec α → Except (Fault α) (Shaped α)
  jacobian : Option (Vec α → Except (Fault α) (Shaped α)) := none
  dim : Option Int := none
  fixed : ∀ x x' y y', x'.size = x.size → residual x = .ok y → residual x' = .ok y' →
    y'.extents = y.extents

namespace PureEquations

variable {α : Type} (G : PureEquations α)

/-- The system as a solver calls it. -/
def actions {δ ω : Type} : Equations δ ω α where
  residual x := ofExcept (G.residual x)
  jacobian := G.jacobian.map fun J x => ofExcept (J x)
  dim := G.dim

/-- A point and the residual there. -/
def pointAt (x : Vec α) : Except (Fault α) (SystemPoint α) := return ⟨x, ← G.residual x⟩

/-- A function of the system can raise the fault. -/
def Raises (e : Fault α) : Prop :=
  (∃ x, G.residual x = .error e) ∨ ∃ J ∈ G.jacobian, ∃ x, J x = .error e

variable {G}

/-- Its residuals are the plain ones. -/
theorem result_of_residual {δ ω : Type} (x : Vec α) (s : Session δ ω α) :
    ((G.actions.residual x).outcome s).1 = G.residual x :=
  congrArg Prod.fst (Edit.outcome_ofExcept _ s)

theorem keeps {δ ω : Type} {R : Session δ ω α → Session δ ω α → Prop}
    [IsPreorder (Session δ ω α) R] {P : Fault α → Prop} (raised : ∀ e, G.Raises e → P e) :
    (G.actions : Equations δ ω α).Keeps R P where
  residual x := .ofExcept fun e failed => raised e (.inl ⟨x, failed⟩)
  jacobian := by
    intro J given x
    obtain ⟨K, known, rfl⟩ := Option.map_eq_some_iff.1 given
    exact .ofExcept fun e failed => raised e (.inr ⟨K, known, x, failed⟩)

end PureEquations

variable {μ ω α : Type} [Extended α]

/-! ## Iterates -/

theorem SystemPoint.outcome_overwrite {old new : SystemPoint α} (size : new.x.size = old.x.size)
    (extents : new.y.extents = old.y.extents) :
    (Iterate.overwrite new : Edit α (SystemPoint α) Unit).outcome old = (.ok ⟨⟩, new) := by
  simp only [Iterate.overwrite, Edit.outcome_bind, Edit.outcome_get, Edit.andThen_ok,
    Vec.assign?_of_size_eq size, fit, Edit.outcome_pure, Edit.outcome_modify, ← extents,
    Shaped.assign?_extents]

theorem SystemPoint.ordinary_update (new old : SystemPoint α) (p : ResidualProgress α) :
    Fault.Only Fault.Ordinary
      ((Iterate.update new old : Edit α (ResidualProgress α) Unit).outcome p).1 := by
  have kept : Edit.Keeps (Edit.Unchanged fun _ => ()) Fault.Ordinary
      (Iterate.update new old : Edit α (ResidualProgress α) Unit) := by
    simp only [Iterate.update, ResidualProgress.update]
    refine .bind (.change fun _ => rfl) fun _ => .bind (.fit trivial) fun _ => ?_
    exact .bind (.change fun _ => rfl) fun _ => .bind (.fit trivial) fun _ => .change fun _ => rfl
  exact kept.fault p

/-! ## Steps along a line -/

namespace Solver

variable {F : Problem μ ω α} {P : Fault α → Prop}
  {s t : Drive.State (SystemPoint α) (ResidualProgress α) μ ω α} {c : Cache (SystemPoint α) α}
  {z : Vec α}

theorem size_of_lineStep [Fault.Broad P] (kept : F.Keeps Drive.SameIterates P)
    {search : LineSearch α} {verbosity : Int} {frozen : Action μ ω α (Option (Shaped α))} {direction : Vec α}
    (here : s.driver.cache = some c) (fits : c.direction.size = c.now.x.size)
    (stepped : (lineStep F search verbosity frozen direction).outcome s = (.ok z, t)) :
    z.size = c.now.x.size := by
  simp only [lineStep, Edit.outcome_bind_ok] at stepped
  obtain ⟨p, _, found, d, s', shortened, ⟨⟩, s'', turned, ⟨⟩, _, -, J, _, -, alpha, _, -, added⟩ :=
    stepped
  cases found
  have same : Drive.SameIterates s s' :=
    (Drive.keeps_shortenUndefined (keeps_residualAt kept) _ _ _ _ _).related shortened
  simp only [Drive.current, here, Option.getD_some, Edit.outcome_fit_ok] at added
  exact Method.size_of_moved here same fits turned (by simp [Vec.scale]) added.1

end Solver

namespace PureEquations

/-- The faults of a driver for a system that are not its verdict. -/
abbrev Faults (G : PureEquations α) (e : Fault α) : Prop := e.Ordinary ∨ G.Raises e

variable {G : PureEquations α}

omit [Extended α] in
theorem keeps_faults {δ ω : Type} {R : Session δ ω α → Session δ ω α → Prop}
    [IsPreorder (Session δ ω α) R] : (G.actions : Equations δ ω α).Keeps R G.Faults :=
  G.keeps fun _ => .inr

/-- A solver of a system with these residuals is sound if its actions keep every frame, and its steps
the size. -/
theorem sound {F : Solver.Problem μ ω α} {M : Method (SystemPoint α) (ResidualProgress α) μ ω α}
    (residual : ∀ x s, ((F.residual x).outcome s).1 = G.residual x)
    (evaluates : M.evaluate = Solver.evaluate F) (own : M.Private)
    (keeps : M.Keeps Drive.SameIterates G.Faults)
    (stays : ∀ s t c z, s.driver.cache = some c → c.direction.size = c.now.x.size →
      M.step.outcome s = (.ok z, t) → z.size = c.now.x.size) : M.Sound G.pointAt G.Faults where
  own := own
  keeps := keeps
  evaluates x s := by
    rw [evaluates, Solver.evaluate, Equations.residualAt, bind_assoc, Edit.outcome_bind, pointAt,
      ← residual x s]
    rcases (F.residual x).outcome s with ⟨_ | _, _⟩ <;> rfl
  point x p value := by
    obtain ⟨y, -, returned⟩ := bind_eq_ok.1 value
    cases returned
    rfl
  overwrites x x' p p' size value value' := by
    obtain ⟨y, there, returned⟩ := bind_eq_ok.1 value
    obtain ⟨y', there', returned'⟩ := bind_eq_ok.1 value'
    cases returned
    cases returned'
    exact SystemPoint.outcome_overwrite size (G.fixed x x' y y' size there there')
  measures new old p := (SystemPoint.ordinary_update new old p).mono fun _ => .inl
  stays := stays

end PureEquations

/-! ## The solvers -/

theorem Newton.size_of_step {F : Solver.Problem (Newton.Memory α) ω α} {P : Fault α → Prop}
    [Fault.Broad P] {c : Newton.Settings α}
    {s t : Drive.State (SystemPoint α) (ResidualProgress α) (Newton.Memory α) ω α}
    {cache : Cache (SystemPoint α) α} {z : Vec α} (kept : F.Keeps Drive.SameIterates P)
    (here : s.driver.cache = some cache) (fits : cache.direction.size = cache.now.x.size)
    (stepped : (Newton.method F c).step.outcome s = (.ok z, t)) : z.size = cache.now.x.size := by
  obtain ⟨d, s', directed, rest⟩ := Edit.outcome_bind_ok.1 stepped
  obtain ⟨cache', there, now, -, direction⟩ :=
    (Newton.keeps_direction kept c.schedule).related directed cache here
  rw [← now] at fits ⊢
  exact Solver.size_of_lineStep kept there (direction.trans fits) rest

theorem Newton.sound (G : PureEquations α) (c : Newton.Settings α) :
    (Newton.method (ω := ω) G.actions c).Sound G.pointAt G.Faults :=
  G.sound G.result_of_residual rfl (Newton.keeps_method (G.keeps fun _ _ => trivial) c)
    (Newton.keeps_method G.keeps_faults c) fun _ _ _ _ => Newton.size_of_step G.keeps_faults

theorem FixedPoint.size_of_step {F : Solver.Problem Unit ω α} {P : Fault α → Prop}
    [Fault.Broad P] {c : FixedPoint.Settings α}
    {s t : Drive.State (SystemPoint α) (ResidualProgress α) Unit ω α}
    {cache : Cache (SystemPoint α) α} {z : Vec α} (kept : F.Keeps Drive.SameIterates P)
    (here : s.driver.cache = some cache) (fits : cache.direction.size = cache.now.x.size)
    (stepped : (FixedPoint.method F c).step.outcome s = (.ok z, t)) :
    z.size = cache.now.x.size := by
  obtain ⟨p, s', found, rest⟩ := Edit.outcome_bind_ok.1 stepped
  cases found
  obtain ⟨d, s'', defined, rest⟩ := Edit.outcome_bind_ok.1 rest
  obtain ⟨cache', there, now, -, direction⟩ :=
    (Solver.keeps_defined (R := Drive.SameIterates) (P := P) _).related defined cache here
  rw [← now] at fits ⊢
  exact Solver.size_of_lineStep kept there (direction.trans fits) rest

theorem FixedPoint.sound (G : PureEquations α) (c : FixedPoint.Settings α) :
    (FixedPoint.method (ω := ω) G.actions c).Sound G.pointAt G.Faults :=
  G.sound G.result_of_residual rfl (FixedPoint.keeps_method (G.keeps fun _ _ => trivial) c)
    (FixedPoint.keeps_method G.keeps_faults c) fun _ _ _ _ => FixedPoint.size_of_step G.keeps_faults

namespace Dogleg

variable {F : Solver.Problem (Region α) ω α} {P : Fault α → Prop} [Fault.Broad P] {c : Settings α}
  {y g : Vec α} {J B : Dense α}
  {s t : Drive.State (SystemPoint α) (ResidualProgress α) (Region α) ω α}
  {cache : Cache (SystemPoint α) α} {z : Vec α}

omit [Fault.Broad P] in
theorem size_of_trial {accepted isUndefined : Bool} (here : s.driver.cache = some cache)
    (fits : cache.direction.size = cache.now.x.size)
    (tried : (trial F c y J g B).outcome s = (.ok (accepted, z, isUndefined), t)) :
    z.size = cache.now.x.size := by
  simp only [trial, Edit.outcome_bind_ok, Edit.outcome_fit_ok] at tried
  obtain ⟨p, _, found, r, _, read, d, s', solved, d', s'', defined, ⟨⟩, v, turned, z', _, ⟨added, -⟩,
    y', _, -, _, _, -, ratio, _, -, ⟨⟩, _, -, ⟨⟩, _, -, returned⟩ := tried
  cases found
  cases read
  cases returned
  have same : Drive.SameIterates s s'' := by
    have solves : Edit.Keeps (α := α) Drive.SameIterates (fun _ => True) (do
        Solver.defined (← ofExcept (doglegStep? g B s.driver.memory.radius)) : Action ω α (Vec α)) :=
      .bind (.ofExcept fun _ _ => trivial) fun _ => Solver.keeps_defined _
    exact solves.related (Edit.outcome_bind_ok.2 ⟨_, _, solved, defined⟩)
  simp only [Drive.current, here, Option.getD_some] at added
  exact Method.size_of_moved here same fits turned rfl added

theorem size_of_tries (kept : F.Keeps Drive.SameIterates P) {trials : Nat} {undefinedBefore : Bool}
    (here : s.driver.cache = some cache) (fits : cache.direction.size = cache.now.x.size)
    (tried : (tries F c y J g B trials undefinedBefore).outcome s = (.ok z, t)) :
    z.size = cache.now.x.size := by
  induction trials generalizing s cache undefinedBefore with
  | zero =>
    cases undefinedBefore with
    | true =>
      simp only [tries, if_true, Edit.outcome_bind_ok] at tried
      obtain ⟨_, _, lost, -⟩ := tried
      cases lost
    | false =>
      simp only [tries, Bool.false_eq_true, if_false, Edit.outcome_bind_ok] at tried
      obtain ⟨r, _, read, ⟨⟩, _, told, p, _, found, returned⟩ := tried
      cases read
      cases told
      cases found
      cases returned
      simp only [Drive.current, here, Option.getD_some]
  | succ trials ih =>
    rw [tries, Edit.outcome_bind_ok] at tried
    obtain ⟨⟨accepted, z', isUndefined⟩, s', tried', rest⟩ := tried
    cases accepted with
    | true =>
      cases rest
      exact size_of_trial here fits tried'
    | false =>
      obtain ⟨cache', there, now, -, direction⟩ :=
        (keeps_trial (R := Drive.SameIterates) kept c y J g B).related tried' cache here
      rw [← now] at fits ⊢
      exact ih there (direction.trans fits) rest

theorem result_of_unmoved {x : Vec α} {y J : Shaped α} (returned : unmoved x y J c = .ok z) :
    z = x := by
  obtain ⟨g, -, rest⟩ := bind_eq_ok.1 returned
  split at rest
  · cases rest
    rfl
  · obtain ⟨_, -, rest⟩ := bind_eq_ok.1 rest
    obtain ⟨_, -, failed⟩ := bind_eq_ok.1 rest
    cases failed

theorem size_of_step (kept : F.Keeps Drive.SameIterates P) (here : s.driver.cache = some cache)
    (fits : cache.direction.size = cache.now.x.size)
    (stepped : (step F c).outcome s = (.ok z, t)) : z.size = cache.now.x.size := by
  obtain ⟨p, _, found, rest⟩ := Edit.outcome_bind_ok.1 stepped
  cases found
  obtain ⟨J, s', differentiated, rest⟩ := Edit.outcome_bind_ok.1 rest
  obtain ⟨cache', there, now, -, direction⟩ :=
    (Solver.keeps_jacobianAt (R := Drive.SameIterates) kept _).related differentiated cache here
  have start : s.driver.current.now.x.size = cache.now.x.size := by
    rw [Drive.current, here, Option.getD_some]
  split at rest
  · obtain ⟨g, _, fitted, rest⟩ := Edit.outcome_bind_ok.1 rest
    obtain ⟨-, rfl⟩ := Edit.outcome_fit_ok.1 fitted
    split at rest
    · cases rest
      exact start
    · obtain ⟨B, _, fitted, rest⟩ := Edit.outcome_bind_ok.1 rest
      obtain ⟨-, rfl⟩ := Edit.outcome_fit_ok.1 fitted
      rw [← now] at fits ⊢
      exact size_of_tries kept there (direction.trans fits) rest
  · rw [Edit.outcome_ofExcept] at rest
    rw [result_of_unmoved (congrArg Prod.fst rest)]
    exact start

theorem sound (G : PureEquations α) (options : Options α) (c : Settings α) :
    (method (ω := ω) G.actions options c).Sound G.pointAt G.Faults :=
  G.sound G.result_of_residual rfl (keeps_method (G.keeps fun _ _ => trivial) options c)
    (keeps_method G.keeps_faults options c) fun _ _ _ _ => size_of_step G.keeps_faults

end Dogleg

/-- A step of any solver keeps the size of the point. -/
theorem Solver.Of.size_of_step {F : Solver.Problem μ ω α} {M : Solver μ ω α} (of : Solver.Of F M)
    (kept : F.Keeps Drive.SameIterates fun _ => True)
    {s t : Drive.State (SystemPoint α) (ResidualProgress α) μ ω α}
    {c : Cache (SystemPoint α) α} {z : Vec α} (here : s.driver.cache = some c)
    (fits : c.direction.size = c.now.x.size) (stepped : M.step.outcome s = (.ok z, t)) :
    z.size = c.now.x.size := by
  cases of with
  | newton F c => exact Newton.size_of_step kept here fits stepped
  | fixedPoint F c => exact FixedPoint.size_of_step kept here fits stepped
  | dogleg F o c => exact Dogleg.size_of_step kept here fits stepped

end Descent
