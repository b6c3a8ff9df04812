/-
# Descent.Proofs.Guard — every driver commits only valid iterates

Whatever the arithmetic, the step and the line search: an undefined value may come up in
a direction, a trial point, a residual or a gradient, but an iterate that has one is not
moved to, nor is one that passes a break threshold or grows where it must not.  All that
is asked of the user's functions is that they leave the driver alone and that their
values at points of one size have the same extents.

Over exact numbers what must not grow does not: a comparison that fails between defined
numbers is decided the other way round.
-/
import Descent.Proofs.Coherence
import Descent.Proofs.Iteration.Guard
import Descent.Proofs.Objective.Ray

namespace Descent
set_option autoImplicit false

variable {μ ω α : Type}

/-! ## The solvers -/

/-- The functions of the system write neither the measures nor the iterates of the driver, and
residuals at points of one size have the same extents. -/
structure Solver.Modest (F : Solver.Problem μ ω α) [Extended α] : Prop where
  measures : F.Keeps Drive.sameMeasures fun _ => True
  iterates : F.Keeps Drive.SameIterates fun _ => True
  fixed : ∀ x x' s s' y y' t t', x'.size = x.size → (F.residual x).outcome s = (.ok y, t) →
    (F.residual x').outcome s' = (.ok y', t') → y'.extents = y.extents

namespace Solver

variable [Extended α] {F : Problem μ ω α} {M : Solver μ ω α}

omit [Extended α] in
/-- An iterate is its point with the residual that was evaluated there. -/
theorem residual_of_evaluated {x : Vec α} {p : SystemPoint α}
    {s t : Drive.State (SystemPoint α) (ResidualProgress α) μ ω α}
    (evaluated : (Solver.evaluate F x).outcome s = (.ok p, t)) :
    p.x = x ∧ ∃ u, (F.residual x).outcome s = (.ok p.y, u) := by
  obtain ⟨y, _, evaluated, returned⟩ := Edit.outcome_bind_ok.1 evaluated
  cases returned
  obtain ⟨y', u, there, rest⟩ := Edit.outcome_bind_ok.1 evaluated
  cases rest
  exact ⟨rfl, u, there⟩

/-- Plain functions know nothing of the driver. -/
theorem modest_actions (G : PureEquations α) : Modest (G.actions : Problem μ ω α) where
  measures := G.keeps fun _ _ => trivial
  iterates := G.keeps fun _ _ => trivial
  fixed x x' s s' y y' t t' size there there' := by
    simp only [PureEquations.actions, Edit.outcome_ofExcept, Prod.mk.injEq] at there there'
    exact G.fixed x x' y y' size there.1 there'.1

theorem Of.steady (of : Of F M) (modest : Modest F) : M.Steady where
  own := of.keeps modest.measures
  keeps := of.keeps modest.iterates
  point x s p t evaluated := by
    rw [of.evaluate] at evaluated
    exact (residual_of_evaluated evaluated).1
  overwrites p p' evaluates evaluates' size := by
    obtain ⟨s, t, evaluated⟩ := evaluates
    obtain ⟨s', t', evaluated'⟩ := evaluates'
    rw [of.evaluate] at evaluated evaluated'
    obtain ⟨-, u, there⟩ := residual_of_evaluated evaluated
    obtain ⟨-, u', there'⟩ := residual_of_evaluated evaluated'
    exact SystemPoint.outcome_overwrite size (modest.fixed _ _ _ _ _ _ _ _ size there there')
  stays _ _ _ _ := of.size_of_step modest.iterates

end Solver

/-! ## The optimizer -/

namespace Optimizer

variable [Extended α] {F : Problem ω α}

/-- The functions of the objective write neither the measures nor the iterates of the driver, and
known gradients at points of one size have the same extents. -/
structure Modest (F : Problem ω α) : Prop where
  measures : F.Keeps Drive.sameMeasures fun _ => True
  iterates : F.Keeps Drive.SameIterates fun _ => True
  fixed : ∀ g ∈ F.gradient, ∀ x x' s s' y y' t t', x'.size = x.size →
    (g x).outcome s = (.ok y, t) → (g x').outcome s' = (.ok y', t') → y'.extents = y.extents

/-- Plain functions know nothing of the driver. -/
theorem modest_actions (G : PureObjective α) : Modest (G.actions : Problem ω α) where
  measures := G.keeps fun _ _ => trivial
  iterates := G.keeps fun _ _ => trivial
  fixed g given x x' s s' y y' t t' size there there' := by
    obtain ⟨gradient, known, rfl⟩ := Option.map_eq_some_iff.1 given
    simp only [Edit.outcome_ofExcept, Prod.mk.injEq] at there there'
    exact G.fixed gradient known x x' y y' size there.1 there'.1

/-- Gradients are taken at points of one size, known or by central differences: their extents are the
same. -/
theorem Modest.extents (modest : Modest F) {x x' : Vec α} {y y' : Shaped α}
    {s s' t t' : Drive.State (ObjectivePoint α) (ObjectiveProgress α) (Memory α) ω α}
    (size : x'.size = x.size) (taken : (F.gradientAt x).outcome s = (.ok y, t))
    (taken' : (F.gradientAt x').outcome s' = (.ok y', t')) : y'.extents = y.extents := by
  obtain ⟨⟨g, _⟩, u, costs, rest⟩ := Edit.outcome_bind_ok.1 taken
  obtain ⟨⟨g', _⟩, u', costs', rest'⟩ := Edit.outcome_bind_ok.1 taken'
  cases rest
  cases rest'
  unfold Objective.gradientCost at costs costs'
  cases known : F.gradient with
  | some gradient =>
    simp only [known] at costs costs'
    obtain ⟨w, _, there, returned⟩ := Edit.outcome_bind_ok.1 costs
    obtain ⟨w', _, there', returned'⟩ := Edit.outcome_bind_ok.1 costs'
    cases returned
    cases returned'
    exact modest.fixed gradient known x x' _ _ _ _ _ _ size there there'
  | none =>
    have differences {x : Vec α} {A : Shaped α} {n : Evaluations}
        {s t : Drive.State (ObjectivePoint α) (ObjectiveProgress α) (Memory α) ω α}
        (ran : (do
          let p ← Differences.gradient F.value x 1e-6
          return (Shaped.ofVec p.1, ({ values := p.2 } : Evaluations)) :
            Action ω α (Shaped α × Evaluations)).outcome s = (.ok (A, n), t)) :
        A.extents = [x.size] := by
      obtain ⟨⟨d, _⟩, _, taken, returned⟩ := Edit.outcome_bind_ok.1 ran
      cases returned
      obtain ⟨⟨⟩, _, -, rest⟩ := Edit.outcome_bind_ok.1 taken
      obtain ⟨slopes, _, -, returned⟩ := Edit.outcome_bind_ok.1 rest
      cases returned
      simp only [Shaped.ofVec, slopes.size_toArray]
    simp only [known] at costs costs'
    rw [differences costs, differences costs', size]

theorem steady (modest : Modest F) (c : Settings α) : (method F c).Steady where
  own := keeps_method modest.measures c
  keeps := keeps_method modest.iterates c
  point _ _ _ _ := point_of_evaluated
  overwrites p p' evaluates evaluates' size := by
    obtain ⟨s, t, evaluated⟩ := evaluates
    obtain ⟨s', t', evaluated'⟩ := evaluates'
    obtain ⟨f, _, -, rest⟩ := Edit.outcome_bind_ok.1 evaluated
    obtain ⟨g, _, taken, returned⟩ := Edit.outcome_bind_ok.1 rest
    obtain ⟨f', _, -, rest'⟩ := Edit.outcome_bind_ok.1 evaluated'
    obtain ⟨g', _, taken', returned'⟩ := Edit.outcome_bind_ok.1 rest'
    obtain rfl : g = p.g := congrArg ObjectivePoint.g (Except.ok.inj (Prod.mk.inj returned).1)
    obtain rfl : g' = p'.g := congrArg ObjectivePoint.g (Except.ok.inj (Prod.mk.inj returned').1)
    exact ObjectivePoint.outcome_overwrite size (modest.extents size taken taken')
  stays _ _ _ _ := size_of_step modest.iterates

end Optimizer

/-! ## All drivers -/

section
open Wide

/-- Where residuals must not grow, that of a result is not longer than the first one. -/
def Solver.NeverGrows (M : Solver μ ω Wide) (x : Vec Wide)
    (s : Drive.State (SystemPoint Wide) (ResidualProgress Wide) μ ω Wide) : Prop :=
  M.options.allowIncrease = false → ∀ trace h out t,
    (M.enter x).outcome (Method.marked true s) = (.ok trace, h) →
    (M.solve x).outcome s = (.ok out, t) → h.driver.current.now.y.hasNaN = false →
    out.last.y.norm ≤ h.driver.current.now.y.norm

/-- Where values must not grow, that of a result is not greater than the first one. -/
def Optimizer.NeverGrows
    (M : Method (ObjectivePoint Wide) (ObjectiveProgress Wide) (Memory Wide) ω Wide) (x : Vec Wide)
    (s : Drive.State (ObjectivePoint Wide) (ObjectiveProgress Wide) (Memory Wide) ω Wide) : Prop :=
  M.options.allowIncrease = false → ∀ trace h out t,
    (M.enter x).outcome (Method.marked true s) = (.ok trace, h) →
    (M.solve x).outcome s = (.ok out, t) → h.driver.current.now.f ≠ undefined →
    out.last.f ≤ h.driver.current.now.f

theorem Solver.never_grows {M : Solver μ ω Wide} {x : Vec Wide}
    {s : Drive.State (SystemPoint Wide) (ResidualProgress Wide) μ ω Wide}
    (careful : M.Careful x s) : NeverGrows M x s := by
  intro guarded trace h out t entered returned defined
  refine (careful.induction returned entered
    (P := fun p => p.y.hasNaN = false ∧ p.y.norm ≤ h.driver.current.now.y.norm)
    ⟨defined, le_self (norm_ne_undefined defined)⟩ ?_).2
  rintro old new ⟨defined', le⟩ admitted
  refine ⟨admitted.residual, Wide.le_trans (le_of_not_lt ?_ ?_ (admitted.grows guarded)) le⟩
  · exact norm_ne_undefined defined'
  · exact norm_ne_undefined admitted.residual

theorem Optimizer.never_grows
    {M : Method (ObjectivePoint Wide) (ObjectiveProgress Wide) (Memory Wide) ω Wide} {x : Vec Wide}
    {s : Drive.State (ObjectivePoint Wide) (ObjectiveProgress Wide) (Memory Wide) ω Wide}
    (careful : M.Careful x s) : NeverGrows M x s := by
  intro guarded trace h out t entered returned defined
  refine (careful.induction returned entered
    (P := fun p => p.f ≠ undefined ∧ p.f ≤ h.driver.current.now.f) ⟨defined, le_self defined⟩ ?_).2
  rintro old new ⟨defined', le⟩ admitted
  have value : new.f ≠ undefined := by
    rw [Ne, ← isNaN_iff, admitted.value]
    exact Bool.false_ne_true
  exact ⟨value, Wide.le_trans (le_of_not_lt defined' value (admitted.grows guarded)) le⟩

end

/-- **Only valid iterates are ever committed**: they and their values are defined, pass no break
threshold, and have not grown where they must not. This holds for every driver and any arithmetic, also
in runs that fail later. Over exact numbers the result of a run has then not grown at all. -/
theorem valid_commits :
    (∀ {μ ω α : Type} [Extended α] (F : Solver.Problem μ ω α) (M : Solver μ ω α) (o : Options α) x s,
      Solver.Of F M → Solver.Modest F → o.check = .ok M.options → s.driver.running = false →
      M.Careful x s) ∧
    (∀ {ω α : Type} [Extended α] (F : Optimizer.Problem ω α) (c : Optimizer.Settings α)
        (o : Options α) x s,
      Optimizer.Modest F → o.check = .ok c.options → s.driver.running = false →
      (Optimizer.method F c).Careful x s) ∧
    (∀ {μ ω : Type} (F : Solver.Problem μ ω Wide) (M : Solver μ ω Wide) (o : Options Wide) x s,
      Solver.Of F M → Solver.Modest F → o.check = .ok M.options → s.driver.running = false →
      Solver.NeverGrows M x s) ∧
    ∀ {ω : Type} (F : Optimizer.Problem ω Wide) (c : Optimizer.Settings Wide) (o : Options Wide) x s,
      Optimizer.Modest F → o.check = .ok c.options → s.driver.running = false →
      Optimizer.NeverGrows (Optimizer.method F c) x s := by
  have solvers {μ ω α : Type} [Extended α] (F : Solver.Problem μ ω α) (M : Solver μ ω α)
      (o : Options α) (x : Vec α) (s : Drive.State (SystemPoint α) (ResidualProgress α) μ ω α)
      (of : Solver.Of F M) (modest : Solver.Modest F) (admitted : o.check = .ok M.options)
      (idle : s.driver.running = false) : M.Careful x s :=
    (of.steady modest).careful (Options.one_le_of_check admitted) idle
  have optimizers {ω α : Type} [Extended α] (F : Optimizer.Problem ω α) (c : Optimizer.Settings α)
      (o : Options α) (x : Vec α)
      (s : Drive.State (ObjectivePoint α) (ObjectiveProgress α) (Optimizer.Memory α) ω α)
      (modest : Optimizer.Modest F) (admitted : o.check = .ok c.options)
      (idle : s.driver.running = false) : (Optimizer.method F c).Careful x s :=
    (Optimizer.steady modest c).careful (Options.one_le_of_check admitted) idle
  refine ⟨solvers, optimizers, ?_, ?_⟩
  · intro μ ω F M o x s of modest admitted idle
    exact Solver.never_grows (solvers F M o x s of modest admitted idle)
  · intro ω F c o x s modest admitted idle
    exact Optimizer.never_grows (optimizers F c o x s modest admitted idle)

/-- Nothing must grow. -/
noncomputable def Options.guarded : Options Wide :=
  { Options.standard with allowIncrease := false, warnIterations := some 1000 }

theorem Options.guarded_check : Options.guarded.check = .ok Options.guarded := by
  have spacing : (Scalar.spacing : Wide) = .real (1.0 / 4503599627370496.0) :=
    Wide.real_div _ (by norm_num)
  have none : (Options.guarded.tolerances.find? fun (_, tol) => decide (tol < 0)) = none := by
    rw [List.find?_eq_none]
    simp only [tolerances, guarded, standard, spacing, Wide.zero_eq, Wide.ofScientific_eq,
      Wide.real_mul, Wide.real_lt, decide_eq_true_eq, List.forall_mem_cons]
    rw [Wide.sqrt_real (by norm_num)]
    simp only [Wide.real_lt]
    norm_num
  rw [Options.check, none]
  rfl

theorem valid_commits_guarded :
    (Newton.method PureEquations.identity.actions ⟨.strict, .standard, 0, .every 5⟩).Careful #[1]
      ⟨Drive.idle (Newton.blank ⟨.strict, .standard, 0, .every 5⟩), (), {}, {}, #[]⟩ ∧
    (Optimizer.method PureObjective.bowl.actions ⟨.bfgs, .standard, .strict⟩).Careful #[1]
      ⟨Drive.idle none, (), {}, {}, #[]⟩ ∧
    Solver.NeverGrows (FixedPoint.method PureEquations.origin.actions ⟨.guarded, .standard⟩)
      #[.real 1] ⟨Drive.idle (), (), {}, {}, #[]⟩ ∧
    Optimizer.NeverGrows (Optimizer.method PureObjective.valley.actions ⟨.exact, .standard, .guarded⟩)
      #[.real 1] ⟨Drive.idle none, (), {}, {}, #[]⟩ := by
  obtain ⟨solvers, optimizers, exactSolvers, exactOptimizers⟩ := valid_commits
  exact ⟨solvers _ _ _ _ _ (.newton _ _) (Solver.modest_actions _) Options.strict_check rfl,
    optimizers _ _ _ _ _ (Optimizer.modest_actions _) Options.strict_check rfl,
    exactSolvers _ _ _ _ _ (.fixedPoint _ _) (Solver.modest_actions _) Options.guarded_check rfl,
    exactOptimizers _ _ _ _ _ (Optimizer.modest_actions _) Options.guarded_check rfl⟩

end Descent
