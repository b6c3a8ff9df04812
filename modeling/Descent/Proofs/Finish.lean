/-
# Descent.Proofs.Finish — how the drivers end

The loop is one, the drivers are two: one for systems, which runs whatever step it
is given, and the optimizer.  Both end as `Method.Finishes` says, for every system
and every objective whose functions leave the measures of the driver alone.
-/
import Descent.Proofs.Equations.Frame
import Descent.Proofs.Iteration.Finish
import Descent.Proofs.Objective.Frame
import Descent.Scalar.Double

namespace Descent
set_option autoImplicit false

section
variable {μ ω α : Type} {x : Vec α}

theorem Solver.point_of_evaluated {F : Solver.Problem μ ω α}
    {s t : Drive.State (SystemPoint α) (ResidualProgress α) μ ω α} {first : SystemPoint α}
    (evaluated : (Solver.evaluate F x).outcome s = (.ok first, t)) : first.x = x := by
  obtain ⟨y, u, -, returned⟩ := Edit.outcome_bind_ok.1 evaluated
  cases returned
  rfl

theorem Optimizer.point_of_evaluated [Extended α] {F : Optimizer.Problem ω α}
    {s t : Drive.State (ObjectivePoint α) (ObjectiveProgress α) (Optimizer.Memory α) ω α}
    {first : ObjectivePoint α}
    (evaluated : (Optimizer.evaluate F x).outcome s = (.ok first, t)) : first.x = x := by
  obtain ⟨f, u, -, rest⟩ := Edit.outcome_bind_ok.1 evaluated
  obtain ⟨g, v, -, returned⟩ := Edit.outcome_bind_ok.1 rest
  cases returned
  rfl

end

/-- With admitted options every run of a driver for systems and every run of the optimizer ends
within the limit on iterations, and what it shows then tells which condition ended it. -/
theorem drivers_finish {ω α : Type} [Extended α] :
    (∀ {μ : Type} (M : Method (SystemPoint α) (ResidualProgress α) μ ω α)
        (F : Solver.Problem μ ω α) (o : Options α),
      o.check = .ok M.options → M.evaluate = Solver.evaluate F → M.Private →
      Edit.Keeps (Edit.Unchanged Session.point) (fun _ => True) M.prepare →
      ∀ x s trace h, (M.enter x).outcome s = (.ok trace, h) → M.Finishes x s h) ∧
    ∀ (F : Optimizer.Problem ω α) (c : Optimizer.Settings α) (o : Options α),
      o.check = .ok c.options → F.Keeps Drive.sameMeasures (fun _ => True) →
      ∀ x s trace h, ((Optimizer.method F c).enter x).outcome s = (.ok trace, h) →
        (Optimizer.method F c).Finishes x s h := by
  constructor
  · intro μ M F o admitted evaluates own prepares x s trace h entered
    refine M.run_finishes own (Options.one_le_of_check admitted) ?_ prepares entered
    intro x s first t evaluated
    rw [evaluates] at evaluated
    exact Solver.point_of_evaluated evaluated
  · intro F c o admitted kept x s trace h entered
    exact Method.run_finishes (Optimizer.keeps_method kept c) (Options.one_le_of_check admitted)
      (fun _ _ _ _ => Optimizer.point_of_evaluated) (Optimizer.keeps_prepare c.hessian) entered

/-- Tolerances of zero, and room for ten iterations. -/
def Options.strict : Options Float :=
  { stepTol := 0
    relativeStepTol := 0
    successiveStepTol := 0
    valueTol := 0
    relativeValueTol := 0
    successiveValueTol := 0
    decreasePart := 0
    gradientTol := 0
    stepBreak := Extended.inf
    relativeStepBreak := Extended.inf
    valueBreak := Extended.inf
    relativeValueBreak := Extended.inf
    gradientBreak := Extended.inf
    allowIncrease := false
    minIterations := 2
    maxIterations := 10
    warnIterations := some 10
    keepTrace := true
    verbosity := 0 }

theorem Options.strict_check : Options.strict.check = .ok Options.strict := by
  have none : (Options.strict.tolerances.find? fun (_, tol) => decide (tol < 0)) = none := by
    rw [List.find?_eq_none]
    decide
  rw [Options.check, none]
  rfl

/-- A solver of `x = 0` that steps halfway there. -/
def Solver.halving : Method (SystemPoint Float) (ResidualProgress Float) Unit Unit Float :=
  { Solver.bare { residual := fun x => pure (.ofVec x) } Options.strict with
    step := do return Vec.scale 0.5 (← Drive.now).x }

/-- The squared length and its gradient. -/
def Optimizer.bowl : Optimizer.Problem Unit Float :=
  { value := fun x => pure x.normSq
    gradient := some fun x => pure (.ofVec (Vec.scale 2.0 x)) }

theorem drivers_finish_halving :
    (∃ h, (Solver.halving.enter #[1]).outcome ⟨Drive.idle (), (), {}, {}, #[]⟩ = (.ok [#[1]], h) ∧
      Solver.halving.Finishes #[1] ⟨Drive.idle (), (), {}, {}, #[]⟩ h) ∧
    ∃ h, ((Optimizer.method Optimizer.bowl ⟨.bfgs, .standard, Options.strict⟩).enter #[1]).outcome
        ⟨Drive.idle none, (), {}, {}, #[]⟩ = (.ok [#[1]], h) ∧
      (Optimizer.method Optimizer.bowl ⟨.bfgs, .standard, Options.strict⟩).Finishes #[1]
        ⟨Drive.idle none, (), {}, {}, #[]⟩ h := by
  have halves : Solver.halving.Private :=
    { evaluate := fun x => .bind (.bind (.pure _) fun _ => .bind (Drive.keeps_tally _) fun _ =>
        .pure _) fun _ => .pure _
      prepare := .pure _
      step := .bind Drive.keeps_now fun _ => .pure _
      learn := .pure _ }
  have kept : Optimizer.bowl.Keeps Drive.sameMeasures fun _ => True :=
    { value := fun _ => .pure _
      gradient := by
        rintro g ⟨⟩ x
        exact .pure _
      hessian := nofun }
  exact ⟨⟨_, rfl, drivers_finish.1 Solver.halving _ _ Options.strict_check rfl halves (.pure _) _ _ _
      _ rfl⟩,
    _, rfl, drivers_finish.2 Optimizer.bowl _ _ Options.strict_check kept _ _ _ _ rfl⟩

end Descent
