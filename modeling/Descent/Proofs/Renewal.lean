/-
# Descent.Proofs.Renewal — solving with a used driver

Whatever a driver was used for, and however its runs ended, it solves like a new one.  All that is
asked of the user's functions is that those that evaluate the start do not look at what is left in
the driver; they may fail, change their own state and the log, and call the driver again.
-/
import Descent.Proofs.Coherence
import Descent.Proofs.Iteration.Renewal

namespace Descent
set_option autoImplicit false

open Drive

variable {ω α : Type} [Extended α]

/-! ## Solvers of systems -/

section
variable {μ : Type} {F : Solver.Problem μ ω α} (residual : ∀ x, Discreet (F.residual x))
include residual

omit [Extended α] in
theorem Solver.discreet_evaluate (x : Vec α) : Discreet (Solver.evaluate F x) :=
  abreast.bind (abreast.bind (residual x) fun _ => abreast.bind (discreet_tally _) fun _ =>
    abreast.pure _) fun _ => abreast.pure _

end

theorem Newton.renews {F : Solver.Problem (Newton.Memory α) ω α}
    (residual : ∀ x, Discreet (F.residual x)) (c : Newton.Settings α) :
    (Newton.method F c).Renews where
  evaluate := Solver.discreet_evaluate residual
  prepare _ _ := .inr rfl

/-- There is nothing in the memory. -/
theorem FixedPoint.renews {F : Solver.Problem Unit ω α} (residual : ∀ x, Discreet (F.residual x))
    (c : FixedPoint.Settings α) : (FixedPoint.method F c).Renews where
  evaluate := Solver.discreet_evaluate residual
  prepare _ _ := .inr rfl

theorem Dogleg.renews {F : Solver.Problem (Dogleg.Region α) ω α}
    (residual : ∀ x, Discreet (F.residual x)) (o : Options α) (c : Dogleg.Settings α) :
    (Dogleg.method F o c).Renews where
  evaluate := Solver.discreet_evaluate residual
  prepare _ _ := .inr rfl

/-! ## Optimizers -/

namespace Optimizer

section
variable {F : Problem ω α} (value : ∀ x, Discreet (F.value x))
  (gradient : ∀ g, F.gradient = some g → ∀ x, Discreet (g x))
include value gradient

theorem discreet_gradientAt (x : Vec α) : Discreet (F.gradientAt x) := by
  refine discreet_counted ?_
  unfold Objective.gradientCost
  cases given : F.gradient with
  | some g => exact abreast.bind (gradient g given x) fun _ => abreast.pure _
  | none =>
    exact abreast.bind (abreast.gradient (fun _ _ => trivial) value x _) fun _ =>
      abreast.pure _

theorem discreet_evaluate (x : Vec α) : Discreet (evaluate F x) :=
  abreast.bind (abreast.bind (discreet_tally _) fun _ => value x) fun _ =>
    abreast.bind (discreet_gradientAt value gradient x) fun _ => abreast.pure _

omit value gradient in
theorem outcome_prepare (kind : HessianKind)
    (s : Drive.State (ObjectivePoint α) (ObjectiveProgress α) (Memory α) ω α) :
    (prepare kind).outcome s = match kind.rule? with
      | none => (.ok ⟨⟩, recalling none s)
      | some rule => match InverseHessian.new rule s.driver.current.now.x.size with
        | .error e => (.error e, s)
        | .ok h => (.ok ⟨⟩, recalling (some h) s) := by
  unfold prepare
  cases kind.rule? with
  | none => rfl
  | some rule =>
    dsimp only
    rw [Edit.outcome_bind, Drive.now, Edit.outcome_bind, Act.outcome_driver, Edit.andThen_ok,
      Edit.outcome_pure, Edit.andThen_ok, Edit.outcome_bind, Edit.outcome_ofExcept]
    cases (InverseHessian.new rule s.driver.current.now.x.size : Except (Fault α) _) <;> rfl

/-- An estimate for too many unknowns is refused before the memory is written. -/
theorem renews (c : Settings α) : (method F c).Renews where
  evaluate := discreet_evaluate value gradient
  prepare s memory := by
    have used : (method F c).prepare.outcome s = _ := outcome_prepare c.hessian s
    have new : (method F c).prepare.outcome (recalling memory s) = _ :=
      outcome_prepare c.hessian (recalling memory s)
    rw [used, new]
    cases c.hessian.rule? with
    | none => exact .inr rfl
    | some rule =>
      dsimp only
      have size : (recalling memory s).driver.current.now.x = s.driver.current.now.x := rfl
      rw [size]
      cases (InverseHessian.new rule s.driver.current.now.x.size : Except (Fault α) _) with
      | error e => exact .inl ⟨e, rfl, rfl⟩
      | ok h => exact .inr rfl

end

end Optimizer

/-! ## All drivers -/

/-- **A driver that was used in any way solves like a new one with the same parameters: it returns the
same, or fails with the same fault, and may start again afterwards.** -/
theorem solves_like_new (x : Vec α) :
    (∀ (F : Solver.Problem (Newton.Memory α) ω α) (c : Newton.Settings α) s,
      (∀ z, Discreet (F.residual z)) → (Newton.method F c).Used (Newton.blank c) s →
      (Newton.method F c).Renewed (Newton.blank c) x s) ∧
    (∀ (F : Solver.Problem Unit ω α) (c : FixedPoint.Settings α) s,
      (∀ z, Discreet (F.residual z)) → (FixedPoint.method F c).Used () s →
      (FixedPoint.method F c).Renewed () x s) ∧
    (∀ (F : Solver.Problem (Dogleg.Region α) ω α) (o : Options α) (c : Dogleg.Settings α) s,
      (∀ z, Discreet (F.residual z)) → (Dogleg.method F o c).Used (Dogleg.blank c) s →
      (Dogleg.method F o c).Renewed (Dogleg.blank c) x s) ∧
    ∀ (F : Optimizer.Problem ω α) (c : Optimizer.Settings α) s, (∀ z, Discreet (F.value z)) →
      (∀ g, F.gradient = some g → ∀ z, Discreet (g z)) → (Optimizer.method F c).Used none s →
      (Optimizer.method F c).Renewed none x s := by
  refine ⟨?newton, ?fixedPoint, ?dogleg, ?optimizer⟩
  case newton =>
    intro F c s residual used
    exact (Newton.renews residual c).renewed used x
  case fixedPoint =>
    intro F c s residual used
    exact (FixedPoint.renews residual c).renewed used x
  case dogleg =>
    intro F o c s residual used
    exact (Dogleg.renews residual o c).renewed used x
  case optimizer =>
    intro F c s value gradient used
    exact (Optimizer.renews value gradient c).renewed used x

/-- The choices of a user who changes nothing but the options. -/
def Newton.Settings.strict : Newton.Settings Float := ⟨.strict, .standard, 0, .always⟩

/-- The system `x = 0` with a residual that first calls the solver that asks for it. -/
def Solver.reentrant : Solver.Problem (Newton.Memory Float) Unit Float where
  residual x := do
    let _ ← (Newton.method PureEquations.identity.actions .strict).solve x
    ofExcept (PureEquations.identity.residual x)

/-- A solver that was refused by itself, and an optimizer after two runs. -/
theorem solves_like_new_used :
    (Newton.method Solver.reentrant .strict).Renewed (Newton.blank .strict) #[1]
      (((Newton.method Solver.reentrant .strict).solve #[2]).outcome
        (Method.unused (Newton.blank .strict) () #[])).2 ∧
    (Optimizer.method PureObjective.bowl.actions ⟨.bfgs, .standard, .strict⟩).Renewed none #[1]
      (((Optimizer.method PureObjective.bowl.actions ⟨.bfgs, .standard, .strict⟩).solve #[3]).outcome
        (((Optimizer.method PureObjective.bowl.actions ⟨.bfgs, .standard, .strict⟩).solve
          #[2, 2]).outcome (Method.unused none () #[])).2).2 := by
  obtain ⟨newton, -, -, optimizer⟩ := solves_like_new (ω := Unit) #[(1 : Float)]
  constructor
  · refine newton _ _ _ (fun z => ?_) (.solve _ (.new _ _))
    exact abreast.bind (Method.discreet_solve _ z) fun _ => discreet_ofExcept _
  · refine optimizer _ _ _ (fun z => discreet_ofExcept _) (fun g given => ?_)
      (.solve _ (.solve _ (.new _ _)))
    cases given

end Descent
