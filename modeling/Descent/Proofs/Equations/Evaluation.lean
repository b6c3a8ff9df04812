/-
# Descent.Proofs.Equations.Evaluation — residuals and Jacobians of plain functions

A system of plain functions has the same residual and the same Jacobian in every
session.  The Jacobian may be one by central differences, which are as plain as the
residuals.  What an evaluation leaves behind is its cost.
-/
import Descent.Proofs.Equations.Coherence

namespace Descent
set_option autoImplicit false

namespace Evaluations

theorem add_assoc (a b c : Evaluations) : a + b + c = a + (b + c) :=
  (Evaluations.mk.injEq ..).mpr ⟨Nat.add_assoc .., Nat.add_assoc .., Nat.add_assoc ..⟩

theorem add_values (m n : Nat) : ({ values := m } + { values := n } : Evaluations) =
    { values := m + n } := rfl

end Evaluations

variable {α : Type}

namespace PureEquations

theorem residual_of_pointAt {G : PureEquations α} {x : Vec α} {p : SystemPoint α}
    (value : G.pointAt x = .ok p) : G.residual x = .ok p.y := by
  obtain ⟨w, there, returned⟩ := bind_eq_ok.1 value
  cases returned
  exact there

/-- The Jacobian, known or by central differences. -/
def derivative [Scalar α] (G : PureEquations α) (x : Vec α) : Except (Fault α) (Shaped α) :=
  match G.jacobian with
  | some jacobian => jacobian x
  | none => return (← Differences.jacobian G.residual x 1e-6).1

variable {δ ω : Type} {G : PureEquations α} (x : Vec α) (s : Session δ ω α)

/-- An evaluation of the residual is counted if it returns. -/
theorem outcome_residualAt :
    (G.actions.residualAt x).outcome s =
      (G.residual x, match G.residual x with
        | .ok _ => { s with count := s.count + { values := 1 } }
        | .error _ => s) := by
  rw [Equations.residualAt, Edit.outcome_bind, actions, Edit.outcome_ofExcept]
  cases G.residual x <;> rfl

/-- A point that is evaluated costs one residual. -/
theorem after_evaluated {μ : Type} [Extended α] {G : PureEquations α} {x : Vec α} {p : SystemPoint α}
    {s t : Drive.State (SystemPoint α) (ResidualProgress α) μ ω α}
    (evaluated : (Solver.evaluate G.actions x).outcome s = (.ok p, t)) :
    t = { s with count := s.count + { values := 1 } } := by
  obtain ⟨y, u, there, returned⟩ := Edit.outcome_bind_ok.1 evaluated
  cases returned
  rw [G.outcome_residualAt] at there
  obtain ⟨value, rfl⟩ := Prod.mk.inj there
  rw [value]

theorem plain_residualAt : ∃ cost, ∀ δ ω : Type,
    (G.actions.residualAt x : Act δ ω α _).Plain (G.residual x) cost := by
  cases value : G.residual x with
  | error e => exact ⟨{}, fun δ ω s => by rw [G.outcome_residualAt, value]; rfl⟩
  | ok y => exact ⟨{ values := 1 }, fun δ ω s => by rw [G.outcome_residualAt, value]⟩

theorem plain_evaluate {α : Type} [Extended α] {G : PureEquations α} (x : Vec α) :
    ∃ cost, ∀ μ ω : Type, (Solver.evaluate G.actions x : Solver.Action μ ω α _).Plain
      (G.pointAt x) cost := by
  obtain ⟨cost, plain⟩ := G.plain_residualAt x
  refine ⟨cost, fun μ ω s => ?_⟩
  rw [Solver.evaluate, Edit.outcome_bind, plain, pointAt]
  cases G.residual x <;> rfl

variable [Scalar α]

/-- The Jacobian and what it costs, known or by central differences. -/
def derivativeCost (G : PureEquations α) (x : Vec α) : Except (Fault α) (Shaped α × Evaluations) :=
  match G.jacobian with
  | some jacobian => return (← jacobian x, { first := 1 })
  | none => do
    let (J, evaluations) ← Differences.jacobian G.residual x 1e-6
    return (J, { values := evaluations })

theorem derivative_eq : G.derivative x = G.derivativeCost x >>= fun p => pure p.1 := by
  unfold derivative derivativeCost
  cases G.jacobian with
  | some J => simp only [bind_assoc, pure_bind, bind_pure]
  | none => simp only [bind_assoc, pure_bind]

theorem outcome_jacobianCost : (G.actions.jacobianCost x).outcome s = (G.derivativeCost x, s) := by
  let C := Correspondence.within (α := α) (· = s)
  have same : C.Rel (G.derivativeCost x) (G.actions.jacobianCost x) := by
    unfold derivativeCost Equations.jacobianCost
    cases known : G.jacobian with
    | some J =>
      simp only [actions, known, Option.map_some]
      exact C.bind (Correspondence.within_ofExcept _) fun A => C.pure _
    | none =>
      simp only [actions, known, Option.map_none]
      exact C.bind (C.jacobian (fun _ _ => trivial)
        (fun z => Correspondence.within_ofExcept (G.residual z)) x 1e-6) fun p => C.pure _
  obtain ⟨result, still⟩ := same s rfl
  exact Prod.ext result still

/-- No residuals are evaluated for a known Jacobian. -/
theorem plain_jacobianAt : ∃ cost, (G.jacobian ≠ none → cost.values = 0) ∧
    ∀ δ ω : Type, (G.actions.jacobianAt x : Act δ ω α _).Plain (G.derivative x) cost := by
  refine ⟨match G.derivativeCost x with | .ok p => p.2 | .error _ => {}, fun known => ?_,
    fun δ ω s => ?_⟩
  · obtain ⟨J, known⟩ := Option.ne_none_iff_exists'.1 known
    simp only [derivativeCost, known]
    cases J x <;> rfl
  · rw [Equations.jacobianAt, Act.counted, Edit.outcome_bind, outcome_jacobianCost, derivative_eq]
    cases G.derivativeCost x <;> rfl

section
variable {I : Session δ ω α → Prop} (counted : ∀ s count, I s → I { s with count })
include counted

omit [Scalar α] in
theorem rel_residualAt : (Correspondence.within I).Rel (G.residual x) (G.actions.residualAt x) := by
  obtain ⟨cost, plain⟩ := G.plain_residualAt x
  exact Correspondence.within_plain counted (plain δ ω)

theorem rel_jacobianAt : (Correspondence.within I).Rel (G.derivative x) (G.actions.jacobianAt x) := by
  obtain ⟨cost, -, plain⟩ := G.plain_jacobianAt x
  exact Correspondence.within_plain counted (plain δ ω)

end

theorem result_of_jacobianAt : ((G.actions.jacobianAt x).outcome s).1 = G.derivative x := by
  obtain ⟨cost, -, plain⟩ := G.plain_jacobianAt x
  rw [plain δ ω]

/-- A known Jacobian counts as one first derivative. -/
theorem count_of_jacobianAt {J : Vec α → Except (Fault α) (Shaped α)} {A : Shaped α}
    {s t : Session δ ω α} (known : G.jacobian = some J)
    (evaluated : (G.actions.jacobianAt x).outcome s = (.ok A, t)) :
    t.count = s.count + { first := 1 } := by
  rw [Equations.jacobianAt, Act.counted, Edit.outcome_bind, outcome_jacobianCost, derivativeCost,
    known] at evaluated
  dsimp only at evaluated
  cases there : J x with
  | error e =>
    rw [there] at evaluated
    cases evaluated
  | ok A =>
    rw [there] at evaluated
    cases evaluated
    rfl

end PureEquations

end Descent
