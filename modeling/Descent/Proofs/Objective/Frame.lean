/-
# Descent.Proofs.Objective.Frame — the optimizer keeps every frame

The optimizer keeps whatever frame the value, the gradient and the Hessian of its
objective keep, and it raises only ordinary faults besides those of the objective.
-/
import Descent.Objective.Optimizer
import Descent.Proofs.Iteration.Frame

namespace Descent
open Text
set_option autoImplicit false

variable {ω α : Type}

/-- The functions of an objective stay within a relation of sessions, with faults of one kind. -/
structure Objective.Keeps {δ : Type} (R : Session δ ω α → Session δ ω α → Prop)
    (P : Fault α → Prop) (F : Objective δ ω α) : Prop where
  value : ∀ x, Edit.Keeps R P (F.value x)
  gradient : ∀ g ∈ F.gradient, ∀ x, Edit.Keeps R P (g x)
  hessian : ∀ H ∈ F.hessian, ∀ x, Edit.Keeps R P (H x)

namespace Optimizer

variable [Extended α]
  {R : Drive.State (ObjectivePoint α) (ObjectiveProgress α) (Memory α) ω α →
    Drive.State (ObjectivePoint α) (ObjectiveProgress α) (Memory α) ω α → Prop}
  {P : Fault α → Prop} [Fault.Broad P] {F : Problem ω α}

/-! ## Values and derivatives -/

section
variable [Drive.Backdrop R] (kept : F.Keeps R P)
include kept

omit [Fault.Broad P] in
theorem keeps_valueAt (x : Vec α) : Edit.Keeps R P (F.valueAt x) :=
  .bind (Drive.keeps_tally _) fun _ => kept.value x

omit [Fault.Broad P] in
theorem keeps_shown (x : Vec α) :
    Edit.Keeps R P (do return .ofNumber (← F.valueAt x) : Action ω α (Shaped α)) :=
  .bind (keeps_valueAt kept x) fun _ => .pure _

theorem keeps_gradientAt (x : Vec α) : Edit.Keeps R P (F.gradientAt x) := by
  have cost : Edit.Keeps R P (F.gradientCost x) := by
    unfold Objective.gradientCost
    cases given : F.gradient with
    | some g => exact .bind (kept.gradient g given x) fun _ => .pure _
    | none =>
      exact .bind ((Correspondence.keeping R P).gradient (g := F.value)
        (Fault.Broad.ordinary (P := P)) kept.value x _) fun _ => .pure _
  exact .bind cost fun _ => .bind (Drive.keeps_tally _) fun _ => .pure _

theorem keeps_hessianAt (x : Vec α) : Edit.Keeps R P (F.hessianAt x) := by
  have cost : Edit.Keeps R P (F.hessianCost x) := by
    unfold Objective.hessianCost
    cases given : F.hessian with
    | some H => exact .bind (kept.hessian H given x) fun _ => .pure _
    | none =>
      exact .bind ((Correspondence.keeping R P).hessian (g := F.value)
        (Fault.Broad.ordinary (P := P)) kept.value x _) fun _ => .pure _
  exact .bind cost fun _ => .bind (Drive.keeps_tally _) fun _ => .pure _

theorem keeps_ray : (Correspondence.keeping R P).Rays F.ray F.ray where
  value alpha := .bind (Drive.keeps_visit alpha) fun _ => keeps_valueAt kept _
  slope alpha := .bind (Drive.keeps_visit alpha) fun _ => .bind (keeps_gradientAt kept _) fun _ =>
    .bind .get fun _ => Drive.keeps_ofExcept (ordinary_inner _ _)

theorem keeps_evaluate (x : Vec α) : Edit.Keeps R P (evaluate F x) :=
  .bind (keeps_valueAt kept x) fun _ => .bind (keeps_gradientAt kept x) fun _ => .pure _

theorem keeps_exact (p : ObjectivePoint α) : Edit.Keeps R P (exact F p) := by
  refine .bind (keeps_hessianAt kept _) fun H => ?_
  have kind := (LinearSolver.keeps_factorize (P := P) H).fault { tolerance := 0 }
  split
  rename_i factorized solver ran
  rw [Edit.outcome, ran] at kind
  split
  · exact Drive.keeps_ofExcept (ordinary_solve _ _)
  · exact .throw (Fault.Broad.ordinary _ trivial)
  · exact .throw (kind _ rfl)

end

/-! ## Steps -/

section
variable [Drive.Frame R]

omit [Fault.Broad P] in
theorem keeps_remember (memory : Memory α) : Edit.Keeps R P (remember memory : Action ω α Unit) :=
  Drive.keeps_remember fun _ => memory

theorem keeps_prepare (kind : HessianKind) : Edit.Keeps R P (prepare kind : Action ω α Unit) := by
  unfold prepare
  split
  · exact keeps_remember _
  · exact .bind Drive.keeps_now fun _ => .bind (Drive.keeps_ofExcept (ordinary_new _ _)) fun _ =>
      keeps_remember _

theorem keeps_estimated (h : InverseHessian α) (g : Shaped α) :
    Edit.Keeps R P (estimated h g : Action ω α (Vec α)) := by
  have directs (h : InverseHessian α) : Edit.Keeps R P
      (ofExcept (h.direction g) : Action ω α (Shaped α)) :=
    Drive.keeps_ofExcept (ordinary_direction h g)
  refine .bind (directs h) fun direction => ?_
  refine .bind (Drive.keeps_ofExcept (ordinary_inner _ _)) fun slope => ?_
  split
  · exact .bind (Drive.keeps_report _) fun _ => .bind (keeps_remember _) fun _ =>
      .bind (directs h.reset) fun _ => .pure _
  · exact .pure _

theorem keeps_direction (kept : F.Keeps R P) (p : ObjectivePoint α) :
    Edit.Keeps R P (direction F p) := by
  have checks (d : Vec α) : Edit.Keeps R P (do
      if d.hasNaN then throw .undefinedDirection
      return d : Action ω α (Vec α)) := by
    have undefined : P .undefinedDirection := Fault.Broad.ordinary _ trivial
    exact .optional (.throw undefined) fun _ => .pure _
  refine .bind Drive.keeps_driver fun d => ?_
  dsimp only
  split
  · exact .bind (keeps_estimated _ _) checks
  · exact .bind (keeps_exact kept p) checks

theorem keeps_step (kept : F.Keeps R P) (s : Settings α) : Edit.Keeps R P (step F s) := by
  have searches := (keeps_ray kept).search Drive.keeps_report (Fault.Broad.ordinary (P := P))
    s.search 1
  refine .bind Drive.keeps_now fun p => .bind (keeps_direction kept p) fun d => ?_
  refine .bind (Drive.keeps_shortenUndefined (keeps_shown kept) _ _ _ _ _) fun d => ?_
  exact .bind (Drive.keeps_turn _) fun _ => .bind (Drive.keeps_reset _ _) fun _ =>
    .bind searches fun _ => Drive.keeps_fit _

theorem keeps_learn : Edit.Keeps R P (learn : Action ω α Unit) := by
  refine .bind Drive.keeps_driver fun d => ?_
  split
  · exact .pure _
  · rename_i h _
    refine .bind Drive.keeps_driver fun d => .bind (Drive.keeps_fit _) fun dx => ?_
    refine .bind (Drive.keeps_fit _) fun dg => ?_
    have learns : Edit.Keeps R P (h.learn (.ofVec dx) dg : Action ω α (InverseHessian α × Bool)) := by
      refine .bind (Drive.keeps_ofExcept (ordinary_update _ _ _ _)) fun updated => ?_
      split
      · exact .pure _
      · exact .bind (Drive.keeps_report _) fun _ => .pure _
    exact .bind learns fun _ => keeps_remember _

theorem keeps_method (kept : F.Keeps R P) (s : Settings α) : (method F s).Keeps R P where
  evaluate := keeps_evaluate kept
  prepare := keeps_prepare s.hessian
  step := keeps_step kept s
  learn := keeps_learn

end

end Optimizer

end Descent
