/-
# Descent.Proofs.Objective.Ledger — the optimizer settles what evaluations settle

The optimizer calls the functions of its objective by counted evaluations only.  A ledger
that every evaluation settles is settled by every step that returns, whatever the kind of
Hessian and the line search.
-/
import Descent.Objective.Optimizer
import Descent.Proofs.Iteration.Ledger

namespace Descent
set_option autoImplicit false

variable {ω α : Type} [Extended α]

/-- The evaluations of an objective settle a relation of sessions; values do so where they fail with a
bracketing fault as well. -/
structure Objective.Settles {δ : Type} (R : Session δ ω α → Session δ ω α → Prop)
    (F : Objective δ ω α) : Prop where
  value : ∀ x, Edit.Settles R (fun e => e.isBracketing = true) (F.valueAt x)
  gradient : ∀ x, Edit.Settles R (fun _ => False) (F.gradientAt x)
  hessian : ∀ x, Edit.Settles R (fun _ => False) (F.hessianAt x)

namespace Optimizer

variable {F : Problem ω α}
  {R : Drive.State (ObjectivePoint α) (ObjectiveProgress α) (Memory α) ω α →
    Drive.State (ObjectivePoint α) (ObjectiveProgress α) (Memory α) ω α → Prop} [Act.Ledger R]

/-! ## Estimates -/

theorem settles_prepare (kind : HessianKind) :
    Edit.Settles R (fun _ => False) (prepare kind : Action ω α Unit) := by
  unfold prepare
  split
  · exact Drive.settles_remember fun _ => none
  · exact .bind Drive.settles_now fun _ => .bind (.ofExcept _) fun h =>
      Drive.settles_remember fun _ => some h

theorem settles_estimated (h : InverseHessian α) (g : Shaped α) :
    Edit.Settles R (fun _ => False) (estimated h g : Action ω α (Vec α)) := by
  refine .bind (.ofExcept _) fun direction => .bind (.ofExcept _) fun slope => ?_
  split
  · exact .bind (Drive.settles_report _) fun _ =>
      .bind (Drive.settles_remember fun _ => some h.reset) fun _ => .bind (.ofExcept _) fun _ =>
        .pure _
  · exact .pure _

theorem settles_learn : Edit.Settles R (fun _ => False) (learn : Action ω α Unit) := by
  have drives : Edit.Settles R (fun _ => False)
      (Act.driver : Action ω α (Drive _ _ (Memory α) α)) :=
    .of_keeps (P := fun _ => True) Act.keeps_driver
  refine .bind drives fun d => ?_
  split
  · exact .pure _
  · rename_i h _
    refine .bind drives fun d => .bind (.fit _) fun dx => .bind (.fit _) fun dg => ?_
    have learns : Edit.Settles R (fun _ => False)
        (h.learn (.ofVec dx) dg : Action ω α (InverseHessian α × Bool)) := by
      refine .bind (.ofExcept _) fun updated => ?_
      split
      · exact .pure _
      · exact .bind (Drive.settles_report _) fun _ => .pure _
    exact .bind learns fun learned => Drive.settles_remember fun _ => some learned.1

/-! ## Steps -/

variable (settles : F.Settles R)
include settles

omit [Act.Ledger R] in
theorem settles_valueAt (x : Vec α) : Edit.Settles R (fun _ => False) (F.valueAt x) :=
  (settles.value x).mono nofun

theorem settles_evaluate (x : Vec α) : Edit.Settles R (fun _ => False) (evaluate F x) :=
  .bind (settles_valueAt settles x) fun _ => .bind (settles.gradient x) fun _ => .pure _

theorem settles_direction (p : ObjectivePoint α) :
    Edit.Settles R (fun _ => False) (direction F p) := by
  have checks (d : Vec α) : Edit.Settles R (fun _ => False) (do
      if d.hasNaN then throw .undefinedDirection
      return d : Action ω α (Vec α)) := by
    split
    · exact .of_keeps (P := fun _ => True) (.abort trivial)
    · exact .pure _
  have solves : Edit.Settles R (fun _ => False) (exact F p) := by
    refine .bind (settles.hessian _) fun H => ?_
    split
    split
    · exact .ofExcept _
    · exact .throw _
    · exact .throw _
  refine .bind (.of_keeps (P := fun _ => True) Act.keeps_driver) fun d => ?_
  dsimp only
  split
  · exact .bind (settles_estimated _ _) checks
  · exact .bind solves checks

theorem settles_search (c : LineSearch α) (alpha₀ : α) :
    Edit.Settles R (fun _ => False) (c.search F.ray alpha₀) := by
  have visits {E : Fault α → Prop} (alpha : α) :
      Edit.Settles R E (Act.onTrack (Track.visit alpha) : Action ω α (Vec α)) :=
    .of_keeps (Act.keeps_onTrack _)
  exact Edit.Settles.search (fun alpha => .bind (visits alpha) fun x => settles.value x)
    (fun alpha => .bind (visits alpha) fun x => .bind (settles.gradient x) fun _ =>
      .bind .get fun _ => .ofExcept _) Drive.settles_report alpha₀

theorem settles_method (c : Settings α) : (method F c).Settles R where
  evaluate := settles_evaluate settles
  prepare := settles_prepare c.hessian
  step := by
    have value (x : Vec α) : Edit.Settles R (fun _ => False)
        (do return .ofNumber (← F.valueAt x) : Action ω α (Shaped α)) :=
      .bind (settles_valueAt settles x) fun _ => .pure _
    refine .bind Drive.settles_now fun p => .bind (settles_direction settles p) fun d => ?_
    refine .bind (.shortenUndefined value Drive.settles_report _ _ _ _ _) fun d => ?_
    exact .bind (.of_keeps (Act.keeps_edit _ _ _)) fun _ =>
      .bind (.of_keeps (Act.keeps_onTrack _)) fun _ =>
        .bind (settles_search settles c.search 1) fun _ => .fit _
  learn := settles_learn

end Optimizer

end Descent
