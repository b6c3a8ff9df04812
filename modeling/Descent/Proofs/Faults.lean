/-
# Descent.Proofs.Faults — what a computation can fail with

Only a driver says that its run diverged.  All the faults of arithmetic, of arrays
that do not fit, of linear systems, of updates and of steps within a radius are
`Ordinary`: they say nothing about a run.
-/
import Descent.Equations.Dogleg
import Descent.InverseHessian
import Descent.Linear.Solver
import Descent.LineSearch.Policy
import Descent.Proofs.Effects

namespace Descent
set_option autoImplicit false

/-- The fault is not the verdict that a run diverged. -/
def Fault.Ordinary {α : Type} : Fault α → Prop
  | .diverged .. => False
  | _ => True

/-- A kind of faults that has all the ordinary ones. -/
class Fault.Broad {α : Type} (P : Fault α → Prop) : Prop where
  ordinary : ∀ e : Fault α, e.Ordinary → P e

instance {α : Type} : Fault.Broad fun _ : Fault α => True := ⟨fun _ _ => trivial⟩

instance {α : Type} (Q : Fault α → Prop) : Fault.Broad fun e => e.Ordinary ∨ Q e :=
  ⟨fun _ ordinary => .inl ordinary⟩

section
variable {α β : Type}

theorem ordinary_ite {c : Prop} [Decidable c] {e e' : Fault α} (holds : e.Ordinary)
    (fails : e'.Ordinary) : (if c then e else e').Ordinary := by
  split
  · exact holds
  · exact fails

theorem ordinary_fit (b : Option β) :
    Fault.Only Fault.Ordinary (fit b : Except (Fault α) β) := by
  cases b with
  | none => exact .error trivial
  | some b => exact .ok b

theorem ordinary_number (A : Shaped α) : Fault.Only Fault.Ordinary A.number := by
  unfold Shaped.number
  split
  · exact .ok _
  · exact .error trivial

theorem ordinary_room (entries : Nat) :
    Fault.Only Fault.Ordinary (Shaped.room entries : Except (Fault α) Unit) := by
  unfold Shaped.room
  exact .ite (.error trivial) (.ite (.error trivial) (.ok _))

end

section
variable {α : Type} [Scalar α]

theorem ordinary_quotient (x y : α) : Fault.Only Fault.Ordinary (quotient x y) := by
  unfold quotient
  exact .ite (.error trivial) (.ok _)

theorem ordinary_square (x : α) : Fault.Only Fault.Ordinary (square x) := by
  unfold square
  exact .ite (.error trivial) (.ok _)

theorem ordinary_inner (A B : Shaped α) : Fault.Only Fault.Ordinary (A.inner B) :=
  (ordinary_fit _).bind fun _ _ => ordinary_number _

theorem ordinary_march (march : March α) : Fault.Only Fault.Ordinary march.check := by
  unfold March.check
  exact .ite (.error trivial) (.ite (.error trivial) (.ite (.error trivial) (.ok _)))

theorem ordinary_trial (b : LineSearch.Bracket α) (sigma0 sigma1 : α) :
    Fault.Only Fault.Ordinary (b.trial sigma0 sigma1) :=
  (ordinary_square _).bind fun _ _ => (ordinary_quotient _ _).bind fun _ _ => .ok _

theorem ordinary_vertex (t values : Triple α) (eps : α) :
    Fault.Only Fault.Ordinary (t.vertex values eps) := by
  have placed : Fault.Only Fault.Ordinary (Triple.stationary t values) := by
    exact (ordinary_square _).bind fun _ _ => (ordinary_square _).bind fun _ _ =>
      (ordinary_square _).bind fun _ _ => .ite (.ok _) (.ok _)
  refine placed.bind fun x _ => ?_
  cases x <;> exact .ok _

theorem ordinary_spacing (eps : α) : Fault.Only Fault.Ordinary (Differences.check eps) := by
  unfold Differences.check
  exact .ite (.error trivial) (.ok _)

/-! ## Linear systems and updates -/

theorem ordinary_solve (s : LinearSolver α) (b : Shaped α) :
    Fault.Only Fault.Ordinary (s.solve b) := by
  unfold LinearSolver.solve
  split
  · exact .error trivial
  · split
    · exact .error trivial
    · split
      · exact .ok _
      · exact .error trivial

theorem LinearSolver.keeps_factorize {P : Fault α → Prop} [Fault.Broad P] (J : Shaped α) :
    Edit.Keeps (Edit.Unchanged fun _ => ()) P (factorize J) := by
  unfold factorize
  split
  · exact .throw (Fault.Broad.ordinary _ trivial)
  · refine .bind (.change fun _ => rfl) fun _ => .bind .get fun s => ?_
    split
    · exact .throw (Fault.Broad.ordinary _ trivial)
    · exact .change fun _ => rfl

theorem ordinary_correct (rule : UpdateRule) {n : Nat} (Q : Mat n n α) (dx dg : Vector α n) :
    Fault.Only Fault.Ordinary (rule.correct Q dx dg) := by
  cases rule with
  | bfgs =>
    have step : Fault.Only Fault.Ordinary (UpdateRule.bfgsStep Q dx dg) :=
      (ordinary_quotient _ _).bind fun _ _ => .ok _
    exact step.bind fun _ _ => .ok _
  | dfp =>
    exact .ite (.ok _) (.ok _)

theorem ordinary_update (rule : UpdateRule) (Q dx dg : Shaped α) :
    Fault.Only Fault.Ordinary (rule.update? Q dx dg) := by
  have misfits : Fault.Ordinary (rule.misfit Q dx dg) := ordinary_ite trivial trivial
  refine (ordinary_fit _).bind fun product _ => (ordinary_number product).bind fun _ _ => ?_
  dsimp only
  split
  · refine .ite (.ok _) ?_
    split
    · exact (ordinary_correct _ _ _ _).bind fun _ _ => .ok _
    · exact .error misfits
  · exact .error trivial

theorem ordinary_new (rule : UpdateRule) (dim : Int) :
    Fault.Only Fault.Ordinary
      (InverseHessian.new rule dim : Except (Fault α) (InverseHessian α)) := by
  exact .ite ((Fault.Only.error trivial).bind fun _ _ => (ordinary_room _).bind fun _ _ => .ok _)
    ((ordinary_room _).bind fun _ _ => .ok _)

theorem ordinary_direction (h : InverseHessian α) (g : Shaped α) :
    Fault.Only Fault.Ordinary (h.direction g) :=
  (ordinary_fit _).bind fun _ _ => .ok _

/-! ## Steps within a radius -/

section
open Dogleg
variable {n : Nat}

theorem ordinary_cauchyStep (g : Vector α n) (B : Mat n n α) (radius : α) :
    Fault.Only Fault.Ordinary (cauchyStep g B radius) :=
  .ite (.ok _) (.ite (.ok _) ((ordinary_square _).bind fun _ _ => .ok _))

theorem ordinary_crossing (p q : Vector α n) (radius : α) :
    Fault.Only Fault.Ordinary (crossing p q radius) :=
  .ite (.ok _) ((ordinary_square _).bind fun _ _ => .ok _)

theorem ordinary_misfit (g B : Shaped α) : Fault.Ordinary (misfit g B) := by
  unfold misfit
  split
  · trivial
  · exact ordinary_ite (ordinary_ite trivial trivial) trivial

theorem ordinary_doglegStep (g : Vector α n) (B : Mat n n α) (radius : α) :
    Fault.Only Fault.Ordinary (doglegStep g B radius) := by
  have cut (p : Vector α n) : Fault.Only Fault.Ordinary (do
      return scale (← quotient radius (norm p)) p) :=
    (ordinary_quotient _ _).bind fun _ _ => .ok _
  refine .ite (.ok _) ?_
  dsimp only
  generalize fullStep? g B = full
  cases full with
  | none => exact (ordinary_cauchyStep g B radius).bind fun p _ => .ite (cut p) (.ok _)
  | some q =>
    refine .ite (.ok _) ?_
    exact (ordinary_cauchyStep g B radius).bind fun p _ => .ite (cut p) (ordinary_crossing p q radius)

theorem ordinary_doglegStep? (g : Vec α) (B : Dense α) (radius : α) :
    Fault.Only Fault.Ordinary (doglegStep? g B radius) := by
  refine .ite (.ok _) ?_
  split
  · exact .error (ordinary_misfit _ _)
  · exact (ordinary_doglegStep _ _ _).bind fun _ _ => .ok _

end

end

section
open Dogleg
variable {α : Type} [Extended α]

theorem ordinary_decreaseRatio (y z : Vec α) (J : Dense α) (p : Vec α) :
    Fault.Only Fault.Ordinary (decreaseRatio y z J p) :=
  .ite (.ok _) ((ordinary_fit _).bind fun _ _ => (ordinary_fit _).bind fun _ _ =>
    .ite (.ok _) (.ok _))

theorem ordinary_unmoved (x : Vec α) (y J : Shaped α) (s : Settings α) :
    Fault.Only Fault.Ordinary (unmoved x y J s) :=
  (ordinary_fit _).bind fun _ _ => .ite (.ok _) ((ordinary_fit _).bind fun _ _ =>
    (ordinary_fit _).bind fun _ _ => .error (ordinary_misfit _ _))

end

end Descent
