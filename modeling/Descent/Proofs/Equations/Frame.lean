/-
# Descent.Proofs.Equations.Frame — the solvers of systems keep every frame

Newton's method and its thrifty variant, fixed-point iteration and the trust-region
solver keep whatever frame the residual and the Jacobian of their system keep, and
they raise only ordinary faults besides those of the system.  `Solver.Of` is any of them.
-/
import Descent.Equations.Dogleg
import Descent.Equations.FixedPoint
import Descent.Equations.Newton
import Descent.Proofs.Iteration.Frame

namespace Descent
open Text
set_option autoImplicit false

variable {μ ω α : Type}

/-- The functions of a system stay within a relation of sessions, with faults of one kind. -/
structure Equations.Keeps {δ : Type} (R : Session δ ω α → Session δ ω α → Prop)
    (P : Fault α → Prop) (F : Equations δ ω α) : Prop where
  residual : ∀ x, Edit.Keeps R P (F.residual x)
  jacobian : ∀ J ∈ F.jacobian, ∀ x, Edit.Keeps R P (J x)

variable [Extended α]
  {R : Drive.State (SystemPoint α) (ResidualProgress α) μ ω α →
    Drive.State (SystemPoint α) (ResidualProgress α) μ ω α → Prop}
  [Drive.Backdrop R] {P : Fault α → Prop} [Fault.Broad P]

namespace Solver

variable {F : Problem μ ω α} (kept : F.Keeps R P)
include kept

omit [Fault.Broad P] in
theorem keeps_residualAt (x : Vec α) : Edit.Keeps R P (F.residualAt x) :=
  .bind (kept.residual x) fun _ => .bind (Drive.keeps_tally _) fun _ => .pure _

omit [Fault.Broad P] in
theorem keeps_evaluate (x : Vec α) : Edit.Keeps R P (evaluate F x) :=
  .bind (keeps_residualAt kept x) fun _ => .pure _

theorem keeps_jacobianAt (x : Vec α) : Edit.Keeps R P (F.jacobianAt x) := by
  have cost : Edit.Keeps R P (F.jacobianCost x) := by
    unfold Equations.jacobianCost
    cases given : F.jacobian with
    | some J => exact .bind (kept.jacobian J given x) fun _ => .pure _
    | none =>
      exact .bind ((Correspondence.keeping R P).jacobian (g := F.residual)
        (Fault.Broad.ordinary (P := P)) kept.residual x _)
        fun _ => .pure _
  exact .bind cost fun _ => .bind (Drive.keeps_tally _) fun _ => .pure _

theorem keeps_ray (frozen : Option (Shaped α)) :
    (Correspondence.keeping R P).Rays (F.ray frozen) (F.ray frozen) := by
  constructor
  · exact fun alpha => .bind (Drive.keeps_visit alpha) fun _ =>
      .bind (keeps_residualAt kept _) fun _ => Drive.keeps_ofExcept (ordinary_inner _ _)
  · intro alpha
    refine .bind (Drive.keeps_visit alpha) fun x => .bind (keeps_residualAt kept _) fun y => ?_
    have rise (J : Shaped α) : Edit.Keeps R P (do
        let s ← get
        let rise ← fit (J.product? (.ofVec s.track.direction))
        return 2.0 * (← ofExcept (y.inner rise))) :=
      .bind .get fun _ => .bind (Drive.keeps_fit _) fun _ =>
        .bind (Drive.keeps_ofExcept (ordinary_inner _ _)) fun _ => .pure _
    cases frozen with
    | some J => exact .bind (.pure J) rise
    | none => exact .bind (keeps_jacobianAt kept x) rise

omit kept in
theorem keeps_defined (direction : Vec α) :
    Edit.Keeps R P (defined direction : Action μ ω α (Vec α)) := by
  unfold defined
  split
  · exact .throw (Fault.Broad.ordinary _ trivial)
  · exact .pure _

theorem keeps_lineStep (search : LineSearch α) (verbosity : Int)
    {frozen : Action μ ω α (Option (Shaped α))} (keeps : Edit.Keeps R P frozen)
    (direction : Vec α) : Edit.Keeps R P (lineStep F search verbosity frozen direction) := by
  have searches (J : Option (Shaped α)) := (keeps_ray kept J).search Drive.keeps_report
    (Fault.Broad.ordinary (P := P)) search 1
  refine .bind Drive.keeps_now fun p => ?_
  refine .bind (Drive.keeps_shortenUndefined (keeps_residualAt kept) _ _ _ _ _) fun d => ?_
  exact .bind (Drive.keeps_turn _) fun _ => .bind (Drive.keeps_reset _ _) fun _ =>
    .bind keeps fun J => .bind (searches J) fun _ => Drive.keeps_fit _

end Solver

/-! ## Newton's method and its thrifty variant -/

namespace Newton

variable {R : Drive.State (SystemPoint α) (ResidualProgress α) (Memory α) ω α →
    Drive.State (SystemPoint α) (ResidualProgress α) (Memory α) ω α → Prop}
  [Drive.Frame R] {F : Solver.Problem (Memory α) ω α}

/-- Remembers a Jacobian and factorizes it. -/
def adopt (J : Shaped α) : Action ω α Unit := do
  Act.changeDriver fun d => { d with memory := { d.memory with jacobian := some J } }
  match ← attempt (onLinear (LinearSolver.factorize J)) with
  | .ok () => pure ()
  | .error (.singularMatrix _) => throw .singularJacobian
  | .error fault => throw fault

omit [Fault.Broad P] [Drive.Frame R] in
theorem refresh_eq (F : Solver.Problem (Memory α) ω α) : refresh F = (do
    let J ← F.jacobianAt (← Drive.now).x
    adopt J) := rfl

theorem keeps_adopt (J : Shaped α) : Edit.Keeps R P (adopt J : Action ω α Unit) := by
  have remembers : Edit.Keeps R P (Act.changeDriver fun d =>
      { d with memory := { d.memory with jacobian := some J } }) := Drive.keeps_remember _
  refine .bind remembers fun _ => ?_
  refine .recover (Drive.keeps_edit Memory.linear (fun linear m => { m with linear })
    (LinearSolver.keeps_factorize J)) (fun _ => .pure _) fun e kind => ?_
  cases e <;> first | exact .throw kind | exact .throw (Fault.Broad.ordinary _ trivial)

theorem keeps_refresh (kept : F.Keeps R P) : Edit.Keeps R P (refresh F) := by
  rw [refresh_eq]
  exact .bind Drive.keeps_now fun _ => .bind (Solver.keeps_jacobianAt kept _) keeps_adopt

theorem keeps_direction (kept : F.Keeps R P) (schedule : Schedule) :
    Edit.Keeps R P (direction F schedule) := by
  refine .bind Drive.keeps_driver fun d => ?_
  refine .optional (keeps_refresh kept) fun _ => ?_
  exact .bind Drive.keeps_driver fun _ => .bind Drive.keeps_now fun _ =>
    .bind (Drive.keeps_ofExcept (ordinary_solve _ _)) fun _ => Solver.keeps_defined _

omit [Extended α] [Fault.Broad P] in
theorem keeps_frozen {R : Drive.State (SystemPoint α) (ResidualProgress α) (Memory α) ω α →
      Drive.State (SystemPoint α) (ResidualProgress α) (Memory α) ω α → Prop}
    [IsPreorder _ R] (schedule : Schedule) :
    Edit.Keeps R P (frozen schedule : Action ω α (Option (Shaped α))) := by
  cases schedule with
  | always => exact .pure _
  | every period => exact .bind (.bind .get fun _ => .pure _) fun _ => .pure _

theorem keeps_method (kept : F.Keeps R P) (s : Settings α) : (method F s).Keeps R P where
  evaluate := Solver.keeps_evaluate kept
  prepare := Drive.keeps_remember fun _ => blank s
  step := .bind (keeps_direction kept _) fun d =>
    Solver.keeps_lineStep kept _ _ (keeps_frozen _) d
  learn := .pure _

end Newton

/-! ## Fixed-point iteration -/

namespace FixedPoint

variable {R : Drive.State (SystemPoint α) (ResidualProgress α) Unit ω α →
    Drive.State (SystemPoint α) (ResidualProgress α) Unit ω α → Prop}
  [Drive.Frame R] {F : Solver.Problem Unit ω α}

theorem keeps_method (kept : F.Keeps R P) (s : Settings α) : (method F s).Keeps R P where
  evaluate := Solver.keeps_evaluate kept
  prepare := by
    refine .bind Drive.keeps_now fun p => ?_
    dsimp only
    split
    · exact .throw (Fault.Broad.ordinary _ trivial)
    · exact .pure _
  step := .bind Drive.keeps_now fun _ => .bind (Solver.keeps_defined _) fun _ =>
    Solver.keeps_lineStep kept _ _ (.pure _) _
  learn := .pure _

end FixedPoint

/-! ## The trust-region solver -/

namespace Dogleg

variable {R : Drive.State (SystemPoint α) (ResidualProgress α) (Region α) ω α →
    Drive.State (SystemPoint α) (ResidualProgress α) (Region α) ω α → Prop}
  [Drive.Frame R] {F : Solver.Problem (Region α) ω α}

omit [Fault.Broad P] in
theorem keeps_region : Edit.Keeps R P (region : Action ω α (Region α)) :=
  .bind Drive.keeps_driver fun _ => .pure _

omit [Fault.Broad P] in
theorem keeps_reports (l : List (Log.Record α)) :
    Edit.Keeps R P (l.forM Reports.report : Action ω α PUnit) := by
  induction l with
  | nil => exact .pure _
  | cons r l ih => exact .bind (Drive.keeps_report r) fun _ => ih

theorem keeps_trial (kept : F.Keeps R P) (s : Settings α) (y : Vec α) (J : Dense α) (g : Vec α)
    (B : Dense α) : Edit.Keeps R P (trial F s y J g B) := by
  refine .bind Drive.keeps_now fun p => .bind keeps_region fun r => ?_
  refine .bind (Drive.keeps_ofExcept (ordinary_doglegStep? _ _ _)) fun _ => ?_
  refine .bind (Solver.keeps_defined _) fun p => .bind (Drive.keeps_turn _) fun _ => ?_
  refine .bind (Drive.keeps_fit _) fun x' => .bind (Solver.keeps_residualAt kept _) fun z => ?_
  refine .bind (Drive.keeps_fit _) fun z => ?_
  refine .bind (Drive.keeps_ofExcept (ordinary_decreaseRatio _ _ _ _)) fun ratio => ?_
  exact .bind (keeps_reports _) fun _ => .bind (Drive.keeps_remember _) fun _ => .pure _

theorem keeps_tries (kept : F.Keeps R P) (s : Settings α) (y : Vec α) (J : Dense α) (g : Vec α)
    (B : Dense α) (trials : Nat) (undefinedBefore : Bool) :
    Edit.Keeps R P (tries F s y J g B trials undefinedBefore) := by
  induction trials generalizing undefinedBefore with
  | zero =>
    have lost : P (.undefinedTrialsInRadius s.maxTrials) := Fault.Broad.ordinary _ trivial
    simp only [tries]
    refine .optional (.throw lost) fun _ => ?_
    exact .bind keeps_region fun _ => .bind (Drive.keeps_report _) fun _ =>
      .bind Drive.keeps_now fun _ => .pure _
  | succ trials ih =>
    refine .bind (keeps_trial kept s y J g B) fun result => ?_
    dsimp only
    split
    · exact .pure _
    · exact ih _

theorem keeps_method (kept : F.Keeps R P) (options : Options α) (s : Settings α) :
    (method F options s).Keeps R P where
  evaluate := Solver.keeps_evaluate kept
  prepare := Drive.keeps_remember fun _ => blank s
  step := by
    refine .bind Drive.keeps_now fun p => .bind (Solver.keeps_jacobianAt kept _) fun J => ?_
    split
    · refine .bind (Drive.keeps_fit _) fun g => ?_
      split
      · exact .pure _
      · exact .bind (Drive.keeps_fit _) fun _ => keeps_tries kept _ _ _ _ _ _ _
    · exact Drive.keeps_ofExcept (ordinary_unmoved _ _ _ _)
  learn := .pure _

end Dogleg

/-! ## All solvers -/

/-- The solvers of a system: Newton's method and its thrifty variant, fixed-point iteration and the
trust-region solver. -/
inductive Solver.Of : {μ : Type} → Solver.Problem μ ω α → Solver μ ω α → Prop
  | newton (F : Solver.Problem (Newton.Memory α) ω α) (c : Newton.Settings α) :
      Of F (Newton.method F c)
  | fixedPoint (F : Solver.Problem Unit ω α) (c : FixedPoint.Settings α) :
      Of F (FixedPoint.method F c)
  | dogleg (F : Solver.Problem (Dogleg.Region α) ω α) (o : Options α) (c : Dogleg.Settings α) :
      Of F (Dogleg.method F o c)

namespace Solver

variable {F : Problem μ ω α} {M : Solver μ ω α}

theorem Of.evaluate (of : Of F M) : Method.evaluate M = Solver.evaluate F := by
  cases of <;> rfl

theorem Of.keeps (of : Of F M)
    {R : Drive.State (SystemPoint α) (ResidualProgress α) μ ω α →
      Drive.State (SystemPoint α) (ResidualProgress α) μ ω α → Prop} [Drive.Frame R]
    (kept : F.Keeps R P) : M.Keeps R P := by
  cases of with
  | newton F c => exact Newton.keeps_method kept c
  | fixedPoint F c => exact FixedPoint.keeps_method kept c
  | dogleg F o c => exact Dogleg.keeps_method kept o c

end Solver

end Descent
