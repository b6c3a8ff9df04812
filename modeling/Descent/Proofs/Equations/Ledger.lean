/-
# Descent.Proofs.Equations.Ledger — the solvers settle what evaluations settle

Newton's method and its thrifty variant, fixed-point iteration and the trust-region
solver call the functions of their system by counted evaluations only.  A ledger that
every evaluation settles is settled by every step that returns, whatever the line search.
-/
import Descent.Proofs.Equations.Frame
import Descent.Proofs.Iteration.Ledger

namespace Descent
set_option autoImplicit false

variable {μ ω α : Type} [Extended α]

/-- The evaluations of a system settle a relation of sessions; residuals do so where they fail with a
bracketing fault as well. -/
structure Equations.Settles {δ : Type} (R : Session δ ω α → Session δ ω α → Prop)
    (F : Equations δ ω α) : Prop where
  residual : ∀ x, Edit.Settles R (fun e => e.isBracketing = true) (F.residualAt x)
  jacobian : ∀ x, Edit.Settles R (fun _ => False) (F.jacobianAt x)

/-! ## Steps along a line -/

namespace Solver

variable {F : Problem μ ω α}
  {R : Drive.State (SystemPoint α) (ResidualProgress α) μ ω α →
    Drive.State (SystemPoint α) (ResidualProgress α) μ ω α → Prop} [Act.Ledger R]
  {E : Fault α → Prop}

theorem settles_defined (direction : Vec α) :
    Edit.Settles R E (defined direction : Action μ ω α (Vec α)) := by
  unfold defined
  split
  · exact .throw _
  · exact .pure _

variable (settles : F.Settles R)
include settles

omit [Act.Ledger R] in
theorem settles_residualAt (x : Vec α) : Edit.Settles R (fun _ => False) (F.residualAt x) :=
  (settles.residual x).mono nofun

theorem settles_evaluate (x : Vec α) : Edit.Settles R (fun _ => False) (evaluate F x) :=
  .bind (settles_residualAt settles x) fun _ => .pure _

theorem settles_search (search : LineSearch α) (frozen : Option (Shaped α)) (alpha₀ : α) :
    Edit.Settles R (fun _ => False) (search.search (F.ray frozen) alpha₀) := by
  have visits {E : Fault α → Prop} (alpha : α) :
      Edit.Settles R E (Act.onTrack (Track.visit alpha) : Action μ ω α (Vec α)) :=
    .of_keeps (Act.keeps_onTrack _)
  refine Edit.Settles.search (fun alpha => ?_) (fun alpha => ?_) Drive.settles_report alpha₀
  · exact .bind (visits alpha) fun x => .bind (settles.residual x) fun _ => .ofExcept _
  · refine .bind (visits alpha) fun x => .bind (settles_residualAt settles x) fun y => ?_
    have rise (J : Shaped α) : Edit.Settles R (fun _ => False) (do
        let s ← get
        let rise ← fit (J.product? (.ofVec s.track.direction))
        return 2.0 * (← ofExcept (y.inner rise)) : Action μ ω α α) :=
      .bind .get fun _ => .bind (.fit _) fun _ => .bind (.ofExcept _) fun _ => .pure _
    cases frozen with
    | some J => exact .bind (.pure J) rise
    | none => exact .bind (settles.jacobian x) rise

theorem settles_lineStep (search : LineSearch α) (verbosity : Int)
    {frozen : Action μ ω α (Option (Shaped α))}
    (freezes : Edit.Settles R (fun _ => False) frozen) (direction : Vec α) :
    Edit.Settles R (fun _ => False) (lineStep F search verbosity frozen direction) := by
  refine .bind Drive.settles_now fun p => ?_
  refine .bind (.shortenUndefined (settles_residualAt settles) Drive.settles_report _ _ _ _ _) fun d => ?_
  exact .bind (.of_keeps (Act.keeps_edit _ _ _)) fun _ => .bind (.of_keeps (Act.keeps_onTrack _))
    fun _ => .bind freezes fun J => .bind (settles_search settles search J 1) fun _ => .fit _

end Solver

/-! ## The solvers -/

namespace Newton

variable {F : Solver.Problem (Memory α) ω α}
  {R : Drive.State (SystemPoint α) (ResidualProgress α) (Memory α) ω α →
    Drive.State (SystemPoint α) (ResidualProgress α) (Memory α) ω α → Prop} [Act.Ledger R]

theorem settles_refresh (settles : F.Settles R) : Edit.Settles R (fun _ => False) (refresh F) := by
  refine .bind Drive.settles_now fun p => .bind (settles.jacobian _) fun J => ?_
  refine .bind (Drive.settles_remember _) fun _ => .recover (Act.keeps_edit _ _ _) fun r => ?_
  split
  · exact .pure _
  · exact .throw _
  · exact .throw _

theorem settles_method (settles : F.Settles R) (c : Settings α) : (method F c).Settles R where
  evaluate := Solver.settles_evaluate settles
  prepare := Drive.settles_remember fun _ => blank c
  step := by
    have drives {E : Fault α → Prop} :
        Edit.Settles R E (Act.driver : Action ω α (Drive _ _ (Memory α) α)) :=
      .of_keeps (P := fun _ => True) Act.keeps_driver
    have directs : Edit.Settles R (fun _ => False) (direction F c.schedule) := by
      refine .bind drives fun d => ?_
      have solves : Edit.Settles R (fun _ => False) (do
          Solver.defined (← ofExcept ((← Act.driver).memory.linear.solve (← Drive.now).y.neg)) :
          Action ω α (Vec α)) :=
        .bind drives fun _ => .bind Drive.settles_now fun _ => .bind (.ofExcept _) fun _ =>
          Solver.settles_defined _
      dsimp only
      split
      · exact .bind (settles_refresh settles) fun _ => solves
      · exact solves
    have freezes : Edit.Settles R (fun _ => False)
        (frozen c.schedule : Action ω α (Option (Shaped α))) := by
      unfold frozen
      split
      · exact .pure _
      · exact .bind drives fun _ => .pure _
    exact .bind directs fun d => Solver.settles_lineStep settles _ _ freezes d
  learn := .pure _

end Newton

theorem FixedPoint.settles_method {F : Solver.Problem Unit ω α}
    {R : Drive.State (SystemPoint α) (ResidualProgress α) Unit ω α →
      Drive.State (SystemPoint α) (ResidualProgress α) Unit ω α → Prop} [Act.Ledger R]
    (settles : F.Settles R) (c : FixedPoint.Settings α) : (FixedPoint.method F c).Settles R where
  evaluate := Solver.settles_evaluate settles
  prepare := by
    refine .bind Drive.settles_now fun p => ?_
    dsimp only
    split
    · exact .throw _
    · exact .pure _
  step := .bind Drive.settles_now fun _ => .bind (Solver.settles_defined _) fun _ =>
    Solver.settles_lineStep settles _ _ (.pure _) _
  learn := .pure _

namespace Dogleg

variable {F : Solver.Problem (Region α) ω α}
  {R : Drive.State (SystemPoint α) (ResidualProgress α) (Region α) ω α →
    Drive.State (SystemPoint α) (ResidualProgress α) (Region α) ω α → Prop} [Act.Ledger R]

omit [Extended α] in
theorem settles_region : Edit.Settles R (fun _ => False) (region : Action ω α (Region α)) :=
  .bind (.of_keeps (P := fun _ => True) Act.keeps_driver) fun _ => .pure _

theorem settles_tries (settles : F.Settles R) (c : Settings α) (y : Vec α) (J : Dense α) (g : Vec α)
    (B : Dense α) (trials : Nat) (undefinedBefore : Bool) :
    Edit.Settles R (fun _ => False) (tries F c y J g B trials undefinedBefore) := by
  have reports (l : List (Log.Record α)) :
      Edit.Settles R (fun _ => False) (l.forM Reports.report : Action ω α PUnit) := by
    induction l with
    | nil => exact .pure _
    | cons r l ih => exact .bind (Drive.settles_report r) fun _ => ih
  have tried : Edit.Settles R (fun _ => False) (trial F c y J g B) :=
    .bind Drive.settles_now fun _ => .bind settles_region fun _ => .bind (.ofExcept _) fun _ =>
      .bind (Solver.settles_defined _) fun _ => .bind (.of_keeps (Act.keeps_edit _ _ _)) fun _ =>
        .bind (.fit _) fun _ => .bind (Solver.settles_residualAt settles _) fun _ =>
          .bind (.fit _) fun _ => .bind (.ofExcept _) fun _ => .bind (reports _) fun _ =>
            .bind (Drive.settles_remember _) fun _ => .pure _
  induction trials generalizing undefinedBefore with
  | zero =>
    have stays : Edit.Settles R (fun _ => False) (do
        Reports.report ⟨Log.debug, .trustRegion,
          [.words "No trial step accepted; staying at x (delta = ",
            .scientific 3 (← region).radius, .words ")."]⟩
        return (← Drive.now).x : Action ω α (Vec α)) :=
      .bind settles_region fun _ => .bind (Drive.settles_report _) fun _ =>
        .bind Drive.settles_now fun _ => .pure _
    rw [tries]
    split
    · exact .of_keeps (P := fun _ => True) (.abort trivial)
    · exact stays
  | succ trials ih =>
    refine .bind tried fun p => ?_
    obtain ⟨accepted, x', isUndefined⟩ := p
    dsimp only
    split
    · exact .pure _
    · exact ih _

theorem settles_method (settles : F.Settles R) (o : Options α) (c : Settings α) :
    (method F o c).Settles R where
  evaluate := Solver.settles_evaluate settles
  prepare := Drive.settles_remember fun _ => blank c
  step := by
    refine .bind Drive.settles_now fun p => .bind (settles.jacobian _) fun J => ?_
    split
    · refine .bind (.fit _) fun g => ?_
      split
      · exact .pure _
      · exact .bind (.fit _) fun _ => settles_tries settles _ _ _ _ _ _ _
    · exact .ofExcept _
  learn := .pure _

end Dogleg

theorem Solver.Of.settles {F : Solver.Problem μ ω α} {M : Solver μ ω α} (of : Solver.Of F M)
    {R : Drive.State (SystemPoint α) (ResidualProgress α) μ ω α →
      Drive.State (SystemPoint α) (ResidualProgress α) μ ω α → Prop} [Act.Ledger R]
    (settles : F.Settles R) : M.Settles R := by
  cases of with
  | newton F c => exact Newton.settles_method settles c
  | fixedPoint F c => exact FixedPoint.settles_method settles c
  | dogleg F o c => exact Dogleg.settles_method settles o c

end Descent
