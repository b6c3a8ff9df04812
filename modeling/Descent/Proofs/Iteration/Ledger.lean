/-
# Descent.Proofs.Iteration.Ledger — what a run owes to evaluations alone

An `Act.Ledger` is a relation of sessions that notices the state of the user's functions
and the number of evaluations, and nothing else.  A driver keeps every ledger by itself,
so a ledger that is settled by the evaluations, the steps and the lessons of a method is
settled by whole runs (`Method.Settles.solve`): it relates the session in which nothing is
counted yet to the one in which the run has returned.
-/
import Descent.Proofs.Iteration.Run
import Descent.Proofs.Settlement

namespace Descent
set_option autoImplicit false

/-- A relation of sessions that does not notice the driver, the line and the log. -/
class Act.Ledger {δ ω α : Type} (R : Session δ ω α → Session δ ω α → Prop) : Prop extends
    IsPreorder (Session δ ω α) R where
  aside (s : Session δ ω α) (driver : δ) (track : Track α) (log : Array (Log.Record α)) :
    R s { s with driver, track, log }

namespace Act

variable {δ ω α β τ : Type} {R : Session δ ω α → Session δ ω α → Prop} [Ledger R]
  {P : Fault α → Prop}

theorem keeps_driver : Edit.Keeps R P (driver : Act δ ω α δ) := .bind .get fun _ => .pure _

theorem keeps_changeDriver (f : δ → δ) : Edit.Keeps R P (changeDriver f : Act δ ω α Unit) :=
  .change fun s => Ledger.aside s (f s.driver) s.track s.log

theorem keeps_report (r : Log.Record α) :
    Edit.Keeps R P (Reports.report r : Act δ ω α Unit) :=
  .change fun s => Ledger.aside s s.driver s.track (s.log.push r)

theorem keeps_edit (view : δ → τ) (put : τ → δ → δ) (act : Edit α τ β) :
    Edit.Keeps R (fun _ => True) (edit view put act : Act δ ω α β) where
  state s := Ledger.aside s _ s.track s.log
  fault _ _ _ := trivial

theorem keeps_onTrack (act : Edit α (Track α) β) :
    Edit.Keeps R (fun _ => True) (onTrack act : Act δ ω α β) where
  state s := Ledger.aside s s.driver _ s.log
  fault _ _ _ := trivial

end Act

variable {ι π μ ω α : Type} [Extended α] [Iterate ι π α]
  {R : Drive.State ι π μ ω α → Drive.State ι π μ ω α → Prop}

namespace Drive

variable [Act.Ledger R] {E : Fault α → Prop}

theorem settles_now : Edit.Settles R E (now : Action ι π μ ω α ι) :=
  .bind (.of_keeps (P := fun _ => True) Act.keeps_driver) fun _ => .pure _

omit [Extended α] [Iterate ι π α] in
theorem settles_remember (f : Drive ι π μ α → μ) : Edit.Settles R E
    (Act.changeDriver fun d => { d with memory := f d } : Action ι π μ ω α Unit) :=
  .of_keeps (P := fun _ => True) (Act.keeps_changeDriver _)

omit [Extended α] [Iterate ι π α] in
theorem settles_report (r : Log.Record α) :
    Edit.Settles R E (Reports.report r : Action ι π μ ω α Unit) :=
  .of_keeps (P := fun _ => True) (Act.keeps_report r)

end Drive

namespace Method

variable {M : Method ι π μ ω α} {s t : Drive.State ι π μ ω α} {x : Vec α}

/-- The actions of a method that return settle a relation of sessions. -/
structure Settles (R : Drive.State ι π μ ω α → Drive.State ι π μ ω α → Prop)
    (M : Method ι π μ ω α) : Prop where
  evaluate : ∀ x, Edit.Settles R (fun _ => False) (M.evaluate x)
  prepare : Edit.Settles R (fun _ => False) M.prepare
  step : Edit.Settles R (fun _ => False) M.step
  learn : Edit.Settles R (fun _ => False) M.learn

variable [Act.Ledger R]

theorem settles_judge (new : ι) : Edit.Settles R (fun _ => False) (M.judge new) :=
  .bind Drive.settles_now fun _ => .bind (.of_keeps (Act.keeps_edit _ _ _)) fun _ =>
    .bind (.of_keeps (P := fun _ => True) Act.keeps_driver) fun _ =>
      .bind (.of_keeps (P := fun _ => True) (Act.keeps_changeDriver _)) fun _ => .pure _

theorem settles_extend (trace : List (Vec α)) :
    Edit.Settles R (fun _ => False) (M.extend trace) := by
  unfold extend
  split
  · exact .bind Drive.settles_now fun _ => .pure _
  · exact .pure _

namespace Settles

variable (settles : M.Settles R)
include settles

/-- What comes after a step is settled, too. -/
theorem judged (z : Vec α) : Edit.Settles R (fun _ => False) (do
    let new ← M.evaluate z
    return (new, ← M.judge new) : Drive.Action ι π μ ω α (ι × Phase)) :=
  .bind (settles.evaluate z) fun new => .bind (settles_judge new) fun _ => .pure _

theorem accept (new : ι) : Edit.Settles R (fun _ => False) (M.accept new) :=
  .bind (.of_keeps (Act.keeps_edit _ _ _)) fun _ => settles.learn

theorem advance : Edit.Settles R (fun _ => False) M.advance := by
  refine .bind (.bind settles.step settles.judged) fun ⟨new, phase⟩ => ?_
  dsimp only
  split
  · exact .bind (.of_keeps (P := fun _ => True) Act.keeps_driver) fun _ =>
      .of_keeps (P := fun _ => True) (.abort trivial)
  · exact .bind (settles.accept new) fun _ => .pure _

theorem loop (n : Nat) (trace : List (Vec α)) :
    Edit.Settles R (fun _ => False) (M.loop n trace) := by
  induction n generalizing trace with
  | zero => exact .pure _
  | succ n ih =>
    refine .bind settles.advance fun phase => .bind (settles_extend trace) fun trace => ?_
    split
    · exact ih trace
    · exact .pure _

/-- What comes before the first iteration is settled from where the counts are set to zero. -/
theorem enter {trace : List (Vec α)} {h : Drive.State ι π μ ω α}
    (entered : (M.enter x).outcome s = (.ok trace, h)) : R { s with count := {} } h := by
  obtain ⟨v, p, placing, prepared, rfl, -⟩ := enter_ok.1 entered
  obtain ⟨-, first, w, evaluated, rfl⟩ := place_ok.1 placing
  calc R { s with count := {} } w := (settles.evaluate x).returned evaluated
    R w (placed first x w) := Act.Ledger.aside w _ _ w.log
    R _ p := settles.prepare.returned prepared
    R p { p with driver := { p.driver with phase := .running } } :=
      Act.Ledger.aside p _ p.track p.log

/-- A run that returns has settled what was open when the counts were set to zero, and shows the
counts as they are then. -/
theorem solve {out : Outcome ι α} (returned : (M.solve x).outcome s = (.ok out, t)) :
    R { s with count := {} } t ∧ out.count = t.count := by
  rw [outcome_solve x (idle_of_returned returned)] at returned
  obtain ⟨ran, rfl⟩ := Prod.mk.inj returned
  rcases ended : (M.run x).outcome (marked true s) with ⟨r, w⟩
  rw [ended] at ran
  cases ran
  simp only [run, Edit.outcome_bind_ok] at ended
  obtain ⟨trace, h, entered, ⟨phase, points⟩, u, looped, concluded⟩ := ended
  rw [outcome_conclude] at concluded
  cases concluded
  refine ⟨?_, rfl⟩
  calc R { s with count := {} } { marked true s with count := {} } :=
        Act.Ledger.aside { s with count := {} } _ s.track s.log
    R _ h := settles.enter entered
    R h u := (settles.loop _ _).returned looped
    R u _ := Act.Ledger.aside u _ u.track _

/-- Wherever the run makes a first step, what came before it is settled then, and what came after it
in the end. -/
theorem first_step {out : Outcome ι α} (returned : (M.solve x).outcome s = (.ok out, t))
    (room : 1 ≤ M.options.maxIterations) :
    ∃ trace h z u, (M.enter x).outcome (marked true s) = (.ok trace, h) ∧
      M.step.outcome h = (.ok z, u) ∧ R { s with count := {} } h ∧ R u t := by
  rw [outcome_solve x (idle_of_returned returned)] at returned
  obtain ⟨ran, rfl⟩ := Prod.mk.inj returned
  rcases ended : (M.run x).outcome (marked true s) with ⟨r, w⟩
  rw [ended] at ran
  cases ran
  obtain ⟨n, count⟩ : ∃ n, M.options.maxIterations.toNat = n + 1 :=
    ⟨M.options.maxIterations.toNat - 1, by omega⟩
  simp only [run, count, Edit.outcome_bind_ok] at ended
  obtain ⟨trace, h, entered, ⟨phase, points⟩, v, looped, concluded⟩ := ended
  rw [outcome_conclude] at concluded
  cases concluded
  obtain ⟨_, p, advanced, rest⟩ := Edit.outcome_bind_ok.1 looped
  obtain ⟨new, q, proposed, -, accepted⟩ := advance_ok.1 advanced
  obtain ⟨z, u, stepped, judged⟩ := Edit.outcome_bind_ok.1 proposed
  have goes_on (phase : Phase) : Edit.Settles R (fun _ => False) (do
      let trace ← M.extend trace
      if phase = .running then M.loop n trace else return (phase, trace)) := by
    refine .bind (settles_extend trace) fun trace => ?_
    split
    · exact settles.loop n trace
    · exact .pure _
  refine ⟨trace, h, z, u, entered, stepped, ?_, ?_⟩
  · calc R { s with count := {} } { marked true s with count := {} } :=
          Act.Ledger.aside { s with count := {} } _ s.track s.log
      R _ h := settles.enter entered
  · calc R u q := (settles.judged z).returned judged
      R q p := (settles.accept new).returned accepted
      R p v := (goes_on _).returned rest
      R v _ := Act.Ledger.aside v _ v.track _

end Settles

end Method

end Descent
