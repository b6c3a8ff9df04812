/-
# Descent.Proofs.Iteration.Aim — the line of a search

A step along a direction shortens it until it leads to defined values, writes it into the
cache and lays the line of the session along it (`Drive.aim`).  What a search does after
that visits points of the line, but neither moves nor turns it (`Session.Along`).  So a
ray along the line is as plain as the functions that it is made of: it corresponds to the
ray that starts at the point and leads in the direction.
-/
import Descent.Proofs.Iteration.Frame
import Mathlib.Logic.Function.Iterate

namespace Descent
set_option autoImplicit false

/-- What is written over a vector depends on its size only. -/
theorem Vec.assign?_congr {α : Type} {target target' source : Vec α}
    (size : target.size = target'.size) : assign? target source = assign? target' source := by
  unfold assign?
  rw [size]

/-! ## The line of a session -/

section
variable {δ ω α : Type} {x d : Vec α}

/-- The line starts at a point and leads in a direction. -/
def Session.Along (x d : Vec α) (s : Session δ ω α) : Prop :=
  s.track.base = x ∧ s.track.direction = d

theorem Session.Along.counted (s : Session δ ω α) (count : Evaluations) (along : s.Along x d) :
    Session.Along x d { s with count } := along

/-- The point of a line at a step length. -/
def linePoint [Scalar α] (x d : Vec α) (alpha : α) : Vec α :=
  Track.point { base := x, direction := d } alpha

namespace Correspondence

/-- Actions with the result of a plain computation while the line stays where it is. -/
abbrev along (x d : Vec α) : Correspondence α (Except (Fault α)) (Act δ ω α) :=
  within (Session.Along x d)

theorem along_report (r : Log.Record α) :
    (along x d).Rel (Reports.report r : Except (Fault α) Unit)
      (Reports.report r : Act δ ω α Unit) :=
  within_modify fun _ along => along

/-- A visit leads to the point of the line. -/
theorem along_visit [Scalar α] {β : Type} {alpha : α} {r : Except (Fault α) β}
    {l : Vec α → Act δ ω α β} (next : (along x d).Rel r (l (linePoint x d alpha))) :
    (along x d).Rel r (Act.onTrack (Track.visit alpha) >>= l) := by
  rintro s ⟨rfl, rfl⟩
  rw [Edit.outcome_bind]
  exact next _ ⟨rfl, rfl⟩

end Correspondence

end

/-! ## Shortened directions -/

section
variable {α : Type}

theorem shortenWithin_ok {D : Type} {leadsAstray : D → Except (Fault α) Bool} {shorter : D → D}
    {remark : Except (Fault α) Unit} {trials : Nat} {d₀ d : D}
    (found : shortenWithin leadsAstray shorter remark trials d₀ = .ok (some d)) :
    ∃ j < trials, d = shorter^[j] d₀ ∧ leadsAstray d = .ok false ∧
      ∀ i < j, leadsAstray (shorter^[i] d₀) = .ok true := by
  induction trials generalizing d₀ with
  | zero => cases found
  | succ trials ih =>
    obtain ⟨astray, led, found⟩ := bind_eq_ok.1 found
    cases astray with
    | false =>
      cases found
      exact ⟨0, Nat.succ_pos trials, rfl, led, fun i less => absurd less (Nat.not_lt_zero i)⟩
    | true =>
      simp only [Bool.not_true, Bool.false_eq_true, if_false] at found
      split at found
      · cases found
      · obtain ⟨⟨⟩, -, found⟩ := bind_eq_ok.1 found
        obtain ⟨j, less, shorter, defined, before⟩ := ih found
        refine ⟨j + 1, Nat.succ_lt_succ less, shorter, defined, fun i less => ?_⟩
        cases i with
        | zero => exact led
        | succ i => exact before i (Nat.lt_of_succ_lt_succ less)

variable [Scalar α]

/-- Values are defined, or undefined, where a direction leads. -/
def Leads (V : Vec α → Except (Fault α) (Shaped α)) (x : Vec α) (astray : Bool) (d : Vec α) : Prop :=
  ∃ z y, Vec.add? x d = some z ∧ V z = .ok y ∧ y.hasNaN = astray

/-- The direction after `j` reductions: it is the first one that leads to defined values. -/
structure Shortened (V : Vec α → Except (Fault α) (Shaped α)) (x d₀ : Vec α) (factor : α) (j : Nat)
    (d : Vec α) : Prop where
  direction : d = (Vec.scaled · factor)^[j] d₀
  defined : Leads V x false d
  before : ∀ i < j, Leads V x true ((Vec.scaled · factor)^[i] d₀)

theorem shortenUndefined_ok {V : Vec α → Except (Fault α) (Shaped α)} {x d₀ d : Vec α} {factor : α}
    {reductions verbosity : Int}
    (found : shortenUndefined V x d₀ factor reductions verbosity = .ok d) :
    ∃ j : Nat, (j : Int) ≤ reductions ∧ Shortened V x d₀ factor j d := by
  have leads {d : Vec α} {astray : Bool}
      (led : (do return (← V (← fit (Vec.add? x d))).hasNaN) = Except.ok astray) :
      Leads V x astray d := by
    obtain ⟨z, added, led⟩ := bind_eq_ok.1 led
    obtain ⟨y, there, led⟩ := bind_eq_ok.1 led
    cases led
    exact ⟨z, y, fit_eq_ok.1 added, there, rfl⟩
  obtain ⟨shortened, within, found⟩ := bind_eq_ok.1 found
  cases shortened with
  | none => cases found
  | some d' =>
    cases found
    obtain ⟨j, less, shorter, defined, before⟩ := shortenWithin_ok within
    exact ⟨j, by omega, shorter, leads defined, fun i less => leads (before i less)⟩

end

/-! ## Taking aim -/

namespace Drive

variable {ι π μ ω α : Type} [Extended α] [Iterate ι π α]

/-- Shortens a direction until it leads to defined values, and lays the line along it. -/
def aim (evaluate : Vec α → Action ι π μ ω α (Shaped α)) (c : LineSearch α) (verbosity : Int)
    (x direction : Vec α) : Action ι π μ ω α (Vec α) := do
  let direction ← shortenUndefined evaluate x direction c.nanFactor c.nanMaxIterations verbosity
  onCache (Cache.turn direction)
  Act.onTrack (Track.reset x direction)
  return direction

variable {evaluate : Vec α → Action ι π μ ω α (Shaped α)} {c : LineSearch α} {verbosity : Int}
  {x d₀ d : Vec α} {s u : State ι π μ ω α}

theorem keeps_aim {R : State ι π μ ω α → State ι π μ ω α → Prop} [Backdrop R] {P : Fault α → Prop}
    [Fault.Broad P] (kept : ∀ z, Edit.Keeps R P (evaluate z)) (x d : Vec α) :
    Edit.Keeps R P (aim evaluate c verbosity x d) :=
  .bind (keeps_shortenUndefined kept _ _ _ _ _) fun _ => .bind (keeps_turn _) fun _ =>
    .bind (keeps_reset _ _) fun _ => .pure _

/-- Where the line has the size of the point it comes to lie along the direction, in which a single
entry stands for as many as there are. -/
theorem aim_ok {V : Vec α → Except (Fault α) (Shaped α)}
    (plain : ∀ z, (Correspondence.within fun _ => True).Rel (V z) (evaluate z))
    (kept : ∀ z, Edit.Keeps sameTrack (fun _ => True) (evaluate z))
    (base : s.track.base.size = x.size) (direction : s.track.direction.size = x.size)
    (aimed : (aim evaluate c verbosity x d₀).outcome s = (.ok d, u)) :
    (∃ j : Nat, (j : Int) ≤ c.nanMaxIterations ∧ Shortened V x d₀ c.nanFactor j d) ∧
      ∃ w, Vec.assign? x d = some w ∧ u.Along x w := by
  obtain ⟨d', s', shortened, aimed⟩ := Edit.outcome_bind_ok.1 aimed
  obtain ⟨⟨⟩, s'', turned, aimed⟩ := Edit.outcome_bind_ok.1 aimed
  obtain ⟨⟨⟩, u', laid, returned⟩ := Edit.outcome_bind_ok.1 aimed
  cases returned
  have found := ((Correspondence.within fun _ => True).shortenUndefined plain
    (fun r => Correspondence.within_modify fun _ => id) (fun _ _ => trivial) x d₀ c.nanFactor
      c.nanMaxIterations verbosity s trivial).1
  rw [shortened] at found
  have first : s.track.Alike s'.track :=
    (keeps_shortenUndefined (R := sameTrack) kept _ _ _ _ _).related shortened
  have second : s'.track.Alike s''.track :=
    (keeps_turn (R := sameTrack) (P := fun _ => True) _).related turned
  have base' : s''.track.base.size = x.size := (second.1.trans first.1).trans base
  have direction' : s''.track.direction.size = x.size := (second.2.trans first.2).trans direction
  refine ⟨shortenUndefined_ok found.symm, ?_⟩
  rw [Act.onTrack, Edit.outcome_focus, Track.reset, Edit.outcome_bind, Track.outcome_moveTo,
    Vec.assign?_of_size_eq base'.symm] at laid
  simp only [Edit.andThen_ok, Track.outcome_aim, Vec.assign?_congr direction'] at laid
  cases written : Vec.assign? x d with
  | none =>
    rw [written] at laid
    cases laid
  | some line =>
    rw [written] at laid
    cases laid
    exact ⟨line, rfl, rfl, rfl⟩

end Drive

end Descent
