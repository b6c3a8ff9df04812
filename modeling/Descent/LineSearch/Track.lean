/-
# Descent.LineSearch.Track — the points of a line, and directions that lead somewhere

A `Track` holds the start and the direction of a line and the point visited last;
`Track.visit` writes the point at a step length over it.  `shortenUndefined`
shortens a direction until the point it leads to has defined values.
-/
import Descent.Linear.Shaped

namespace Descent
open Text
set_option autoImplicit false

namespace Track

variable {α : Type} [Scalar α]

def zeros (n : Nat) : Track α :=
  { base := Vec.zeros n, direction := Vec.zeros n, trial := Vec.zeros n }

/-- A track in a space of a given dimension, which must not be negative. -/
def inDimension (n : Int) : Except (Fault α) (Track α) := do
  if n < 0 then throw .shapeMismatch
  Shaped.room n.toNat
  return zeros n.toNat

/-- Moves the start of the line. -/
def moveTo (base : Vec α) : Edit α (Track α) Unit := do
  let base ← fit (Vec.assign? (← get).base base)
  modify fun t => { t with base }

/-- Turns the line. -/
def aim (direction : Vec α) : Edit α (Track α) Unit := do
  let direction ← fit (Vec.assign? (← get).direction direction)
  modify fun t => { t with direction }

/-- Moves and turns the line; its start is moved even if the direction does not fit. -/
def reset (base direction : Vec α) : Edit α (Track α) Unit := do
  moveTo base
  aim direction

/-- The same for arrays of any extents, which are repeated over the line's own size. -/
def resetShaped (base direction : Shaped α) : Edit α (Track α) Unit := do
  moveTo (← fit (base.assign? [(← get).base.size])).flat
  aim (← fit (direction.assign? [(← get).direction.size])).flat

/-- The point of the line at a step length. -/
def point (t : Track α) (alpha : α) : Vec α :=
  Array.zipWith (fun d b => d * alpha + b) t.direction t.base

/-- Goes to the point at a step length. -/
def visit (alpha : α) : Edit α (Track α) (Vec α) := do
  modify fun t => { t with trial := t.point alpha }
  return (← get).trial

end Track

section
variable {α : Type} [Scalar α] {m : Type → Type} [Monad m] [MonadExcept (Fault α) m]
  [Reports α m]

/-- The first of the directions `d`, `d * factor`, … that does not lead astray, within a number of
trials. -/
def shortenWithin {D : Type} (leadsAstray : D → m Bool) (shorter : D → D) (remark : m Unit) :
    (trials : Nat) → (direction : D) → m (Option D)
  | 0, _ => pure none
  | trials + 1, direction => do
    if !(← leadsAstray direction) then return some direction
    else if trials = 0 then return none
    else
      remark
      shortenWithin leadsAstray shorter remark trials (shorter direction)

/-- What is told when a direction is shortened. -/
def shortening (factor : α) (verbosity : Int) : m Unit := do
  if 2 ≤ verbosity then
    Reports.report ⟨Log.warning, .trials,
      [.words "NaN detected at trial point. Reducing length of direction vector by ",
        .general 6 factor, .words "."]⟩

/-- The first of the directions that does not lead astray, of a direction and its reductions. -/
def shorten {D : Type} (leadsAstray : D → m Bool) (shorter : D → D) (direction : D) (factor : α)
    (reductions verbosity : Int) : m D := do
  match ← shortenWithin leadsAstray shorter (shortening factor verbosity)
      (reductions + 1).toNat direction with
  | some shortened => return shortened
  | none => throw (Fault.undefinedTrials reductions)

/-- The first of the directions `d`, `d * factor`, … that leads to defined values. -/
def shortenUndefined (evaluate : Vec α → m (Shaped α)) (x direction : Vec α) (factor : α)
    (reductions verbosity : Int) : m (Vec α) :=
  shorten (fun d => return (← evaluate (← fit (Vec.add? x d))).hasNaN) (·.scaled factor)
    direction factor reductions verbosity

/-- The same for arrays of any extents. The direction keeps its extents. -/
def shortenUndefinedShaped (evaluate : Shaped α → m (Shaped α)) (x direction : Shaped α) (factor : α)
    (reductions verbosity : Int) : m (Shaped α) :=
  shorten (fun d => return (← evaluate (← fit (x.add? d))).hasNaN) (·.map (· * factor))
    direction factor reductions verbosity

end

end Descent
