/-
# Descent.Iteration.Cache — iterates and where they are kept

A `SystemPoint` is a point with the residual there, an `ObjectivePoint` one with the
value and the gradient of the objective.  `Iterate` is what the two have in common:
how they are measured and how one is written over another.  A `Cache` holds the
last two iterates of a run; `Cache.commit` moves on to the next one.
-/
import Descent.Stopping.Criteria

namespace Descent
set_option autoImplicit false

/-- A point and the residual there. -/
structure SystemPoint (α : Type) where
  x : Vec α
  y : Shaped α

/-- A point, and the value and gradient of the objective there. -/
structure ObjectivePoint (α : Type) where
  x : Vec α
  f : α
  g : Shaped α

/-- Iterates `ι` that are judged by measures `π`. -/
class Iterate (ι : Type) (π α : outParam Type) where
  /-- Stands for the iterate of a driver that has not started. -/
  blank : ι
  point : ι → Vec α
  /-- The length of the residual or of the gradient. -/
  size : ι → α
  /-- Writes a new iterate over an old one; parts that were written before a misfit stay. -/
  overwrite : (new : ι) → Edit α ι Unit
  /-- No measures at all. -/
  unmeasured : π
  start : ι → π
  update : (new old : ι) → Edit α π Unit
  assess : Options α → π → π
  verdict : Options α → π → Phase
  progress : π → Progress α

section
variable {α : Type} [Extended α]

instance : Iterate (SystemPoint α) (ResidualProgress α) α where
  blank := ⟨#[], .ofVec #[]⟩
  point p := p.x
  size p := p.y.norm
  overwrite new := do
    let x ← fit (Vec.assign? (← get).x new.x)
    modify fun p => { p with x }
    let y ← fit (new.y.assign? (← get).y.extents)
    modify fun p => { p with y }
  unmeasured := .unmeasured
  start p := .start (.ofVec p.x) p.y
  update new old := ResidualProgress.update (.ofVec new.x) (.ofVec old.x) new.y old.y
  assess := .assess
  verdict := ResidualProgress.verdict
  progress := .residual

instance : Iterate (ObjectivePoint α) (ObjectiveProgress α) α where
  blank := ⟨#[], 0, .ofVec #[]⟩
  point p := p.x
  size p := p.g.norm
  overwrite new := do
    let x ← fit (Vec.assign? (← get).x new.x)
    modify fun p => { p with x, f := new.f }
    let g ← fit (new.g.assign? (← get).g.extents)
    modify fun p => { p with g }
  unmeasured := .unmeasured
  start p := .start (.ofVec p.x) p.f p.g
  update new old :=
    ObjectiveProgress.update (.ofVec new.x) (.ofVec old.x) new.f old.f new.g old.g
  assess := .assess
  verdict := ObjectiveProgress.verdict
  progress := .objective

end

/-- The last two iterates and the last direction. -/
structure Cache (ι α : Type) where
  now : ι
  before : ι
  direction : Vec α

namespace Cache

section
variable {ι π α : Type} [Iterate ι π α]

/-- Moves on to the next iterate. -/
def commit (new : ι) : Edit α (Cache ι α) Unit := do
  modify fun c => { c with before := c.now }
  Edit.focus Cache.now (fun now c => { c with now }) (Iterate.overwrite new)

/-- Takes over a direction. -/
def turn (direction : Vec α) : Edit α (Cache ι α) Unit := do
  let direction ← fit (Vec.assign? (← get).direction direction)
  modify fun c => { c with direction }

end

section
variable {ι π α : Type} [Scalar α] [Iterate ι π α]

/-- The first iterate has none before it. -/
def start (now : ι) : Cache ι α :=
  { now, before := now, direction := Vec.zeros (Iterate.point now).size }

end

end Cache

end Descent
