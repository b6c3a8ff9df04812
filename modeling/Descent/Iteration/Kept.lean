/-
# Descent.Iteration.Kept — arrays that are written over

A `Kept` array remembers what it was before the last commit.  `SystemRecord` and
`ObjectiveRecord` keep an iterate with its residual, or with its value and
gradient, for arrays of any extents.  A commit first keeps every part and then
writes every part; what was done before a misfit stays.  New arrays are repeated
over the extents of the old ones, which never change; a single number has no
entries that could be written over.
-/
import Descent.Linear.Shaped

namespace Descent
set_option autoImplicit false

/-- An array, and what it was before. -/
structure Kept (α : Type) where
  now : Shaped α
  before : Shaped α

namespace Kept

variable {α : Type}

def start (now : Shaped α) : Kept α := ⟨now, now⟩

/-- Keeps the array as it is now. -/
def keep : Edit α (Kept α) Unit := do
  if (← get).now.extents.isEmpty then throw .noComponent
  modify fun k => { k with before := k.now }

/-- Writes another array over the one that is there now. -/
def write (new : Shaped α) : Edit α (Kept α) Unit := do
  let now ← fit (new.assign? (← get).now.extents)
  modify fun k => { k with now }

end Kept

/-- A point and the residual there, now and before, with the direction and right-hand side that the
record started with. -/
structure SystemRecord (α : Type) where
  x : Kept α
  y : Kept α
  direction : Shaped α
  rhs : Shaped α

/-- A point with the value and gradient of the objective there, now and before, with the direction
and right-hand side that the record started with. -/
structure ObjectiveRecord (α : Type) where
  x : Kept α
  f : α
  fBefore : α
  g : Kept α
  direction : Shaped α
  rhs : Shaped α

section
variable {α β : Type}

namespace SystemRecord

def onPoint (act : Edit α (Kept α) β) : Edit α (SystemRecord α) β :=
  Edit.focus x (fun x r => { r with x }) act

def onResidual (act : Edit α (Kept α) β) : Edit α (SystemRecord α) β :=
  Edit.focus y (fun y r => { r with y }) act

/-- Nothing comes before the first iterate, and no direction is known. -/
def start [Scalar α] (x y : Shaped α) : SystemRecord α :=
  { x := .start x, y := .start y, direction := x.zeros, rhs := y.zeros }

/-- Moves on to the next iterate. -/
def commit (x y : Shaped α) : Edit α (SystemRecord α) Unit := do
  onPoint Kept.keep
  onResidual Kept.keep
  onPoint (Kept.write x)
  onResidual (Kept.write y)

end SystemRecord

namespace ObjectiveRecord

def onPoint (act : Edit α (Kept α) β) : Edit α (ObjectiveRecord α) β :=
  Edit.focus x (fun x r => { r with x }) act

def onGradient (act : Edit α (Kept α) β) : Edit α (ObjectiveRecord α) β :=
  Edit.focus g (fun g r => { r with g }) act

/-- Nothing comes before the first iterate, and no direction is known. -/
def start [Scalar α] (x : Shaped α) (f : α) (g : Shaped α) : ObjectiveRecord α :=
  { x := .start x, f, fBefore := f, g := .start g, direction := x.zeros, rhs := g.neg }

/-- Moves on to the next iterate. -/
def commit (x : Shaped α) (f : α) (g : Shaped α) : Edit α (ObjectiveRecord α) Unit := do
  onPoint Kept.keep
  modify fun r => { r with fBefore := r.f }
  onGradient Kept.keep
  onPoint (Kept.write x)
  modify fun r => { r with f }
  onGradient (Kept.write g)

end ObjectiveRecord

end

end Descent
