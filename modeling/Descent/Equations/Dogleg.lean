/-
# Descent.Equations.Dogleg — a trust-region solver

The solver minimizes `|F|² / 2` for any number of equations.  Its model at `x` has
the gradient `Jᵀ F` and the matrix `JᵀJ`, with a multiple of the identity added.  A
trial step within the radius is taken if the residual falls by more than a given
part of what the model predicts; the radius shrinks where the prediction is poor
and grows where it is good and the step is held back by the radius.  When no trial
is taken the point stays where it is.
-/
import Descent.Equations.Method
import Descent.Equations.Dogleg.Step

namespace Descent.Dogleg
open Text
set_option autoImplicit false

/-- The choices of a user. -/
structure Settings (α : Type) where
  /-- The radius at the start of a run. -/
  radius : α
  maxRadius : α
  /-- A trial is taken if the ratio of actual to predicted decrease is greater. -/
  acceptance : α
  reduction : α
  growth : α
  /-- The multiple of the identity that is added to the model. -/
  regularization : α
  /-- The number of trials in one iteration. -/
  maxTrials : Int

/-- A trial step. -/
structure Trial (α : Type) where
  radius : α
  length : α
  /-- The ratio of actual to predicted decrease. -/
  ratio : α
  accepted : Bool

/-- The present radius and the trial steps of the last run. -/
structure Region (α : Type) where
  radius : α
  trials : List (Trial α) := []

namespace Settings

variable {α : Type} [Scalar α]

def standard : Settings α :=
  { radius := 1
    maxRadius := 100.0
    acceptance := 0.15
    reduction := 0.25
    growth := 2.0
    regularization := 0
    maxTrials := 20 }

/-- Admits settings that make sense; the first refusal counts. -/
def check (s : Settings α) : Except (Fault α) (Settings α) :=
  let refuse (why : Invalid) : Except (Fault α) (Settings α) := .error (.invalid why)
  if !(0 < s.radius && s.radius ≤ s.maxRadius) then refuse .radius
  else if !(0 ≤ s.acceptance && s.acceptance < 0.25) then refuse .acceptance
  else if !(0 < s.reduction && s.reduction < 1) then
    refuse (.notProperFraction "reduction_factor")
  else if s.growth ≤ 1 then refuse .expansion
  else if s.regularization < 0 then refuse (.negative "regularization")
  else if s.maxTrials < 1 then refuse (.belowOne "max_trust_region_iterations")
  else .ok s

end Settings

namespace Region

variable {α : Type} [Scalar α]

/-- A poor prediction. -/
def isPoor (ratio : α) : Bool := ratio < 0.25

/-- A good prediction of a step that the radius holds back. -/
def isTight (radius length ratio : α) : Bool := 0.75 < ratio && 0.99 * radius ≤ length

/-- The radius after a trial. -/
def nextRadius (s : Settings α) (radius length ratio : α) : α :=
  if isPoor ratio then radius * s.reduction
  else if isTight radius length ratio then Scalar.minFirst (s.growth * radius) s.maxRadius
  else radius

/-- What is told of the radius after a trial. -/
def remarks (s : Settings α) (radius length ratio : α) : List (Log.Record α) :=
  let told (change : String) : List (Log.Record α) :=
    [⟨Log.debug, .trustRegion, [.words ("Trust region " ++ change ++ " to "),
      .scientific 3 (nextRadius s radius length ratio), .words " (rho = ", .scientific 3 ratio,
      .words ")."]⟩]
  if isPoor ratio then told "shrunk"
  else if isTight radius length ratio then told "expanded"
  else []

/-- Takes down a trial. -/
def record (s : Settings α) (r : Region α) (length ratio : α) (accepted : Bool) : Region α :=
  { radius := nextRadius s r.radius length ratio
    trials := r.trials ++ [⟨r.radius, length, ratio, accepted⟩] }

end Region

section
variable {α : Type} [Extended α]

/-- The ratio of actual to predicted decrease of `|F|² / 2` for a step from residual `y` to `z`. -/
def decreaseRatio (y z : Vec α) (J : Dense α) (p : Vec α) : Except (Fault α) α := do
  if z.hasNaN then return -Extended.inf
  let current := 0.5 * y.normSq
  let linearized ← fit (Vec.add? y (← fit (J.mulVec? p)))
  let predicted := current - 0.5 * linearized.normSq
  if predicted ≤ 0 then return 0
  return (current - 0.5 * z.normSq) / predicted

/-- `A + a I`. -/
def shifted {n : Nat} (A : Mat n n α) (a : α) : Mat n n α :=
  Mat.ofFn fun i j => (A.get i).get j + a * if i = j then 1 else 0

/-- The matrix `JᵀJ + a I` of the model for `n` unknowns. Where the Jacobian has not `n` columns, a
matrix of one entry fits any other. -/
def model? (J : Dense α) (n : Nat) (a : α) : Option (Dense α) :=
  let G := J.body.gram
  if J.cols = n then some (Dense.ofMat (shifted G a))
  else if n = 1 then some (Dense.ofMat (G.map fun row => row.map (· + a)))
  else if h : J.cols = 1 then
    let entry := G[0][0]
    some (Dense.ofMat (shifted (Mat.ofFn fun (_ _ : Fin n) => entry) a))
  else none

end

section
variable {ω α : Type} [Extended α]

/-- An action of the solver. -/
abbrev Action (ω α : Type) : Type → Type := Solver.Action (Region α) ω α

def region : Action ω α (Region α) := return (← Act.driver).memory

/-- One trial step: whether it is taken, where it leads, and whether the residual there has
undefined entries. -/
def trial (F : Solver.Problem (Region α) ω α) (s : Settings α) (y : Vec α) (J : Dense α)
    (g : Vec α) (B : Dense α) : Action ω α (Bool × Vec α × Bool) := do
  let x := (← Drive.now).x
  let radius := (← region).radius
  let p ← Solver.defined (← ofExcept (doglegStep? g B radius))
  Drive.onCache (Cache.turn p)
  let x' ← fit (Vec.add? x p)
  let z ← fit (← F.residualAt x').vec?
  let ratio ← ofExcept (decreaseRatio y z J p)
  let length := p.norm
  let accepted := decide (s.acceptance < ratio)
  (Region.remarks s radius length ratio).forM Reports.report
  Act.changeDriver fun d => { d with memory := d.memory.record s length ratio accepted }
  return (accepted, x', z.hasNaN)

/-- Tries until a step is taken or no trials are left. -/
def tries (F : Solver.Problem (Region α) ω α) (s : Settings α) (y : Vec α) (J : Dense α)
    (g : Vec α) (B : Dense α) : (trials : Nat) → (undefinedBefore : Bool) → Action ω α (Vec α)
  | 0, undefinedBefore => do
    if undefinedBefore then throw (.undefinedTrialsInRadius s.maxTrials)
    Reports.report ⟨Log.debug, .trustRegion,
      [.words "No trial step accepted; staying at x (delta = ",
        .scientific 3 (← region).radius, .words ")."]⟩
    return (← Drive.now).x
  | trials + 1, _ => do
    let (accepted, x', isUndefined) ← trial F s y J g B
    if accepted then return x' else tries F s y J g B trials isUndefined

/-- The next point for a residual and a Jacobian that are no vector or no matrix: a gradient that
vanishes leads nowhere, and any other has no step. -/
def unmoved (x : Vec α) (y J : Shaped α) (s : Settings α) : Except (Fault α) (Vec α) := do
  let g ← fit (J.transpose.product? y)
  if g.norm == 0 then return x
  let G ← fit (J.transpose.product? J)
  let B ← fit (G.add? (.ofMat (shifted (Mat.ofFn fun (_ _ : Fin x.size) => 0) s.regularization)))
  throw (misfit g B)

/-- The next point; it does not move where the gradient vanishes. -/
def step (F : Solver.Problem (Region α) ω α) (s : Settings α) : Action ω α (Vec α) := do
  let ⟨x, residual⟩ ← Drive.now
  let jacobian ← F.jacobianAt x
  match residual.vec?, jacobian.dense? with
  | some y, some J =>
    let g ← fit (J.transposeMulVec? y)
    if g.norm == 0 then return x
    let B ← fit (model? J x.size s.regularization)
    tries F s y J g B s.maxTrials.toNat y.hasNaN
  | _, _ => ofExcept (unmoved x residual jacobian s)

/-- The memory of a solver that has not started. -/
def blank (s : Settings α) : Region α := { radius := s.radius }

/-- The method for a system. -/
def method (F : Solver.Problem (Region α) ω α) (options : Options α) (s : Settings α) :
    Solver (Region α) ω α :=
  { name := "dogleg solver"
    kind := "DoglegSolver"
    options
    dim := F.dim
    evaluate := Solver.evaluate F
    prepare := Act.changeDriver fun d => { d with memory := blank s }
    step := step F s }

end

end Descent.Dogleg
