/-
# Descent.InverseHessian — estimates of an inverse Hessian

Quasi-Newton methods keep a matrix `Q` that stands for the inverse Hessian and
correct it after each step `dx` by what the gradient changed, `dg`.  Both
corrections, BFGS and DFP, have rank two and are assembled entry by entry from
products that do not depend on the order of the two indices.  A correction whose
denominator vanishes up to rounding is skipped.
-/
import Descent.Linear.Shaped

namespace Descent
open Text
set_option autoImplicit false

/-- Where an optimizer gets its second-order information from. -/
inductive HessianKind where
  | exact
  | bfgs
  | dfp
  deriving DecidableEq, Repr

/-- The two corrections of an estimate. -/
inductive UpdateRule where
  | bfgs
  | dfp
  deriving DecidableEq, Repr

def HessianKind.ofName : String → Option HessianKind
  | "exact" => some .exact
  | "bfgs" => some .bfgs
  | "dfp" => some .dfp
  | _ => none

/-- The kind of that name. -/
def HessianKind.read {α : Type} (given : Literal) : Except (Fault α) HessianKind :=
  let found := match given with
    | .text s => HessianKind.ofName s
    | _ => none
  match found with
  | some kind => .ok kind
  | none => .error (.invalid (.hessianKind given))

/-- The correction of an estimate, for the kinds that have one. -/
def HessianKind.rule? : HessianKind → Option UpdateRule
  | .exact => none
  | .bfgs => some .bfgs
  | .dfp => some .dfp

/-- The correction of a kind; the exact Hessian has none. -/
def HessianKind.approximated {α : Type} (kind : HessianKind) : Except (Fault α) UpdateRule :=
  match kind.rule? with
  | some rule => .ok rule
  | none => .error (.invalid (.noApproximation "HessianKind.EXACT"))

/-- The correction of that name. A list or a record is no name at all. -/
def UpdateRule.read {α : Type} (given : Literal) : Except (Fault α) UpdateRule :=
  let refuse : Except (Fault α) UpdateRule := .error (.invalid (.noApproximation given.plain))
  match given with
  | .list _ | .record _ => .error .wrongKind
  | .text s => ((HessianKind.ofName s).map HessianKind.approximated).getD refuse
  | _ => refuse

def UpdateRule.name : UpdateRule → String
  | .bfgs => "BFGS"
  | .dfp => "DFP"

namespace UpdateRule

variable {α : Type} [Scalar α] {n : Nat}

/-- A denominator that is not a number, or too small for the factors it comes from. -/
def isDegenerate (value size : α) : Bool :=
  !Scalar.isFinite value || Scalar.abs value ≤ 1e-12 * size

/-- `Q - (dx vᵀ + v dxᵀ - (1 + dg·v / s) dx dxᵀ) / s` with `v = Q dg` and `s = dx · dg`. -/
def bfgsStep (Q : Mat n n α) (dx dg : Vector α n) : Except (Fault α) (Mat n n α) := do
  let s := dot dx dg
  let v := Q.mulVec dg
  let weight := 1 + (← quotient (dot dg v) s)
  return Mat.ofFn fun i j =>
    (Q.get i).get j -
      (dx.get i * v.get j + v.get i * dx.get j - weight * (dx.get i * dx.get j)) / s

/-- `Q - v vᵀ / (dg·v) + dx dxᵀ / s` with `v = Q dg` and `s = dx · dg`. -/
def dfpStep (Q : Mat n n α) (dx dg : Vector α n) : Mat n n α :=
  let s := dot dx dg
  let v := Q.mulVec dg
  let curvature := dot dg v
  Mat.ofFn fun i j =>
    (Q.get i).get j - v.get i * v.get j / curvature + dx.get i * dx.get j / s

/-- The product of the step and the change of the gradient vanishes. -/
def isFlat (dx dg : Vector α n) : Bool := isDegenerate (dot dx dg) (norm dx * norm dg)

/-- The corrected estimate when the step is not flat, unless another denominator vanishes. -/
def correct (rule : UpdateRule) (Q : Mat n n α) (dx dg : Vector α n) :
    Except (Fault α) (Option (Mat n n α)) :=
  match rule with
  | .bfgs => some <$> bfgsStep Q dx dg
  | .dfp =>
    let v := Q.mulVec dg
    if isDegenerate (dot dg v) (norm dg * norm v) then .ok none else .ok (some (dfpStep Q dx dg))

/-- The corrected estimate, unless a denominator vanishes. -/
def update (rule : UpdateRule) (Q : Mat n n α) (dx dg : Vector α n) :
    Except (Fault α) (Option (Mat n n α)) :=
  if isFlat dx dg then .ok none else rule.correct Q dx dg

/-- Why an estimate that is no square matrix of the size of a step that is not flat cannot be
corrected: products or sums that do not exist, or a denominator that is no number. -/
def misfit (rule : UpdateRule) (Q dx dg : Shaped α) : Fault α :=
  let denominator := do
    let v ← Q.product? dg
    let sides := [dx.flat.size, v.flat.size]
    let _ ← match rule with
      | .bfgs => meet? sides sides.reverse
      | .dfp => some sides
    dg.product? v
  if denominator.isSome then .wrongKind else .shapeMismatch

/-- The corrected estimate of arrays of any extents. A flat step is skipped whatever the extents of
the estimate. -/
def update? (rule : UpdateRule) (Q dx dg : Shaped α) : Except (Fault α) (Option (Shaped α)) := do
  let _ ← (← fit (dx.product? dg)).number
  let step := dx.flat
  if h : dg.flat.size = step.size then
    let change : Vector α step.size := ⟨dg.flat, h⟩
    if isFlat step.toVector change then return none
    match Q.square? step.size with
    | some body => return (← rule.correct body step.toVector change).map Shaped.ofMat
    | none => throw (rule.misfit Q dx dg)
  else throw .shapeMismatch

end UpdateRule

/-- A running estimate. -/
structure InverseHessian (α : Type) where
  rule : UpdateRule
  dim : Nat
  matrix : Shaped α

namespace InverseHessian

variable {α : Type} [Scalar α]

/-- The estimate of a rule at the start: the identity. -/
def start (rule : UpdateRule) (dim : Nat) : InverseHessian α :=
  { rule, dim, matrix := .ofMat (Mat.identity dim) }

/-- An estimate of positive dimension. -/
def new (rule : UpdateRule) (dim : Int) : Except (Fault α) (InverseHessian α) := do
  if dim < 1 then throw (.invalid .dimension)
  Shaped.room (Nat.pow dim.toNat 2)
  return start rule dim.toNat

/-- Back to the identity. -/
def reset (h : InverseHessian α) : InverseHessian α := start h.rule h.dim

/-- The quasi-Newton direction `-Q g`. -/
def direction (h : InverseHessian α) (g : Shaped α) : Except (Fault α) (Shaped α) := do
  return (← fit (h.matrix.product? g)).neg

/-- What the log says of a correction that was skipped. -/
def skipped (h : InverseHessian α) : Log.Record α :=
  ⟨Log.debug, .hessians, [.words ("Skipped degenerate " ++ h.rule.name ++ " update.")]⟩

/-- The estimate after a step and whether it was corrected; a skipped correction is reported. -/
def learn {m : Type → Type} [Monad m] [MonadExcept (Fault α) m] [Reports α m]
    (h : InverseHessian α) (dx dg : Shaped α) : m (InverseHessian α × Bool) := do
  match ← ofExcept (h.rule.update? h.matrix dx dg) with
  | some matrix => return ({ h with matrix }, true)
  | none =>
    Reports.report h.skipped
    return (h, false)

end InverseHessian

end Descent
