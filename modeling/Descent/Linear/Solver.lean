/-
# Descent.Linear.Solver — a linear solver that keeps its factors

A `LinearSolver` factorizes a matrix once and solves with it many times.  It
forgets its factors when a new matrix is accepted, and a matrix with a pivot that
is too small leaves it without any.
-/
import Descent.Linear.Factors
import Descent.Linear.Shaped

namespace Descent
set_option autoImplicit false

/-- The factors of the last matrix and the size up to which a pivot counts as zero. -/
structure LinearSolver (α : Type) where
  tolerance : α
  factors : Option ((n : Nat) × Factors n α) := none

namespace LinearSolver

variable {α : Type} [Scalar α]

/-- A solver without factors. -/
def new (tolerance : α) : Except (Fault α) (LinearSolver α) :=
  if tolerance < 0 then .error (.invalid (.negative "pivot_tol")) else .ok { tolerance }

def factorized (s : LinearSolver α) : Bool := s.factors.isSome

/-- Takes over a matrix. An array that is no square matrix changes nothing. -/
def factorize (A : Shaped α) : Edit α (LinearSolver α) Unit := do
  match A.asSquare? with
  | none => throw (.invalid (.notSquare A.extents))
  | some ⟨n, body⟩ =>
    modify fun s => { s with factors := none }
    let F := Factors.of body
    match F.smallPivot? (← get).tolerance with
    | some column => throw (.singularMatrix column)
    | none => modify fun s => { s with factors := some ⟨n, F⟩ }

/-- Takes over a matrix as it is written. -/
def factorizeNested (A : Nested α) : Edit α (LinearSolver α) Unit := do
  factorize (← fit (Shaped.ofNested? A))

/-- The solution of the system with the last matrix. Only a vector of the right size has one. -/
def solve (s : LinearSolver α) (b : Shaped α) : Except (Fault α) (Vec α) :=
  match s.factors with
  | none => .error (.invalid .notFactorized)
  | some ⟨n, F⟩ =>
    match b.vec? with
    | none => .error (.invalid (.rightHandSide n b.extents))
    | some b =>
      if h : b.size = n then .ok (F.solve ⟨b, h⟩).toArray
      else .error (.invalid (.rightHandSide n [b.size]))

/-- Solves for a right-hand side as it is written. -/
def solveNested (s : LinearSolver α) (b : Nested α) : Except (Fault α) (Vec α) := do
  if !s.factorized then throw (.invalid .notFactorized)
  s.solve (← fit (Shaped.ofNested? b))

end LinearSolver

end Descent
