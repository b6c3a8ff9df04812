/-
# Descent.Fault — why a computation stops early

`Invalid` collects the arguments that are refused before anything is computed,
`Fault` everything that can end a computation: refused arguments, arithmetic that
has no result, arrays that do not fit together, and the numerical failures of the
methods.  The wording is in `Invalid.message` and `Fault.message`; a fault without
a text of its own has none.
-/
import Descent.Stopping.Progress

namespace Descent
open Text
set_option autoImplicit false

/-- An argument that is refused. -/
inductive Invalid where
  -- bracketing
  | zeroStep
  | smallGrowth
  | noMoves
  | increment
  -- line searches
  | searchKind (given : Literal)
  | notPositive (field : String)
  | decreaseConstants
  | notProperFraction (field : String)
  | safeguards
  | belowOne (field : String)
  | negative (field : String)
  -- stopping
  | minimumAboveMaximum
  -- linear systems
  | notSquare (shape : List Nat)
  | notFactorized
  | rightHandSide (size : Nat) (shape : List Nat)
  -- inverse Hessian
  | hessianKind (given : Literal)
  | noApproximation (kind : String)
  | dimension
  -- differentiation
  | spacing
  | notScalar (shape : List Nat)
  -- drivers
  | startSize (given expected : Int)
  | notSquareSystem (inputs outputs : Nat)
  | radius
  | acceptance
  | expansion

/-- What ends a computation early. -/
inductive Fault (α : Type) where
  | invalid (why : Invalid)
  /-- Arrays do not fit together. -/
  | shapeMismatch
  /-- Lists that are to be joined to an array are none, or differ in shape. -/
  | unevenLists
  /-- A value of a kind that has no use here: an array for a number, a list for a name. -/
  | wrongKind
  /-- An array that is larger than what can be kept. -/
  | outOfMemory
  /-- A format that has no place for what it is to show. -/
  | formatMismatch
  /-- A component of a vector that does not have so many. -/
  | noComponent
  | divisionByZero
  /-- A power of a finite number is not finite. -/
  | overflow
  -- bracketing
  | noMinimum (x : α)
  | noMinimumToTheRight (x : α)
  | notDecreasing (x x₁ f₁ fx : α)
  | noTriple (x : α)
  | noRoot (x : α)
  | noSignChange (low high : α)
  -- directions
  | singularMatrix (column : Nat)
  | singularJacobian
  | singularHessian
  | undefinedDirection
  -- trial points
  | undefinedTrials (reductions : Int)
  | undefinedTrialsInRadius (reductions : Int)
  -- drivers
  | diverged (name : String) (progress : Progress α) (x : Array α)
  | alreadySolving (kind : String)
  /-- The method has no step of its own. -/
  | noStep
  -- derivatives of expressions
  | gradientNotReached
  | notDifferentiable

section
variable {α : Type}

def Invalid.message : Invalid → String
  | .zeroStep => "Initial step s must be non-zero."
  | .smallGrowth => "Growth factor k must be larger than 1."
  | .noMoves => "nmax must be at least 1."
  | .increment => "delta must be positive."
  | .searchKind given => "Unknown line search kind: " ++ given.show
  | .notPositive field => field ++ " must be positive."
  | .decreaseConstants => "Require 0 < c1 < c2 < 1."
  | .notProperFraction field => field ++ " must lie in (0, 1)."
  | .safeguards => "Require 0 < sigma0 < sigma1 < 1."
  | .belowOne field => field ++ " must be at least 1."
  | .negative field => field ++ " must be non-negative."
  | .minimumAboveMaximum => "min_iterations cannot exceed max_iterations."
  | .notSquare shape => "LU factorization needs a square matrix, got shape " ++ shapeText shape
  | .notFactorized => "Call factorize before solve."
  | .rightHandSide size shape =>
    "Right-hand side must have shape " ++ shapeText [size] ++ ", got " ++ shapeText shape
  | .hessianKind given => "Unknown Hessian kind: " ++ given.show
  | .noApproximation kind => kind ++ " has no iterative approximation."
  | .dimension => "dim must be positive."
  | .spacing => "eps must be positive"
  | .notScalar shape => "Expected a scalar output, got shape " ++ shapeText shape
  | .startSize given expected =>
    "x0 has " ++ toString given ++ " entries, the problem expects " ++ toString expected ++ "."
  | .notSquareSystem inputs outputs =>
    "Fixed-point iteration needs a square system, F maps " ++ inputs.repr ++ " to "
      ++ outputs.repr ++ " entries."
  | .radius => "Require 0 < delta <= max_delta."
  | .acceptance => "eta must lie in [0, 0.25)."
  | .expansion => "expansion_factor must be larger than 1."

/-- The text of a fault, if it has one. -/
def Fault.message : Fault α → Option (Message α)
  | .invalid why => some [.words why.message]
  | .noMinimum x =>
    some [.words "Unable to bracket a minimum starting at x = ", .number x, .words "."]
  | .noMinimumToTheRight x =>
    some [.words "Unable to bracket a minimum to the right of x = ", .number x, .words "."]
  | .notDecreasing x x₁ f₁ fx =>
    some [.words "The function must be decreasing at x = ", .number x, .words "; f(", .number x₁,
      .words ") = ", .number f₁, .words " >= f(", .number x, .words ") = ", .number fx,
      .words "."]
  | .noTriple x =>
    some [.words "Unable to find a triple point starting at x = ", .number x, .words "."]
  | .noRoot x =>
    some [.words "Unable to bracket a root starting at x = ", .number x, .words "."]
  | .noSignChange low high =>
    some [.words "f has no sign change on [", .number low, .words ", ", .number high,
      .words "]."]
  | .singularMatrix column =>
    some [.words "Matrix is singular (zero pivot in column ", .whole column, .words ")."]
  | .undefinedDirection => some [.words "NaN detected in direction vector."]
  | .undefinedTrials reductions =>
    some [.words "Trial point evaluates to NaN after ", .whole reductions,
      .words " reductions of the direction."]
  | .undefinedTrialsInRadius reductions =>
    some [.words "Trial point evaluates to NaN after ", .whole reductions,
      .words " radius reductions."]
  | .diverged name progress _ =>
    some ([.words (name ++ " diverged after "), .whole progress.iteration,
      .words " iterations ("] ++ progress.describe ++ [.words ")."])
  | .alreadySolving kind =>
    some [.words (kind ++ " is already solving and cannot be re-entered.")]
  | .noStep => some []
  | .gradientNotReached => some [.words "Autograd did not populate gradients for the input."]
  | .shapeMismatch | .unevenLists | .wrongKind | .outOfMemory | .formatMismatch | .noComponent
  | .divisionByZero | .overflow
  | .singularJacobian | .singularHessian | .notDifferentiable => none

/-- The fault of a bracketing routine that found no interval. -/
def Fault.isBracketing : Fault α → Bool
  | .noMinimum _ | .noMinimumToTheRight _ | .notDecreasing .. | .noTriple _ | .noRoot _
  | .noSignChange .. => true
  | _ => false

end

section
variable {α : Type} [Scalar α]

/-- The quotient; there is none of a division by zero. -/
def quotient (x y : α) : Except (Fault α) α :=
  if y == 0 then .error .divisionByZero else .ok (x / y)

/-- The second power; there is none if a finite number has an infinite one. -/
def square (x : α) : Except (Fault α) α :=
  if Scalar.isFinite x && !Scalar.isFinite (Scalar.sq x) then .error .overflow
  else .ok (Scalar.sq x)

end

end Descent
