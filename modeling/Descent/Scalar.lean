/-
# Descent.Scalar — the arithmetic that the algorithms run on

Every algorithm of the library is written once, over a type of numbers that has
the field operations, comparisons, a square root and tests for the values that
are not ordinary numbers.  Nothing is assumed about them: rounding, numbers
that compare false with everything and non-associative sums are all admitted.

`Extended` adds an infinity and an undefined value, which the stopping criteria
need; `Elementary` adds the functions of calculus, which expressions need.
The instances for double precision are in `Descent.Scalar.Double`.
-/
namespace Descent
set_option autoImplicit false

/-- A type of numbers with the operations that the algorithms use. -/
class Scalar (α : Type) where
  zero : Zero α
  one : One α
  add : Add α
  sub : Sub α
  mul : Mul α
  div : Div α
  neg : Neg α
  ofScientific : OfScientific α
  lt : LT α
  le : LE α
  beq : BEq α
  decLt : DecidableLT α
  decLe : DecidableLE α
  /-- Absolute value. -/
  abs : α → α
  /-- Square root. -/
  sqrt : α → α
  /-- Second power. -/
  sq : α → α
  /-- The value is undefined. -/
  isNaN : α → Bool
  /-- The value is neither undefined nor infinite. -/
  isFinite : α → Bool
  /-- The value has a reciprocal to multiply by. -/
  isInvertible : α → Bool

/-! A concrete type keeps its own operations: those of the class come last in the search. -/

section
variable {α : Type} [s : Scalar α]

instance (priority := 50) Scalar.instZero : Zero α := s.zero
instance (priority := 50) Scalar.instOne : One α := s.one
instance (priority := 50) Scalar.instAdd : Add α := s.add
instance (priority := 50) Scalar.instSub : Sub α := s.sub
instance (priority := 50) Scalar.instMul : Mul α := s.mul
instance (priority := 50) Scalar.instDiv : Div α := s.div
instance (priority := 50) Scalar.instNeg : Neg α := s.neg
instance (priority := 50) Scalar.instOfScientific : OfScientific α := s.ofScientific
instance (priority := 50) Scalar.instLT : LT α := s.lt
instance (priority := 50) Scalar.instLE : LE α := s.le
instance (priority := 50) Scalar.instBEq : BEq α := s.beq
instance (priority := 50) Scalar.instDecidableLT : DecidableLT α := s.decLt
instance (priority := 50) Scalar.instDecidableLE : DecidableLE α := s.decLe

end

/-- Numbers with an infinity and an undefined value. -/
class Extended (α : Type) extends Scalar α where
  inf : α
  nan : α

/-- Numbers with the functions of calculus. -/
class Elementary (α : Type) extends Scalar α where
  exp : α → α
  log : α → α
  sin : α → α
  cos : α → α
  tan : α → α
  atan : α → α
  pow : α → α → α

namespace Scalar

variable {α : Type} [Scalar α]

/-- Spacing of the double-precision numbers at one, `2 ^ -52`. -/
def spacing : α := 1.0 / 4503599627370496.0

/-- The larger of two numbers; the first one unless the second is greater. -/
def maxFirst (x y : α) : α := if x < y then y else x

/-- The smaller of two numbers; the first one unless the second is less. -/
def minFirst (x y : α) : α := if y < x then y else x

/-- Both numbers are positive, or both are negative. -/
def sameSign (x y : α) : Bool := (0 < x && 0 < y) || (x < 0 && y < 0)

/-- The value is an infinity. -/
def isInfinite (x : α) : Bool := !isFinite x && !isNaN x

/-- Two numbers agree up to a relative or an absolute tolerance. An infinity agrees only with
itself, an undefined value with nothing. -/
def isClose (x y relative absolute : α) : Bool :=
  x == y || (!isInfinite x && !isInfinite y &&
    let gap := abs (y - x)
    gap ≤ abs (relative * y) || gap ≤ abs (relative * x) || gap ≤ absolute)

end Scalar

end Descent
