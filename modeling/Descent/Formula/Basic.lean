/-
# Descent.Formula.Basic — expressions in the components of a point

An `Expr` is what a user writes; it may choose between two branches by comparing
two values.  At a given point every choice is made, and what is left is a
`Formula` without choices: `Expr.resolve`.

A component that the point does not have is a fault; everything else has a value,
be it infinite or undefined.  A power whose exponent is written as a number can be
taken as a function of its base, `Function.power`; small exponents are then
multiplied out.
-/
import Descent.Linear.Shaped

namespace Descent
set_option autoImplicit false

/-- Functions of one number. -/
inductive Function (α : Type) where
  | neg
  | abs
  /-- One, zero or minus one, as the number is positive, zero or negative. -/
  | sign
  | exp
  | log
  | sin
  | cos
  | tan
  | atan
  | sqrt
  /-- A power with a fixed exponent. -/
  | power (exponent : α)
  /-- The number itself, or zero. -/
  | keep (whole : Bool)

/-- Operations on two numbers. -/
inductive Operation where
  | add
  | sub
  | mul
  | div
  | pow
  deriving DecidableEq, Repr

/-- An expression without choices. -/
inductive Formula (α : Type) where
  | const (a : α)
  /-- The component of the point with that index. -/
  | var (i : Nat)
  /-- A constant that counts as variable, but not with the point. -/
  | leaf (a : α)
  | apply (f : Function α) (a : Formula α)
  | combine (op : Operation) (a b : Formula α)

/-- An expression. -/
inductive Expr (α : Type) where
  | const (a : α)
  | var (i : Nat)
  | leaf (a : α)
  | apply (f : Function α) (a : Expr α)
  | combine (op : Operation) (a b : Expr α)
  /-- The first branch if `a` is less than `b`, else the second one. -/
  | less (a b yes no : Expr α)

section
variable {α : Type} [Elementary α]

/-- A power; small exponents are multiplied out. -/
def powerOf (exponent a : α) : α :=
  if exponent == 0 then 1
  else if exponent == 1 then a
  else if exponent == 2.0 then a * a
  else if exponent == 3.0 then a * a * a
  else if exponent == -2.0 then 1 / (a * a)
  else if exponent == -1 then 1 / a
  else if exponent == 0.5 then Scalar.sqrt a
  else if exponent == -0.5 then 1 / Scalar.sqrt a
  else Elementary.pow a exponent

def signOf (a : α) : α := if 0 < a then 1 else if a < 0 then -1 else 0

def Function.value : Function α → α → α
  | .neg, a => -a
  | .abs, a => Scalar.abs a
  | .sign, a => signOf a
  | .exp, a => Elementary.exp a
  | .log, a => Elementary.log a
  | .sin, a => Elementary.sin a
  | .cos, a => Elementary.cos a
  | .tan, a => Elementary.tan a
  | .atan, a => Elementary.atan a
  | .sqrt, a => Scalar.sqrt a
  | .power exponent, a => powerOf exponent a
  | .keep whole, a => if whole then a else 0

def Operation.value : Operation → α → α → α
  | .add, a, b => a + b
  | .sub, a, b => a - b
  | .mul, a, b => a * b
  | .div, a, b => a / b
  | .pow, a, b => Elementary.pow a b

/-- The value of a formula at a point. -/
def Formula.eval (x : Vec α) : Formula α → Except (Fault α) α
  | .const a => .ok a
  | .var i => match x[i]? with
    | some a => .ok a
    | none => .error .noComponent
  | .leaf a => .ok a
  | .apply f a => f.value <$> a.eval x
  | .combine op a b => do
    let u ← a.eval x
    let v ← b.eval x
    return op.value u v

/-- The expression with its choices made at a point. A branch that is not chosen is not looked
at. -/
def Expr.resolve (x : Vec α) : Expr α → Except (Fault α) (Formula α)
  | .const a => .ok (.const a)
  | .var i => .ok (.var i)
  | .leaf a => .ok (.leaf a)
  | .apply f a => .apply f <$> a.resolve x
  | .combine op a b => do
    let u ← a.resolve x
    let v ← b.resolve x
    return .combine op u v
  | .less a b yes no => do
    let u ← (← a.resolve x).eval x
    let v ← (← b.resolve x).eval x
    if u < v then yes.resolve x else no.resolve x

/-- The value of an expression at a point. -/
def Expr.eval (x : Vec α) (e : Expr α) : Except (Fault α) α := do (← e.resolve x).eval x

end

/-- The expression as a function of a plain number. A number is one entry but has no components: each
component becomes one that a point of one entry does not have. -/
def Expr.bare {α : Type} : Expr α → Expr α
  | .const a => .const a
  | .var i => .var (i + 1)
  | .leaf a => .leaf a
  | .apply f a => .apply f a.bare
  | .combine op a b => .combine op a.bare b.bare
  | .less a b yes no => .less a.bare b.bare yes.bare no.bare

/-- Takes powers whose exponent is written as a number as functions of their base. -/
def Expr.withPowers {α : Type} : Expr α → Expr α
  | .const a => .const a
  | .var i => .var i
  | .leaf a => .leaf a
  | .apply f a => .apply f a.withPowers
  | .combine .pow a (.const exponent) => .apply (.power exponent) a.withPowers
  | .combine op a b => .combine op a.withPowers b.withPowers
  | .less a b yes no => .less a.withPowers b.withPowers yes.withPowers no.withPowers

end Descent
