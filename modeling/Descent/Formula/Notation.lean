/-
# Descent.Formula.Notation — how arrays and expressions are written

Arrays of numbers and arrays of expressions are written as nested lists.  An
expression is a number, the name of a component (`x0`, `x1`, …) or a list of an
operator's name and its operands.  A list that starts with the name of no operator
is an array.
-/
import Descent.Formula.Basic
import Descent.Scalar.Double
import Descent.Text.Literal.Reader

namespace Descent
open Text
set_option autoImplicit false

mutual

/-- The array that a literal stands for; what is no number is undefined. -/
def Nested.ofLiteral : Literal → Nested Float
  | .list values => .list (Nested.ofLiterals values)
  | a => .entry ((a.float?).getD (0.0 / 0.0))

def Nested.ofLiterals : List Literal → List (Nested Float)
  | [] => []
  | a :: rest => Nested.ofLiteral a :: Nested.ofLiterals rest

end

def Function.ofName? : String → Option (Function Float)
  | "neg" => some .neg
  | "abs" => some .abs
  | "exp" => some .exp
  | "log" => some .log
  | "sin" => some .sin
  | "cos" => some .cos
  | "tan" => some .tan
  | "atan" => some .atan
  | "sqrt" => some .sqrt
  | _ => none

def Operation.ofName? : String → Option Operation
  | "add" => some .add
  | "sub" => some .sub
  | "mul" => some .mul
  | "div" => some .div
  | "pow" => some .pow
  | _ => none

/-- The name of an operator of expressions. -/
def isOperator (name : String) : Bool :=
  name == "leaf" || name == "lt" || (Function.ofName? name).isSome
    || (Operation.ofName? name).isSome

namespace Expr

/-- A constant or a component. -/
def ofAtom (a : Literal) : Expr Float :=
  match a.float?, a with
  | some x, _ => .const x
  | none, .text name => .var ((name.drop 1).toNat?.getD 0)
  | none, _ => .var 0

/-- The expression of an operator and its operands. -/
def ofOperator? (name : String) (operands : List (Expr Float)) : Option (Expr Float) :=
  match name, operands with
  | "leaf", [.const c] => some (.leaf c)
  | "lt", [a, b, yes, no] => some (.less a b yes no)
  | name, [a] => (Function.ofName? name).map (.apply · a)
  | name, [a, b] => (Operation.ofName? name).map (.combine · a b)
  | _, _ => none

mutual

/-- The expression that a literal stands for. -/
def ofLiteral : Literal → Expr Float
  | .list (.text name :: operands) => (ofOperator? name (ofLiterals operands)).getD (.const 0)
  | .list _ => .const 0
  | a => ofAtom a

def ofLiterals : List Literal → List (Expr Float)
  | [] => []
  | a :: rest => ofLiteral a :: ofLiterals rest

end

mutual

/-- The array of expressions that a literal stands for. -/
def arrayOf : Literal → Nested (Expr Float)
  | .list values =>
    match values with
    | .text name :: _ =>
      if isOperator name then .entry (ofLiteral (.list values)) else .list (arraysOf values)
    | _ => .list (arraysOf values)
  | a => .entry (ofAtom a)

def arraysOf : List Literal → List (Nested (Expr Float))
  | [] => []
  | a :: rest => arrayOf a :: arraysOf rest

end

end Expr

end Descent
