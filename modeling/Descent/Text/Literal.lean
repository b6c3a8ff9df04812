/-
# Descent.Text.Literal — values named in a refusal

When a setting is given a value of no use to it, the refusal shows that value.
`Literal` is what such a value can be and `Literal.show` its text: texts are
quoted, numbers have their shortest digits, the missing value is `None`.
-/
import Descent.Decimal.Shortest
import Descent.Text.Quoted

namespace Descent.Text
set_option autoImplicit false

/-- Numbers are positional from `0.0001` up to and not including `10 ^ 16`. -/
def plainNumber : Decimal.Layout := ⟨-4, 16⟩

/-- A value that is refused. -/
inductive Literal where
  | missing
  | truth (value : Bool)
  | whole (value : Int)
  | number (value : Float)
  | text (value : String)
  | list (values : List Literal)
  | record (fields : List (String × Literal))

mutual

/-- The value as it is shown inside a sentence. -/
def Literal.show : Literal → String
  | .missing => "None"
  | .truth value => if value then "True" else "False"
  | .whole value => toString value
  | .number value => Decimal.shortest plainNumber value
  | .text value => quoted value
  | .list values => "[" ++ showAll values ++ "]"
  | .record fields => "\x7b" ++ showFields fields ++ "\x7d"

/-- The values, separated by commas. -/
def showAll : List Literal → String
  | [] => ""
  | [v] => v.show
  | v :: w :: rest => v.show ++ ", " ++ showAll (w :: rest)

/-- The fields with their names, separated by commas. -/
def showFields : List (String × Literal) → String
  | [] => ""
  | [(name, v)] => quoted name ++ ": " ++ v.show
  | (name, v) :: next :: rest =>
    quoted name ++ ": " ++ v.show ++ ", " ++ showFields (next :: rest)

end

/-- The value as it is shown at the start of a sentence: a text stands without its marks. -/
def Literal.plain : Literal → String
  | .text value => value
  | v => v.show

end Descent.Text
