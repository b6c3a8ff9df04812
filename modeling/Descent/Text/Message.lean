/-
# Descent.Text.Message — sentences with numbers in them

Error texts and log lines mix words with numbers of the algorithm.  A `Message`
keeps the numbers as they are, together with the layout each is to have, so that
it can be spoken about for every type of numbers; `Message.render` writes it out
for doubles.
-/
import Descent.Text.Literal

namespace Descent.Text
set_option autoImplicit false

/-- A piece of a sentence. -/
inductive Fragment (α : Type) where
  | words (s : String)
  | whole (n : Int)
  /-- A number with its shortest digits. -/
  | number (x : α)
  /-- A number in scientific layout with that many decimals. -/
  | scientific (places : Nat) (x : α)
  /-- A number with at most that many significant digits. -/
  | general (precision : Nat) (x : α)

/-- A sentence as the list of its pieces. -/
abbrev Message (α : Type) := List (Fragment α)

def Fragment.render : Fragment Float → String
  | .words s => s
  | .whole n => toString n
  | .number x => Decimal.shortest plainNumber x
  | .scientific places x => Decimal.scientific places x
  | .general precision x => Decimal.general precision x

/-- The text of a sentence. -/
def Message.render (m : Message Float) : String :=
  m.foldl (fun out piece => out ++ piece.render) ""

/-- The extents of an array: `()`, `(3,)`, `(2, 3)`. -/
def shapeText : List Nat → String
  | [] => "()"
  | [n] => "(" ++ n.repr ++ ",)"
  | n :: rest => "(" ++ n.repr ++ (rest.foldl (fun out k => out ++ ", " ++ k.repr) "") ++ ")"

end Descent.Text
