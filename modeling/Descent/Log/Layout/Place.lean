/-
# Descent.Log.Layout.Place — what stands in a place of a line

A `Filling` says which part of a record stands in a place, a `Form` how it is
written there: as it is, in quotation marks, as one character or as a number, and
in how much room.  A text is no number and only a text of one character is a
character, so not every part can be written in every form.
-/
import Descent.Decimal.Format
import Descent.Decimal.Nearest
import Descent.Log.Level
import Descent.Text.Quoted

namespace Descent.Log
open Text
set_option autoImplicit false

/-- A part of a record. -/
inductive Content where
  | text (s : String)
  | number (n : Int)
  /-- What is neither a text nor a number, and always written in the same way. -/
  | bare (s : String)

/-- What a place of a line is filled with. -/
inductive Filling where
  | level
  | levelNumber
  | name
  | message
  /-- What all records have in common. -/
  | common (content : Content)

namespace Filling

/-- The filling of that name. Records have no arguments beside their message and come with no failure
and no trace of calls; all are made in one thread of one process. -/
def named? : String → Option Filling
  | "levelname" => some .level
  | "levelno" => some .levelNumber
  | "name" => some .name
  | "message" => some .message
  | "msg" => some .message
  | "args" => some (.common (.bare "()"))
  | "exc_info" => some (.common (.bare "None"))
  | "exc_text" => some (.common (.bare "None"))
  | "stack_info" => some (.common (.bare "None"))
  | "processName" => some (.common (.text "MainProcess"))
  | "threadName" => some (.common (.text "MainThread"))
  | _ => none

/-- The part of a record that it stands for. -/
def content (level : Level) (name message : String) : Filling → Content
  | .level => .text (levelName level)
  | .levelNumber => .number level
  | .name => .text name
  | .message => .text message
  | .common content => content

end Filling

/-- How a number is written. -/
inductive Numeral where
  | whole
  | octal
  | hexadecimal (capitals : Bool)
  | fixed
  | scientific (capitals : Bool)
  | general (capitals : Bool)

/-- How the part of a record is written. -/
inductive Kind where
  /-- As it is. -/
  | plain
  /-- A text in quotation marks. -/
  | quoted
  /-- A text in quotation marks, with the numbers of all characters beyond ASCII. -/
  | ascii
  /-- A text of one character, or the character with a number. -/
  | character
  | number (numeral : Numeral)

/-- The kind that a letter stands for. -/
def Kind.ofLetter? : Char → Option Kind
  | 's' => some .plain
  | 'r' => some .quoted
  | 'a' => some .ascii
  | 'c' => some .character
  | 'd' => some (.number .whole)
  | 'i' => some (.number .whole)
  | 'u' => some (.number .whole)
  | 'o' => some (.number .octal)
  | 'x' => some (.number (.hexadecimal false))
  | 'X' => some (.number (.hexadecimal true))
  | 'f' => some (.number .fixed)
  | 'F' => some (.number .fixed)
  | 'e' => some (.number (.scientific false))
  | 'E' => some (.number (.scientific true))
  | 'g' => some (.number (.general false))
  | 'G' => some (.number (.general true))
  | _ => none

/-- The kind of what is written, and its room. -/
structure Form where
  kind : Kind := .plain
  /-- Octal and hexadecimal numbers have a mark of their base, decimals keep their point and the
  zeros behind it. -/
  marked : Bool := false
  /-- Blanks come after what is written. -/
  atLeft : Bool := false
  /-- A number that is not negative has the sign `+`. -/
  plus : Bool := false
  /-- A number without a sign has a blank in its place. -/
  blank : Bool := false
  /-- A number is filled up with zeros, unless blanks come after it. -/
  zeros : Bool := false
  /-- The least number of characters. -/
  width : Nat := 0
  /-- The greatest number of characters of a text, the least number of digits of a whole number, the
  number of decimals or of significant digits. -/
  precision : Option Nat := none

namespace Form

/-- Neither a width nor a precision is greater. -/
def greatestRoom : Nat := 0x7FFFFFFF

def fits (form : Form) : Bool :=
  form.width ≤ greatestRoom && form.precision.all (· ≤ greatestRoom)

/-- The text, filled up with blanks. -/
def extend (form : Form) (text : String) : String :=
  let blanks := "".pushn ' ' (form.width - text.length)
  if form.atLeft then text ++ blanks else blanks ++ text

/-- The text, cut and filled up. -/
def lay (form : Form) (text : String) : String :=
  form.extend (match form.precision with
    | none => text
    | some limit => String.ofList (text.toList.take limit))

/-- Without a width and a precision a text stays as it is. -/
@[simp] theorem lay_default (text : String) : ({} : Form).lay text = text := by
  simp [lay, extend, String.pushn, Nat.repeat]

/-- The digits after what comes in front of them, filled up. -/
def layNumber (form : Form) (front digits : String) : String :=
  form.extend (front ++
    if form.zeros && !form.atLeft then Decimal.padLeft (form.width - front.length) digits else digits)

def sign (form : Form) (n : Int) : String :=
  if n < 0 then "-" else if form.plus then "+" else if form.blank then " " else ""

end Form

/-- The text, in capital letters if they are asked for. -/
def inCapitals (capitals : Bool) (text : String) : String :=
  if capitals then text.map Char.toUpper else text

namespace Numeral

/-- A whole number in a base, after the mark of the base. -/
def inBase (form : Form) (base : Nat) (mark : String) (n : Nat) : String × String :=
  (if form.marked then mark else "",
    Decimal.padLeft (form.precision.getD 0) (String.ofList (Nat.toDigits base n)))

/-- The double nearest to a whole number as a decimal, if it is finite. -/
def asDecimal? (form : Form) (laid : Nat → Float → String) (n : Nat) : Option (String × String) :=
  let x := Decimal.nearestInt n
  match Decimal.parts x with
  | .finite .. => some ("", laid (form.precision.getD 6) x)
  | _ => none

/-- What comes in front of the digits, and the digits. -/
def write? (form : Form) (n : Nat) : Numeral → Option (String × String)
  | .whole => some (inBase form 10 "" n)
  | .octal => some (inBase form 8 "0o" n)
  | .hexadecimal capitals =>
    let (mark, digits) := inBase form 16 "0x" n
    some (inCapitals capitals mark, inCapitals capitals digits)
  | .fixed => asDecimal? form (Decimal.fixedWith finish) n
  | .scientific capitals =>
    asDecimal? form (fun places x => inCapitals capitals (Decimal.scientificWith finish places x)) n
  | .general capitals =>
    let finish := if form.marked then Decimal.closePoint else Decimal.trimZeros
    asDecimal? form
      (fun digits x => inCapitals capitals (Decimal.generalWith finish (max 1 digits) x)) n
where
  finish : String → String := if form.marked then Decimal.closePoint else id

end Numeral

/-- The part of a record in a form, if it can be written so. -/
def Content.write? (form : Form) : Content → Option String
  | .text s =>
    match form.kind with
    | .plain => some (form.lay s)
    | .quoted => some (form.lay (quoted s))
    | .ascii => some (form.lay (quotedAscii s))
    | .character => if s.length = 1 then some (form.extend s) else none
    | .number _ => none
  | .number n =>
    match form.kind with
    | .plain | .quoted | .ascii => some (form.lay (toString n))
    | .character =>
      if 0 ≤ n ∧ n.toNat.isValidChar then some (form.extend (Char.ofNat n.toNat).toString) else none
    | .number numeral =>
      (numeral.write? form n.natAbs).map fun (mark, digits) =>
        form.layNumber (form.sign n ++ mark) digits
  | .bare s =>
    match form.kind with
    | .plain | .quoted | .ascii => some (form.lay s)
    | .character | .number _ => none

end Descent.Log
