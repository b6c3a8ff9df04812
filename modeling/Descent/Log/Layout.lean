/-
# Descent.Log.Layout — how a line is put together

A layout is written as a text in which `%(levelname)s`, `%(levelno)d`, `%(name)s` and
`%(message)s` stand for the level, its number, the logger and what it was given.  The
letter is the kind of the place: `s` takes a part of the record as it is, `r` and `a`
in quotation marks, `c` as a character, the others as a number.  Between the bracket
and the letter there may be flags, a least width and a precision after a point.  `%%`
is a percent sign; other characters stand for themselves.

A layout with a place that nothing can fill is still a layout, but has no lines.
-/
import Descent.Log.Layout.Place
import Descent.Text.Word

namespace Descent.Log
open Text
set_option autoImplicit false

/-- A part of a line: a text, or a place that is filled for each record. -/
inductive Piece where
  | text (s : String)
  | place (filling : Filling) (form : Form)
  /-- A place that no part of a record can fill. -/
  | gap

/-- What stands in a line for a piece. -/
def Piece.write? (level : Level) (name message : String) : Piece → Option String
  | .text s => some s
  | .place filling form => (filling.content level name message).write? form
  | .gap => none

/-- How a line is put together. -/
abbrev Layout := List Piece

/-- What is written after a percent sign. -/
structure Conversion where
  /-- The word in brackets, empty if there is none. -/
  name : String
  /-- The form but for its kind. -/
  form : Form
  letter : Char
  /-- How many characters were read. -/
  length : Nat

namespace Conversion

def isFlag (c : Char) : Bool := "#0+ -".toList.contains c

/-- The letter may stand for the kind of a place, in either case. The capital of i with a dot, the
dotless i and the long s count as i and s. -/
def isLetter (c : Char) : Bool := "diouxefgcrsa%İıſ".toList.contains c.toLower

/-- The word in brackets, if the text starts with one, and the text after it. -/
def nameOf : List Char → String × List Char
  | '(' :: rest =>
    match rest.dropWhile isWordCharacter with
    | ')' :: after => (String.ofList (rest.takeWhile isWordCharacter), after)
    | _ => ("", '(' :: rest)
  | cs => ("", cs)

/-- The number that the text starts with, zero if there is none, and the text after it. -/
def countOf (cs : List Char) : Nat × List Char :=
  ((cs.takeWhile Char.isDigit).foldl (fun n c => 10 * n + (c.toNat - '0'.toNat)) 0,
    cs.dropWhile Char.isDigit)

/-- The text after a letter that says how long a number is, which changes nothing. -/
def dropLength : List Char → List Char
  | c :: rest => if "hlL".toList.contains c then rest else c :: rest
  | [] => []

/-- Reads a conversion up to the letter of its kind. -/
def read? (cs : List Char) : Option Conversion :=
  let (name, rest) := nameOf cs
  let flags := rest.takeWhile isFlag
  let (width, rest) := countOf (rest.dropWhile isFlag)
  let (precision, rest) := match rest with
    | '.' :: more => let (limit, rest) := countOf more; (some limit, rest)
    | _ => (none, rest)
  let form : Form :=
    { marked := flags.contains '#', atLeft := flags.contains '-', plus := flags.contains '+'
      blank := flags.contains ' ', zeros := flags.contains '0', width, precision }
  match dropLength rest with
  | letter :: after => some ⟨name, form, letter, cs.length - after.length⟩
  | [] => none

/-- The piece that a conversion stands for. -/
def piece (c : Conversion) : Piece :=
  match Filling.named? c.name, Kind.ofLetter? c.letter with
  | some filling, some kind => if c.form.fits then .place filling { c.form with kind } else .gap
  | _, _ => .gap

end Conversion

namespace Layout

/-- `[LEVEL] name: message`. -/
def standard : Layout :=
  [.text "[", .place .level {}, .text "] ", .place .name {}, .text ": ", .place .message {}]

/-- The line of what a logger was given, if all places can be filled. -/
def line? (layout : Layout) (level : Level) (name message : String) : Option String :=
  (layout.mapM (Piece.write? level name message)).map String.join

/-- The line of the standard layout. -/
def standardLine (level : Level) (name message : String) : String :=
  "[" ++ levelName level ++ "] " ++ name ++ ": " ++ message

/-- The piece that a percent sign starts, and how many more characters it is written with. Nothing but
a second percent sign makes it one. -/
def pieceAfterPercent (rest : List Char) : Piece × Nat :=
  match rest, Conversion.read? rest with
  | '%' :: _, _ => (.text "%", 1)
  | _, some conversion => (conversion.piece, conversion.length)
  | _, none => (.gap, 0)

/-- Reads the pieces after characters that are already taken. -/
def readAfter : (taken : Nat) → List Char → Layout
  | _, [] => []
  | taken + 1, _ :: rest => readAfter taken rest
  | 0, c :: rest =>
    if c = '%' then
      let (piece, length) := pieceAfterPercent rest
      piece :: readAfter length rest
    else .text c.toString :: readAfter 0 rest

def read (cs : List Char) : Layout := readAfter 0 cs

/-- The text after a number, in the digits of any script, or a star, if it starts with one. -/
def afterCount? : List Char → Option (List Char)
  | '*' :: rest => some rest
  | c :: rest => if isDecimalDigit c then some (rest.dropWhile isDecimalDigit) else none
  | [] => none

/-- The text starts with what may follow the percent sign of a place with a name. -/
def startsPlace (cs : List Char) : Bool :=
  let (name, rest) := Conversion.nameOf cs
  let rest := rest.dropWhile Conversion.isFlag
  let rest := (afterCount? rest).getD rest
  let rest := match rest with
    | '.' :: more => (afterCount? more).getD rest
    | _ => rest
  !name.isEmpty && rest.head?.any Conversion.isLetter

/-- A place with a name is written somewhere, even if a percent sign before it makes it plain text. -/
def mentionsPlace : List Char → Bool
  | [] => false
  | c :: rest => (c == '%' && startsPlace rest) || mentionsPlace rest

theorem line?_standard (level : Level) (name message : String) :
    standard.line? level name message = some (standardLine level name message) := by
  simp [line?, standard, standardLine, Piece.write?, Filling.content, Content.write?, String.join]

example : (read "%(name)-4s|%(message).2s|%%".toList).line? info "ab" "xyz" =
    some "ab  |xy|%" := by cbv

example : (read "5%%(name)s %(levelno)04d".toList).line? info "ab" "xyz" =
    some "5%(name)s 0020" := by cbv

example : (read "%(message)6r".toList).line? info "ab" "\t" = some "  '\\t'" := by cbv

example : (read "%(levelno)#06x %(levelno).1e".toList).line? info "ab" "xyz" =
    some "0x0014 2.0e+01" := by decide +kernel

example : (read "%(message)d".toList).line? info "ab" "xyz" = none := by cbv

end Layout

end Descent.Log
