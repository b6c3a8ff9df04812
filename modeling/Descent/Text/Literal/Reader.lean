/-
# Descent.Text.Literal.Reader — literals as they are written down

Literals are read in JSON: `null`, `true` and `false`, numbers, texts in double
marks, lists and records.  A number without a fraction and without an exponent is
whole, any other one is the nearest double; `NaN`, `Infinity` and `-Infinity` are
numbers too.  Fields of a record keep their order.
-/
import Descent.Decimal.Nearest
import Descent.Text.Literal

namespace Descent.Text.Literal
set_option autoImplicit false

/-- Takes something off the front of a text and leaves the rest. -/
abbrev Reader (β : Type) := List Char → Option (β × List Char)

def isBlank (c : Char) : Bool := c == ' ' || c == '\t' || c == '\n' || c == '\r'

/-- The text from its first character that is not blank. -/
def skipBlanks (s : List Char) : List Char := s.dropWhile isBlank

/-! ## Numbers -/

/-- The number with these decimal digits. -/
def natOf (digits : List Char) : Nat := digits.foldl (fun n c => 10 * n + (c.toNat - '0'.toNat)) 0

/-- The exponent of ten behind a number, if one is written there. -/
def exponent : Reader Int := fun s =>
  let signed (sign : Int) (s : List Char) : Option (Int × List Char) :=
    match s.takeWhile Char.isDigit with
    | [] => none
    | digits => some (sign * natOf digits, s.dropWhile Char.isDigit)
  let behind (s : List Char) : Option (Int × List Char) :=
    match s with
    | '-' :: rest => signed (-1) rest
    | '+' :: rest => signed 1 rest
    | _ => signed 1 s
  match s with
  | 'e' :: rest => behind rest
  | 'E' :: rest => behind rest
  | _ => none

/-- The digits behind the point of a number, if there is one. -/
def decimals : Reader (List Char) := fun s =>
  match s with
  | '.' :: rest =>
    match rest.takeWhile Char.isDigit with
    | [] => none
    | digits => some (digits, rest.dropWhile Char.isDigit)
  | _ => none

/-- A number without its sign. -/
def magnitude (negative : Bool) : Reader Literal := fun s =>
  match s.takeWhile Char.isDigit with
  | [] => none
  | digits =>
    let rest := s.dropWhile Char.isDigit
    let (fraction, rest) := (decimals rest).getD ([], rest)
    match exponent rest with
    | some (e, rest) =>
      some (.number (Decimal.nearest negative (natOf (digits ++ fraction)) (e - fraction.length)),
        rest)
    | none =>
      if fraction.isEmpty then some (.whole (if negative then -natOf digits else natOf digits), rest)
      else
        some (.number (Decimal.nearest negative (natOf (digits ++ fraction)) (-fraction.length)),
          rest)

/-! ## Texts -/

/-- A number of four hexadecimal digits. -/
def hexOf? (digits : List Char) : Option Nat :=
  digits.foldlM (fun n c =>
    if c.isDigit then some (16 * n + (c.toNat - '0'.toNat))
    else if 'a' ≤ c ∧ c ≤ 'f' then some (16 * n + (c.toNat - 'a'.toNat + 10))
    else if 'A' ≤ c ∧ c ≤ 'F' then some (16 * n + (c.toNat - 'A'.toNat + 10))
    else none) 0

/-- The character that a letter behind a backslash stands for. -/
def unescaped? : Char → Option Char
  | '"' => some '"'
  | '\\' => some '\\'
  | '/' => some '/'
  | 'b' => some '\x08'
  | 'f' => some '\x0c'
  | 'n' => some '\n'
  | 'r' => some '\r'
  | 't' => some '\t'
  | _ => none

/-- Positions of the characters up to the closing mark. A character outside the basic plane may be
given by two surrogates. -/
def positions : Reader (List Nat)
  | '"' :: rest => some ([], rest)
  | '\\' :: 'u' :: a :: b :: c :: d :: rest => do
    let n ← hexOf? [a, b, c, d]
    let (more, rest) ← positions rest
    return (n :: more, rest)
  | '\\' :: c :: rest => do
    let n := (← unescaped? c).toNat
    let (more, rest) ← positions rest
    return (n :: more, rest)
  | c :: rest => do
    let (more, rest) ← positions rest
    return (c.toNat :: more, rest)
  | [] => none

/-- The characters at some positions; two surrogates make one character. -/
def characters : List Nat → List Char
  | high :: low :: rest =>
    if 0xD800 ≤ high ∧ high < 0xDC00 ∧ 0xDC00 ≤ low ∧ low < 0xE000 then
      Char.ofNat (0x10000 + (high - 0xD800) * 0x400 + (low - 0xDC00)) :: characters rest
    else Char.ofNat high :: characters (low :: rest)
  | [n] => [Char.ofNat n]
  | [] => []

/-- A text behind its opening mark. -/
def textBehindMark : Reader String := fun s => do
  let (found, rest) ← positions s
  return (String.ofList (characters found), rest)

/-! ## Values -/

mutual

/-- A value. Every value takes at least one character, so that `limit` can be the length of the
text. -/
def value : (limit : Nat) → Reader Literal
  | 0, _ => none
  | limit + 1, s =>
    match skipBlanks s with
    | 'n' :: 'u' :: 'l' :: 'l' :: rest => some (.missing, rest)
    | 't' :: 'r' :: 'u' :: 'e' :: rest => some (.truth true, rest)
    | 'f' :: 'a' :: 'l' :: 's' :: 'e' :: rest => some (.truth false, rest)
    | 'N' :: 'a' :: 'N' :: rest => some (.number (0.0 / 0.0), rest)
    | 'I' :: 'n' :: 'f' :: 'i' :: 'n' :: 'i' :: 't' :: 'y' :: rest => some (.number (1.0 / 0.0), rest)
    | '-' :: 'I' :: 'n' :: 'f' :: 'i' :: 'n' :: 'i' :: 't' :: 'y' :: rest =>
      some (.number (-(1.0 / 0.0)), rest)
    | '"' :: rest => (textBehindMark rest).map fun (found, rest) => (.text found, rest)
    | '[' :: rest =>
      match skipBlanks rest with
      | ']' :: rest => some (.list [], rest)
      | _ => (listed limit rest).map fun (found, rest) => (.list found, rest)
    | '\x7b' :: rest =>
      match skipBlanks rest with
      | '\x7d' :: rest => some (.record [], rest)
      | _ => (fields limit rest).map fun (found, rest) => (.record found, rest)
    | '-' :: rest => magnitude true rest
    | s => magnitude false s

/-- The values of a list up to its closing bracket. -/
def listed : (limit : Nat) → Reader (List Literal)
  | 0, _ => none
  | limit + 1, s => do
    let (first, rest) ← value limit s
    match skipBlanks rest with
    | ']' :: rest => return ([first], rest)
    | ',' :: rest =>
      let (more, rest) ← listed limit rest
      return (first :: more, rest)
    | _ => none

/-- The fields of a record up to its closing brace. -/
def fields : (limit : Nat) → Reader (List (String × Literal))
  | 0, _ => none
  | limit + 1, s =>
    match skipBlanks s with
    | '"' :: rest => do
      let (name, rest) ← textBehindMark rest
      match skipBlanks rest with
      | ':' :: rest =>
        let (first, rest) ← value limit rest
        match skipBlanks rest with
        | '\x7d' :: rest => return ([(name, first)], rest)
        | ',' :: rest =>
          let (more, rest) ← fields limit rest
          return ((name, first) :: more, rest)
        | _ => none
      | _ => none
    | _ => none

end

/-- The literal that a text holds, if it holds one and nothing else. -/
def read? (s : String) : Option Literal :=
  match value (s.length + 1) s.toList with
  | some (found, rest) => if (skipBlanks rest).isEmpty then some found else none
  | none => none

/-! ## Parts of a literal -/

/-- The field of that name; of several the last one counts. -/
def field? (name : String) : Literal → Option Literal
  | .record fields => (fields.reverse.find? (·.1 == name)).map (·.2)
  | _ => none

/-- The values of a list. -/
def items : Literal → List Literal
  | .list values => values
  | _ => []

/-- The number that a literal stands for. The numbers that are not finite may be written as texts. -/
def float? : Literal → Option Float
  | .number x => some x
  | .whole n => some (Decimal.nearestInt n)
  | .truth b => some (if b then 1 else 0)
  | .text "nan" => some (0.0 / 0.0)
  | .text "inf" => some (1.0 / 0.0)
  | .text "-inf" => some (-(1.0 / 0.0))
  | _ => none

def whole? : Literal → Option Int
  | .whole n => some n
  | _ => none

end Descent.Text.Literal
