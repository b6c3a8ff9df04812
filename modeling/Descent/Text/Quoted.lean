/-
# Descent.Text.Quoted — texts in quotation marks

A quoted text stands between single marks, or between double marks if it holds a
single one and no double one.  A backslash and the mark itself are escaped; line
feed, carriage return and tab have letters, other characters that do not print,
or all beyond ASCII, are written in hexadecimal with two, four or eight digits.
-/
import Descent.Text.Printable

namespace Descent.Text
set_option autoImplicit false

/-- The mark that needs fewer escapes. -/
def quotationMark (s : String) : Char :=
  if s.contains '\'' && !s.contains '"' then '"' else '\''

/-- A number in hexadecimal with at least `width` digits. -/
def hexadecimal (width n : Nat) : String :=
  let digits := Nat.toDigits 16 n
  String.ofList (List.replicate (width - digits.length) '0' ++ digits)

/-- A character by its number. -/
def numbered (c : Char) : String :=
  if c.toNat < 0x100 then "\\x" ++ hexadecimal 2 c.toNat
  else if c.toNat < 0x10000 then "\\u" ++ hexadecimal 4 c.toNat
  else "\\U" ++ hexadecimal 8 c.toNat

/-- A character as it stands between marks. -/
def escaped (mark c : Char) : String :=
  if c == mark || c == '\\' then String.ofList ['\\', c]
  else if c == '\n' then "\\n"
  else if c == '\r' then "\\r"
  else if c == '\t' then "\\t"
  else if isPrintable c then c.toString
  else numbered c

/-- The text in quotation marks. -/
def quoted (s : String) : String :=
  let mark := quotationMark s
  s.foldl (fun out c => out ++ escaped mark c) mark.toString ++ mark.toString

/-- The text in quotation marks, with characters beyond ASCII by their numbers. -/
def quotedAscii (s : String) : String :=
  (quoted s).foldl (fun out c => out ++ if c.toNat < 0x80 then c.toString else numbered c) ""

end Descent.Text
