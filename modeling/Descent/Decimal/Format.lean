/-
# Descent.Decimal.Format — decimal texts of a chosen precision

Three layouts of a double, each correctly rounded from its exact value (a tie
goes to the even digit): `scientific` (`-1.50e+00`), `fixed` (`-1.50`) and
`general`, which takes a number of significant digits, drops closing zeros and
chooses between the other two by the size of the value.  Each is a case of a layout
that leaves open what becomes of the point and the zeros behind the last digit.
-/
import Descent.Decimal.Dyadic

namespace Descent.Decimal
set_option autoImplicit false

/-- A text with zeros in front until it has the given width. -/
def padLeft (width : Nat) (digits : String) : String :=
  "".pushn '0' (width - digits.length) ++ digits

/-- An exponent with its sign and at least two digits. -/
def exponentText (e : Int) : String :=
  (if e < 0 then "e-" else "e+") ++ padLeft 2 e.natAbs.repr

/-- A whole number of `places`-th decimals with the point set. -/
def pointed (n places : Nat) : String :=
  if places == 0 then n.repr
  else (n / Nat.pow 10 places).repr ++ "." ++ padLeft places (n % Nat.pow 10 places).repr

/-- The first `places + 1` significant digits of a quotient, rounded, and the place of the first
one. Rounding up to the next power of ten moves that place. -/
def significant (places : Nat) (r : Ratio) : Nat × Int :=
  if r.num == 0 then (0, 0)
  else
    let e := r.exponent
    let scaled := r.scale ((places : Int) - e)
    let digits := roundDiv scaled.num scaled.den
    if digits == Nat.pow 10 (places + 1) then (Nat.pow 10 places, e + 1) else (digits, e)

/-- The text without zeros at the end of its decimals. -/
def trimZeros (s : String) : String :=
  if s.contains '.' then
    String.ofList ((s.toList.reverse.dropWhile (· == '0')).dropWhile (· == '.')).reverse
  else s

/-- Lays out a double with `finite` for its magnitude; the special values are `nan` and `inf`. -/
def withSign (x : Float) (finite : Ratio → String) : String :=
  let signed (negative : Bool) (s : String) := if negative then "-" ++ s else s
  match parts x with
  | .nan => "nan"
  | .infinite negative => signed negative "inf"
  | .finite negative mantissa e => signed negative (finite (Ratio.shift ⟨mantissa, 1⟩ e))

/-- The text with a point, if need be at its end. -/
def closePoint (s : String) : String := if s.contains '.' then s else s ++ "."

/-- One digit, the point, `places` digits, all `finish`ed; the exponent. -/
def scientificWith (finish : String → String) (places : Nat) (x : Float) : String :=
  withSign x fun r =>
    let (digits, e) := significant places r
    finish (pointed digits places) ++ exponentText e

/-- All digits before the point and `places` behind it, `finish`ed. -/
def fixedWith (finish : String → String) (places : Nat) (x : Float) : String :=
  withSign x fun r => finish (pointed (roundDiv (r.num * Nat.pow 10 places) r.den) places)

/-- The significant digits that the precision asks for, `finish`ed: positional when the first of them
stands between the fourth decimal and the last significant place before the point, scientific
otherwise. -/
def generalWith (finish : String → String) (precision : Nat) (x : Float) : String :=
  withSign x fun r =>
    let (digits, e) := significant (precision - 1) r
    if -4 ≤ e ∧ e < precision then
      let places := ((precision : Int) - 1 - e).toNat
      finish (pointed (roundDiv (r.num * Nat.pow 10 places) r.den) places)
    else finish (pointed digits (precision - 1)) ++ exponentText e

/-- One digit, the point, `places` digits, the exponent. -/
def scientific (places : Nat) (x : Float) : String := scientificWith id places x

/-- All digits before the point and `places` behind it. -/
def fixed (places : Nat) (x : Float) : String := fixedWith id places x

/-- At most `precision` significant digits, without zeros at the end of the decimals. -/
def general (precision : Nat) (x : Float) : String := generalWith trimZeros precision x

end Descent.Decimal
