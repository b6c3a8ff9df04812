/-
# Descent.Decimal.Shortest — the fewest digits that read back

A decimal reads back as a double if it lies in the interval of reals that round
to it.  For one digit, two digits and so on, the two neighbours of the value on
the decimal grid of that many digits are tried; the first grid with a neighbour
in the interval gives the digits, and of two the nearer one is taken.
-/
import Descent.Decimal.Format

namespace Descent.Decimal
set_option autoImplicit false

/-- The reals that round to a positive double, as quotients of one denominator; the ends belong
to it when the mantissa is even. -/
structure Interval where
  low : Nat
  value : Nat
  high : Nat
  den : Nat
  closed : Bool

/-- Half a unit lies above the value, and half a unit of its own binade below: that is a quarter
when the mantissa is the least one of a binade that has another binade below it. -/
def interval (mantissa : Nat) (e : Int) : Interval :=
  let narrow := mantissa == Nat.pow 2 52 && e != -1074
  let units (quarters : Nat) : Nat := (Ratio.shift ⟨quarters, 1⟩ (e - 2)).num
  { low := units (4 * mantissa - (if narrow then 1 else 2))
    value := units (4 * mantissa)
    high := units (4 * mantissa + 2)
    den := (Ratio.shift ⟨1, 1⟩ (e - 2)).den
    closed := mantissa % 2 == 0 }

/-- The multiple of `10 ^ k` next to the value that lies in the interval, if there is one. -/
def Interval.neighbour? (i : Interval) (k : Int) : Option Nat :=
  let den := (Ratio.scale ⟨1, i.den⟩ (-k)).den
  let factor := (Ratio.scale ⟨1, 1⟩ (-k)).num
  let below := i.value * factor / den
  let inside (n : Nat) : Bool :=
    let low := i.low * factor
    let high := i.high * factor
    if i.closed then low ≤ n * den && n * den ≤ high else low < n * den && n * den < high
  let toBelow := i.value * factor - below * den
  let toAbove := (below + 1) * den - i.value * factor
  match inside below, inside (below + 1) with
  | true, true =>
    if toBelow < toAbove || (toBelow == toAbove && below % 2 == 0) then some below
    else some (below + 1)
  | true, false => some below
  | false, true => some (below + 1)
  | false, false => none

/-- Digits and place of the first digit, on the coarsest grid from `count` digits on; `limit`
bounds the number of grids tried. -/
def Interval.digits (i : Interval) (e : Int) : (limit count : Nat) → Nat × Int
  | 0, _ => (i.value, e)
  | limit + 1, count =>
    match i.neighbour? (e + 1 - count) with
    | some n => if n == Nat.pow 10 count then (1, e + 1) else (n, e)
    | none => i.digits e limit (count + 1)

/-- Seventeen digits are always enough. -/
def shortestDigits (mantissa : Nat) (e : Int) : Nat × Int :=
  let i := interval mantissa e
  i.digits (Ratio.exponent ⟨i.value, i.den⟩) 17 1

/-- Where the positional layout begins and ends, by the place of the first digit. -/
structure Layout where
  first : Int
  below : Int

/-- The shortest digits, positional within the layout's range (then with at least one decimal)
and scientific outside it. -/
def shortest (layout : Layout) (x : Float) : String :=
  match parts x with
  | .finite negative mantissa e =>
    let sign := if negative then "-" else ""
    if mantissa == 0 then sign ++ "0.0"
    else
      let (digits, place) := shortestDigits mantissa e
      let text := digits.repr
      let whole := text.length
      if layout.first ≤ place ∧ place < layout.below then
        if place < 0 then sign ++ "0." ++ "".pushn '0' (-place - 1).toNat ++ text
        else if (whole : Int) ≤ place + 1 then
          sign ++ text.pushn '0' (place + 1 - whole).toNat ++ ".0"
        else sign ++ pointed digits (whole - 1 - place.toNat)
      else sign ++ pointed digits (whole - 1) ++ exponentText place
  | _ => withSign x fun _ => ""

end Descent.Decimal
