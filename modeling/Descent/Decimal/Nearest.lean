/-
# Descent.Decimal.Nearest — the double nearest to a decimal

A decimal is read in whole numbers: its value is scaled by the power of two that
leaves a mantissa of 53 digits, or fewer where doubles end, and rounded to the
nearest whole number, a tie to the even one.  Mantissa and exponent then make up
the bits; a mantissa that is rounded up to the next power of two carries over.
-/
import Descent.Decimal.Dyadic

namespace Descent.Decimal
set_option autoImplicit false

/-- The greatest `k` with `2 ^ k ≤ r`, for a positive quotient `r`. -/
def Ratio.binaryExponent (r : Ratio) : Int :=
  let k : Int := (r.num.log2 : Int) - r.den.log2
  let scaled := r.shift (-k)
  if scaled.den ≤ scaled.num then k else k - 1

/-- The bits of the magnitude of the double nearest to a positive quotient. -/
def nearestBits (r : Ratio) : Nat :=
  let e := max (-1074) (r.binaryExponent - 52)
  let scaled := r.shift (-e)
  min (2047 * Nat.pow 2 52) ((e + 1074).toNat * Nat.pow 2 52 + roundDiv scaled.num scaled.den)

/-- No magnitude is greater than the infinite one. -/
theorem nearestBits_le (r : Ratio) : nearestBits r ≤ 2047 * Nat.pow 2 52 := Nat.min_le_left _ _

/-- The double nearest to `± digits * 10 ^ e`. Where the first digit stands beyond the four hundredth
place on either side of the point, the value is too large or too small in any case. -/
def nearest (negative : Bool) (digits : Nat) (e : Int) : Float :=
  let place := e + digits.repr.length
  let magnitude : Nat :=
    if digits == 0 || place < -400 then 0
    else if 400 < place then 2047 * Nat.pow 2 52
    else nearestBits (Ratio.scale ⟨digits, 1⟩ e)
  Float.ofBits (UInt64.ofNat (magnitude + if negative then Nat.pow 2 63 else 0))

/-- The double nearest to a whole number. -/
def nearestInt (n : Int) : Float := nearest (n < 0) n.natAbs 0

end Descent.Decimal
