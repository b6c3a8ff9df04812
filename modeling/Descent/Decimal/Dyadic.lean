/-
# Descent.Decimal.Dyadic — the exact value of a double

A finite double is `± mantissa * 2 ^ exponent`.  Its decimal texts are computed
from that value in whole numbers: `Ratio` is a non-negative quotient, `roundDiv`
rounds one to the nearest whole number, and `Ratio.exponent` is the place of its
first decimal digit.
-/
namespace Descent.Decimal
set_option autoImplicit false

/-- What the bits of a double stand for. -/
inductive Parts where
  | nan
  | infinite (negative : Bool)
  | finite (negative : Bool) (mantissa : Nat) (exponent : Int)

/-- Exponents are biased by 1075 and share one place below the normal range, where the mantissa
has no leading one. -/
def parts (x : Float) : Parts :=
  let bits := x.toBits.toNat
  let negative := bits / Nat.pow 2 63 == 1
  let biased : Nat := bits / Nat.pow 2 52 % Nat.pow 2 11
  let fraction : Nat := bits % Nat.pow 2 52
  if biased == 2047 then
    if fraction == 0 then .infinite negative else .nan
  else if biased == 0 then .finite negative fraction (-1074)
  else .finite negative (Nat.pow 2 52 + fraction) ((biased : Int) - 1075)

/-- A non-negative quotient of whole numbers. -/
structure Ratio where
  num : Nat
  den : Nat

namespace Ratio

/-- The quotient times `2 ^ e`. -/
def shift (r : Ratio) (e : Int) : Ratio :=
  if 0 ≤ e then ⟨r.num * Nat.pow 2 e.toNat, r.den⟩ else ⟨r.num, r.den * Nat.pow 2 (-e).toNat⟩

/-- The quotient times `10 ^ e`. -/
def scale (r : Ratio) (e : Int) : Ratio :=
  if 0 ≤ e then ⟨r.num * Nat.pow 10 e.toNat, r.den⟩ else ⟨r.num, r.den * Nat.pow 10 (-e).toNat⟩

/-- The greatest `e` with `10 ^ e ≤ r`, for a positive quotient `r`: one less than the number of
digits before the point or, below one, the number of places until a digit is not zero. -/
def exponent (r : Ratio) : Int :=
  if r.den ≤ r.num then ((r.num / r.den).repr.length : Int) - 1
  else -(((r.den + r.num - 1) / r.num - 1).repr.length : Int)

end Ratio

/-- The nearest whole number to `num / den`; a tie goes to the even one. -/
def roundDiv (num den : Nat) : Nat :=
  let below := num / den
  let rest := num % den
  if 2 * rest < den then below
  else if den < 2 * rest then below + 1
  else below + below % 2

theorem roundDiv_of_dvd {num den : Nat} (pos : 0 < den) (divides : den ∣ num) :
    roundDiv num den = num / den := by
  have none_left : num % den = 0 := Nat.mod_eq_zero_of_dvd divides
  simp [roundDiv, none_left, pos]

/-- The rounded quotient is at most half a unit away. -/
theorem roundDiv_near (num den : Nat) (pos : 0 < den) :
    2 * num ≤ 2 * (roundDiv num den * den) + den ∧ 2 * (roundDiv num den * den) ≤ 2 * num + den := by
  have split := Nat.div_add_mod num den
  have small := Nat.mod_lt num pos
  have up : (num / den + 1) * den = den * (num / den) + den := by
    rw [Nat.add_mul, Nat.one_mul, Nat.mul_comm]
  have down : num / den * den = den * (num / den) := Nat.mul_comm _ _
  unfold roundDiv
  dsimp only
  split
  · omega
  · split
    · omega
    · rcases Nat.mod_two_eq_zero_or_one (num / den) with even | odd
      · rw [even, Nat.add_zero]; omega
      · rw [odd]; omega

end Descent.Decimal
