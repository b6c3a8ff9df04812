/-
# Descent.Scalar.Double — IEEE double precision

The arithmetic in which the programs run: `Float` with its own operations.  The
second power goes through `Float.pow`, as every other power does.
-/
import Descent.Scalar

namespace Descent
set_option autoImplicit false

/-- The least positive number with all its digits, `2 ^ -1022`. The reciprocals of smaller numbers
may overflow. -/
def leastNormal : Float := Float.ofBits 0x0010000000000000

instance : Scalar Float where
  zero := ⟨0⟩
  one := ⟨1⟩
  add := inferInstance
  sub := inferInstance
  mul := inferInstance
  div := inferInstance
  neg := inferInstance
  ofScientific := inferInstance
  lt := inferInstance
  le := inferInstance
  beq := inferInstance
  decLt := inferInstance
  decLe := inferInstance
  abs := Float.abs
  sqrt := Float.sqrt
  sq x := Float.pow x 2
  isNaN := Float.isNaN
  isFinite := Float.isFinite
  isInvertible x := leastNormal ≤ x.abs

instance : Extended Float where
  inf := 1.0 / 0.0
  nan := 0.0 / 0.0

instance : Elementary Float where
  exp := Float.exp
  log := Float.log
  sin := Float.sin
  cos := Float.cos
  tan := Float.tan
  atan := Float.atan
  pow := Float.pow

end Descent
