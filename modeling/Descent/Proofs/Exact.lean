/-
# Descent.Proofs.Exact — arithmetic without rounding

The algorithms are written for any type of numbers.  Here the operations of an
ordered field become such numbers: nothing is rounded, every comparison is decided
and no value is undefined.  A square root is the nonnegative root where there is
one, so that over the reals it is the usual one.

`known f` is a function of numbers as the algorithms call it: it answers at every
point.
-/
import Descent.Fault
import Mathlib.Algebra.Order.Field.Basic
import Mathlib.Data.Rat.Cast.Order
import Mathlib.Tactic

namespace Descent
set_option autoImplicit false

section
variable {K : Type} [Field K] [LinearOrder K]

open Classical in
/-- The nonnegative root of a number that has one. -/
noncomputable def exactRoot (x : K) : K := if h : ∃ y, 0 ≤ y ∧ y * y = x then h.choose else 0

/-- The numbers of an ordered field. -/
noncomputable instance (priority := 40) Scalar.exact : Scalar K where
  zero := inferInstance
  one := inferInstance
  add := inferInstance
  sub := inferInstance
  mul := inferInstance
  div := inferInstance
  neg := inferInstance
  ofScientific := inferInstance
  lt := inferInstance
  le := inferInstance
  beq := ⟨fun x y => decide (x = y)⟩
  decLt := inferInstance
  decLe := inferInstance
  abs x := |x|
  sqrt := exactRoot
  sq x := x ^ 2
  isNaN _ := false
  isFinite _ := true
  isInvertible x := decide (x ≠ 0)

@[simp] theorem scalar_abs (x : K) : Scalar.abs x = |x| := rfl

@[simp] theorem maxFirst_exact (x y : K) : Scalar.maxFirst x y = max x y := (max_def_lt x y).symm

@[simp] theorem minFirst_exact (x y : K) : Scalar.minFirst x y = min x y := by
  rw [min_comm]
  exact (min_def_lt y x).symm

@[simp] theorem square_exact (x : K) : square x = .ok (x ^ 2) := rfl

theorem exactRoot_nonneg (x : K) : 0 ≤ exactRoot x := by
  unfold exactRoot
  split
  · rename_i root
    exact root.choose_spec.1
  · exact le_rfl

theorem exactRoot_mul_self [IsStrictOrderedRing K] {y : K} (nonneg : 0 ≤ y) :
    exactRoot (y * y) = y := by
  have root : ∃ z, 0 ≤ z ∧ z * z = y * y := ⟨y, nonneg, rfl⟩
  unfold exactRoot
  rw [dif_pos root]
  exact mul_self_inj_of_nonneg root.choose_spec.1 nonneg |>.1 root.choose_spec.2

theorem quotient_of_ne_zero (x : K) {y : K} (h : y ≠ 0) : quotient x y = .ok (x / y) := by
  simp [quotient, h]

end

/-- A function that answers at every point. -/
def known {α : Type} (f : α → α) : α → Except (Fault α) α := fun t => .ok (f t)

end Descent
