/-
# Descent.Proofs.Differences.Polynomial — central differences of polynomials

On a line through a point a polynomial in several variables is one in a single variable
(`line`), of no higher degree, and its derivative there belongs to the slope along the line
(`derivative_line`).  Central differences are therefore exact as far as they are exact in one
variable: first differences up to the second degree (`eval_sub_eval`), second differences up to
the third (`eval_bend`).  A mixed difference is that of two second ones along the diagonals
(`eval_twist`).
-/
import Mathlib.Algebra.MvPolynomial.PDeriv
import Mathlib.RingTheory.Derivation.Lie
import Mathlib.RingTheory.MvPolynomial.IrreducibleQuadratic
import Mathlib.RingTheory.Polynomial.Basic
import Mathlib.Tactic.ComputeDegree
import Mathlib.Tactic.LinearCombination

namespace Descent.Differences
set_option autoImplicit false

open MvPolynomial

variable {K : Type} [Field K]

/-! ## One variable -/

section
variable {q : Polynomial K} (t : K)

/-- Differences about zero leave out the even terms. -/
theorem eval_sub_eval_neg (low : q.natDegree ≤ 2) :
    q.eval t - q.eval (-t) = 2 * t * q.derivative.eval 0 := by
  have first : q.derivative.eval 0 = q.coeff 1 := by
    rw [← Polynomial.coeff_zero_eq_eval_zero, Polynomial.coeff_derivative]
    ring
  rw [Polynomial.eval_eq_sum_range' (n := 3) (by omega) t,
    Polynomial.eval_eq_sum_range' (n := 3) (by omega) (-t), first]
  simp only [Finset.sum_range_succ, Finset.sum_range_zero]
  ring

/-- Second differences leave out the odd terms. -/
theorem eval_add_eval_neg (low : q.natDegree ≤ 3) :
    q.eval t - 2 * q.eval 0 + q.eval (-t) = t ^ 2 * q.derivative.derivative.eval 0 := by
  have second : q.derivative.derivative.eval 0 = 2 * q.coeff 2 := by
    rw [← Polynomial.coeff_zero_eq_eval_zero, Polynomial.coeff_derivative,
      Polynomial.coeff_derivative]
    push_cast
    ring
  rw [← Polynomial.coeff_zero_eq_eval_zero, Polynomial.eval_eq_sum_range' (n := 4) (by omega) t,
    Polynomial.eval_eq_sum_range' (n := 4) (by omega) (-t), second]
  simp only [Finset.sum_range_succ, Finset.sum_range_zero]
  ring

end

/-! ## Slopes -/

section
variable {n : ℕ}

/-- The derivative in a direction. -/
noncomputable def slope (e : Fin n → K) :
    Derivation K (MvPolynomial (Fin n) K) (MvPolynomial (Fin n) K) :=
  mkDerivation K fun k => C (e k)

@[simp] theorem slope_X (e : Fin n → K) (k : Fin n) : slope e (X k) = C (e k) :=
  mkDerivation_X ..

theorem slope_single (i : Fin n) : slope (Pi.single i (1 : K)) = pderiv i := by
  refine derivation_ext fun k => ?_
  rw [slope_X, pderiv_X]
  obtain rfl | other := eq_or_ne k i
  · simp
  · simp [other]

theorem slope_add (e e' : Fin n → K) : slope (e + e') = slope e + slope e' := by
  refine derivation_ext fun k => ?_
  simp

theorem slope_sub (e e' : Fin n → K) : slope (e - e') = slope e - slope e' := by
  refine derivation_ext fun k => ?_
  simp

/-- Slopes along two directions commute: their commutator is a derivation that vanishes on the
variables. -/
theorem slope_comm (e e' : Fin n → K) (p : MvPolynomial (Fin n) K) :
    slope e (slope e' p) = slope e' (slope e p) := by
  have commutator : ⁅slope e, slope e'⁆ = 0 := by
    refine derivation_ext fun k => ?_
    simp [Derivation.commutator_apply]
  have none := congrArg (· p) commutator
  exact sub_eq_zero.1 (by simpa [Derivation.commutator_apply] using none)

theorem pderiv_comm (i j : Fin n) (p : MvPolynomial (Fin n) K) :
    pderiv i (pderiv j p) = pderiv j (pderiv i p) := by
  rw [← slope_single, ← slope_single, slope_comm]

end

/-! ## Lines -/

section
variable {n : ℕ} (x e : Fin n → K)

/-- A polynomial along the line through a point in a direction. -/
noncomputable def line : MvPolynomial (Fin n) K →ₐ[K] Polynomial K :=
  aeval fun k => Polynomial.C (x k) + Polynomial.C (e k) * Polynomial.X

@[simp] theorem line_X (k : Fin n) :
    line x e (X k) = Polynomial.C (x k) + Polynomial.C (e k) * Polynomial.X := aeval_X ..

@[simp] theorem line_C (a : K) : line x e (C a) = Polynomial.C a := algHom_C ..

variable (p : MvPolynomial (Fin n) K)

theorem eval_line (t : K) : (line x e p).eval t = eval (x + t • e) p := by
  induction p using MvPolynomial.induction_on with
  | C a => simp
  | add p q ihp ihq => simp [ihp, ihq]
  | mul_X p k ih =>
    rw [map_mul, Polynomial.eval_mul, ih, map_mul]
    simp [mul_comm t]

theorem derivative_line : (line x e p).derivative = line x e (slope e p) := by
  induction p using MvPolynomial.induction_on with
  | C a => simp [slope]
  | add p q ihp ihq => simp [ihp, ihq]
  | mul_X p k ih =>
    rw [map_mul, Polynomial.derivative_mul, ih, Derivation.leibniz, slope_X, smul_eq_mul,
      smul_eq_mul, map_add, map_mul, map_mul, line_X, line_C]
    simp
    ring

theorem natDegree_line_le : (line x e p).natDegree ≤ p.totalDegree := by
  have linear (k : Fin n) :
      (Polynomial.C (x k) + Polynomial.C (e k) * Polynomial.X).natDegree ≤ 1 := by compute_degree
  exact (aeval_natDegree_le p le_rfl _ linear).trans_eq (mul_one _)

variable {p}

/-- First differences of quadratic polynomials are exact. -/
theorem eval_sub_eval (low : p.totalDegree ≤ 2) (t : K) :
    eval (x + t • e) p - eval (x - t • e) p = 2 * t * eval x (slope e p) := by
  have exact := eval_sub_eval_neg t ((natDegree_line_le x e p).trans low)
  rw [derivative_line] at exact
  simpa [eval_line, sub_eq_add_neg] using exact

/-- Second differences of cubic polynomials are exact. -/
theorem eval_bend (low : p.totalDegree ≤ 3) (t : K) :
    eval (x + t • e) p - 2 * eval x p + eval (x - t • e) p =
      t ^ 2 * eval x (slope e (slope e p)) := by
  have exact := eval_add_eval_neg t ((natDegree_line_le x e p).trans low)
  rw [derivative_line, derivative_line] at exact
  simpa [eval_line, sub_eq_add_neg] using exact

/-- So are the mixed ones. -/
theorem eval_twist (e' : Fin n → K) (low : p.totalDegree ≤ 3) (t : K) :
    eval (x + t • e + t • e') p - eval (x + t • e - t • e') p - eval (x - t • e + t • e') p +
      eval (x - t • e - t • e') p = 4 * t ^ 2 * eval x (slope e (slope e' p)) := by
  have rising := eval_bend x (e + e') low t
  have falling := eval_bend x (e - e') low t
  simp only [slope_add, slope_sub, Derivation.add_apply, Derivation.sub_apply, map_add, map_sub,
    slope_comm e' e p, smul_add, smul_sub] at rising falling
  rw [add_assoc x, add_sub_assoc x, sub_add x, sub_sub x]
  linear_combination rising - falling

end

end Descent.Differences
