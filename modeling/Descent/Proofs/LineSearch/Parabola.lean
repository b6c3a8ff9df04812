/-
# Descent.Proofs.LineSearch.Parabola — the trial point of a parabola is its vertex

The two sums that a step divides vanish on constants, and each of them on one of the
other monomials, so on the values of a quadratic they are its two coefficients times one
product of differences (`dividend_quadratic`, `divisor_quadratic`).  The quotient is
therefore the point where the derivative is zero.  Three values at distinct points are
always those of a quadratic, and of one only (`exists_quadratic`, `Interpolates.unique`).

On a parabola that opens upwards none of the repairs of a step applies: the vertex is
strictly inside every bracket, and unless it is too close to the middle to be told apart
from it, it has the least value and moves there (`update_parabola`).
-/
import Descent.Proofs.LineSearch.ThreePoint
import Mathlib.LinearAlgebra.Lagrange

namespace Descent
set_option autoImplicit false

namespace Triple

/-! ## Samples of a quadratic -/

section
variable {K : Type} [Field K]

/-- The product of the differences of three points, in cyclic order. -/
def spread (p : Triple K) : K :=
  (p.left - p.mid) * (p.mid - p.right) * (p.right - p.left)

theorem dividend_quadratic (p : Triple K) (k l n : K) :
    dividend p (p.values fun t => k * t ^ 2 + l * t + n) = l * p.spread := by
  simp only [dividend, values, spread]
  ring

theorem divisor_quadratic (p : Triple K) (k l n : K) :
    divisor p (p.values fun t => k * t ^ 2 + l * t + n) = -(k * p.spread) := by
  simp only [divisor, values, spread]
  ring

/-- Any three values at distinct points are those of a quadratic. -/
theorem exists_quadratic {p : Triple K} (wide : p.spread ≠ 0) (v : Triple K) :
    ∃ k l n, v = p.values fun t => k * t ^ 2 + l * t + n := by
  have mid : (v.mid - v.left) * p.spread =
      -divisor p v * (p.mid ^ 2 - p.left ^ 2) + dividend p v * (p.mid - p.left) := by
    simp only [divisor, dividend, spread]
    ring
  have right : (v.right - v.left) * p.spread =
      -divisor p v * (p.right ^ 2 - p.left ^ 2) + dividend p v * (p.right - p.left) := by
    simp only [divisor, dividend, spread]
    ring
  generalize divisor p v = e at mid right
  generalize dividend p v = z at mid right
  refine ⟨-e / p.spread, z / p.spread,
    v.left - (-e / p.spread * p.left ^ 2 + z / p.spread * p.left), ?_⟩
  obtain ⟨_, _, _⟩ := v
  simp only [values, mk.injEq]
  refine ⟨by ring, ?_, ?_⟩
  · field_simp
    linear_combination mid
  · field_simp
    linear_combination right

/-- A polynomial of degree at most two through three samples. -/
structure Interpolates (p v : Triple K) (P : Polynomial K) : Prop where
  degree : P.degree ≤ 2
  left : P.eval p.left = v.left
  mid : P.eval p.mid = v.mid
  right : P.eval p.right = v.right

open Polynomial in
/-- The polynomial with given coefficients. -/
noncomputable def quadratic (k l n : K) : Polynomial K := C k * X ^ 2 + C l * X + C n

theorem eval_quadratic (k l n t : K) : (quadratic k l n).eval t = k * t ^ 2 + l * t + n := by
  simp [quadratic]

theorem interpolates_quadratic (p : Triple K) (k l n : K) :
    Interpolates p (p.values fun t => k * t ^ 2 + l * t + n) (quadratic k l n) :=
  ⟨Polynomial.degree_quadratic_le, eval_quadratic .., eval_quadratic .., eval_quadratic ..⟩

theorem derivative_quadratic [CharZero K] {k : K} (curved : k ≠ 0) (l n t : K) :
    (quadratic k l n).derivative.eval t = 0 ↔ t = -l / (2 * k) := by
  have doubled : (2 * k) ≠ 0 := mul_ne_zero two_ne_zero curved
  have slope : (quadratic k l n).derivative.eval t = t * (2 * k) + l := by
    simp [quadratic]
    ring
  rw [slope, eq_div_iff doubled, add_eq_zero_iff_eq_neg]

end

variable {K : Type} [Field K] [LinearOrder K] {p v : Triple K} {k m eps : K}

/-- Two polynomials through the same samples are the same. -/
theorem Interpolates.unique {P Q : Polynomial K} (left : p.left < p.mid) (right : p.mid < p.right)
    (through : Interpolates p v P) (other : Interpolates p v Q) : P = Q := by
  have three : ({p.left, p.mid, p.right} : Finset K).card = 3 :=
    Finset.card_eq_three.2 ⟨_, _, _, left.ne, (left.trans right).ne, right.ne, rfl⟩
  have below (R : Polynomial K) (degree : R.degree ≤ 2) :
      R.degree < ({p.left, p.mid, p.right} : Finset K).card := by
    rw [three]
    exact degree.trans_lt (by norm_num)
  refine Polynomial.eq_of_degrees_lt_of_eval_finset_eq _ (below P through.degree)
    (below Q other.degree) fun t sample => ?_
  simp only [Finset.mem_insert, Finset.mem_singleton] at sample
  rcases sample with rfl | rfl | rfl
  · rw [through.left, other.left]
  · rw [through.mid, other.mid]
  · rw [through.right, other.right]

variable [IsStrictOrderedRing K]

theorem spread_pos (left : p.left < p.mid) (right : p.mid < p.right) : 0 < p.spread :=
  mul_pos (mul_pos_of_neg_of_neg (sub_neg.2 left) (sub_neg.2 right))
    (sub_pos.2 (left.trans right))

/-- The two sums of a step divide to the stationary point of a quadratic. -/
theorem stationary_quadratic (left : p.left < p.mid) (right : p.mid < p.right) (curved : k ≠ 0)
    (l n : K) :
    stationary p (p.values fun t => k * t ^ 2 + l * t + n) = .ok (some (-l / (2 * k))) := by
  have wide := (spread_pos left right).ne'
  have nonzero : -(k * p.spread) ≠ 0 := neg_ne_zero.2 (mul_ne_zero curved wide)
  have vertex : 0.5 * (l * p.spread) / -(k * p.spread) = -l / (2 * k) := by
    norm_num
    field_simp
  rw [stationary_exact, divisor_quadratic, dividend_quadratic, if_neg nonzero,
    quotient_of_ne_zero _ nonzero, vertex]
  rfl

/-- The polynomial through three samples is stationary at their quotient, and nowhere else. -/
theorem stationary_interpolates (left : p.left < p.mid) (right : p.mid < p.right)
    (divides : divisor p v ≠ 0) :
    ∃ x, stationary p v = .ok (some x) ∧ ∃ P, Interpolates p v P ∧
      (∀ Q, Interpolates p v Q → Q = P) ∧ ∀ t, P.derivative.eval t = 0 ↔ t = x := by
  obtain ⟨k, l, n, rfl⟩ := exists_quadratic (spread_pos left right).ne' v
  have curved : k ≠ 0 := by
    rintro rfl
    rw [divisor_quadratic, zero_mul, neg_zero] at divides
    exact divides rfl
  have through := interpolates_quadratic p k l n
  exact ⟨_, stationary_quadratic left right curved l n, quadratic k l n, through,
    fun _ other => other.unique left right through, derivative_quadratic curved l n⟩

/-! ## Parabolas that open upwards -/

/-- Without rounding, two numbers are close if they are no farther apart than one of the two
tolerances. -/
theorem isClose_exact {relative absolute : K} (nonneg : 0 ≤ relative) (least : 0 ≤ absolute)
    (x y : K) :
    Scalar.isClose x y relative absolute = true ↔
      |x - y| ≤ max (relative * max |x| |y|) absolute := by
  have left : |relative * x| = relative * |x| := by rw [abs_mul, abs_of_nonneg nonneg]
  have right : |relative * y| = relative * |y| := by rw [abs_mul, abs_of_nonneg nonneg]
  have same : x = y → |x - y| ≤ absolute := by
    rintro rfl
    rwa [sub_self, abs_zero]
  have finite (z : K) : Scalar.isInfinite z = false := rfl
  rw [mul_max_of_nonneg _ _ nonneg, le_max_iff, le_max_iff]
  simp only [Scalar.isClose, finite, Bool.not_false, Bool.true_and, Bool.or_eq_true, beq_iff_eq,
    decide_eq_true_eq, scalar_abs, left, right, abs_sub_comm y x]
  tauto

/-- The vertex is strictly inside every bracket. -/
theorem vertex_between {A B : K} (opens : 0 < A)
    (brackets : Brackets (fun t => A * (t - m) ^ 2 + B) p) : p.left < m ∧ m < p.right := by
  obtain ⟨left, right, falls, rises⟩ := brackets
  have falls : (p.mid - m) ^ 2 ≤ (p.left - m) ^ 2 := le_of_mul_le_mul_left (by linarith) opens
  have rises : (p.mid - m) ^ 2 ≤ (p.right - m) ^ 2 := le_of_mul_le_mul_left (by linarith) opens
  constructor <;> nlinarith

theorem spacing_pos : (0 : K) < Scalar.spacing := by
  unfold Scalar.spacing
  norm_num

/-- No repair moves a point strictly inside that is not close to the middle. -/
theorem repair_of_apart {x : K} (after : p.left < x) (before : x < p.right)
    (apart : max (4 * Scalar.spacing * max |x| |p.mid|) Scalar.spacing < |x - p.mid|) :
    p.repair eps x = x := by
  have four : (4.0 : K) = 4 := by norm_num
  have relative : (0 : K) ≤ 4 * Scalar.spacing := mul_nonneg zero_le_four spacing_pos.le
  have far : ¬ Scalar.isClose x p.mid (4.0 * Scalar.spacing) Scalar.spacing = true := by
    rw [four, isClose_exact relative spacing_pos.le]
    exact apart.not_ge
  have other : x ≠ p.mid := by
    rintro rfl
    rw [sub_self, abs_zero] at apart
    exact (spacing_pos.trans_le (le_max_right ..)).not_gt apart
  simp [repair, far, after, before, other]

omit [IsStrictOrderedRing K] in
/-- A least value is put in the middle, on either side of it. -/
theorem insert_mid_of_le {x fx : K} (least : fx ≤ v.mid) : (insert p v x fx).1.mid = x := by
  unfold insert
  rw [if_neg least.not_gt, if_neg least.not_gt]
  split <;> rfl

/-- One step along a parabola moves the middle to the vertex. -/
theorem update_parabola {A B : K} (opens : 0 < A)
    (brackets : Brackets (fun t => A * (t - m) ^ 2 + B) p)
    (apart : max (4 * Scalar.spacing * max |m| |p.mid|) Scalar.spacing < |m - p.mid|) :
    ∃ q, update (known fun t => A * (t - m) ^ 2 + B) p eps = .ok q ∧ q.mid = m := by
  have expanded : (fun t => A * (t - m) ^ 2 + B) =
      fun t => A * t ^ 2 + -(2 * A * m) * t + (A * m ^ 2 + B) := by
    funext t
    ring
  have vertex : - -(2 * A * m) / (2 * A) = m := by
    field_simp
  have placed : stationary p (p.values fun t => A * (t - m) ^ 2 + B) = .ok (some m) := by
    rw [expanded, stationary_quadratic brackets.left brackets.right opens.ne', vertex]
  obtain ⟨after, before⟩ := vertex_between opens brackets
  have tried : trial (fun t => A * (t - m) ^ 2 + B) eps p = m := by
    have repaired : Triple.vertex p (p.values fun t => A * (t - m) ^ 2 + B) eps = .ok m := by
      rw [Triple.vertex, placed, ok_bind]
      exact congrArg Except.ok (repair_of_apart after before apart)
    rw [trial, repaired]
  have least : A * (m - m) ^ 2 + B ≤ A * (p.mid - m) ^ 2 + B := by
    rw [sub_self, zero_pow two_ne_zero, mul_zero]
    gcongr
    positivity
  refine ⟨_, update_eq_next (placed_exact _ eps) p, ?_⟩
  rw [next, tried]
  exact insert_mid_of_le least

/-- A step is exact on a parabola that opens upwards: its vertex is strictly inside every bracket,
and the step moves the middle there unless the two are too close to be told apart.  For any three
samples whose divisor is not zero, the point that a step starts from, before it is repaired, is the
stationary point of the one parabola through them. -/
theorem steps_reach_vertex :
    (∀ (A B m eps : K) (p : Triple K), 0 < A → Brackets (fun t => A * (t - m) ^ 2 + B) p →
      p.left < m ∧ m < p.right ∧
        (¬ |m - p.mid| ≤ max (4 * Scalar.spacing * max |m| |p.mid|) Scalar.spacing →
          ∃ q, update (known fun t => A * (t - m) ^ 2 + B) p eps = .ok q ∧ q.mid = m)) ∧
    ∀ p v : Triple K, p.left < p.mid → p.mid < p.right → divisor p v ≠ 0 →
      ∃ x, stationary p v = .ok (some x) ∧
        (∀ eps, Triple.vertex p v eps = .ok (p.repair eps x)) ∧
        ∃ P : Polynomial K, Interpolates p v P ∧ (∀ Q, Interpolates p v Q → Q = P) ∧
          ∀ t, P.derivative.eval t = 0 ↔ t = x := by
  refine ⟨fun A B m eps p opens brackets => ?_, fun p v left right divides => ?_⟩
  · obtain ⟨after, before⟩ := vertex_between opens brackets
    exact ⟨after, before, fun apart => update_parabola opens brackets (not_le.1 apart)⟩
  · obtain ⟨x, placed, interpolated⟩ := stationary_interpolates left right divides
    refine ⟨x, placed, fun eps => ?_, interpolated⟩
    rw [Triple.vertex, placed]
    rfl

/-- A parabola with its vertex on the right of the middle, and three samples that are not those of a
line. -/
theorem steps_reach_vertex_quarter :
    (∃ q, update (known fun t : ℚ => 2 * (t - 1 / 4) ^ 2 + 1) ⟨-1, 0, 3⟩ (1 / 100) = .ok q ∧
        q.mid = 1 / 4) ∧
      ∃ x, stationary ⟨0, 1, 3⟩ (⟨5, 1, 7⟩ : Triple ℚ) = .ok (some x) := by
  obtain ⟨parabolas, samples⟩ := steps_reach_vertex (K := ℚ)
  have brackets : Brackets (fun t : ℚ => 2 * (t - 1 / 4) ^ 2 + 1) ⟨-1, 0, 3⟩ := by
    constructor <;> norm_num
  obtain ⟨-, -, moves⟩ := parabolas 2 1 (1 / 4) (1 / 100) ⟨-1, 0, 3⟩ two_pos brackets
  obtain ⟨x, placed, -⟩ := samples ⟨0, 1, 3⟩ ⟨5, 1, 7⟩ zero_lt_one (by norm_num)
    (by norm_num [divisor])
  refine ⟨moves ?_, x, placed⟩
  norm_num [Scalar.spacing]

end Triple

end Descent
