/-
# Descent.Proofs.Equations.Dogleg.Path — where the bent path leaves the ball

Over the real numbers a dogleg step for a gradient that does not vanish is one of four points
(`Path`), whatever the model: the full step where it fits, the step along `-g` to the boundary,
the Cauchy step, or the point where the way from the Cauchy step to a full step that does not
fit leaves the ball.  `doglegStep_embed` finds it for the real numbers and for those that may
be undefined.

The last of the four carries the bound.  On the way from inside the ball to outside of it,
`a t² + b t + c` is negative at zero and positive at one, so its greater root lies between, the
discriminant is not negative, and none of the values that the program cuts off is changed.
-/
import Descent.Proofs.Equations.Dogleg.Step
import Descent.Proofs.Linear.Factors

namespace Descent.Dogleg
set_option autoImplicit false

open Matrix

variable {n : ℕ} {g c q : Fin n → ℝ} {B : Matrix (Fin n) (Fin n) ℝ} {r : ℝ}

/-! ## Leaving the ball -/

section
variable {a b c t : ℝ} (convex : 0 < a) (start : c < 0) (finish : 0 < a + b + c)
  (root : t = (-b + √(b * b - 4 * a * c)) / (2 * a))
include convex start

theorem discriminant_nonneg : 0 ≤ b * b - 4 * a * c := by
  have rises : a * c < 0 := mul_neg_of_pos_of_neg convex start
  linarith [mul_self_nonneg b]

include root

theorem root_solves : a * t ^ 2 + b * t + c = 0 := by
  have square : √(b * b - 4 * a * c) ^ 2 = b * b - 4 * a * c :=
    Real.sq_sqrt (discriminant_nonneg convex start)
  have value : 2 * a * t = -b + √(b * b - 4 * a * c) := by
    rw [root, mul_div_cancel₀ _ (by positivity)]
  have scaled : 4 * a * (a * t ^ 2 + b * t + c) = 0 := by
    linear_combination (2 * a * t + b + √(b * b - 4 * a * c)) * value + square
  exact (mul_eq_zero.1 scaled).resolve_left (by positivity)

theorem root_nonneg : 0 ≤ t := by
  have larger : |b| ≤ √(b * b - 4 * a * c) := by
    refine Real.abs_le_sqrt ?_
    have rises : a * c < 0 := mul_neg_of_pos_of_neg convex start
    linarith [sq b]
  rw [root]
  exact div_nonneg (by linarith [le_abs_self b]) (by positivity)

include finish

theorem root_le_one : t ≤ 1 := by
  rw [root, div_le_one (by positivity)]
  have size : √(b * b - 4 * a * c) ≤ 2 * a + b := by
    refine Real.sqrt_le_iff.2 ⟨by linarith, ?_⟩
    have gap : 0 < a * (a + b + c) := mul_pos convex finish
    linarith [sq (2 * a + b), mul_comm a b]
  linarith

end

/-- On the way from `c` to `q` the ball of radius `r` is left at `t`, and nothing is cut off there: the
points are apart, the discriminant is not negative, and the root lies between zero and one. -/
structure Leaves (c q : Fin n → ℝ) (r t : ℝ) : Prop where
  apart : 0 < (q - c) ⬝ᵥ (q - c)
  discriminant : 0 ≤ 2 * (c ⬝ᵥ (q - c)) * (2 * (c ⬝ᵥ (q - c))) -
    4 * ((q - c) ⬝ᵥ (q - c)) * (c ⬝ᵥ c - r ^ 2)
  root : t = (-(2 * (c ⬝ᵥ (q - c))) + √(2 * (c ⬝ᵥ (q - c)) * (2 * (c ⬝ᵥ (q - c))) -
    4 * ((q - c) ⬝ᵥ (q - c)) * (c ⬝ᵥ c - r ^ 2))) / (2 * ((q - c) ⬝ᵥ (q - c)))
  nonneg : 0 ≤ t
  le_one : t ≤ 1

theorem dotProduct_self_add_smul (u w : Fin n → ℝ) (t : ℝ) :
    (u + t • w) ⬝ᵥ (u + t • w) = w ⬝ᵥ w * t ^ 2 + 2 * (u ⬝ᵥ w) * t + u ⬝ᵥ u := by
  simp only [add_dotProduct, dotProduct_add, smul_dotProduct, dotProduct_smul, smul_eq_mul,
    dotProduct_comm w u]
  ring

section
variable (positive : 0 < r) (near : length c < r)
include positive near

/-- Where the ball is left is the boundary. -/
theorem Leaves.length_eq {t : ℝ} (leaves : Leaves c q r t) : length (c + t • (q - c)) = r := by
  have start : c ⬝ᵥ c - r ^ 2 < 0 := sub_neg.2 ((length_lt_iff positive).1 near)
  rw [length_eq_iff positive.le, dotProduct_self_add_smul]
  linarith [root_solves leaves.apart start leaves.root]

theorem exists_leaves (far : r < length q) : ∃ t, Leaves c q r t := by
  have start : c ⬝ᵥ c - r ^ 2 < 0 := sub_neg.2 ((length_lt_iff positive).1 near)
  have finish : 0 < (q - c) ⬝ᵥ (q - c) + 2 * (c ⬝ᵥ (q - c)) + (c ⬝ᵥ c - r ^ 2) := by
    have ends := dotProduct_self_add_smul c (q - c) 1
    rw [one_smul, add_sub_cancel, ← length_sq q] at ends
    have longer : r ^ 2 < length q ^ 2 := pow_lt_pow_left₀ far positive.le two_ne_zero
    linarith
  have apart : 0 < (q - c) ⬝ᵥ (q - c) := by
    rw [← length_sq]
    refine pow_pos (length_pos fun same => ?_) 2
    rw [sub_eq_zero.1 same] at far
    exact near.not_gt far
  exact ⟨_, apart, discriminant_nonneg apart start, rfl, root_nonneg apart start rfl,
    root_le_one apart start finish rfl⟩

end

theorem crossing_embed {α : Type} [Scalar α] {φ : ℝ → α} (e : EmbedsReals φ) {t : ℝ}
    (leaves : Leaves c q r t) :
    crossing (embed φ c) (embed φ q) (φ r) = .ok (embed φ (c + t • (q - c))) := by
  have two : (2.0 : ℝ) = 2 := by norm_num
  have root : exit (φ ((q - c) ⬝ᵥ (q - c))) (φ (2 * (c ⬝ᵥ (q - c)))) (φ (c ⬝ᵥ c - r ^ 2)) =
      φ t := by
    rw [exit_embed e leaves.apart.ne', max_eq_left leaves.discriminant, ← leaves.root,
      max_eq_left leaves.nonneg, min_eq_left leaves.le_one]
  have moves : ¬ φ ((q - c) ⬝ᵥ (q - c)) ≤ 0 := by
    rw [e.zero, e.le, not_le]
    exact leaves.apart
  rw [crossing_of_moves (by rwa [e.subVec, e.dot]) (e.square r), e.subVec, e.dot, e.dot, e.dot,
    e.ofScientific, two, e.mul, e.sub, root, e.scale, e.addVec]

/-! ## The Cauchy step and the full step -/

/-- How far along `-g` the model falls; without positive curvature, as far as the boundary. -/
noncomputable def cauchyScale (g : Fin n → ℝ) (B : Matrix (Fin n) (Fin n) ℝ) (r : ℝ) : ℝ :=
  if g ⬝ᵥ B *ᵥ g ≤ 0 then r / length g else length g ^ 2 / (g ⬝ᵥ B *ᵥ g)

/-- The Cauchy step. -/
noncomputable def cauchyPoint (g : Fin n → ℝ) (B : Matrix (Fin n) (Fin n) ℝ) (r : ℝ) : Fin n → ℝ :=
  -(cauchyScale g B r • g)

theorem cauchyScale_pos (nonzero : g ≠ 0) (positive : 0 < r) : 0 < cauchyScale g B r := by
  have size := length_pos nonzero
  unfold cauchyScale
  split
  · positivity
  · exact div_pos (pow_pos size 2) (not_le.1 ‹_›)

section
variable {α : Type} [Scalar α] {φ : ℝ → α} (e : EmbedsReals φ)
include e

variable (nonzero : g ≠ 0)
include nonzero

theorem norm_beq_zero : (norm (embed φ g) == 0) = false := by
  rw [e.norm, e.zero, e.beq, decide_eq_false (length_pos nonzero).ne']

theorem cauchyStep_embed (B : Matrix (Fin n) (Fin n) ℝ) (r : ℝ) :
    cauchyStep (embed φ g) (embedMat φ B) (φ r) = .ok (embed φ (cauchyPoint g B r)) := by
  have along (a : ℝ) : scale (-φ a) (embed φ g) = embed φ (-(a • g)) := by
    rw [e.neg, e.scale, neg_smul]
  unfold cauchyStep
  simp only [norm_beq_zero e nonzero, Bool.false_eq_true, if_false, e.mulVec, e.dot]
  simp only [e.zero, e.le, e.norm, e.div _ (length_pos nonzero).ne', e.square, cauchyPoint, cauchyScale]
  split
  · rw [along]
    rfl
  · rename_i curved
    rw [ok_bind, e.div _ (not_le.1 curved).ne', along]
    rfl

end

theorem fullStep?_embed {α : Type} [Scalar α] {φ : ℝ → α} (e : Embeds φ) (g : Fin n → ℝ)
    (B : Matrix (Fin n) (Fin n) ℝ) :
    (B.det = 0 ∧ fullStep? (embed φ g) (embedMat φ B) = none) ∨
      ∃ q, B.det ≠ 0 ∧ B *ᵥ q = -g ∧ fullStep? (embed φ g) (embedMat φ B) = some (embed φ q) := by
  have regular := Factors.smallPivot?_zero_eq_none e B
  rw [← e.zero] at regular
  cases small : (Factors.of (embedMat φ B)).smallPivot? 0 with
  | some l =>
    rw [small] at regular
    refine .inl ⟨not_not.1 fun det => (nomatch regular.2 det), ?_⟩
    simp only [fullStep?, small, Option.isSome_some, if_true]
  | none =>
    obtain ⟨x, found, solves⟩ := Factors.solve_embed e le_rfl (e.zero ▸ small) g
    refine .inr ⟨-x, regular.1 small, by rw [mulVec_neg, solves], ?_⟩
    simp only [fullStep?, small, found, Option.isSome_none, Bool.false_eq_true, if_false, e.negVec]

/-! ## The path -/

theorem full_unique {q q' : Fin n → ℝ} (det : B.det ≠ 0) (solves : B *ᵥ q = -g)
    (solves' : B *ᵥ q' = -g) : q = q' := by
  refine sub_eq_zero.1 (eq_zero_of_mulVec_eq_zero det ?_)
  rw [mulVec_sub, solves, solves', sub_self]

/-- Where a dogleg step leads: `det B ≠ 0` says that there is a full step. -/
inductive Path (g : Fin n → ℝ) (B : Matrix (Fin n) (Fin n) ℝ) (r : ℝ) : (Fin n → ℝ) → Prop
  | full {q : Fin n → ℝ} : B.det ≠ 0 → B *ᵥ q = -g → length q ≤ r → Path g B r q
  /-- Even the Cauchy step does not lead into the ball. -/
  | cut : (∀ q, B.det ≠ 0 → B *ᵥ q = -g → r < length q) → r ≤ length (cauchyPoint g B r) →
      Path g B r (-((r / length g) • g))
  | cauchy : B.det = 0 → length (cauchyPoint g B r) < r → Path g B r (cauchyPoint g B r)
  | bent {q : Fin n → ℝ} {t : ℝ} : B.det ≠ 0 → B *ᵥ q = -g → r < length q →
      length (cauchyPoint g B r) < r → Leaves (cauchyPoint g B r) q r t →
      Path g B r (cauchyPoint g B r + t • (q - cauchyPoint g B r))

section
variable {α : Type} [Scalar α] {φ : ℝ → α} (e : EmbedsReals φ) (nonzero : g ≠ 0) (positive : 0 < r)
include nonzero positive

/-- The length of a Cauchy step. -/
theorem length_cauchyPoint : length (cauchyPoint g B r) = cauchyScale g B r * length g :=
  length_along (cauchyScale_pos nonzero positive).le g

include e

/-- A Cauchy step that is cut off. -/
theorem cut_embed : (do
    let a ← quotient (φ r) (norm (embed φ (cauchyPoint g B r)))
    pure (scale a (embed φ (cauchyPoint g B r)))) = .ok (embed φ (-((r / length g) • g))) := by
  have size := (length_pos nonzero).ne'
  have scale := (cauchyScale_pos (B := B) nonzero positive).ne'
  have shrinks : r / (cauchyScale g B r * length g) * cauchyScale g B r = r / length g := by
    field_simp
  rw [e.norm, length_cauchyPoint nonzero positive, e.quotient _ (mul_ne_zero scale size), ok_bind,
    e.scale, cauchyPoint, smul_neg, smul_smul, shrinks]
  rfl

/-- A dogleg step ends on the path. -/
theorem doglegStep_embed (B : Matrix (Fin n) (Fin n) ℝ) :
    ∃ p, doglegStep (embed φ g) (embedMat φ B) (φ r) = .ok (embed φ p) ∧ Path g B r p := by
  unfold doglegStep
  simp only [norm_beq_zero e nonzero, cauchyStep_embed e nonzero, ok_bind, Bool.false_eq_true,
    if_false, cut_embed e nonzero positive]
  obtain ⟨singular, none⟩ | ⟨q, det, solves, full⟩ := fullStep?_embed e.toEmbeds g B
  · simp only [none, e.norm, e.le]
    split
    · exact ⟨_, rfl, .cut (fun _ det => absurd singular det) ‹_›⟩
    · exact ⟨_, rfl, .cauchy singular (not_le.1 ‹_›)⟩
  · simp only [full, e.norm, e.le]
    split
    · exact ⟨q, rfl, .full det solves ‹_›⟩
    · rename_i long
      split
      · refine ⟨_, rfl, .cut (fun q' _ solves' => ?_) ‹_›⟩
        rw [full_unique det solves' solves]
        exact not_le.1 long
      · rename_i far near
        obtain ⟨t, leaves⟩ := exists_leaves positive (not_le.1 near) (not_le.1 long)
        exact ⟨_, crossing_embed e leaves, .bent det solves (not_le.1 long) (not_le.1 near) leaves⟩

end

/-! ## Steps and the radius -/

/-- How a step relates to the radius and to the full step. -/
structure Within (g : Fin n → ℝ) (B : Matrix (Fin n) (Fin n) ℝ) (r : ℝ) (p : Fin n → ℝ) : Prop where
  length_le : length p ≤ r
  full : ∀ q, B.det ≠ 0 → B *ᵥ q = -g → length q ≤ r → p = q
  boundary : ∀ q, B.det ≠ 0 → B *ᵥ q = -g → r < length q → length p = r
  /-- The way from the Cauchy step to the full step is followed up to the boundary, and nothing is
  cut off there. -/
  bent : ∀ q c, B.det ≠ 0 → B *ᵥ q = -g → r < length q →
    cauchyStep (stored g) (storedMat B) r = .ok (stored c) → length c < r →
    ∃ t, Leaves c q r t ∧ p = c + t • (q - c)

theorem Path.within {p : Fin n → ℝ} (nonzero : g ≠ 0) (positive : 0 < r) (path : Path g B r p) :
    Within g B r p := by
  -- the way bends at the Cauchy step that the program computes, which is no other point
  have cauchy {c : Fin n → ℝ} (stepped : cauchyStep (stored g) (storedMat B) r = .ok (stored c)) :
      c = cauchyPoint g B r :=
    embed_injective Function.injective_id
      (Except.ok.inj (stepped.symm.trans (cauchyStep_embed .refl nonzero B r)))
  cases path with
  | full det solves fits =>
    have same {q : Fin n → ℝ} (solves' : B *ᵥ q = -g) := full_unique det solves solves'
    refine ⟨fits, fun q _ solves' _ => same solves', fun q _ solves' long => ?_,
      fun q _ _ solves' long => ?_⟩
    all_goals
      rw [← same solves'] at long
      exact absurd fits long.not_ge
  | cut long far =>
    have size : length (-((r / length g) • g)) = r := by
      rw [length_along (div_nonneg positive.le (length_nonneg g)),
        div_mul_cancel₀ _ (length_pos nonzero).ne']
    refine ⟨size.le, fun q det solves fits => ?_, fun _ _ _ _ => size, fun q c _ _ _ stepped near => ?_⟩
    · exact absurd fits (long q det solves).not_ge
    · rw [cauchy stepped] at near
      exact absurd far near.not_ge
  | cauchy singular near =>
    exact ⟨near.le, fun _ det => absurd singular det, fun _ det => absurd singular det,
      fun _ _ det => absurd singular det⟩
  | @bent q t det solves long near leaves =>
    have size := leaves.length_eq positive near
    have same {q' : Fin n → ℝ} (solves' : B *ᵥ q' = -g) := full_unique det solves solves'
    refine ⟨size.le, fun q' _ solves' fits => ?_, fun _ _ _ _ => size,
      fun q' c _ solves' _ stepped _ => ?_⟩
    · rw [← same solves'] at fits
      exact absurd fits long.not_ge
    · rw [cauchy stepped, ← same solves']
      exact ⟨t, leaves, rfl⟩

/-- A step of real numbers stays in the ball: it is the full step where that fits, and ends on the
boundary where the full step is longer. -/
theorem doglegStep_within (g : Fin n → ℝ) (B : Matrix (Fin n) (Fin n) ℝ) (r : ℝ)
    (positive : 0 < r) :
    ∃ p, doglegStep (stored g) (storedMat B) r = .ok (stored p) ∧ Within g B r p := by
  by_cases nonzero : g = 0
  · subst nonzero
    have none : length (0 : Fin n → ℝ) = 0 := length_eq_zero.2 rfl
    have still {q : Fin n → ℝ} (det : B.det ≠ 0) (solves : B *ᵥ q = -0) : q = 0 :=
      eq_zero_of_mulVec_eq_zero det (solves.trans neg_zero)
    have short {q : Fin n → ℝ} (det : B.det ≠ 0) (solves : B *ᵥ q = -0) (long : r < length q) :
        False := by
      rw [still det solves, none] at long
      exact long.not_gt positive
    refine ⟨0, ?_, none.trans_le positive.le, fun q det solves _ => (still det solves).symm,
      fun q det solves long => (short det solves long).elim,
      fun q c det solves long => (short det solves long).elim⟩
    have zero : (norm (stored (0 : Fin n → ℝ)) == 0) = true := by
      rw [EmbedsReals.refl.norm, none]
      exact decide_eq_true rfl
    rw [doglegStep, if_pos zero, Embeds.refl.zeroVec]
    rfl
  · obtain ⟨p, stepped, path⟩ := doglegStep_embed .refl nonzero positive B
    exact ⟨p, stepped, path.within nonzero positive⟩

/-- A model that is not symmetric, with a full step that does not fit. -/
theorem doglegStep_to_boundary : ∃ p : Fin 2 → ℝ,
    doglegStep (stored ![1, 0]) (storedMat !![1 / 2, 0; 1, 1 / 2]) 1 = .ok (stored p) ∧
      Within ![1, 0] !![1 / 2, 0; 1, 1 / 2] 1 p ∧ length p = 1 := by
  obtain ⟨p, stepped, within⟩ := doglegStep_within ![1, 0] !![1 / 2, 0; 1, 1 / 2] 1 one_pos
  have det : (!![1 / 2, 0; 1, 1 / 2] : Matrix (Fin 2) (Fin 2) ℝ).det ≠ 0 := by
    norm_num [det_fin_two_of]
  have solves : (!![1 / 2, 0; 1, 1 / 2] : Matrix (Fin 2) (Fin 2) ℝ) *ᵥ ![-2, 4] = -![1, 0] := by
    ext i
    fin_cases i <;> norm_num
  have long : (1 : ℝ) < length ![-2, 4] := by
    refine Real.lt_sqrt_of_sq_lt ?_
    norm_num
  exact ⟨p, stepped, within, within.boundary _ det solves long⟩

end Descent.Dogleg
