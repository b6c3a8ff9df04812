/-
# Descent.Proofs.Equations.Dogleg.Step — steps stay within the radius

A dogleg step is one of five legs (`Leg`).  Over numbers that may be undefined, a step
without undefined entries is made of real numbers and is no longer than the radius,
whatever the model is like: even where its matrix is not positive definite, or the full
step is infinite (`norm_doglegStep_le`).  It also vouches for the gradient, because an
undefined entry of the gradient stays undefined on every leg (`gradient_defined`).
-/
import Descent.Equations.Dogleg.Step
import Descent.Proofs.Effects
import Descent.Proofs.Linear.Length
import Descent.Proofs.Linear.Undefined

namespace Descent.Dogleg
set_option autoImplicit false

open Wide

/-! ## The legs -/

section
variable {α : Type} [Scalar α] {n : ℕ} {g p : Vector α n} {B : Mat n n α} {radius : α}

/-- The leg of the path on which a step ends. -/
inductive Leg (g : Vector α n) (B : Mat n n α) (radius : α) : Vector α n → Prop
  /-- No gradient, no step. -/
  | still : (norm g == 0) = true → Leg g B radius (Vector.replicate n 0)
  | full {q : Vector α n} : fullStep? g B = some q → norm q ≤ radius → Leg g B radius q
  /-- The Cauchy step is cut off. -/
  | cut {p : Vector α n} {a : α} : cauchyStep g B radius = .ok p → radius ≤ norm p →
      quotient radius (norm p) = .ok a → Leg g B radius (scale a p)
  | cauchy {p : Vector α n} : cauchyStep g B radius = .ok p → ¬ radius ≤ norm p → Leg g B radius p
  | bent {p q p' : Vector α n} : cauchyStep g B radius = .ok p → ¬ radius ≤ norm p →
      crossing p q radius = .ok p' → Leg g B radius p'

theorem leg_of_doglegStep (stepped : doglegStep g B radius = .ok p) : Leg g B radius p := by
  unfold doglegStep at stepped
  split at stepped
  · cases stepped
    exact .still ‹_›
  · -- what happens beyond the Cauchy step is left open
    have onward {rest : Vector α n → Except (Fault α) (Vector α n)}
        (within : ∀ p₀, cauchyStep g B radius = .ok p₀ → ¬ radius ≤ norm p₀ → rest p₀ = .ok p →
          Leg g B radius p)
        (stepped : (do
          let p₀ ← cauchyStep g B radius
          if radius ≤ norm p₀ then return scale (← quotient radius (norm p₀)) p₀
          rest p₀) = .ok p) : Leg g B radius p := by
      obtain ⟨p₀, cauchy, stepped⟩ := bind_eq_ok.1 stepped
      split at stepped
      · obtain ⟨a, shrinks, returned⟩ := bind_eq_ok.1 stepped
        cases returned
        exact .cut cauchy ‹_› shrinks
      · exact within p₀ cauchy ‹_› stepped
    dsimp only at stepped
    cases solved : fullStep? g B with
    | none =>
      rw [solved] at stepped
      refine onward (fun p₀ cauchy near returned => ?_) stepped
      cases returned
      exact .cauchy cauchy near
    | some q =>
      rw [solved] at stepped
      dsimp only at stepped
      split at stepped
      · cases stepped
        exact .full solved ‹_›
      · exact onward (fun _ => .bent) stepped

theorem get_scale (a : α) (x : Vector α n) (i : Fin n) : (scale a x).get i = a * x.get i :=
  Vector.getElem_map _ i.isLt

omit [Scalar α] in
theorem get_zipWith (f : α → α → α) (x y : Vector α n) (i : Fin n) :
    (Vector.zipWith f x y).get i = f (x.get i) (y.get i) := Vector.getElem_zipWith i.isLt

/-- A Cauchy step is a multiple of the gradient. -/
theorem exists_scale_of_cauchyStep (stepped : cauchyStep g B radius = .ok p) :
    (norm g == 0) = true ∨ ∃ a, p = scale a g := by
  unfold cauchyStep at stepped
  dsimp only at stepped
  split at stepped
  · exact .inl ‹_›
  · split at stepped
    · cases stepped
      exact .inr ⟨_, rfl⟩
    · obtain ⟨_, -, returned⟩ := bind_eq_ok.1 stepped
      cases returned
      exact .inr ⟨_, rfl⟩

/-- How far along a segment it leaves the ball: the greater root of `a t² + b t + c`, kept between
zero and one. -/
def exit (a b c : α) : α :=
  let disc := Scalar.maxFirst (b * b - 4.0 * a * c) 0
  Scalar.minFirst (Scalar.maxFirst ((-b + Scalar.sqrt disc) / (2.0 * a)) 0) 1

theorem exit_embed {φ : ℝ → α} (e : EmbedsReals φ) {a : ℝ} (nonzero : a ≠ 0) (b c : ℝ) :
    exit (φ a) (φ b) (φ c) =
      φ (min (max ((-b + √(max (b * b - 4 * a * c) 0)) / (2 * a)) 0) 1) := by
  have two : (2.0 : ℝ) = 2 := by norm_num
  have four : (4.0 : ℝ) = 4 := by norm_num
  simp only [exit, e.ofScientific, two, four, e.zero, e.one, e.mul, e.sub, e.maxFirst,
    e.sqrt (le_max_right _ 0), e.neg, e.add, e.div _ (mul_ne_zero two_ne_zero nonzero), e.minFirst]

theorem crossing_of_moves {p q : Vector α n} {r : α}
    (moves : ¬ dot (Vector.zipWith (· - ·) q p) (Vector.zipWith (· - ·) q p) ≤ 0)
    (squared : square radius = .ok r) :
    let along := Vector.zipWith (· - ·) q p
    crossing p q radius = .ok (Vector.zipWith (· + ·) p
      (scale (exit (dot along along) (2.0 * dot p along) (dot p p - r)) along)) := by
  unfold crossing
  dsimp only
  rw [if_neg moves, squared]
  rfl

/-- A crossing is where the segment starts or where it leaves the ball. -/
theorem crossing_ok {p q p' : Vector α n} (crosses : crossing p q radius = .ok p') :
    p' = p ∨ ∃ along r, ¬ dot along along ≤ 0 ∧ square radius = .ok r ∧
      p' = Vector.zipWith (· + ·) p
        (scale (exit (dot along along) (2.0 * dot p along) (dot p p - r)) along) := by
  unfold crossing at crosses
  dsimp only at crosses
  split at crosses
  · cases crosses
    exact .inl rfl
  · obtain ⟨r, squared, returned⟩ := bind_eq_ok.1 crosses
    cases returned
    exact .inr ⟨_, r, ‹_›, squared, rfl⟩

end

/-! ## What a defined step vouches for -/

section
variable {n : ℕ} {g p : Vector Wide n} {B : Mat n n Wide} {radius : Wide}

theorem norm_undefined {i : Fin n} (undef : g.get i = undefined) : norm g = undefined := by
  rw [norm, dot_undefined_left undef, sqrt_undefined]

theorem cauchyStep_undefined {i : Fin n} (stepped : cauchyStep g B radius = .ok p)
    (undef : g.get i = undefined) : p.get i = undefined := by
  obtain still | ⟨a, rfl⟩ := exists_scale_of_cauchyStep stepped
  · rw [norm_undefined undef, undefined_beq] at still
    cases still
  · rw [get_scale, undef, mul_undefined]

theorem crossing_undefined {p' q : Vector Wide n} {i : Fin n}
    (crosses : crossing p q radius = .ok p') (undef : p.get i = undefined) :
    p'.get i = undefined := by
  obtain rfl | ⟨along, r, -, -, rfl⟩ := crossing_ok crosses
  · exact undef
  · rw [get_zipWith, undef, undefined_add]

/-- The gradient of a defined step is defined. -/
theorem gradient_defined (stepped : doglegStep g B radius = .ok p)
    (defined : ∀ i : Fin n, p.get i ≠ undefined) (i : Fin n) : g.get i ≠ undefined := by
  intro undef
  suffices lost : ∃ k : Fin n, p.get k = undefined from lost.elim defined
  cases leg_of_doglegStep stepped with
  | still none =>
    rw [norm_undefined undef, undefined_beq] at none
    cases none
  | full solved _ =>
    simp only [fullStep?] at solved
    split at solved
    · cases solved
    · cases solved
      obtain ⟨k, lost⟩ := Factors.solve_undefined B undef
      refine ⟨k, (Vector.getElem_map _ k.isLt).trans ?_⟩
      exact (congrArg (- ·) lost).trans neg_undefined
  | cut cauchy _ _ => exact ⟨i, by rw [get_scale, cauchyStep_undefined cauchy undef, mul_undefined]⟩
  | cauchy cauchy _ => exact ⟨i, cauchyStep_undefined cauchy undef⟩
  | bent cauchy _ crosses => exact ⟨i, crossing_undefined crosses (cauchyStep_undefined cauchy undef)⟩

end

/-! ## Lengths -/

section
variable {n : ℕ} {r : ℝ}

/-- A quadratic function that is not positive at zero is not positive up to its greater root. -/
theorem below_root {a b c t : ℝ} (positive : 0 < a) (nonpos : c ≤ 0) (nonneg : 0 ≤ t)
    (le : t ≤ (-b + √(b * b - 4 * a * c)) / (2 * a)) : a * t ^ 2 + b * t + c ≤ 0 := by
  have disc : b ^ 2 ≤ b * b - 4 * a * c := by nlinarith
  have root := Real.sq_sqrt ((sq_nonneg b).trans disc)
  have size := abs_le.1 (Real.abs_le_sqrt disc)
  rw [le_div_iff₀ (by positivity)] at le
  have rises : 0 ≤ a * t := by positivity
  have bound : (2 * a * t + b) ^ 2 ≤ √(b * b - 4 * a * c) ^ 2 :=
    sq_le_sq' (by linarith) (by linarith)
  nlinarith

theorem norm_reals_le {v : Fin n → ℝ} (nonneg : 0 ≤ r) : norm (reals v) ≤ real r ↔ v ⬝ᵥ v ≤ r ^ 2 := by
  rw [norm_reals, real_le, Real.sqrt_le_iff]
  exact and_iff_right nonneg

theorem exists_reals_of_norm_le {p : Vector Wide n} (le : norm p ≤ real r) : ∃ v, p = reals v :=
  exists_reals (isReal_of_norm (isReal_of_norm_le le))

variable (positive : 0 < r)
include positive

/-- A step that is cut off has the length of the radius. -/
theorem norm_cut_le {p : Vector Wide n} {a : Wide} (far : real r ≤ norm p)
    (shrinks : quotient (real r) (norm p) = .ok a)
    (defined : ∀ i : Fin n, (scale a p).get i ≠ undefined) : norm (scale a p) ≤ real r := by
  unfold quotient at shrinks
  split at shrinks
  · cases shrinks
  · rename_i nonzero
    cases shrinks
    cases length : norm p with
    | real l =>
      obtain ⟨v, rfl⟩ := exists_reals (isReal_of_norm (length ▸ isReal_real l))
      rw [length, zero_eq, real_beq, decide_eq_true_iff] at nonzero
      rw [real_div r nonzero, embeds.scale, norm_reals_le positive.le]
      rw [norm_reals, real_inj] at length
      have square : l ^ 2 = v ⬝ᵥ v := by rw [← length, Real.sq_sqrt (dotProduct_self_nonneg v)]
      rw [smul_dotProduct, dotProduct_smul, smul_eq_mul, smul_eq_mul, ← square]
      exact le_of_eq (by field_simp)
    | posInf =>
      -- nothing but zeros is left of an infinite step, and an infinite entry has no product with zero
      have entries (i : Fin n) : (p.get i).IsReal := by
        have kept := defined i
        rw [get_scale, length] at kept
        exact isReal_of_zero_mul kept
      obtain ⟨v, rfl⟩ := exists_reals entries
      rw [norm_reals] at length
      cases length
    | negInf | undefined =>
      rw [length] at far
      exact absurd far id

omit positive in
/-- An infinite segment is left nowhere. -/
theorem exit_posInf (b : Wide) {c : ℝ} (inside : c < 0) : exit posInf b (real c) = undefined := by
  have two : (2.0 : Wide) * posInf = posInf :=
    real_mul_posInf (by norm_num : (0 : ℝ) < OfScientific.ofScientific 20 true 1)
  have four : (4.0 : Wide) * posInf = posInf :=
    real_mul_posInf (by norm_num : (0 : ℝ) < OfScientific.ofScientific 40 true 1)
  simp only [exit, two, four, posInf_mul_real inside]
  cases b with
  | undefined => simp
  | _ => simp [Scalar.maxFirst]

omit positive in
/-- A real segment is left within the radius. -/
theorem exit_within {u w : Fin n → ℝ} (inside : u ⬝ᵥ u ≤ r ^ 2) (moves : 0 < w ⬝ᵥ w) :
    let a := w ⬝ᵥ w
    let b := 2 * (u ⬝ᵥ w)
    let disc := max (b * b - 4 * a * (u ⬝ᵥ u - r ^ 2)) 0
    let t := min (max ((-b + √disc) / (2 * a)) 0) 1
    (u + t • w) ⬝ᵥ (u + t • w) ≤ r ^ 2 := by
  intro a b disc t
  have nonpos : u ⬝ᵥ u - r ^ 2 ≤ 0 := sub_nonpos.2 inside
  have start : disc = b * b - 4 * a * (u ⬝ᵥ u - r ^ 2) := max_eq_left (by nlinarith [moves])
  have ahead : 0 ≤ (-b + √disc) / (2 * a) := by
    have larger : |b| ≤ √disc := Real.abs_le_sqrt (by rw [start]; nlinarith [moves])
    have := le_abs_self b
    exact div_nonneg (by linarith) (by positivity)
  have nonneg : 0 ≤ t := le_min (le_max_right _ _) zero_le_one
  have le : t ≤ (-b + √disc) / (2 * a) := (min_le_left _ _).trans (max_eq_left ahead).le
  rw [start] at le
  have below := below_root moves nonpos nonneg le
  have expand : (u + t • w) ⬝ᵥ (u + t • w) = a * t ^ 2 + b * t + u ⬝ᵥ u := by
    simp only [add_dotProduct, dotProduct_add, smul_dotProduct, dotProduct_smul, smul_eq_mul,
      dotProduct_comm w u, a, b]
    ring
  linarith

/-- A crossing stays within the radius. -/
theorem norm_crossing_le {p q p' : Vector Wide n} (near : ¬ real r ≤ norm p)
    (crosses : crossing p q (real r) = .ok p') (defined : ∀ i : Fin n, p'.get i ≠ undefined) :
    norm p' ≤ real r := by
  have start (i : Fin n) : p.get i ≠ undefined := fun undef =>
    defined i (crossing_undefined crosses undef)
  have shorter : norm p < real r :=
    lt_of_not_le (isReal_real r).ne_undefined (sqrt_ne_undefined (dot_self_nonneg start)) near
  obtain ⟨u, rfl⟩ := exists_reals_of_norm_le (le_of_lt shorter)
  have inside : u ⬝ᵥ u < r ^ 2 := by
    rwa [norm_reals, real_lt, Real.sqrt_lt' positive] at shorter
  obtain rfl | ⟨along, r', moves, squared, rfl⟩ := crossing_ok crosses
  · exact (norm_reals_le positive.le).2 inside.le
  · obtain rfl := Except.ok.inj ((embedsReals.square r).symm.trans squared)
    simp only [embeds.dot u u, real_sub] at defined ⊢
    have reaches (i : Fin n) : exit (dot along along) (2.0 * dot (reals u) along)
        (real (u ⬝ᵥ u - r ^ 2)) * along.get i ≠ undefined := fun undef =>
      defined i (by rw [get_zipWith, get_scale, undef, add_undefined])
    have ends (i : Fin n) : along.get i ≠ undefined := fun undef =>
      reaches i (by rw [undef, mul_undefined])
    cases length : dot along along with
    | real a =>
      obtain ⟨w, rfl⟩ := exists_reals fun i => (isReal_of_dot (length ▸ isReal_real a) i).1
      rw [embeds.dot, zero_eq, real_le, not_le] at moves
      have two : (2.0 : Wide) * real (u ⬝ᵥ w) = real (2 * (u ⬝ᵥ w)) := by
        rw [ofScientific_eq, real_mul]
        norm_num
      rw [← length, embeds.dot, embeds.dot, two, exit_embed embedsReals moves.ne', embeds.scale,
        embeds.addVec, norm_reals_le positive.le]
      exact exit_within inside.le moves
    | posInf =>
      have entries : 0 < n := by
        refine Nat.pos_of_ne_zero fun none => ?_
        subst none
        exact nomatch (total_zero _).symm.trans length
      refine absurd ?_ (reaches ⟨0, entries⟩)
      rw [length, exit_posInf _ (sub_neg.2 inside), undefined_mul]
    | negInf | undefined =>
      have nonneg := dot_self_nonneg ends
      rw [length] at nonneg
      exact absurd nonneg id

/-- A defined step stays within the radius. -/
theorem norm_doglegStep_le {g p : Vector Wide n} {B : Mat n n Wide}
    (stepped : doglegStep g B (real r) = .ok p) (defined : ∀ i : Fin n, p.get i ≠ undefined) :
    norm p ≤ real r := by
  cases leg_of_doglegStep stepped with
  | still _ =>
    rw [embeds.zeroVec, norm_reals_le positive.le]
    simp [sq_nonneg]
  | full _ within => exact within
  | cut _ far shrinks => exact norm_cut_le positive far shrinks defined
  | cauchy _ near =>
    have length : norm p ≠ undefined := sqrt_ne_undefined (dot_self_nonneg defined)
    exact le_of_lt (lt_of_not_le (isReal_real r).ne_undefined length near)
  | bent _ near crosses => exact norm_crossing_le positive near crosses defined

end

end Descent.Dogleg
