/-
# Descent.Proofs.Linear.Wide — vectors of wide numbers

A sum of products is real only if every factor is, and undefined as soon as one of
them is.  So a length that is real, or below a real number, vouches for all entries
(`isReal_of_norm`), and vectors of real numbers are computed with as in mathematics.
-/
import Descent.Proofs.Linear.Arrays
import Descent.Proofs.Wide

namespace Descent
set_option autoImplicit false

namespace Wide

/-- The real numbers among the wide ones. -/
theorem embeds : Embeds real where
  zero := rfl
  one := rfl
  add := real_add
  sub := real_sub
  mul := real_mul
  neg := real_neg
  div x _ nonzero := real_div x nonzero
  lt := real_lt
  le := real_le
  beq := real_beq
  abs := abs_real
  isNaN := isNaN_real
  isInvertible := isInvertible_real

/-- A vector of real numbers. -/
abbrev reals {n : ℕ} (v : Fin n → ℝ) : Vector Wide n := embed real v

theorem isReal_reals {n : ℕ} (v : Fin n → ℝ) : ∀ a ∈ (reals v).toArray, a.IsReal := by
  intro a mem
  obtain ⟨i, rfl⟩ : ∃ i, real (v i) = a := by simpa [embed] using mem
  exact isReal_real _

/-! ## Sums -/

section
variable {n : ℕ} {f : Fin n → Wide}

theorem isReal_of_total (h : (total n f).IsReal) (i : Fin n) : (f i).IsReal := by
  induction n with
  | zero => exact i.elim0
  | succ n ih =>
    rw [total_succ] at h
    cases i using Fin.lastCases with
    | last => exact h.of_add.2
    | cast i => exact ih h.of_add.1 i

theorem total_undefined {i : Fin n} (h : f i = undefined) : total n f = undefined := by
  induction n with
  | zero => exact i.elim0
  | succ n ih =>
    rw [total_succ]
    cases i using Fin.lastCases with
    | last => rw [h, add_undefined]
    | cast i => rw [ih h, undefined_add]

theorem Bounded.total (h : ∀ i, (f i).Bounded) : (Descent.total n f).Bounded := by
  induction n with
  | zero => exact (isReal_real 0).bounded
  | succ n ih =>
    rw [total_succ]
    exact (ih fun i => h _).add (h _)

theorem IsReal.total (h : ∀ i, (f i).IsReal) : (Descent.total n f).IsReal := by
  choose v hv using h
  rw [funext hv, embeds.total]
  exact isReal_real _

theorem total_nonneg (h : ∀ i, 0 ≤ f i) : 0 ≤ total n f := by
  induction n with
  | zero => exact nonneg_iff.2 (.inl ⟨0, le_rfl, rfl⟩)
  | succ n ih =>
    rw [total_succ]
    exact add_nonneg (ih fun i => h _) (h _)

end

/-! ## Products and lengths -/

section
variable {n : ℕ} {x y : Vector Wide n}

theorem exists_reals (h : ∀ i : Fin n, (x.get i).IsReal) : ∃ v, x = reals v := exists_embed h

theorem isReal_of_dot (h : (dot x y).IsReal) (i : Fin n) : (x.get i).IsReal ∧ (y.get i).IsReal :=
  (isReal_of_total h i).of_mul

theorem dot_undefined_left {i : Fin n} (h : x.get i = undefined) : dot x y = undefined := by
  rw [dot_eq]
  exact total_undefined (i := i) (by rw [h, undefined_mul])

theorem dot_undefined_right {i : Fin n} (h : y.get i = undefined) : dot x y = undefined := by
  rw [dot_eq]
  exact total_undefined (i := i) (by rw [h, mul_undefined])

theorem Bounded.dot (hx : ∀ i : Fin n, (x.get i).Bounded) (hy : ∀ i : Fin n, (y.get i).Bounded) :
    (Descent.dot x y).Bounded := .total fun i => (hx i).mul (hy i)

theorem IsReal.dot (hx : ∀ i : Fin n, (x.get i).IsReal) (hy : ∀ i : Fin n, (y.get i).IsReal) :
    (Descent.dot x y).IsReal := .total fun i => (hx i).mul (hy i)

theorem dot_self_nonneg (h : ∀ i : Fin n, x.get i ≠ undefined) : 0 ≤ dot x x :=
  total_nonneg fun i => square_nonneg (h i)

theorem dotProduct_self_nonneg (v : Fin n → ℝ) : 0 ≤ v ⬝ᵥ v :=
  Finset.sum_nonneg fun i _ => mul_self_nonneg (v i)

theorem norm_reals (v : Fin n → ℝ) : norm (reals v) = real √(v ⬝ᵥ v) := by
  rw [norm, embeds.dot, sqrt_real (dotProduct_self_nonneg v)]

theorem isReal_of_norm (h : (norm x).IsReal) (i : Fin n) : (x.get i).IsReal :=
  (isReal_of_dot h.of_sqrt i).1

/-- A length that does not exceed a real number is one. -/
theorem isReal_of_norm_le {r : ℝ} (h : norm x ≤ real r) : (norm x).IsReal := isReal_of_sqrt_le h

end

/-! ## Arrays -/

section
variable {x y z : Vec Wide}

theorem defined_iff : x.hasNaN = false ↔ ∀ a ∈ x, a ≠ undefined := by
  simp only [Vec.hasNaN, Array.any_eq_false', isNaN_iff]

theorem forall_entries {P : Wide → Prop} :
    (∀ a ∈ x, P a) ↔ ∀ i : Fin x.size, P (x.toVector.get i) := by
  simp only [Array.forall_mem_iff_forall_getElem, Fin.forall_iff]
  rfl

theorem forall_toArray {P : Wide → Prop} {n : ℕ} {v : Vector Wide n} :
    (∀ a ∈ v.toArray, P a) ↔ ∀ i : Fin n, P (v.get i) := by
  obtain ⟨x, rfl⟩ := v
  exact forall_entries

theorem normSq_nonneg (defined : x.hasNaN = false) : 0 ≤ x.normSq :=
  dot_self_nonneg (forall_entries.1 (defined_iff.1 defined))

theorem norm_ne_undefined (defined : x.hasNaN = false) : x.norm ≠ undefined :=
  sqrt_ne_undefined (normSq_nonneg defined)

theorem IsReal.normSq (h : ∀ a ∈ x, a.IsReal) : x.normSq.IsReal :=
  .dot (forall_entries.1 h) (forall_entries.1 h)

/-- Numbers that are defined and bounded are real. -/
theorem isReal_of_bounded (bounded : ∀ a ∈ x, a.Bounded) (defined : x.hasNaN = false) :
    ∀ a ∈ x, a.IsReal := fun a mem => bounded a mem (defined_iff.1 defined a mem)

theorem forall_of_combine? {P : Wide → Prop} {f : Wide → Wide → Wide}
    (closed : ∀ a b, P a → P b → P (f a b)) (hx : ∀ a ∈ x, P a) (hy : ∀ a ∈ y, P a)
    (combined : Vec.combine? f x y = some z) : ∀ a ∈ z, P a := by
  unfold Vec.combine? at combined
  simp only [Array.forall_mem_iff_forall_getElem] at hx hy ⊢
  split at combined
  · cases combined
    simp only [Array.getElem_zipWith]
    exact fun i hi => closed _ _ (hx _ _) (hy _ _)
  · split at combined
    · cases combined
      simp only [Array.getElem_map]
      exact fun i hi => closed _ _ (hx _ _) (hy _ _)
    · split at combined
      · cases combined
        simp only [Array.getElem_map]
        exact fun i hi => closed _ _ (hx _ _) (hy _ _)
      · cases combined

theorem mulVec?_eq_some {A : Dense Wide} :
    A.mulVec? x = some y ↔ ∃ size : x.size = A.cols, (A.body.mulVec ⟨x, size⟩).toArray = y := by
  unfold Dense.mulVec?
  split <;> simp_all

end

/-! ## Arrays of real numbers -/

section
variable {n : ℕ} (v w : Fin n → ℝ)

theorem combine?_reals {f : Wide → Wide → Wide} {g : ℝ → ℝ → ℝ}
    (entries : ∀ x y, f (real x) (real y) = real (g x y)) :
    Vec.combine? f (reals v).toArray (reals w).toArray =
      some (reals fun i => g (v i) (w i)).toArray := by
  rw [Vec.combine?_of_size_eq _ (by simp)]
  congr 1
  ext i hi hi'
  · simp
  · simp [embed, entries]

theorem add?_reals : Vec.add? (reals v).toArray (reals w).toArray = some (reals (v + w)).toArray :=
  combine?_reals v w real_add

theorem sub?_reals : (Shaped.ofVec (reals v).toArray).sub? (.ofVec (reals w).toArray) =
    some (.ofVec (reals (v - w)).toArray) := by
  rw [Shaped.sub?, Shaped.combine?_ofVec, combine?_reals v w real_sub]
  rfl

theorem neg_reals : (Shaped.ofVec (reals v).toArray).neg = .ofVec (reals (-v)).toArray := by
  rw [Shaped.neg_ofVec]
  congr 1
  ext i hi <;> simp [Vec.neg, embed]

theorem hasNaN_reals : Vec.hasNaN (reals v).toArray = false :=
  defined_iff.2 fun a mem => (isReal_reals v a mem).ne_undefined

omit v w in
theorem hasNaN_number (a : ℝ) : (Shaped.ofNumber (real a)).hasNaN = false := by
  simp [Shaped.hasNaN, Shaped.ofNumber, Shaped.flat, Tensor.entries, Vec.hasNaN]

theorem norm_toArray_reals : Vec.norm (reals v).toArray = real √(v ⬝ᵥ v) := by
  rw [Vec.norm_toArray, norm_reals]

/-- The vector `A x - b`, for arrays `x` of the right size. -/
noncomputable def affine (A : Matrix (Fin n) (Fin n) ℝ) (b : Fin n → ℝ) (x : Vec Wide) :
    Except (Fault Wide) (Shaped Wide) :=
  if size : x.size = n then
    .ok (.ofVec (Vector.zipWith (· - ·) ((embedMat real A).mulVec ⟨x, size⟩) (reals b)).toArray)
  else .error .shapeMismatch

theorem affine_reals (A : Matrix (Fin n) (Fin n) ℝ) (b x : Fin n → ℝ) :
    affine A b (reals x).toArray = .ok (.ofVec (reals (A.mulVec x - b)).toArray) := by
  have size : (reals x).toArray.size = n := by simp
  have product : (embedMat real A).mulVec ⟨(reals x).toArray, size⟩ = reals (A.mulVec x) :=
    embeds.mulVec A x
  rw [affine, dif_pos size, product, embeds.subVec]

theorem extents_of_affine {A : Matrix (Fin n) (Fin n) ℝ} {b : Fin n → ℝ} {x : Vec Wide}
    {y : Shaped Wide} (there : affine A b x = .ok y) : y.extents = [n] := by
  unfold affine at there
  split at there <;> cases there
  simp [Shaped.ofVec]

end

end Wide

end Descent
