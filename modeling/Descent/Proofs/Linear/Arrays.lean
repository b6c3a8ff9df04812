/-
# Descent.Proofs.Linear.Arrays — vectors and matrices as arrays

The user's functions and the solver pass arrays of any extents to one another.  Those that stand
for a vector or a square matrix are its array form (`Shaped.eq_ofVec`, `Shaped.eq_ofMat`), and
their products are those of linear algebra (`Shaped.inner_toArray`, `Shaped.product?_toArray`).
Nothing but two vectors of one size has a number as its product (`Shaped.inner_eq_ok`).
-/
import Descent.Linear.Shaped
import Descent.Proofs.Effects
import Descent.Proofs.Linear.Embedding

namespace Descent
set_option autoImplicit false

/-! ## Vectors as arrays -/

section
variable {α : Type} [Scalar α] {n : ℕ} (v w : Vector α n)

theorem Vec.norm_toArray : Vec.norm v.toArray = Descent.norm v := by
  obtain ⟨x, rfl⟩ := v
  rfl

theorem Vec.normSq_toArray : Vec.normSq v.toArray = dot v v := by
  obtain ⟨x, rfl⟩ := v
  rfl

theorem Shaped.inner_toArray :
    (Shaped.ofVec v.toArray).inner (.ofVec w.toArray) = .ok (dot v w) := by
  obtain ⟨x, rfl⟩ := v
  obtain ⟨y, size⟩ := w
  rw [Shaped.inner_ofVec, Vec.dot?, dif_pos size]
  rfl

theorem Shaped.product?_toArray (A : Mat n n α) :
    (Shaped.ofMat A).product? (.ofVec v.toArray) = some (.ofVec (A.mulVec v).toArray) := by
  obtain ⟨x, rfl⟩ := v
  refine (Shaped.product?_ofDense_ofVec ⟨x.size, x.size, A⟩ x).trans ?_
  rw [Dense.mulVec?, dif_pos rfl]
  rfl

end

/-! ## Arrays that are vectors or matrices -/

namespace Shaped

variable {α : Type} {A : Shaped α}

theorem eq_ofVec {x : Vec α} (vector : A.vec? = some x) : A = .ofVec x := by
  unfold vec? at vector
  split at vector
  · cases vector
    exact (ofVec_toArray _).symm
  · cases vector

theorem exists_ofVec {n : ℕ} (h : A.extents = [n]) : ∃ x, A = .ofVec x := by
  obtain ⟨extents, body⟩ := A
  subst h
  exact ⟨Vector.toArray body, (ofVec_toArray body).symm⟩

theorem eq_ofDense {D : Dense α} (matrix : A.dense? = some D) : A = .ofDense D := by
  unfold dense? at matrix
  split at matrix
  · cases matrix
    rfl
  · cases matrix

theorem eq_ofMat {n : ℕ} {body : Mat n n α} (square : A.asSquare? = some ⟨n, body⟩) :
    A = .ofMat body := by
  obtain ⟨D, matrix, square⟩ := Option.bind_eq_some_iff.1 square
  obtain ⟨body', same, square⟩ := Option.bind_eq_some_iff.1 square
  cases square
  obtain rfl := eq_ofDense matrix
  obtain ⟨rows, cols, body⟩ := D
  unfold Dense.square? at same
  split at same
  · rename_i extents
    obtain rfl : cols = rows := extents.2
    refine (congrArg ofMat ?_).trans (congrArg ofMat (Option.some.inj same))
    ext i hi j hj
    simp [Mat.ofFn, Vector.get]
    rfl
  · cases same

theorem extent_of_square? {m n : ℕ} {Q : Mat n n α} {body : Mat m m α}
    (square : (ofMat Q).square? m = some body) : m = n := by
  unfold square? Dense.square? at square
  obtain ⟨D, matrix, square⟩ := Option.bind_eq_some_iff.1 square
  cases matrix
  split at square
  · rename_i extents
    exact extents.1.symm
  · cases square

end Shaped

/-! ## Vectors and matrices over a field -/

section
variable {K : Type} [Field K] [LinearOrder K] {n : ℕ}

/-- A vector over a field as an array. -/
abbrev Shaped.vector (v : Fin n → K) : Shaped K := .ofVec (stored v).toArray

/-- A square matrix over a field as an array. -/
abbrev Shaped.matrix (M : Matrix (Fin n) (Fin n) K) : Shaped K := .ofMat (storedMat M)

theorem Shaped.inner_vector (v w : Fin n → K) :
    (Shaped.vector v).inner (.vector w) = .ok (v ⬝ᵥ w) := by
  rw [Shaped.inner_toArray, dot_stored]

theorem Shaped.product?_vector (M : Matrix (Fin n) (Fin n) K) (v : Fin n → K) :
    (Shaped.matrix M).product? (.vector v) = some (.vector (M.mulVec v)) := by
  rw [Shaped.product?_toArray, mulVec_stored]

theorem Shaped.neg_vector (v : Fin n → K) : (Shaped.vector v).neg = .vector (-v) := by
  rw [Shaped.neg_ofVec, Vec.neg, ← Vector.toArray_map]
  congr 2
  ext i hi
  simp [embed]

end

/-! ## Products that are numbers -/

/-- Only vectors of one size have a number as their product. -/
theorem Tensor.extents_of_number {α : Type} [Scalar α] {e d : List ℕ}
    {f : Tensor α e → Tensor α d → Tensor α []} (product : product? e d = some ⟨[], f⟩) :
    ∃ k, e = [k] ∧ d = [k] := by
  unfold product? at product
  split at product
  case h_3 k l =>
    split at product
    · exact ⟨k, rfl, congrArg (fun l => [l]) ‹l = k›⟩
    · cases product
  case h_1 | h_2 => cases product
  case h_4 | h_5 | h_6 => split at product <;> cases product
  case h_7 =>
    split at product
    · obtain ⟨_, -, product⟩ := Option.bind_eq_some_iff.1 product
      cases product
    · split at product
      · obtain ⟨_, -, product⟩ := Option.bind_eq_some_iff.1 product
        cases product
      · obtain ⟨_, -, product⟩ := Option.bind_eq_some_iff.1 product
        dsimp only at product
        split at product
        · cases product
        · split at product
          · cases product
          · split at product <;> cases product

theorem Shaped.inner_eq_ok {α : Type} [Scalar α] {A B : Shaped α} {a : α}
    (product : A.inner B = .ok a) :
    ∃ (k : ℕ) (x y : Vector α k), A = .ofVec x.toArray ∧ B = .ofVec y.toArray ∧ a = dot x y := by
  obtain ⟨P, fitted, number⟩ := bind_eq_ok.1 product
  obtain ⟨⟨u, f⟩, there, rfl⟩ := Option.map_eq_some_iff.1 (fit_eq_ok.1 fitted)
  cases u with
  | cons => cases number
  | nil =>
    obtain ⟨e, x⟩ := A
    obtain ⟨d, y⟩ := B
    obtain ⟨k, rfl, rfl⟩ := Tensor.extents_of_number there
    refine ⟨k, x, y, (ofVec_toArray x).symm, (ofVec_toArray y).symm, ?_⟩
    have both := Shaped.inner_toArray (n := k) x y
    rw [ofVec_toArray, ofVec_toArray, product] at both
    exact Except.ok.inj both

end Descent
