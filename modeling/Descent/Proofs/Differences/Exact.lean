/-
# Descent.Proofs.Differences.Exact — derivatives of polynomials by central differences

Without rounding the points of a central difference lie on a line (`axis_stored`, `plus_stored`),
so that the derivatives of a function that returns the values of a polynomial (`Evaluates`) are
those of the polynomial: gradients and Jacobians up to the second degree, Hessians up to the
third (`exact_polynomial`).  Columns are joined to a matrix as long as there is one.  In no
variables nothing is evaluated, and a Jacobian is the matrix without rows and columns
(`jacobian_no_axes`).
-/
import Descent.Differences
import Descent.Proofs.Differences.Polynomial
import Descent.Proofs.Linear.Arrays

namespace Descent
set_option autoImplicit false

/-! ## Vectors and columns -/

/-- A vector is made if each of its entries is. -/
theorem ofFnM_ok {ε β : Type} {n : ℕ} {f : Fin n → Except ε β} {g : Fin n → β}
    (entries : ∀ i, f i = .ok (g i)) : Vector.ofFnM f = .ok (Vector.ofFn g) := by
  obtain rfl : f = fun i => pure (g i) := funext entries
  exact Vector.ofFnM_pure

theorem Dense.ofRows?_eq {α : Type} {rows : List (Vec α)} {D : Dense α}
    (length : rows.length = D.rows) (width : (rows.head?.map Array.size).getD 0 = D.cols)
    (entries : ∀ (i : Fin D.rows) (h : i < rows.length), rows[i] = (D.body.get i).toArray) :
    ofRows? rows = some D := by
  obtain ⟨k, n, body⟩ := D
  subst length width
  have sizes : ∀ row ∈ rows, row.size = (rows.head?.map Array.size).getD 0 := by
    intro row mem
    obtain ⟨i, bound, rfl⟩ := List.getElem_of_mem mem
    exact (congrArg Array.size (entries ⟨i, bound⟩ bound)).trans (Vector.size_toArray _)
  unfold ofRows?
  dsimp only
  rw [dif_pos sizes]
  congr 2
  ext1 i hi
  rw [Vector.getElem_ofFn]
  exact Vector.toArray_inj.1 (entries ⟨i, hi⟩ hi)

/-- Vectors side by side, as long as there is one. -/
theorem Shaped.ofColumns?_vectors {α : Type} {m n : ℕ} (columns : Mat n m α) (axes : n ≠ 0) :
    ofColumns? (columns.toList.map fun c => .ofVec c.toArray) =
      some (.ofDense ⟨m, n, columns.transpose⟩) := by
  have vectors : (columns.toList.map fun c => ofVec c.toArray).mapM
      (fun column => column.withAxis.vec?) = some (columns.toList.map Vector.toArray) := by
    rw [List.mapM_map]
    exact List.mapM_pure (m := Option) (f := Vector.toArray)
  have rows : Dense.ofRows? (columns.toList.map Vector.toArray) = some ⟨n, m, columns⟩ := by
    refine Dense.ofRows?_eq (by simp) ?_ fun i h => by simp [Vector.get]
    simp [List.head?_eq_getElem?, Nat.pos_of_ne_zero axes]
  simp only [ofColumns?, vectors, Dense.ofColumns?, rows]
  rfl

section
variable {K : Type} [Field K] [LinearOrder K] {n : ℕ}

theorem Shaped.sub?_vector (v w : Fin n → K) :
    (Shaped.vector v).sub? (.vector w) = some (.vector (v - w)) := by
  rw [sub?, combine?_ofVec, Vec.combine?_of_size_eq _ (by simp), ← Vector.toArray_zipWith,
    Embeds.refl.subVec]
  rfl

omit [Field K] [LinearOrder K] in
theorem Shaped.map_vector (g : K → K) (v : Fin n → K) :
    (Shaped.vector v).map g = .vector fun i => g (v i) := by
  rw [map_ofVec, ← Vector.toArray_map]
  congr 2
  ext i hi
  simp [embed]

end

namespace Differences

open MvPolynomial

variable {K : Type} [Field K] [LinearOrder K] {m n : ℕ}

/-- A function returns the values of a polynomial. -/
def Evaluates (f : Vec K → Except (Fault K) K) (p : MvPolynomial (Fin n) K) : Prop :=
  ∀ v : Fin n → K, f (stored v).toArray = .ok (eval v p)

/-- A function returns the values of several polynomials as a vector. -/
def EvaluatesAll (F : Vec K → Except (Fault K) (Shaped K)) (P : Fin m → MvPolynomial (Fin n) K) :
    Prop := ∀ v : Fin n → K, F (stored v).toArray = .ok (.vector fun i => eval v (P i))

/-! ## Points -/

theorem axis_stored (i : Fin n) (eps : K) :
    axis n i eps = (stored (eps • Pi.single i (1 : K))).toArray := by
  simp [axis, embed, Pi.single_apply]

theorem plus_stored (v w : Fin n → K) :
    plus (stored v).toArray (stored w).toArray = (stored (v + w)).toArray := by
  rw [plus, ← Vector.toArray_zipWith, Embeds.refl.addVec]

theorem minus_stored (v w : Fin n → K) :
    minus (stored v).toArray (stored w).toArray = (stored (v - w)).toArray := by
  rw [minus, ← Vector.toArray_zipWith, Embeds.refl.subVec]

theorem check_of_pos {eps : K} (spaced : 0 < eps) : check eps = .ok () := if_neg spaced.not_ge

/-- In no variables there are no columns, and so no rows that they would have. -/
theorem jacobian_no_axes {eps : K} (spaced : 0 < eps) (F : Vec K → Except (Fault K) (Shaped K))
    (x : Fin 0 → K) :
    jacobian F (stored x).toArray eps = .ok (.ofDense ⟨0, 0, #v[]⟩, 0) := by
  have none : (stored x).toArray = #[] := Array.eq_empty_of_size_eq_zero (Vector.size_toArray _)
  rw [none]
  exact bind_eq_ok.2 ⟨(), (ofExcept_plain _).trans (check_of_pos spaced), bind_eq_ok.2
    ⟨#v[], Vector.ofFnM_zero, rfl⟩⟩

/-- Such a matrix is not the Jacobian of a constant in no variables, which has one row. -/
theorem jacobian_no_axes_constant :
    EvaluatesAll (fun _ => .ok (.vector ![1])) (fun _ : Fin 1 => (1 : MvPolynomial (Fin 0) ℚ)) ∧
      ∀ J : Matrix (Fin 1) (Fin 0) ℚ,
        (jacobian (fun _ => .ok (.vector ![1])) (stored ![]).toArray 1 : Except (Fault ℚ) _) ≠
          .ok (.ofDense ⟨1, 0, storedMat J⟩, 0) := by
  constructor
  · intro v
    rw [Except.ok.injEq]
    congr
    funext i
    simp
  · intro J same
    rw [jacobian_no_axes one_pos] at same
    have rows := congrArg (fun D => D.1.extents.head?) (Except.ok.inj same)
    simp [Shaped.ofDense] at rows

/-! ## Differences of polynomials -/

section
variable [IsStrictOrderedRing K] {eps : K} (x : Fin n → K) (spaced : 0 < eps)
include spaced

theorem difference_eq {p : MvPolynomial (Fin n) K} (low : p.totalDegree ≤ 2) (j : Fin n) :
    (eval (x + eps • Pi.single j 1) p - eval (x - eps • Pi.single j 1) p) / (2.0 * eps) =
      eval x (pderiv j p) := by
  have two : (2.0 : K) = 2 := by norm_num
  rw [eval_sub_eval x _ low, slope_single, two, mul_div_cancel_left₀]
  positivity

variable {f : Vec K → Except (Fault K) K} {p : MvPolynomial (Fin n) K} (values : Evaluates f p)
include values

theorem gradient_polynomial (low : p.totalDegree ≤ 2) :
    gradient f (stored x).toArray eps =
      .ok ((stored fun j => eval x (pderiv j p)).toArray, 2 * n) := by
  have above (j : Fin n) : f (plus (stored x).toArray (axis n j eps)) =
      .ok (eval (x + eps • Pi.single j 1) p) := by rw [axis_stored, plus_stored, values]
  have below (j : Fin n) : f (minus (stored x).toArray (axis n j eps)) =
      .ok (eval (x - eps • Pi.single j 1) p) := by rw [axis_stored, minus_stored, values]
  simp only [← difference_eq x spaced low]
  generalize stored x = y at above below ⊢
  obtain ⟨y, rfl⟩ := y
  exact bind_eq_ok.2 ⟨(), (ofExcept_plain _).trans (check_of_pos spaced), bind_eq_ok.2
    ⟨_, ofFnM_ok fun j => bind_eq_ok.2 ⟨_, above j, bind_eq_ok.2 ⟨_, below j, rfl⟩⟩, rfl⟩⟩

theorem bend_polynomial (low : p.totalDegree ≤ 3) (i : Fin n) :
    bend f (stored x).toArray eps (eval x p) (axis n i eps) =
      .ok (eval x (pderiv i (pderiv i p))) := by
  have two : (2.0 : K) = 2 := by norm_num
  have nonzero : eps ^ 2 ≠ 0 := by positivity
  rw [bend, axis_stored, plus_stored, minus_stored, values, values]
  simp only [ok_bind, ofExcept_plain, square_exact]
  rw [quotient_of_ne_zero _ nonzero, two, eval_bend x _ low, slope_single,
    mul_div_cancel_left₀ _ nonzero]

theorem twist_polynomial (low : p.totalDegree ≤ 3) (i j : Fin n) :
    twist f (stored x).toArray eps (axis n i eps) (axis n j eps) =
      .ok (eval x (pderiv i (pderiv j p))) := by
  have four : (4.0 : K) = 4 := by norm_num
  have nonzero : 4 * eps ^ 2 ≠ 0 := by positivity
  simp only [twist, axis_stored, plus_stored, minus_stored, values _, ok_bind, ofExcept_plain,
    square_exact]
  rw [four, quotient_of_ne_zero _ nonzero, eval_twist x _ _ low, slope_single, slope_single,
    mul_div_cancel_left₀ _ nonzero]

theorem hessian_polynomial (low : p.totalDegree ≤ 3) :
    hessian f (stored x).toArray eps =
      .ok (.ofMat (storedMat (Matrix.of fun i j => eval x (pderiv i (pderiv j p)))),
        2 * n * n + 1) := by
  have entry (i j : Fin n) :
      (if j < i then pure 0
        else if j = i then bend f (stored x).toArray eps (eval x p) (axis n i eps)
        else twist f (stored x).toArray eps (axis n i eps) (axis n j eps)) =
      Except.ok (if j < i then 0 else eval x (pderiv i (pderiv j p))) := by
    split
    · rfl
    · split
      · rename_i same
        rw [bend_polynomial x spaced values low, same]
      · exact twist_polynomial x spaced values low i j
  have symmetric : (Mat.ofFn fun i j : Fin n =>
      if j < i then 0 else eval x (pderiv i (pderiv j p))).symmetric =
      storedMat (Matrix.of fun i j => eval x (pderiv i (pderiv j p))) := by
    refine eq_embedMat fun i j => (Mat.get_ofFn _ i j).trans ?_
    -- the lower triangle is filled in from the upper one
    change (if i ≤ j then ((Mat.ofFn _).get i).get j else ((Mat.ofFn _).get j).get i) = _
    rw [Mat.get_ofFn, Mat.get_ofFn]
    by_cases upper : i ≤ j
    · rw [if_pos upper, if_neg upper.not_gt]
      rfl
    · rw [if_neg upper, if_neg (not_le.1 upper).not_gt, pderiv_comm]
      rfl
  have centre := values x
  rw [← symmetric]
  generalize stored x = y at entry centre ⊢
  obtain ⟨y, rfl⟩ := y
  exact bind_eq_ok.2 ⟨(), (ofExcept_plain _).trans (check_of_pos spaced), bind_eq_ok.2
    ⟨_, centre, bind_eq_ok.2 ⟨_, ofFnM_ok fun i => ofFnM_ok fun j => entry i j, rfl⟩⟩⟩

end

section
variable [IsStrictOrderedRing K] {eps : K} (x : Fin n → K) (spaced : 0 < eps)
  {F : Vec K → Except (Fault K) (Shaped K)}
  {P : Fin m → MvPolynomial (Fin n) K} (values : EvaluatesAll F P)
include spaced values

theorem jacobian_polynomial (low : ∀ i, (P i).totalDegree ≤ 2) (axes : n ≠ 0) :
    jacobian F (stored x).toArray eps =
      .ok (.ofDense ⟨m, n, storedMat (Matrix.of fun i j => eval x (pderiv j (P i)))⟩, 2 * n) := by
  have column (j : Fin n) : (do
      let above ← F (plus (stored x).toArray (axis n j eps))
      let below ← F (minus (stored x).toArray (axis n j eps))
      return (← fit (above.sub? below)).map (· / (2.0 * eps))) =
      Except.ok (.vector fun i => eval x (pderiv j (P i))) := by
    simp only [axis_stored, plus_stored, minus_stored, values _, ok_bind, Shaped.sub?_vector, fit,
      pure_ok, Shaped.map_vector, Pi.sub_apply, difference_eq x spaced (low _)]
  have joined := Shaped.ofColumns?_vectors
    (storedMat (Matrix.of fun (j : Fin n) (i : Fin m) => eval x (pderiv j (P i)))) axes
  generalize stored x = y at column ⊢
  obtain ⟨y, rfl⟩ := y
  refine bind_eq_ok.2 ⟨(), (ofExcept_plain _).trans (check_of_pos spaced), bind_eq_ok.2
    ⟨_, ofFnM_ok column, bind_eq_ok.2 ⟨_, fit_eq_ok.2 ?_, rfl⟩⟩⟩
  rw [transpose_embedMat] at joined
  refine .trans (congrArg _ ?_) joined
  simp only [embedMat, Mat.ofFn, Vector.toList_ofFn, List.map_ofFn]
  rfl

end

/-- **Central differences of polynomials of low degree are exact.** -/
theorem exact_polynomial [IsStrictOrderedRing K] {eps : K} (spaced : 0 < eps) (x : Fin n → K) :
    (∀ (f : Vec K → Except (Fault K) K) (p : MvPolynomial (Fin n) K), Evaluates f p →
      p.totalDegree ≤ 2 →
        gradient f (stored x).toArray eps =
          .ok ((stored fun j => eval x (pderiv j p)).toArray, 2 * n)) ∧
    (∀ (m : ℕ) (F : Vec K → Except (Fault K) (Shaped K)) (P : Fin m → MvPolynomial (Fin n) K),
      EvaluatesAll F P → (∀ i, (P i).totalDegree ≤ 2) →
        (n ≠ 0 → jacobian F (stored x).toArray eps =
          .ok (.ofDense ⟨m, n, storedMat (Matrix.of fun i j => eval x (pderiv j (P i)))⟩, 2 * n)) ∧
        (n = 0 → jacobian F (stored x).toArray eps = .ok (.ofDense ⟨0, 0, #v[]⟩, 0))) ∧
    (∀ (f : Vec K → Except (Fault K) K) (p : MvPolynomial (Fin n) K), Evaluates f p →
      p.totalDegree ≤ 3 →
        ∃ H : Matrix (Fin n) (Fin n) K, H.IsSymm ∧ (∀ i j, H i j = eval x (pderiv i (pderiv j p))) ∧
          hessian f (stored x).toArray eps = .ok (.ofMat (storedMat H), 2 * n * n + 1)) := by
  refine ⟨fun f p values low => ?_, fun m F P values low => ⟨fun axes => ?_, fun none => ?_⟩,
    fun f p values low => ⟨_, ?_, fun i j => rfl, ?_⟩⟩
  · exact gradient_polynomial x spaced values low
  · exact jacobian_polynomial x spaced values low axes
  · subst none
    exact jacobian_no_axes spaced F x
  · ext i j
    exact congrArg (eval x) (pderiv_comm j i p)
  · exact hessian_polynomial x spaced values low

/-- Products of two variables and their powers, from a distance at which rounding would show. -/
theorem exact_polynomial_products :
    (gradient (fun v => .ok (v.getD 0 0 * v.getD 1 0)) (stored ![1, 2]).toArray (1 / 2) :
        Except (Fault ℚ) _) = .ok ((stored ![2, 1]).toArray, 4) ∧
      (jacobian (fun v => .ok (.vector ![v.getD 0 0 * v.getD 1 0, v.getD 1 0 ^ 2]))
        (stored ![1, 2]).toArray (1 / 2) : Except (Fault ℚ) _) =
          .ok (.ofDense ⟨2, 2, storedMat !![2, 1; 0, 4]⟩, 4) ∧
      (hessian (fun v => .ok (v.getD 0 0 ^ 2 * v.getD 1 0)) (stored ![1, 2]).toArray (1 / 2) :
        Except (Fault ℚ) _) = .ok (.ofMat (storedMat !![4, 2; 2, 0]), 9) := by
  have product : Evaluates (fun v : Vec ℚ => .ok (v.getD 0 0 * v.getD 1 0))
      (X 0 * X 1 : MvPolynomial (Fin 2) ℚ) := fun v => by simp [embed]
  have products : EvaluatesAll
      (fun v : Vec ℚ => .ok (.vector ![v.getD 0 0 * v.getD 1 0, v.getD 1 0 ^ 2]))
      (![X 0 * X 1, X 1 ^ 2] : Fin 2 → MvPolynomial (Fin 2) ℚ) := by
    intro v
    rw [Except.ok.injEq]
    congr
    funext i
    fin_cases i <;> simp [embed]
  have cubic : Evaluates (fun v : Vec ℚ => .ok (v.getD 0 0 ^ 2 * v.getD 1 0))
      (X 0 ^ 2 * X 1 : MvPolynomial (Fin 2) ℚ) := fun v => by simp [embed]
  have low : (X 0 * X 1 : MvPolynomial (Fin 2) ℚ).totalDegree ≤ 2 :=
    (totalDegree_mul _ _).trans (by simp)
  obtain ⟨first, columns, second⟩ := exact_polynomial (by norm_num : (0 : ℚ) < 1 / 2) ![1, 2]
  refine ⟨?_, ?_, ?_⟩
  · rw [first _ _ product low]
    congr
    funext j
    fin_cases j <;> simp [pderiv_X]
  · rw [(columns 2 _ _ products fun i => ?_).1 (by decide)]
    · congr
      ext i j
      fin_cases i <;> fin_cases j <;> norm_num [pderiv_X]
    · fin_cases i
      · exact low
      · simp
  · obtain ⟨H, -, entries, returned⟩ := second _ _ cubic ((totalDegree_mul _ _).trans (by simp))
    rw [returned]
    have constant (i : Fin 2) : pderiv i (2 : MvPolynomial (Fin 2) ℚ) = 0 :=
      (pderiv i).map_natCast 2
    congr
    ext i j
    rw [entries]
    fin_cases i <;> fin_cases j <;> norm_num [pderiv_X, constant]

end Differences

end Descent
