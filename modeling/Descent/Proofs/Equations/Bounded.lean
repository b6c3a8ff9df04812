/-
# Descent.Proofs.Equations.Bounded — systems of real or undefined numbers

Where a system is defined its residuals are real, and so are known Jacobians
(`PureEquations.Bounded`).  Then Jacobians by central differences are real or undefined
as well: a difference of residuals is divided by a distance that is not zero.

Every real function with a Jacobian is such a system (`PureEquations.ofReal`).  Rosenbrock's is one
in which a full step from the usual start overshoots, so that it is rejected or shortened.
-/
import Descent.Proofs.Equations.Evaluation
import Descent.Proofs.Linear.Wide

namespace Descent
set_option autoImplicit false

open Wide Matrix

/-- Residuals and known Jacobians have no infinite entries. -/
structure PureEquations.Bounded (G : PureEquations Wide) : Prop where
  residual : ∀ x w, G.residual x = .ok w → ∀ a ∈ w.flat, a.Bounded
  jacobian : ∀ J x A, G.jacobian = some J → J x = .ok A → ∀ a ∈ A.flat, a.Bounded

theorem Shaped.mem_flat_ofDense {α : Type} {D : Dense α} {a : α} :
    a ∈ (ofDense D).flat ↔ ∃ i j, (D.body.get i).get j = a := by
  simp only [flat, ofDense, Tensor.entries, List.mem_toArray, List.mem_flatMap, List.mem_singleton,
    Vector.mem_toList_iff, Vector.mem_iff_getElem]
  constructor
  · rintro ⟨_, ⟨i, hi, rfl⟩, _, ⟨j, hj, rfl⟩, rfl⟩
    exact ⟨⟨i, hi⟩, ⟨j, hj⟩, rfl⟩
  · rintro ⟨i, j, rfl⟩
    exact ⟨_, ⟨i, i.isLt, rfl⟩, _, ⟨j, j.isLt, rfl⟩, rfl⟩

/-- The system `x = 0`; only real points have a defined residual. -/
noncomputable def PureEquations.origin : PureEquations Wide where
  residual x := .ok (.ofVec (x.map Wide.finite))
  jacobian := some fun x => .ok (.ofMat (Mat.identity x.size))
  fixed x x' y y' size there there' := by
    cases there
    cases there'
    simp only [Shaped.ofVec, Array.size_map, size]

/-! ## Systems of real functions -/

namespace PureEquations

section
variable {m n : ℕ} (F : (Fin n → ℝ) → Fin m → ℝ) (J : (Fin n → ℝ) → Matrix (Fin m) (Fin n) ℝ)

open Classical in
/-- The system of a real function with a Jacobian. Nothing but real points of the right size has a
residual. -/
noncomputable def ofReal : PureEquations Wide where
  residual z :=
    if h : ∃ v : Fin n → ℝ, (reals v).toArray = z then .ok (.ofVec (reals (F h.choose)).toArray)
    else .error .shapeMismatch
  jacobian := some fun z =>
    if h : ∃ v : Fin n → ℝ, (reals v).toArray = z then
      .ok (.ofDense ⟨m, n, embedMat real (J h.choose)⟩)
    else .error .shapeMismatch
  fixed z z' w w' _ there there' := by
    split at there <;> cases there
    split at there' <;> cases there'
    simp [Shaped.ofVec]

theorem choose_eq {x : Fin n → ℝ} (h : ∃ v : Fin n → ℝ, (reals v).toArray = (reals x).toArray) :
    h.choose = x :=
  embed_injective embeds.injective (Vector.toArray_inj.1 h.choose_spec)

theorem residual_ofReal (x : Fin n → ℝ) :
    (ofReal F J).residual (reals x).toArray = .ok (.ofVec (reals (F x)).toArray) := by
  have real : ∃ v : Fin n → ℝ, (reals v).toArray = (reals x).toArray := ⟨x, rfl⟩
  simp only [ofReal, dif_pos real, choose_eq real]

theorem bounded_ofReal : (ofReal F J).Bounded where
  residual x w there := by
    simp only [ofReal] at there
    split at there <;> cases there
    simpa using fun a mem => (isReal_reals _ a mem).bounded
  jacobian A x D known there := by
    cases known
    dsimp only at there
    split at there <;> cases there
    intro a mem
    obtain ⟨i, j, rfl⟩ := Shaped.mem_flat_ofDense.1 mem
    rw [get_embedMat, get_embed]
    exact (isReal_real _).bounded

end

/-- Rosenbrock's residual. Its zero is at `(1, 1)`, at the end of a curved valley. -/
def rosenbrockResidual (x : Fin 2 → ℝ) : Fin 2 → ℝ := ![10.0 * (x 1 - x 0 ^ 2), 1 - x 0]

def rosenbrockJacobian (x : Fin 2 → ℝ) : Matrix (Fin 2) (Fin 2) ℝ := !![-20.0 * x 0, 10.0; -1, 0]

/-- Rosenbrock's system with its Jacobian. -/
noncomputable def rosenbrock : PureEquations Wide := ofReal rosenbrockResidual rosenbrockJacobian

theorem pointAt_rosenbrock (x : Fin 2 → ℝ) : rosenbrock.pointAt (reals x).toArray =
    .ok ⟨(reals x).toArray, .ofVec (reals (rosenbrockResidual x)).toArray⟩ := by
  rw [pointAt, rosenbrock, residual_ofReal]
  rfl

/-- The usual start. -/
noncomputable def rosenbrockStart : Fin 2 → ℝ := ![-1.2, 1]

/-- The full step from the usual start solves the linear system, but overshoots: where it leads
the residual is longer. -/
theorem rosenbrock_overshoots :
    let x := rosenbrockStart
    let p : Fin 2 → ℝ := ![11/5, -121/25]
    rosenbrockJacobian x *ᵥ p = -rosenbrockResidual x ∧
      rosenbrockResidual x ⬝ᵥ rosenbrockResidual x <
        rosenbrockResidual (x + p) ⬝ᵥ rosenbrockResidual (x + p) := by
  intro x p
  constructor
  · ext i
    fin_cases i <;> norm_num [x, p, rosenbrockStart, rosenbrockJacobian, rosenbrockResidual]
  · norm_num [x, p, rosenbrockStart, rosenbrockResidual]

end PureEquations

theorem ofFnM_eq_ok {ε β : Type} {n : ℕ} {f : Fin n → Except ε β} {v : Vector β n}
    (h : Vector.ofFnM f = .ok v) (i : Fin n) : f i = .ok (v.get i) := by
  induction n with
  | zero => exact i.elim0
  | succ n ih =>
    rw [Vector.ofFnM_succ] at h
    obtain ⟨before, first, h⟩ := bind_eq_ok.1 h
    obtain ⟨last, there, h⟩ := bind_eq_ok.1 h
    cases h
    cases i using Fin.lastCases with
    | last => exact there.trans (congrArg Except.ok Vector.getElem_push_last.symm)
    | cast i => exact (ih first i).trans (congrArg Except.ok (Vector.getElem_push_lt i.isLt).symm)

/-- The entries of a matrix that is read by rows. -/
theorem Dense.mem_of_ofRows? {α : Type} {rows : List (Vec α)} {R : Dense α}
    (read : ofRows? rows = some R) (i : Fin R.rows) (j : Fin R.cols) :
    ∃ row ∈ rows, (R.body.get i).get j ∈ row := by
  unfold ofRows? at read
  dsimp only at read
  split at read
  · cases read
    refine ⟨rows[i], List.getElem_mem _, ?_⟩
    simp only [Vector.get, Vector.toArray_ofFn, Array.getElem_ofFn]
    exact Array.getElem_mem _
  · cases read

namespace Differences

/-- Columns of bounded numbers make a matrix of such. -/
theorem bounded_ofColumns? {columns : List (Vec Wide)} {A : Shaped Wide} {D : Dense Wide}
    (bounded : ∀ c ∈ columns, ∀ a ∈ c, a.Bounded)
    (joined : Shaped.ofColumns? (columns.map .ofVec) = some A) (matrix : A.dense? = some D)
    (i : Fin D.rows) (j : Fin D.cols) : ((D.body.get i).get j).Bounded := by
  have vectors : (columns.map Shaped.ofVec).mapM (fun column => column.withAxis.vec?) =
      some columns := by
    rw [List.mapM_map]
    exact List.mapM_pure (m := Option) (f := id) |>.trans (congrArg some (List.map_id columns))
  simp only [Shaped.ofColumns?, vectors] at joined
  obtain ⟨D', made, rfl⟩ := Option.map_eq_some_iff.1 joined
  rw [Shaped.dense?_ofDense] at matrix
  cases matrix
  obtain ⟨R, rows, rfl⟩ := Option.map_eq_some_iff.1 made
  obtain ⟨c, column, entry⟩ := Dense.mem_of_ofRows? rows j i
  have transposed : (R.transpose.body.get i).get j = (R.body.get j).get i := Mat.get_transpose R.body i j
  rw [transposed]
  exact bounded c column _ entry

/-- Jacobians of bounded vectors by central differences are bounded. -/
theorem bounded_jacobian {f : Vec Wide → Except (Fault Wide) (Shaped Wide)} {x : Vec Wide}
    {A : Shaped Wide} {D : Dense Wide} {cost : ℕ}
    (bounded : ∀ z w, f z = .ok w → ∀ a ∈ w.flat, a.Bounded)
    (vectors : ∀ z w, z.size = x.size → f z = .ok w → ∃ y, w = .ofVec y)
    (taken : jacobian f x 1e-6 = .ok (A, cost)) (matrix : A.dense? = some D) (i : Fin D.rows)
    (j : Fin D.cols) : ((D.body.get i).get j).Bounded := by
  obtain ⟨⟨⟩, -, taken⟩ := bind_eq_ok.1 taken
  obtain ⟨columns, differences, taken⟩ := bind_eq_ok.1 taken
  obtain ⟨A', joined, returned⟩ := bind_eq_ok.1 taken
  cases returned
  have near (e : Vec Wide) (size : e.size = x.size) (w : Shaped Wide) (g : Wide → Wide → Wide)
      (there : f (Array.zipWith g x e) = .ok w) : ∃ y, w = .ofVec y ∧ ∀ a ∈ y, a.Bounded := by
    obtain ⟨y, rfl⟩ := vectors _ w (by simp [size]) there
    exact ⟨y, rfl, by simpa using bounded _ _ there⟩
  have column (k : Fin x.size) : ∃ c : Vec Wide, (∀ a ∈ c, a.Bounded) ∧ columns[k] = .ofVec c := by
    obtain ⟨above, there, rest⟩ := bind_eq_ok.1 (ofFnM_eq_ok differences k)
    obtain ⟨below, there', rest⟩ := bind_eq_ok.1 rest
    obtain ⟨d, subtracted, divided⟩ := bind_eq_ok.1 rest
    obtain ⟨y, rfl, bounded⟩ := near _ (by simp [axis]) _ _ there
    obtain ⟨y', rfl, bounded'⟩ := near _ (by simp [axis]) _ _ there'
    rw [fit_eq_ok, Shaped.sub?, Shaped.combine?_ofVec] at subtracted
    obtain ⟨c, combined, rfl⟩ := Option.map_eq_some_iff.1 subtracted
    have parts := forall_of_combine? (fun _ _ => Wide.Bounded.sub) bounded bounded' combined
    refine ⟨c.map (· / (2.0 * 1e-6)), ?_, ?_⟩
    · simp only [Array.mem_map, forall_exists_index, and_imp, forall_apply_eq_imp_iff₂,
        ofScientific_eq, real_mul]
      exact fun a mem => (parts a mem).div_real (by norm_num)
    · rw [← Shaped.map_ofVec]
      exact (Except.ok.inj divided).symm
  choose c bounded' same using column
  have entries : ∀ y ∈ List.ofFn c, ∀ a ∈ y, a.Bounded := by simpa using bounded'
  refine bounded_ofColumns? entries ?_ matrix i j
  rw [← fit_eq_ok, ← joined]
  congr 2
  refine List.ext_getElem (by simp) fun k _ _ => ?_
  simpa using (same ⟨k, by simpa using ‹k < columns.toList.length›⟩).symm

end Differences

/-- Jacobians at points whose residuals are vectors are bounded. -/
theorem PureEquations.Bounded.derivative {G : PureEquations Wide} (bounded : G.Bounded)
    {x y : Vec Wide} {w A : Shaped Wide} {D : Dense Wide} (value : G.residual x = .ok w)
    (vector : w.vec? = some y) (taken : G.derivative x = .ok A) (matrix : A.dense? = some D)
    (i : Fin D.rows) (j : Fin D.cols) : ((D.body.get i).get j).Bounded := by
  unfold PureEquations.derivative at taken
  split at taken
  · rename_i known
    obtain rfl := Shaped.eq_ofDense matrix
    exact bounded.jacobian _ _ _ known taken _ (Shaped.mem_flat_ofDense.2 ⟨i, j, rfl⟩)
  · obtain ⟨⟨A', cost⟩, differences, returned⟩ := bind_eq_ok.1 taken
    cases returned
    refine Differences.bounded_jacobian bounded.residual (fun z w' size there => ?_) differences
      matrix i j
    have extents := G.fixed x z w w' size value there
    obtain rfl := Shaped.eq_ofVec vector
    exact Shaped.exists_ofVec extents

end Descent
