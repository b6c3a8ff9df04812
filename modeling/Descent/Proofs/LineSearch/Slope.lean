/-
# Descent.Proofs.LineSearch.Slope — the slope of a ray is the derivative of its value

A line search asks a ray for values and slopes, in an order of its own, and each request writes a
trial point over the one before.  The ray of a differentiable system with its Jacobian, or of a
differentiable objective with its gradient, is that of a function of the step length all the
same (`Ray.Belongs`): in every session that is along the line, whatever its trial point is, any
requests are answered with the values and the derivatives of the function.

Each request finds the line where it was and leaves it there, as the trial point is made anew from
the start and the direction (`Ray.answers_one`); so do any number of them (`Ray.answers_all`).
That the slopes are derivatives is the chain rule (`hasDerivAt_along`).
-/
import Descent.Proofs.Equations.Dogleg.Progress
import Descent.Proofs.Equations.Ray
import Descent.Proofs.Objective.Quadratic
import Descent.Proofs.Objective.Ray
import Mathlib.Analysis.Calculus.Deriv.Add
import Mathlib.Analysis.Calculus.Deriv.Mul
import Mathlib.Analysis.Calculus.Deriv.Prod

namespace Descent
set_option autoImplicit false

open Wide Matrix

/-! ## Requests -/

/-- What a line search asks of a ray at a step length. -/
inductive Request where
  | value (alpha : ℝ)
  | slope (alpha : ℝ)

/-- What a function has for an answer: its values and its derivatives. -/
noncomputable def Request.answer (φ : ℝ → ℝ) : Request → Wide
  | .value alpha => real (φ alpha)
  | .slope alpha => real (deriv φ alpha)

namespace Ray

variable {δ ω : Type} {x d : Vec Wide} {φ : ℝ → ℝ}

def ask {m : Type → Type} (ray : Ray m Wide) : Request → m Wide
  | .value alpha => ray.value (real alpha)
  | .slope alpha => ray.slope (real alpha)

/-- The ray along a line is that of a differentiable function. -/
structure Belongs (ray : Ray (Act δ ω Wide) Wide) (x d : Vec Wide) (φ : ℝ → ℝ) : Prop where
  differentiable : Differentiable ℝ φ
  answers : ∀ (requests : List Request) (s : Session δ ω Wide), s.Along x d →
    ∃ t, (requests.mapM ray.ask).outcome s = (.ok (requests.map (·.answer φ)), t) ∧ t.Along x d

/-- The values and slopes of a plain ray are those of a function. -/
structure Describes (plain : Ray (Except (Fault Wide)) Wide) (φ : ℝ → ℝ) : Prop where
  value : ∀ a, plain.value (real a) = .ok (real (φ a))
  slope : ∀ a, ∃ k, HasDerivAt φ k a ∧ plain.slope (real a) = .ok (real k)

variable {ray : Ray (Act δ ω Wide) Wide} {plain : Ray (Except (Fault Wide)) Wide}
  (same : (Correspondence.along x d).Rays plain ray) (describes : plain.Describes φ)
include same describes

/-- A request is answered by the function, and leaves the line where it is. -/
theorem answers_one (q : Request) :
    (Correspondence.along x d).Rel (.ok (q.answer φ)) (ray.ask q) := by
  cases q with
  | value a =>
    rw [Request.answer, ← describes.value]
    exact same.value _
  | slope a =>
    obtain ⟨k, derivative, there⟩ := describes.slope a
    rw [Request.answer, derivative.deriv, ← there]
    exact same.slope _

/-- So are requests in any order. -/
theorem answers_all (requests : List Request) :
    (Correspondence.along x d).Rel (.ok (requests.map (·.answer φ))) (requests.mapM ray.ask) := by
  let C := Correspondence.along (δ := δ) (ω := ω) x d
  induction requests with
  | nil => exact C.pure []
  | cons q rest ih =>
    rw [List.mapM_cons]
    exact C.bind (answers_one same describes q) fun a => C.bind ih fun l => C.pure (a :: l)

theorem belongs : ray.Belongs x d φ where
  differentiable a := (describes.slope a).choose_spec.1.differentiableAt
  answers requests s along := by
    obtain ⟨result, still⟩ := answers_all same describes requests s along
    exact ⟨_, Prod.ext result rfl, still⟩

end Ray

/-! ## The chain rule -/

section
variable {m n : ℕ} (x d : Fin n → ℝ) (a : ℝ)

/-- A function along a line. -/
theorem hasDerivAt_along {E : Type} [NormedAddCommGroup E] [NormedSpace ℝ E]
    {f : (Fin n → ℝ) → E} (differentiable : Differentiable ℝ f) :
    HasDerivAt (fun a : ℝ => f (x + a • d)) (fderiv ℝ f (x + a • d) d) a := by
  have line : HasDerivAt (fun a : ℝ => x + a • d) d a :=
    (((hasDerivAt_id a).smul_const d).const_add x).congr_deriv (one_smul ℝ d)
  exact (differentiable _).hasFDerivAt.comp_hasDerivAt a line

/-- The square of the length of a vector. -/
theorem hasDerivAt_square {u : ℝ → Fin m → ℝ} {v : Fin m → ℝ} (derivative : HasDerivAt u v a) :
    HasDerivAt (fun a => u a ⬝ᵥ u a) (2 * (u a ⬝ᵥ v)) a := by
  have entry (i : Fin m) : HasDerivAt (fun a => u a i) (v i) a := hasDerivAt_pi.1 derivative i
  have sum := HasDerivAt.fun_sum fun i (_ : i ∈ Finset.univ) => (entry i).mul (entry i)
  refine sum.congr_deriv ?_
  simp only [dotProduct, Finset.mul_sum]
  refine Finset.sum_congr rfl fun i _ => ?_
  ring

/-- The partial derivatives of a function. -/
noncomputable def partials (f : (Fin n → ℝ) → ℝ) (z : Fin n → ℝ) : Fin n → ℝ :=
  fun i => fderiv ℝ f z (Pi.single i 1)

theorem partials_dotProduct (f : (Fin n → ℝ) → ℝ) (z : Fin n → ℝ) :
    partials f z ⬝ᵥ d = fderiv ℝ f z d := by
  have sum := (fderiv ℝ f z).toLinearMap.pi_apply_eq_sum_univ d
  rw [ContinuousLinearMap.coe_coe] at sum
  rw [sum]
  refine Finset.sum_congr rfl fun i _ => ?_
  rw [partials, mul_comm, smul_eq_mul]
  congr 3
  funext j
  simp [Pi.single_apply, eq_comm]

end

/-! ## Systems -/

namespace PureEquations

variable {m n : ℕ} {G : PureEquations Wide} {F : (Fin n → ℝ) → Fin m → ℝ}

/-- The system of a differentiable function with its Jacobian. -/
structure Exact (G : PureEquations Wide) (F : (Fin n → ℝ) → Fin m → ℝ) : Prop where
  differentiable : Differentiable ℝ F
  residual : ∀ z : Fin n → ℝ, G.residual (reals z).toArray = .ok (.ofVec (reals (F z)).toArray)
  jacobian : ∀ z : Fin n → ℝ, G.derivative (reals z).toArray =
    .ok (.ofDense (Dogleg.denseReals (LinearMap.toMatrix' (fderiv ℝ F z).toLinearMap)))

theorem Exact.describes (exact : G.Exact F) (x d : Fin n → ℝ) :
    (G.ray (reals x).toArray (reals d).toArray none).Describes
      fun a => F (x + a • d) ⬝ᵥ F (x + a • d) where
  value a := by
    simp only [ray, linePoint_reals, exact.residual, ok_bind, Shaped.inner_toArray, embeds.dot]
  slope a := by
    have two : (2.0 : Wide) = real 2 := by
      rw [ofScientific_eq]
      norm_num
    refine ⟨_, hasDerivAt_square a (hasDerivAt_along x d a exact.differentiable), ?_⟩
    simp only [ray, linePoint_reals, exact.residual, exact.jacobian, ok_bind,
      Shaped.product?_ofDense_ofVec, Dogleg.mulVec?_reals, Option.map_some, fit, pure_ok,
      Shaped.inner_toArray, embeds.dot, two, real_mul]
    rw [LinearMap.toMatrix'_mulVec, ContinuousLinearMap.coe_coe]

theorem exact_ofReal {J : (Fin n → ℝ) → Matrix (Fin m) (Fin n) ℝ}
    (derivative : ∀ z, HasFDerivAt F (J z).mulVecLin.toContinuousLinearMap z) :
    (ofReal F J).Exact F where
  differentiable z := (derivative z).differentiableAt
  residual := residual_ofReal F J
  jacobian z := by
    rw [(derivative z).fderiv, (smooth_ofReal F J z (derivative z)).jacobian]
    exact congrArg (fun A => Except.ok (Shaped.ofDense (Dogleg.denseReals A)))
      (LinearMap.toMatrix'_toLin' (J z)).symm

end PureEquations

/-! ## Objectives -/

/-- A quadratic function along a line. -/
theorem quadraticForm_line {n : ℕ} {A : Matrix (Fin n) (Fin n) ℝ} (symm : A.IsSymm)
    (b z d : Fin n → ℝ) (a : ℝ) : quadraticForm A b (z + a • d) =
      quadraticForm A b z + a * ((A *ᵥ z - b) ⬝ᵥ d) + a ^ 2 * (d ⬝ᵥ A *ᵥ d / 2) := by
  have swap : z ⬝ᵥ A *ᵥ d = A *ᵥ z ⬝ᵥ d := (UpdateRule.mulVec_dotProduct_of_isSymm symm z d).symm
  simp only [quadraticForm, mulVec_add, mulVec_smul, add_dotProduct, dotProduct_add,
    smul_dotProduct, dotProduct_smul, sub_dotProduct, smul_eq_mul, swap, dotProduct_comm d (A *ᵥ z)]
  ring

namespace PureObjective

variable {n : ℕ} {G : PureObjective Wide} {f : (Fin n → ℝ) → ℝ}

/-- A differentiable objective with its gradient. -/
structure Exact (G : PureObjective Wide) (f : (Fin n → ℝ) → ℝ) : Prop where
  differentiable : Differentiable ℝ f
  value : ∀ z : Fin n → ℝ, G.value (reals z).toArray = .ok (real (f z))
  gradient : ∀ z : Fin n → ℝ,
    G.slope (reals z).toArray = .ok (.ofVec (reals (partials f z)).toArray)

theorem Exact.describes (exact : G.Exact f) (x d : Fin n → ℝ) :
    (G.ray (reals x).toArray (reals d).toArray).Describes fun a => f (x + a • d) where
  value a := by simp only [ray, linePoint_reals, exact.value]
  slope a := by
    refine ⟨_, hasDerivAt_along x d a exact.differentiable, ?_⟩
    simp only [ray, linePoint_reals, exact.gradient, ok_bind, Shaped.inner_toArray, embeds.dot,
      partials_dotProduct]

/-- Quadratic functions have the gradients that are known of them. -/
theorem Quadratic.exact {A : Matrix (Fin n) (Fin n) ℝ} {b : Fin n → ℝ} (quadratic : G.Quadratic A b)
    (symm : A.IsSymm) : G.Exact (quadraticForm A b) := by
  have differentiable : Differentiable ℝ (quadraticForm A b) := by
    unfold quadraticForm dotProduct mulVec dotProduct
    fun_prop
  have gradient (z : Fin n → ℝ) : partials (quadraticForm A b) z = A *ᵥ z - b := by
    funext i
    -- along an axis the function is a parabola
    have parabola : HasDerivAt (fun a : ℝ => quadraticForm A b (z + a • Pi.single i 1))
        ((A *ᵥ z - b) i) 0 := by
      simp only [quadraticForm_line symm, dotProduct_single_one]
      have line := ((hasDerivAt_id (0 : ℝ)).mul_const ((A *ᵥ z - b) i)).const_add
        (quadraticForm A b z)
      have square := ((hasDerivAt_id (0 : ℝ)).pow 2).mul_const
        ((Pi.single i 1 : Fin n → ℝ) ⬝ᵥ A *ᵥ Pi.single i 1 / 2)
      refine (line.add square).congr_deriv ?_
      simp
    have along := hasDerivAt_along z (Pi.single i 1) 0 differentiable
    rw [zero_smul, add_zero] at along
    exact along.unique parabola
  exact
    { differentiable
      value := quadratic.value
      gradient := fun z => by rw [quadratic.gradient, gradient] }

end PureObjective

/-! ## Rays -/

/-- **The values and the slopes that line searches are given belong together**, for systems and for
objectives. -/
theorem rays_belong {δ δ' ω ω' : Type} {m n : ℕ} {G : PureEquations Wide}
    {F : (Fin n → ℝ) → Fin m → ℝ} {H : PureObjective Wide} {f : (Fin n → ℝ) → ℝ}
    (system : G.Exact F) (objective : H.Exact f) (x d : Fin n → ℝ) :
    (G.actions.ray none : Ray (Act δ ω Wide) Wide).Belongs (reals x).toArray (reals d).toArray
        (fun a => F (x + a • d) ⬝ᵥ F (x + a • d)) ∧
      (H.actions.ray : Ray (Act δ' ω' Wide) Wide).Belongs (reals x).toArray (reals d).toArray
        (fun a => f (x + a • d)) :=
  ⟨Ray.belongs (G.rel_ray _ _ none) (system.describes x d),
    Ray.belongs (H.rel_ray _ _) (objective.describes x d)⟩

/-- Two squares as equations, and two unknowns with mixed second derivatives. -/
theorem rays_belong_squares :
    let F : (Fin 2 → ℝ) → Fin 2 → ℝ := fun z i => z i ^ 2
    let f : (Fin 2 → ℝ) → ℝ := quadraticForm !![2, 1; 1, 2] ![3, 0]
    ((PureEquations.ofReal F fun z => diagonal fun i => 2 * z i).actions.ray none :
        Ray (Act Unit Unit Wide) Wide).Belongs (reals ![1, 2]).toArray (reals ![3, -1]).toArray
        (fun a => F (![1, 2] + a • ![3, -1]) ⬝ᵥ F (![1, 2] + a • ![3, -1])) ∧
      ((PureObjective.ofForm !![2, 1; 1, 2] ![3, 0]).actions.ray :
        Ray (Act Unit Unit Wide) Wide).Belongs (reals ![1, 2]).toArray (reals ![3, -1]).toArray
        (fun a => f (![1, 2] + a • ![3, -1])) := by
  intro F f
  have symm : (!![2, 1; 1, 2] : Matrix (Fin 2) (Fin 2) ℝ).IsSymm := by
    ext i j
    fin_cases i <;> fin_cases j <;> rfl
  exact rays_belong (PureEquations.exact_ofReal Dogleg.hasFDerivAt_squares)
    ((PureObjective.ofForm_quadratic _ _).exact symm) _ _

end Descent
