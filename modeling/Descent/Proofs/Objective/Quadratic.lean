/-
# Descent.Proofs.Objective.Quadratic — convex quadratics take one iteration

The Newton direction of `x · A x / 2 - b · x` with a positive definite `A` leads from every
start right to the minimum, where `A x = b`.  Along the ray to it the objective is a parabola
with its vertex at one (`PureObjective.Quadratic.valley`), so every line search that is
`LineSearch.Full` takes the full step, and the run has converged after it: an optimizer with
the exact Hessian returns the minimum after a single iteration (`minimizes_quadratic`),
whatever the number of unknowns, the start and the tolerances are.
-/
import Descent.Proofs.Iteration.Single
import Descent.Proofs.LineSearch.Unit
import Descent.Proofs.Linear.Solver
import Descent.Proofs.Objective.Descent
import Descent.Proofs.Stopping
import Mathlib.Analysis.Matrix.PosDef

namespace Descent
set_option autoImplicit false

open Wide Matrix

variable {n : ℕ} {A : Matrix (Fin n) (Fin n) ℝ} {b : Fin n → ℝ}

/-! ## Quadratic objectives -/

/-- The quadratic function with the gradient `A x - b`. -/
noncomputable def quadraticForm (A : Matrix (Fin n) (Fin n) ℝ) (b x : Fin n → ℝ) : ℝ :=
  x ⬝ᵥ A *ᵥ x / 2 - b ⬝ᵥ x

/-- The function along the way to its stationary point. -/
theorem quadraticForm_along (symm : A.IsSymm) {x z : Fin n → ℝ} (solves : A *ᵥ z = b) (a : ℝ) :
    quadraticForm A b (x + a • (z - x)) =
      quadraticForm A b x - (a - a ^ 2 / 2) * ((z - x) ⬝ᵥ A *ᵥ (z - x)) := by
  obtain ⟨d, rfl⟩ : ∃ d, z = x + d := ⟨z - x, (add_sub_cancel x z).symm⟩
  have swap : x ⬝ᵥ A *ᵥ d = d ⬝ᵥ A *ᵥ x := by
    rw [← UpdateRule.mulVec_dotProduct_of_isSymm symm, dotProduct_comm]
  have product : b ⬝ᵥ d = d ⬝ᵥ A *ᵥ x + d ⬝ᵥ A *ᵥ d := by
    rw [← dotProduct_add, ← mulVec_add, solves, dotProduct_comm]
  simp only [quadraticForm, add_sub_cancel_left, mulVec_add, mulVec_smul, add_dotProduct,
    dotProduct_add, smul_dotProduct, dotProduct_smul, smul_eq_mul, product, swap]
  ring

namespace PureObjective

/-- At points of real numbers the objective is the quadratic function, with its derivatives. -/
structure Quadratic (G : PureObjective Wide) (A : Matrix (Fin n) (Fin n) ℝ) (b : Fin n → ℝ) :
    Prop where
  dim : ∀ k ∈ G.dim, k = n
  value : ∀ x : Fin n → ℝ, G.value (reals x).toArray = .ok (real (quadraticForm A b x))
  gradient : ∀ x : Fin n → ℝ,
    G.slope (reals x).toArray = .ok (.ofVec (reals (A *ᵥ x - b)).toArray)
  hessian : ∃ H, G.hessian = some H ∧
    ∀ x : Fin n → ℝ, H (reals x).toArray = .ok (.ofMat (embedMat real A))

/-- The quadratic function with its derivatives; other points than those of its size have no value. -/
noncomputable def ofForm (A : Matrix (Fin n) (Fin n) ℝ) (b : Fin n → ℝ) : PureObjective Wide where
  value x :=
    if size : x.size = n then
      .ok (dot ⟨x, size⟩ ((embedMat real A).mulVec ⟨x, size⟩) / 2.0 - dot (reals b) ⟨x, size⟩)
    else .error .shapeMismatch
  gradient := some (affine A b)
  hessian := some fun _ => .ok (.ofMat (embedMat real A))
  dim := some n
  fixed := by
    rintro g ⟨⟩ x x' y y' _ there there'
    exact (extents_of_affine there').trans (extents_of_affine there).symm

theorem ofForm_quadratic (A : Matrix (Fin n) (Fin n) ℝ) (b : Fin n → ℝ) :
    (ofForm A b).Quadratic A b where
  dim _ mem := (Option.some.inj mem).symm
  value x := by
    have size : (reals x).toArray.size = n := by simp
    have product : (embedMat real A).mulVec (reals x) = reals (A *ᵥ x) := embeds.mulVec A x
    change (if size : (reals x).toArray.size = n then _ else _) = _
    rw [dif_pos size]
    change Except.ok (dot (reals x) ((embedMat real A).mulVec (reals x)) / 2.0 -
      dot (reals b) (reals x)) = _
    rw [product, embeds.dot, embeds.dot, two_eq, real_div _ two_ne_zero, real_sub, quadraticForm]
  gradient := affine_reals A b
  hessian := ⟨_, rfl, fun _ => rfl⟩

variable {G : PureObjective Wide} {x z : Fin n → ℝ}

theorem Quadratic.pointAt (quadratic : G.Quadratic A b) (x : Fin n → ℝ) :
    G.pointAt (reals x).toArray = .ok (.reals x (quadraticForm A b x) (A *ᵥ x - b)) := by
  rw [PureObjective.pointAt, quadratic.value, quadratic.gradient]
  rfl

/-- The ray to the minimum. -/
theorem Quadratic.valley (quadratic : G.Quadratic A b) (definite : A.PosDef) (solves : A *ᵥ z = b) :
    LineSearch.Valley (G.ray (reals x).toArray (reals (z - x)).toArray)
      (quadraticForm A b x) (-((z - x) ⬝ᵥ A *ᵥ (z - x))) := by
  have symm : A.IsSymm := isHermitian_iff_isSymm.1 definite.isHermitian
  have value (a : ℝ) : (G.ray (reals x).toArray (reals (z - x)).toArray).value (real a) =
      .ok (real (quadraticForm A b x - (a - a ^ 2 / 2) * ((z - x) ⬝ᵥ A *ᵥ (z - x)))) := by
    change G.value (linePoint _ _ (real a)) = _
    rw [linePoint_reals, quadratic.value, quadraticForm_along symm solves]
  have slope (a : ℝ) : (G.ray (reals x).toArray (reals (z - x)).toArray).slope (real a) =
      .ok (real (-(1 - a) * ((z - x) ⬝ᵥ A *ᵥ (z - x)))) := by
    have gap : A *ᵥ (x + a • (z - x)) - b = -(1 - a) • A *ᵥ (z - x) := by
      rw [mulVec_add, mulVec_smul, mulVec_sub, solves]
      module
    change (G.slope (linePoint _ _ (real a)) >>= fun g => g.inner _) = _
    rw [linePoint_reals, quadratic.gradient, ok_bind, Shaped.inner_toArray, embeds.dot, gap,
      smul_dotProduct, smul_eq_mul, dotProduct_comm]
  have falls : 0 ≤ (z - x) ⬝ᵥ A *ᵥ (z - x) := definite.posSemidef.dotProduct_mulVec_nonneg (z - x)
  refine
    { value := (value 0).trans ?_
      slope := (slope 0).trans ?_
      falls := by linarith
      lowest := (value 1).trans ?_
      stationary := (slope 1).trans ?_ }
  all_goals
    congr 2
    ring

end PureObjective

namespace Optimizer

variable {ω : Type} {G : PureObjective Wide} {o : Options Wide} {search : LineSearch ℝ}
  {x z : Fin n → ℝ} {t : State ω Wide}

/-! ## Taking aim -/

/-- A direction of real numbers is taken as it is, and the line lies along it. -/
theorem aim_directed (kind : HessianKind) (o : Options Wide) {f : ℝ} {g d : Fin n → ℝ}
    {v : State ω Wide} (quadratic : G.Quadratic A b) (tries : 0 ≤ search.nanMaxIterations)
    (now : t.driver.current.now = .reals x f g) (sized : Drive.Sized n t)
    (directed : (direction G.actions (.reals x f g)).outcome t = (.ok (reals d).toArray, v)) :
    ∃ u, (aim G.actions (.exact kind search o)).outcome t =
        (.ok ⟨.reals x f g, (reals d).toArray, (reals d).toArray⟩, u) ∧
      u.Along (reals x).toArray (reals d).toArray ∧ u.driver.memory = v.driver.memory := by
  have kept {R : State ω Wide → State ω Wide → Prop} [IsPreorder (State ω Wide) R] :
      (G.actions : Problem ω Wide).Keeps R fun _ => True := G.keeps fun _ _ => trivial
  have sized' : Drive.Sized (reals x).toArray.size v := by
    rw [Vector.size_toArray]
    exact (keeps_direction (R := Drive.SameSizes) kept _).related directed n sized
  have shown : G.shown (reals (x + d)).toArray =
      .ok (.ofNumber (real (quadraticForm A b (x + d)))) := by
    rw [PureObjective.shown, quadratic.value]
    rfl
  have leads : Leads G.shown (reals x).toArray false (reals d).toArray :=
    ⟨_, _, add?_reals _ _, shown, hasNaN_number _⟩
  obtain ⟨u, aimed, along⟩ : ∃ u, (Drive.aim (shownAt G.actions) search.wide o.verbosity
      (reals x).toArray (reals d).toArray).outcome v = (.ok (reals d).toArray, u) ∧
      u.Along (reals x).toArray (reals d).toArray :=
    Drive.outcome_aim (fun z => (Correspondence.within _).bind (G.rel_valueAt (fun _ _ => id) z)
      fun _ => (Correspondence.within _).pure _) (keeps_shown kept) sized' (by simp) leads tries
  have memory : u.driver.memory = v.driver.memory :=
    (Drive.keeps_aim (R := Edit.Unchanged fun s : State ω Wide => s.driver.memory)
      (P := fun _ => True) (keeps_shown kept) _ _).preserves aimed
  refine ⟨u, ?_, along, memory⟩
  refine Edit.outcome_bind_ok.2 ⟨_, t, congrArg (fun p => (Except.ok p, t)) now, ?_⟩
  refine Edit.outcome_bind_ok.2 ⟨_, v, directed, ?_⟩
  exact Edit.outcome_bind_ok.2 ⟨_, u, aimed, rfl⟩

section
variable (quadratic : G.Quadratic A b) (definite : A.PosDef) (solves : A *ᵥ z = b)
include quadratic definite solves

/-! ## The first iteration -/

/-- The direction leads to the minimum. -/
theorem exact_quadratic (f : ℝ) : ∃ cost,
    (exact G.actions (.reals x f (A *ᵥ x - b))).outcome t =
      (.ok (reals (z - x)).toArray, { t with count := t.count + cost }) := by
  have regular : A.det ≠ 0 := definite.det_pos.ne'
  obtain ⟨H, known, there⟩ := quadratic.hessian
  have taken : ((G.actions : Problem ω Wide).hessianAt (reals x).toArray).outcome t =
      (.ok (.ofMat (embedMat real A)), { t with count := t.count + { second := 1 } }) := by
    simp only [Objective.hessianAt, Objective.hessianCost, PureObjective.actions, known, there,
      Option.map_some, Act.counted, Edit.outcome_bind, Edit.outcome_ofExcept, Edit.andThen_ok,
      Edit.outcome_pure]
    rfl
  have factorized := LinearSolver.factorize_regular embeds regular
    (s := ({ tolerance := 0 } : LinearSolver Wide)) rfl
  rw [Edit.outcome] at factorized
  have side : (ObjectivePoint.reals x f (A *ᵥ x - b)).g.neg =
      .ofVec (reals (A *ᵥ (z - x))).toArray := by
    rw [neg_reals, mulVec_sub, solves, neg_sub]
  refine ⟨{ second := 1 }, Edit.outcome_bind_ok.2 ⟨_, _, taken, ?_⟩⟩
  rw [factorized]
  dsimp only
  rw [Edit.outcome_ofExcept, side, LinearSolver.solve_regular embeds regular rfl]

/-- The direction is taken as it is, and the line lies along it. -/
theorem aim_quadratic (tries : 0 ≤ search.nanMaxIterations)
    (fresh : Method.Fresh none (.reals x (quadraticForm A b x) (A *ᵥ x - b)) t) :
    ∃ u, (aim G.actions (.exact .exact search o)).outcome t =
        (.ok ⟨.reals x (quadraticForm A b x) (A *ᵥ x - b), (reals (z - x)).toArray,
          (reals (z - x)).toArray⟩, u) ∧
      u.Along (reals x).toArray (reals (z - x)).toArray ∧ u.driver.memory = none := by
  obtain ⟨cost, found⟩ :=
    exact_quadratic (t := t) quadratic definite solves (quadraticForm A b x)
  have directed : (direction G.actions (.reals x (quadraticForm A b x) (A *ᵥ x - b))).outcome t =
      (.ok (reals (z - x)).toArray, { t with count := t.count + cost }) := by
    refine Edit.outcome_bind_ok.2 ⟨t.driver, t, rfl, ?_⟩
    rw [fresh.memory]
    refine Edit.outcome_bind_ok.2 ⟨_, _, found, ?_⟩
    dsimp only
    rw [hasNaN_reals]
    rfl
  have sized : Drive.Sized n t := (reals x).size_toArray ▸ fresh.sized
  obtain ⟨u, aimed, along, memory⟩ := aim_directed .exact o quadratic tries fresh.now sized directed
  exact ⟨u, aimed, along, memory.trans fresh.memory⟩

/-- The first step leads to the minimum. -/
theorem step_quadratic (full : search.Full)
    (fresh : Method.Fresh none (.reals x (quadraticForm A b x) (A *ᵥ x - b)) t) :
    ∃ u, (method G.actions (.exact .exact search o)).step.outcome t =
        (.ok (reals z).toArray, u) ∧ u.driver.memory = none := by
  obtain ⟨u, aimed, along, none⟩ :=
    aim_quadratic (o := o) quadratic definite solves full.tries fresh
  obtain ⟨v, searched⟩ := LineSearch.outcome_unit full (quadratic.valley definite solves)
    (rays _ _) along Correspondence.along_report
  have kept : (G.actions : Problem ω Wide).Keeps
      (Edit.Unchanged fun s : State ω Wide => s.driver.memory) fun _ => True :=
    G.keeps fun _ _ => trivial
  have memory : v.driver.memory = u.driver.memory :=
    ((keeps_ray kept).search Drive.keeps_report (fun _ _ => trivial) _ 1).preserves searched
  refine ⟨v, ?_, memory.trans none⟩
  change (step G.actions _).outcome t = _
  rw [step_eq]
  refine Edit.outcome_bind_ok.2 ⟨_, u, aimed, ?_⟩
  refine Edit.outcome_bind_ok.2 ⟨_, v, searched, ?_⟩
  rw [add?_unit]
  rfl

/-! ## The whole run -/

theorem reaches_quadratic (unbroken : o.Unbroken) (full : search.Full) :
    (method (ω := ω) G.actions (.exact .exact search o)).Reaches G.pointAt (· = none) none
      (.reals x (quadraticForm A b x) (A *ᵥ x - b)) (.reals z (quadraticForm A b z) 0) where
  start := Method.checkStart_ok fun k known => by
    rw [quadratic.dim k known]
    exact congrArg Nat.cast (reals x).size_toArray.symm
  prepares _ := rfl
  value := quadratic.pointAt x
  steps _ fresh := step_quadratic quadratic definite solves full fresh
  lands := (quadratic.pointAt z).trans (by rw [solves, sub_self])
  measured := by
    have symm : A.IsSymm := isHermitian_iff_isSymm.1 definite.isHermitian
    have falls : quadraticForm A b z ≤ quadraticForm A b x := by
      have along := quadraticForm_along symm solves (x := x) 1
      have nonneg : 0 ≤ (z - x) ⬝ᵥ A *ᵥ (z - x) :=
        definite.posSemidef.dotProduct_mulVec_nonneg (z - x)
      rw [one_smul, add_sub_cancel] at along
      linarith
    exact ObjectivePoint.converged_at_stationary unbroken x z _ falls
  learns t none := by
    change (learn.outcome t).1 = _
    rw [learn, Edit.outcome_bind, Act.outcome_driver, Edit.andThen_ok, none]
    rfl

omit solves in
/-- **The optimizer with the exact Hessian minimizes every strictly convex quadratic function in one
iteration, with every line search that may take a full step.** -/
theorem minimizes_quadratic (x : Fin n → ℝ) (s : State ω Wide) (unbroken : o.Unbroken)
    (full : search.Full) (idle : s.driver.running = false) :
    ∃ out t z, ((method G.actions (.exact .exact search o)).solve (reals x).toArray).outcome s =
        (.ok out, t) ∧
      Method.Single (.reals z (quadraticForm A b z) 0) out ∧ A *ᵥ z = b := by
  obtain ⟨z, solves⟩ : ∃ z, A *ᵥ z = b := mulVec_surjective_iff_isUnit.2 definite.isUnit b
  obtain ⟨out, t, returned, single⟩ := (sound G (.exact .exact search o)).single
    (reaches_quadratic quadratic definite solves unbroken full)
    (fun x => keeps_evaluate (R := Drive.Upholds (· = none)) (G.keeps fun _ _ => trivial) x)
    unbroken.room idle
  exact ⟨out, t, z, returned, single, solves⟩

end

/-- Two unknowns, with mixed second derivatives. -/
theorem minimizes_quadratic_mixed :
    ∃ out t z, ((method (PureObjective.ofForm !![2, 1; 1, 2] ![3, 0]).actions
          (.exact .exact .standard .usual)).solve (reals ![5, 7]).toArray).outcome
        ⟨Drive.idle none, (), {}, {}, #[]⟩ = (.ok out, t) ∧
      Method.Single (.reals z (quadraticForm !![2, 1; 1, 2] ![3, 0] z) 0) out ∧
      !![2, 1; 1, 2] *ᵥ z = ![3, 0] := by
  have definite : (!![2, 1; 1, 2] : Matrix (Fin 2) (Fin 2) ℝ).PosDef := by
    refine .of_dotProduct_mulVec_pos (isHermitian_iff_isSymm.2 ?_) fun x nonzero => ?_
    · ext i j
      fin_cases i <;> fin_cases j <;> rfl
    · have some : x 0 ≠ 0 ∨ x 1 ≠ 0 := by
        by_contra! none
        exact nonzero (funext (Fin.forall_fin_two.2 none))
      have square : x ⬝ᵥ !![2, 1; 1, 2] *ᵥ x = x 0 ^ 2 + x 1 ^ 2 + (x 0 + x 1) ^ 2 := by
        simp [dotProduct, mulVec, Fin.sum_univ_two]
        ring
      rw [star_trivial, square]
      obtain h | h := some <;> positivity
  exact minimizes_quadratic (PureObjective.ofForm_quadratic _ _) definite _ _ Options.usual_unbroken
    LineSearch.standard_full rfl

end Optimizer

end Descent
