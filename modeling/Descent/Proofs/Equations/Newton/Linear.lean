/-
# Descent.Proofs.Equations.Newton.Linear — linear systems take one iteration

For a regular system `A x = b` of real numbers the Newton direction leads from every start
right to the solution, and the ray along it falls like `(1 - α)²` (`PureEquations.Linear.valley`).
So every line search that is `LineSearch.Full` takes the full step, and the run has converged
after it: Newton's method and its thrifty variant return the solution after a single iteration
(`solves_linear`), whatever the size of the system, the start and the tolerances are.
-/
import Descent.Proofs.Equations.Newton.Schedule
import Descent.Proofs.Iteration.Single
import Descent.Proofs.LineSearch.Unit
import Descent.Proofs.Stopping

namespace Descent
set_option autoImplicit false

open Wide Matrix

variable {n : ℕ} {A : Matrix (Fin n) (Fin n) ℝ} {b : Fin n → ℝ}

/-! ## Linear systems -/

namespace PureEquations

/-- At points of real numbers the residual is `A x - b` and the Jacobian is `A`. -/
structure Linear (G : PureEquations Wide) (A : Matrix (Fin n) (Fin n) ℝ) (b : Fin n → ℝ) :
    Prop where
  dim : ∀ k ∈ G.dim, k = n
  residual : ∀ x : Fin n → ℝ, G.residual (reals x).toArray = .ok (.ofVec (reals (A *ᵥ x - b)).toArray)
  derivative : ∀ x : Fin n → ℝ, G.derivative (reals x).toArray = .ok (.ofMat (embedMat real A))

/-- The system `A x = b` with its Jacobian. -/
noncomputable def ofMatrix (A : Matrix (Fin n) (Fin n) ℝ) (b : Fin n → ℝ) : PureEquations Wide where
  residual := affine A b
  jacobian := some fun _ => .ok (.ofMat (embedMat real A))
  dim := some n
  fixed _ _ _ _ _ there there' := (extents_of_affine there').trans (extents_of_affine there).symm

theorem ofMatrix_linear (A : Matrix (Fin n) (Fin n) ℝ) (b : Fin n → ℝ) :
    (ofMatrix A b).Linear A b where
  dim _ mem := (Option.some.inj mem).symm
  residual := affine_reals A b
  derivative _ := rfl

variable {G : PureEquations Wide} {x z : Fin n → ℝ}

theorem Linear.pointAt (linear : G.Linear A b) (x : Fin n → ℝ) :
    G.pointAt (reals x).toArray = .ok (.reals x (A *ᵥ x - b)) := by
  rw [PureEquations.pointAt, linear.residual]
  rfl

/-- On the way from a point to the solution the residual shrinks in proportion. -/
theorem Linear.residual_along (linear : G.Linear A b) (solves : A *ᵥ z = b) (a : ℝ) :
    G.residual (linePoint (reals x).toArray (reals (z - x)).toArray (real a)) =
      .ok (.ofVec (reals ((1 - a) • (A *ᵥ x - b))).toArray) := by
  rw [linePoint_reals, linear.residual, mulVec_add, mulVec_smul, mulVec_sub, solves]
  congr 4
  module

/-- The ray to the solution. -/
theorem Linear.valley (linear : G.Linear A b) (solves : A *ᵥ z = b) {frozen : Option (Shaped Wide)}
    (slopes : frozen = none ∨ frozen = some (.ofMat (embedMat real A))) :
    LineSearch.Valley (G.ray (reals x).toArray (reals (z - x)).toArray frozen)
      ((A *ᵥ x - b) ⬝ᵥ (A *ᵥ x - b)) (-2 * ((A *ᵥ x - b) ⬝ᵥ (A *ᵥ x - b))) := by
  have value (a : ℝ) : (G.ray (reals x).toArray (reals (z - x)).toArray frozen).value (real a) =
      .ok (real ((1 - a) ^ 2 * ((A *ᵥ x - b) ⬝ᵥ (A *ᵥ x - b)))) := by
    simp only [ray, linear.residual_along solves, ok_bind, Shaped.inner_toArray, embeds.dot,
      dotProduct_smul, smul_dotProduct, smul_eq_mul]
    congr 2
    ring
  have slope (a : ℝ) : (G.ray (reals x).toArray (reals (z - x)).toArray frozen).slope (real a) =
      .ok (real (-2 * (1 - a) * ((A *ᵥ x - b) ⬝ᵥ (A *ᵥ x - b)))) := by
    have rise : A *ᵥ (z - x) = -(A *ᵥ x - b) := by rw [mulVec_sub, solves, neg_sub]
    have taken : G.derivative (linePoint (reals x).toArray (reals (z - x)).toArray (real a)) =
        .ok (.ofMat (embedMat real A)) := by
      rw [linePoint_reals]
      exact linear.derivative _
    obtain rfl | rfl := slopes <;>
    · simp only [ray, linear.residual_along solves, ok_bind, taken, Shaped.product?_toArray,
        embeds.mulVec, rise, fit, pure_ok, Shaped.inner_toArray, embeds.dot, two_eq, real_mul,
        dotProduct_neg, smul_dotProduct, smul_eq_mul]
      congr 2
      ring
  have square : 0 ≤ (A *ᵥ x - b) ⬝ᵥ (A *ᵥ x - b) := dotProduct_self_nonneg _
  refine
    { value := (value 0).trans ?_
      slope := (slope 0).trans ?_
      falls := by linarith
      lowest := (value 1).trans ?_
      stationary := (slope 1).trans ?_ }
  all_goals
    congr 2
    ring

end PureEquations

namespace Newton

variable {ω : Type} {G : PureEquations Wide} {o : Options Wide} {search : LineSearch ℝ}
  {schedule : Schedule} {x z : Fin n → ℝ} {t : State ω Wide}

/-! ## The first iteration -/

/-- The Jacobian is remembered with its factors. -/
theorem refresh_linear (linear : G.Linear A b) (regular : A.det ≠ 0)
    (now : t.driver.current.now = .reals x (A *ᵥ x - b))
    (tolerance : t.driver.memory.linear.tolerance = real 0) :
    ∃ u, (refresh G.actions).outcome t = (.ok ⟨⟩, u) ∧
      u.driver.memory.linear.factors = some ⟨n, Factors.of (embedMat real A)⟩ ∧
      u.driver.memory.jacobian = some (.ofMat (embedMat real A)) := by
  obtain ⟨cost, -, plain⟩ := G.plain_jacobianAt (reals x).toArray
  have taken : (G.actions.jacobianAt t.driver.current.now.x).outcome t =
      (.ok (.ofMat (embedMat real A)), { t with count := t.count + cost }) := by
    rw [now, plain, linear.derivative]
  obtain ⟨u, adopted, factors, jacobian⟩ : ∃ u : State ω Wide,
      (adopt (.ofMat (embedMat real A))).outcome { t with count := t.count + cost } =
        (.ok ⟨⟩, u) ∧
      u.driver.memory.linear.factors = some ⟨n, Factors.of (embedMat real A)⟩ ∧
      u.driver.memory.jacobian = some (.ofMat (embedMat real A)) := by
    rw [adopt, Edit.outcome_bind, Act.outcome_changeDriver, Edit.andThen_ok, Edit.outcome_bind,
      Edit.outcome_attempt, Edit.andThen_ok, onLinear, Act.outcome_edit]
    dsimp only
    rw [LinearSolver.factorize_regular embeds regular tolerance]
    exact ⟨_, rfl, rfl, rfl⟩
  refine ⟨u, ?_, factors, jacobian⟩
  refine Edit.outcome_bind_ok.2 ⟨_, t, rfl, ?_⟩
  exact Edit.outcome_bind_ok.2 ⟨_, _, taken, adopted⟩

/-- The direction leads to the solution. -/
theorem direction_linear (linear : G.Linear A b) (regular : A.det ≠ 0) (solves : A *ᵥ z = b)
    (now : t.driver.current.now = .reals x (A *ᵥ x - b))
    (tolerance : t.driver.memory.linear.tolerance = real 0)
    (due : schedule.due t.driver.progress.iteration = true) :
    ∃ u, (direction G.actions schedule).outcome t = (.ok (reals (z - x)).toArray, u) ∧
      u.driver.memory.jacobian = some (.ofMat (embedMat real A)) := by
  obtain ⟨u, refreshed, factors, jacobian⟩ := refresh_linear linear regular now tolerance
  have same : u.driver.current.now = t.driver.current.now :=
    (keeps_refresh (R := Drive.sameNow) (P := fun _ => True)
      (G.keeps fun _ _ => trivial)).preserves refreshed
  have side : (SystemPoint.reals x (A *ᵥ x - b)).y.neg =
      .ofVec (reals (A *ᵥ (z - x))).toArray := by
    rw [neg_reals, mulVec_sub, solves, neg_sub]
  have solved : u.driver.memory.linear.solve u.driver.current.now.y.neg =
      .ok (reals (z - x)).toArray := by
    rw [same, now, side, LinearSolver.solve_regular embeds regular factors]
  refine ⟨u, ?_, jacobian⟩
  rw [outcome_direction, if_pos (by simp [due]), refreshed, Edit.andThen_ok]
  refine Edit.outcome_bind_ok.2 ⟨_, u, rfl, ?_⟩
  refine Edit.outcome_bind_ok.2 ⟨_, u, rfl, ?_⟩
  rw [Edit.outcome_bind, Edit.outcome_ofExcept, solved, Edit.andThen_ok, Solver.defined,
    hasNaN_reals]
  rfl

section
variable (linear : G.Linear A b) (regular : A.det ≠ 0) (solves : A *ᵥ z = b)
include linear regular solves

/-- The direction is taken as it is, and the line lies along it. -/
theorem aim_linear (tries : 0 ≤ search.nanMaxIterations)
    (fresh : Method.Fresh (blank (.exact o search 0 schedule)) (.reals x (A *ᵥ x - b)) t) :
    ∃ frozen u, (aim G.actions (.exact o search 0 schedule)).outcome t =
        (.ok ⟨(reals x).toArray, (reals (z - x)).toArray, (reals (z - x)).toArray, frozen⟩, u) ∧
      u.Along (reals x).toArray (reals (z - x)).toArray ∧
      (frozen = none ∨ frozen = some (.ofMat (embedMat real A))) := by
  have kept {R : State ω Wide → State ω Wide → Prop} [IsPreorder (State ω Wide) R] :
      (G.actions : Solver.Problem (Memory Wide) ω Wide).Keeps R fun _ => True :=
    G.keeps fun _ _ => trivial
  -- every schedule takes the Jacobian at the start
  have due : schedule.due t.driver.progress.iteration = true := by
    rw [fresh.progress]
    cases schedule with
    | always => rfl
    | every period => exact beq_iff_eq.2 (Nat.zero_mod period)
  obtain ⟨u, directed, jacobian⟩ := direction_linear linear regular solves fresh.now
    (by rw [fresh.memory]; rfl) due
  have now : (Drive.now : Action ω Wide _).outcome u = (.ok (.reals x (A *ᵥ x - b)), u) := by
    rw [← fresh.now, ← (keeps_direction (R := Drive.sameNow) kept schedule).preserves directed]
    rfl
  have sized : Drive.Sized (reals x).toArray.size u :=
    (keeps_direction (R := Drive.SameSizes) kept schedule).related directed _ fresh.sized
  have leads : Leads G.residual (reals x).toArray false (reals (z - x)).toArray :=
    ⟨_, _, add?_reals _ _, linear.residual _, (Shaped.hasNaN_ofVec _).trans (hasNaN_reals _)⟩
  obtain ⟨v, aimed, along⟩ : ∃ v, (Drive.aim G.actions.residualAt search.wide o.verbosity
      (reals x).toArray (reals (z - x)).toArray).outcome u = (.ok (reals (z - x)).toArray, v) ∧
      v.Along (reals x).toArray (reals (z - x)).toArray :=
    Drive.outcome_aim (fun z => G.rel_residualAt z fun _ _ => id) (Solver.keeps_residualAt kept)
      sized (by simp) leads tries
  have memory : v.driver.memory = u.driver.memory :=
    (Drive.keeps_aim (R := Edit.Unchanged fun s : State ω Wide => s.driver.memory)
      (P := fun _ => True) (Solver.keeps_residualAt kept) _ _).preserves aimed
  obtain ⟨frozen, read, slopes⟩ : ∃ frozen, (Newton.frozen schedule).outcome v = (.ok frozen, v) ∧
      (frozen = none ∨ frozen = some (.ofMat (embedMat real A))) := by
    cases schedule with
    | always => exact ⟨none, rfl, .inl rfl⟩
    | every period => exact ⟨_, rfl, .inr (memory ▸ jacobian)⟩
  refine ⟨frozen, v, ?_, along, slopes⟩
  refine Edit.outcome_bind_ok.2 ⟨_, u, directed, ?_⟩
  refine Edit.outcome_bind_ok.2 ⟨_, u, now, ?_⟩
  refine Edit.outcome_bind_ok.2 ⟨_, v, aimed, ?_⟩
  exact Edit.outcome_bind_ok.2 ⟨_, v, read, rfl⟩

/-- The first step leads to the solution. -/
theorem step_linear (full : search.Full)
    (fresh : Method.Fresh (blank (.exact o search 0 schedule)) (.reals x (A *ᵥ x - b)) t) :
    ∃ u, (method G.actions (.exact o search 0 schedule)).step.outcome t =
      (.ok (reals z).toArray, u) := by
  obtain ⟨frozen, u, aimed, along, slopes⟩ := aim_linear linear regular solves full.tries fresh
  obtain ⟨v, searched⟩ := LineSearch.outcome_unit full (linear.valley solves slopes) (rays _ _ _)
    along Correspondence.along_report
  refine ⟨v, ?_⟩
  rw [step_eq]
  refine Edit.outcome_bind_ok.2 ⟨_, u, aimed, ?_⟩
  refine Edit.outcome_bind_ok.2 ⟨_, v, searched, ?_⟩
  rw [add?_unit]
  rfl

/-! ## The whole run -/

theorem reaches_linear (unbroken : o.Unbroken) (full : search.Full) :
    (method (ω := ω) G.actions (.exact o search 0 schedule)).Reaches G.pointAt (fun _ => True)
      (blank (.exact o search 0 schedule)) (.reals x (A *ᵥ x - b)) (.reals z (0 : Fin n → ℝ)) where
  start := Method.checkStart_ok fun k known => by
    rw [linear.dim k known]
    exact congrArg Nat.cast (reals x).size_toArray.symm
  prepares _ := rfl
  value := linear.pointAt x
  steps _ fresh := by
    obtain ⟨u, stepped⟩ := step_linear linear regular solves full fresh
    exact ⟨u, stepped, trivial⟩
  lands := (linear.pointAt z).trans (by rw [solves, sub_self])
  measured := SystemPoint.converged_at_root unbroken x z _
  learns _ _ := rfl

omit solves in
/-- **Newton's method and its thrifty variant solve every regular linear system in one iteration,
with every line search that may take a full step.** -/
theorem solves_linear (schedule : Schedule) (x : Fin n → ℝ) (s : State ω Wide)
    (unbroken : o.Unbroken) (full : search.Full) (idle : s.driver.running = false) :
    ∃ out t z, ((method G.actions (.exact o search 0 schedule)).solve (reals x).toArray).outcome s =
        (.ok out, t) ∧
      Method.Single (.reals z (0 : Fin n → ℝ)) out ∧ A *ᵥ z = b := by
  obtain ⟨z, solves⟩ : ∃ z, A *ᵥ z = b :=
    mulVec_surjective_iff_isUnit.2 ((isUnit_iff_isUnit_det A).2 regular.isUnit) b
  obtain ⟨out, t, returned, single⟩ := (sound G (.exact o search 0 schedule)).single
    (reaches_linear linear regular solves unbroken full)
    (fun x => { state := fun _ _ => trivial, fault := fun _ _ _ => trivial }) unbroken.room idle
  exact ⟨out, t, z, returned, single, solves⟩

end

/-- A matrix that needs an exchange of rows. -/
theorem solves_linear_exchange :
    ∃ out t z, ((method (PureEquations.ofMatrix !![0, 2; 1, 0] ![4, 5]).actions
          (.exact .usual .standard 0 (.every 5))).solve (reals ![1, 1]).toArray).outcome
        ⟨Drive.idle (blank (.exact .usual .standard 0 (.every 5))), (), {}, {}, #[]⟩ =
          (.ok out, t) ∧
      Method.Single (.reals z (0 : Fin 2 → ℝ)) out ∧ !![0, 2; 1, 0] *ᵥ z = ![4, 5] :=
  solves_linear (PureEquations.ofMatrix_linear _ _) (by rw [det_fin_two_of]; norm_num) _ _ _
    Options.usual_unbroken LineSearch.standard_full rfl

end Newton

end Descent
