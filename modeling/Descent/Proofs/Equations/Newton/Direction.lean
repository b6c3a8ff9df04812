/-
# Descent.Proofs.Equations.Newton.Direction — what a Newton direction solves

The factors that a solver keeps belong to the Jacobian that it remembers, fresh or not
(`Memory.Ready`): a new Jacobian is remembered right before it is factorized, and a
factorization that fails ends the run.  So over real numbers, where values may be undefined,
a direction `d` that is returned solves `J d = -F(x)` for the Jacobian `J` in the memory
(`direction_ok`).
-/
import Descent.Proofs.Equations.Bounded
import Descent.Proofs.Linear.Solver
import Descent.Proofs.Linear.Undefined

namespace Descent
set_option autoImplicit false

open Wide

namespace Newton

/-- A session of the solver. -/
abbrev State (ω α : Type) := Drive.State (SystemPoint α) (ResidualProgress α) (Memory α) ω α

variable {ω : Type} {G : PureEquations Wide} {tol : ℝ} {schedule : Schedule} {t u : State ω Wide}
  {d : Vec Wide}

/-- The memory holds a matrix and its factors. -/
structure Memory.Factored (tol : ℝ) (m : Memory Wide) {n : ℕ} (A : Mat n n Wide) : Prop where
  jacobian : m.jacobian = some (.ofMat A)
  factors : m.linear.factors = some ⟨n, Factors.of A⟩
  pivots : (Factors.of A).smallPivot? (real tol) = none

/-- If there are factors they belong to the Jacobian, which has no infinite entries. -/
structure Memory.Ready (tol : ℝ) (m : Memory Wide) : Prop where
  tolerance : m.linear.tolerance = real tol
  factored : m.linear.factorized = true →
    ∃ (n : ℕ) (A : Mat n n Wide), m.Factored tol A ∧ ∀ i j : Fin n, ((A.get i).get j).Bounded

/-- A direction solves the system of a Jacobian and a residual, all of them made of real numbers. -/
def Solves (J y : Shaped Wide) (d : Vec Wide) : Prop :=
  ∃ (n : ℕ) (M : Matrix (Fin n) (Fin n) ℝ) (b v : Fin n → ℝ), J = .ofMat (embedMat real M) ∧
    y = .ofVec (reals b).toArray ∧ d = (reals v).toArray ∧ M.mulVec v = -b

/-- Factors of bounded numbers give a direction for the residual, if they give one that is defined. -/
theorem solves_of_factored {m : Memory Wide} {n : ℕ} {A : Mat n n Wide} {y : Shaped Wide}
    (nonneg : 0 ≤ tol) (factored : m.Factored tol A) (matrix : ∀ i j : Fin n, ((A.get i).get j).Bounded)
    (residual : ∀ a ∈ y.flat, a.Bounded) (solved : m.linear.solve y.neg = .ok d)
    (defined : d.hasNaN = false) : Solves (.ofMat A) y d := by
  obtain ⟨_, _, c, factors, side, rfl⟩ := LinearSolver.solve_ok solved
  cases factored.factors.symm.trans factors
  obtain ⟨w, rfl⟩ := Shaped.exists_ofVec (A := y) (congrArg Shaped.extents side)
  rw [Shaped.flat_ofVec] at residual
  have negated : w.neg = c.toArray := by
    rw [← Shaped.flat_ofVec w.neg, ← Shaped.neg_ofVec, side, Shaped.flat_ofVec]
  have sides : ∀ a ∈ c.toArray, a.Bounded := by
    rw [← negated]
    simpa [Vec.neg] using fun a mem => (residual a mem).neg
  obtain ⟨M, c', v, rfl, rfl, value, solves⟩ := Factors.solve_defined nonneg matrix
    (forall_toArray.1 sides) factored.pivots rfl (forall_toArray.1 (defined_iff.1 defined))
  refine ⟨_, M, -c', v, rfl, congrArg Shaped.ofVec ?_, congrArg Vector.toArray value, ?_⟩
  · have back : w = w.neg.neg := by simp [Vec.neg, Function.comp_def]
    rw [back, negated]
    ext i hi <;> simp [Vec.neg, embed]
  · rw [neg_neg, solves]

/-! ## Taking the Jacobian -/

theorem adopt_ok {α : Type} [Extended α] {J : Shaped α} {s u : State ω α}
    (adopted : (adopt J).outcome s = (.ok ⟨⟩, u)) : ∃ linear,
      (LinearSolver.factorize J).outcome s.driver.memory.linear = (.ok ⟨⟩, linear) ∧
        u = { s with driver := { s.driver with memory := ⟨linear, some J⟩ } } := by
  rw [adopt, Edit.outcome_bind, Act.outcome_changeDriver, Edit.andThen_ok, Edit.outcome_bind,
    Edit.outcome_attempt, Edit.andThen_ok, onLinear, Act.outcome_edit] at adopted
  dsimp only at adopted
  rcases factorized : (LinearSolver.factorize J).outcome s.driver.memory.linear with
    ⟨e | ⟨⟩, linear⟩ <;> rw [factorized] at adopted
  · cases e <;> cases adopted
  · cases adopted
    exact ⟨linear, rfl, rfl⟩

/-- A Jacobian that is taken is remembered with its factors. -/
theorem refresh_ok (refreshed : (refresh G.actions).outcome t = (.ok ⟨⟩, u))
    (tolerance : t.driver.memory.linear.tolerance = real tol) :
    ∃ (n : ℕ) (A : Mat n n Wide), G.derivative t.driver.current.now.x = .ok (.ofMat A) ∧
      u.driver.memory.linear.tolerance = real tol ∧ u.driver.memory.Factored tol A := by
  obtain ⟨p, _, found, refreshed⟩ := Edit.outcome_bind_ok.1 refreshed
  cases found
  obtain ⟨J, s, taken, refreshed⟩ := Edit.outcome_bind_ok.1 refreshed
  have value := G.result_of_jacobianAt t.driver.current.now.x t
  rw [taken] at value
  have same : s.driver.memory = t.driver.memory :=
    (Solver.keeps_jacobianAt (R := Edit.Unchanged fun s : State ω Wide => s.driver.memory)
      (P := fun _ => True) (G.keeps fun _ _ => trivial) _).preserves taken
  rw [← same] at tolerance
  obtain ⟨linear, factorized, rfl⟩ := adopt_ok refreshed
  obtain ⟨n, A, square, pivots, rfl⟩ := LinearSolver.factorize_ok factorized
  obtain rfl := Shaped.eq_ofMat square
  exact ⟨n, A, value.symm, tolerance, rfl, rfl, tolerance ▸ pivots⟩

/-! ## Directions -/

/-- The solution of the factors that are kept. -/
def solution {α : Type} [Extended α] : Action ω α (Vec α) := do
  Solver.defined (← ofExcept ((← Act.driver).memory.linear.solve (← Drive.now).y.neg))

theorem direction_eq {α : Type} [Extended α] (F : Solver.Problem (Memory α) ω α) :
    direction F schedule = (do
      let d ← Act.driver
      if schedule.due d.progress.iteration || !d.memory.linear.factorized then refresh F
      solution) := rfl

theorem solution_ok (solved : solution.outcome t = (.ok d, u)) :
    t.driver.memory.linear.solve t.driver.current.now.y.neg = .ok d ∧ d.hasNaN = false ∧ u = t := by
  obtain ⟨_, _, ⟨⟩, solved⟩ := Edit.outcome_bind_ok.1 solved
  obtain ⟨_, _, ⟨⟩, solved⟩ := Edit.outcome_bind_ok.1 solved
  obtain ⟨d', s, found, solved⟩ := Edit.outcome_bind_ok.1 solved
  rw [Edit.outcome_ofExcept] at found
  obtain ⟨value, rfl⟩ := Prod.mk.inj found
  unfold Solver.defined at solved
  split at solved
  · cases solved
  · cases solved
    exact ⟨value, Bool.eq_false_iff.2 ‹_›, rfl⟩

/-- The direction of an iteration solves the system of the Jacobian that is remembered, which is the one
at the present point if it is taken in every iteration. -/
theorem direction_ok (nonneg : 0 ≤ tol) (bounded : G.Bounded)
    (value : G.residual t.driver.current.now.x = .ok t.driver.current.now.y)
    (ready : t.driver.memory.Ready tol)
    (directed : (direction G.actions schedule).outcome t = (.ok d, u)) :
    u.driver.memory.Ready tol ∧ ∃ J, u.driver.memory.jacobian = some J ∧
      Solves J t.driver.current.now.y d ∧
      (schedule = .always → G.derivative t.driver.current.now.x = .ok J) := by
  have residual := bounded.residual _ _ value
  rw [direction_eq] at directed
  obtain ⟨_, _, ⟨⟩, directed⟩ := Edit.outcome_bind_ok.1 directed
  dsimp only at directed
  split at directed
  · obtain ⟨⟨⟩, s, refreshed, directed⟩ := Edit.outcome_bind_ok.1 directed
    obtain ⟨n, A, taken, tolerance, factored⟩ := refresh_ok refreshed ready.tolerance
    have now : s.driver.current.now = t.driver.current.now :=
      (keeps_refresh (R := Drive.sameNow) (P := fun _ => True)
        (G.keeps fun _ _ => trivial)).preserves refreshed
    obtain ⟨solved, defined, rfl⟩ := solution_ok directed
    rw [now] at solved
    -- only a vector is solved for, so the Jacobian is one of a residual that is a vector
    obtain ⟨_, _, c, -, side, -⟩ := LinearSolver.solve_ok solved
    obtain ⟨w, vector⟩ := Shaped.exists_ofVec (A := t.driver.current.now.y)
      (congrArg Shaped.extents side)
    have matrix := bounded.derivative value (vector ▸ Shaped.vec?_ofVec w) taken
      (Shaped.dense?_ofDense ⟨n, n, A⟩)
    exact ⟨⟨tolerance, fun _ => ⟨n, A, factored, matrix⟩⟩, _, factored.jacobian,
      solves_of_factored nonneg factored matrix residual solved defined, fun _ => taken⟩
  · rename_i kept
    rw [Bool.or_eq_true, not_or, Bool.not_eq_true, Bool.not_eq_true, Bool.not_eq_false'] at kept
    obtain ⟨n, A, factored, matrix⟩ := ready.factored kept.2
    obtain ⟨solved, defined, rfl⟩ := solution_ok directed
    refine ⟨ready, _, factored.jacobian,
      solves_of_factored nonneg factored matrix residual solved defined, ?_⟩
    rintro rfl
    cases kept.1

end Newton

end Descent
