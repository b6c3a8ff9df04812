/-
# Descent.Proofs.Linear.Solver — the matrix that a solver answers for

A solver takes over every square matrix it is given and drops the factors it had, even if
the new matrix turns out to be singular (`outcome_factorize`); every other call leaves it as
it is (`after_refused`).  So after any calls its factors are those of the last square matrix,
or there are none.  Over exact numbers and without a tolerance a matrix is refused if and
only if its determinant is zero (`factorize_matrix`), and factors that are kept give
the only solution of every system of their matrix (`solves_of_factors`).
-/
import Descent.Linear.Solver
import Descent.Proofs.Linear.Arrays
import Descent.Proofs.Linear.Factors
import Mathlib.LinearAlgebra.Matrix.NonsingularInverse

namespace Descent.LinearSolver
set_option autoImplicit false

open Matrix

section
variable {α : Type} [Scalar α] {s s' : LinearSolver α} {A b : Shaped α} {x : Vec α} {n : ℕ}
  {body : Mat n n α}

/-! ## One call -/

/-- A square matrix replaces the one before, or leaves nothing to solve with. -/
theorem outcome_factorize (square : A.asSquare? = some ⟨n, body⟩) (s : LinearSolver α) :
    (factorize A).outcome s = match (Factors.of body).smallPivot? s.tolerance with
      | some column => (.error (.singularMatrix column), { s with factors := none })
      | none => (.ok ⟨⟩, { s with factors := some ⟨n, Factors.of body⟩ }) := by
  unfold factorize
  rw [square]
  dsimp only
  rw [Edit.outcome_bind, Edit.outcome_modify, Edit.andThen_ok, Edit.outcome_bind, Edit.outcome_get,
    Edit.andThen_ok]
  dsimp only
  cases (Factors.of body).smallPivot? s.tolerance <;> rfl

/-- An array that is no square matrix changes nothing. -/
theorem outcome_factorize_refused (shape : A.asSquare? = none) (s : LinearSolver α) :
    (factorize A).outcome s = (.error (.invalid (.notSquare A.extents)), s) := by
  unfold factorize
  rw [shape]
  rfl

/-- A matrix that is taken over is square and has no small pivots. -/
theorem factorize_ok (factorized : (factorize A).outcome s = (.ok ⟨⟩, s')) :
    ∃ n body, A.asSquare? = some ⟨n, body⟩ ∧ (Factors.of body).smallPivot? s.tolerance = none ∧
      s' = { s with factors := some ⟨n, Factors.of body⟩ } := by
  cases square : A.asSquare? with
  | none =>
    rw [outcome_factorize_refused square] at factorized
    cases factorized
  | some found =>
    obtain ⟨n, body⟩ := found
    rw [outcome_factorize square] at factorized
    split at factorized
    · cases factorized
    · cases factorized
      exact ⟨n, body, rfl, ‹_›, rfl⟩

/-- A solution is the one of the factors for a vector of their size. -/
theorem solve_ok (solved : s.solve b = .ok x) : ∃ n F, ∃ c : Vector α n,
    s.factors = some ⟨n, F⟩ ∧ b = .ofVec c.toArray ∧ x = (F.solve c).toArray := by
  unfold solve at solved
  split at solved
  · cases solved
  · rename_i n F factors
    split at solved
    · cases solved
    · rename_i c vector
      split at solved
      · rename_i size
        cases solved
        exact ⟨n, F, ⟨c, size⟩, factors, Shaped.eq_ofVec vector, rfl⟩
      · cases solved

theorem solve_toArray {F : Factors n α} (factors : s.factors = some ⟨n, F⟩) (c : Vector α n) :
    s.solve (.ofVec c.toArray) = .ok (F.solve c).toArray := by
  obtain ⟨c, size⟩ := c
  unfold solve
  rw [factors, Shaped.vec?_ofVec]
  dsimp only
  rw [dif_pos size]

theorem new_ok {tol : α} (created : new tol = .ok s) : ¬ tol < 0 ∧ s = { tolerance := tol } := by
  unfold new at created
  split at created
  · cases created
  · cases created
    exact ⟨‹_›, rfl⟩

theorem solve_without (factors : s.factors = none) (b : Shaped α) :
    s.solve b = .error (.invalid .notFactorized) := by
  unfold solve
  rw [factors]

/-! ## Any calls -/

/-- What a solver is asked. -/
inductive Call (α : Type) where
  | factorize (A : Shaped α)
  | factorizeNested (A : Nested α)
  | solve (b : Shaped α)
  | solveNested (b : Nested α)

def Call.run : Call α → Edit α (LinearSolver α) Unit
  | .factorize A => LinearSolver.factorize A
  | .factorizeNested A => LinearSolver.factorizeNested A
  | .solve b => do let _ ← ofExcept ((← get).solve b)
  | .solveNested b => do let _ ← ofExcept ((← get).solveNested b)

/-- The square matrix that a call gives to the solver, if it does. -/
def Call.square? : Call α → Option ((n : ℕ) × Mat n n α)
  | .factorize A => A.asSquare?
  | .factorizeNested A => (Shaped.ofNested? A).bind (·.asSquare?)
  | .solve _ | .solveNested _ => none

/-- The solver after a call. -/
def after (s : LinearSolver α) (call : Call α) : LinearSolver α := (call.run.outcome s).2

variable {call : Call α} {calls : List (Call α)}

theorem outcome_of_square? (square : call.square? = some ⟨n, body⟩) (s : LinearSolver α) :
    call.run.outcome s = match (Factors.of body).smallPivot? s.tolerance with
      | some column => (.error (.singularMatrix column), { s with factors := none })
      | none => (.ok ⟨⟩, { s with factors := some ⟨n, Factors.of body⟩ }) := by
  cases call with
  | factorize A => exact outcome_factorize square s
  | factorizeNested A =>
    obtain ⟨B, read, square⟩ := Option.bind_eq_some_iff.1 square
    rw [← outcome_factorize square s, Call.run, factorizeNested, read]
    rfl
  | solve b => cases square
  | solveNested b => cases square

/-- A call without a square matrix leaves a solver as it is. -/
theorem after_refused (refused : call.square? = none) (s : LinearSolver α) : s.after call = s := by
  cases call with
  | factorize A => exact congrArg Prod.snd (outcome_factorize_refused refused s)
  | factorizeNested A =>
    rw [after, Call.run, factorizeNested]
    cases read : Shaped.ofNested? A with
    | none => rfl
    | some B =>
      have shape : B.asSquare? = none := by
        rw [Call.square?, read] at refused
        exact refused
      exact congrArg Prod.snd (outcome_factorize_refused shape s)
  | solve b =>
    rw [after, Call.run, Edit.outcome_bind, Edit.outcome_get, Edit.andThen_ok, Edit.outcome_bind,
      Edit.outcome_ofExcept]
    cases s.solve b <;> rfl
  | solveNested b =>
    rw [after, Call.run, Edit.outcome_bind, Edit.outcome_get, Edit.andThen_ok, Edit.outcome_bind,
      Edit.outcome_ofExcept]
    cases s.solveNested b <;> rfl

theorem calls_refused (refused : ∀ call ∈ calls, call.square? = none) (s : LinearSolver α) :
    calls.foldl after s = s := by
  induction calls with
  | nil => rfl
  | cons call calls ih =>
    rw [List.forall_mem_cons] at refused
    rw [List.foldl_cons, after_refused refused.1, ih refused.2]

theorem tolerance_after (call : Call α) (s : LinearSolver α) :
    (s.after call).tolerance = s.tolerance := by
  cases square : call.square? with
  | none => rw [after_refused square]
  | some found =>
    obtain ⟨n, body⟩ := found
    rw [after, outcome_of_square? square]
    split <;> rfl

theorem tolerance_calls (calls : List (Call α)) (s : LinearSolver α) :
    (calls.foldl after s).tolerance = s.tolerance := by
  induction calls generalizing s with
  | nil => rfl
  | cons call calls ih => rw [List.foldl_cons, ih, tolerance_after]

end

/-! ## Regular matrices -/

section
variable {K α : Type} [Field K] [LinearOrder K] [IsStrictOrderedRing K] [Scalar α] {φ : K → α}
  {n : ℕ} {s : LinearSolver α} {A : Matrix (Fin n) (Fin n) K} (e : Embeds φ) (regular : A.det ≠ 0)
include e regular

/-- Without a tolerance a regular matrix is taken over. -/
theorem factorize_regular (exact : s.tolerance = φ 0) :
    (factorize (.ofMat (embedMat φ A))).outcome s =
      (.ok ⟨⟩, { s with factors := some ⟨n, Factors.of (embedMat φ A)⟩ }) := by
  rw [outcome_factorize (Shaped.asSquare?_ofMat _), exact,
    (Factors.smallPivot?_zero_eq_none e A).2 regular]

/-- Its systems are solved. -/
theorem solve_regular (factors : s.factors = some ⟨n, Factors.of (embedMat φ A)⟩) (v : Fin n → K) :
    s.solve (.ofVec (embed φ (A *ᵥ v)).toArray) = .ok (embed φ v).toArray := by
  obtain ⟨w, found, same⟩ := Factors.solve_embed e le_rfl
    ((Factors.smallPivot?_zero_eq_none e A).2 regular) (A *ᵥ v)
  have unit : IsUnit A := (isUnit_iff_isUnit_det A).2 regular.isUnit
  rw [solve_toArray factors, found, mulVec_injective_of_isUnit unit same]

end

/-! ## Exact solutions -/

section
variable {K : Type} [Field K] [LinearOrder K] [IsStrictOrderedRing K] {n : ℕ} {s : LinearSolver K}
  {A : Matrix (Fin n) (Fin n) K}

/-- The solver finds the only solution of every system of a matrix. -/
def Solves (s : LinearSolver K) (A : Matrix (Fin n) (Fin n) K) : Prop :=
  ∀ b, ∃ x, s.solve (.vector b) = .ok (stored x).toArray ∧ A *ᵥ x = b ∧ ∀ y, A *ᵥ y = b → y = x

theorem solves_of_factors {tol : K} (nonneg : 0 ≤ tol)
    (factors : s.factors = some ⟨n, Factors.of (storedMat A)⟩)
    (pivots : (Factors.of (storedMat A)).smallPivot? tol = none) : s.Solves A := by
  intro b
  obtain ⟨x, found, solves⟩ := Factors.solve_embed Embeds.refl nonneg pivots b
  have unit : IsUnit A := (isUnit_iff_isUnit_det A).2
    (Factors.det_ne_zero_of_smallPivot? Embeds.refl nonneg pivots).isUnit
  refine ⟨x, ?_, solves, fun y same => ?_⟩
  · rw [solve_toArray factors, found]
  · exact mulVec_injective_of_isUnit unit (same.trans solves.symm)

omit [IsStrictOrderedRing K] in
/-- What a solver with the factors of a matrix returns solves a system of the matrix. -/
theorem Solves.of_solve {b : Shaped K} {x : Vec K} {F : Factors n K} (solves : s.Solves A)
    (factors : s.factors = some ⟨n, F⟩) (solved : s.solve b = .ok x) :
    ∃ v w : Fin n → K, b = .vector v ∧ x = (stored w).toArray ∧ A *ᵥ w = v := by
  obtain ⟨_, _, c, here, side, -⟩ := solve_ok solved
  cases factors.symm.trans here
  obtain ⟨v, rfl⟩ := exists_stored c
  obtain ⟨w, found, solution, -⟩ := solves v
  subst side
  exact ⟨v, w, rfl, Except.ok.inj (solved.symm.trans found), solution⟩

/-- Without a tolerance a matrix is refused, or factorized with multipliers that do not exceed one. -/
theorem factorize_matrix (exact : s.tolerance = 0) :
    (A.det = 0 ∧ ∃ column, ((factorize (.matrix A)).outcome s).1 = .error (.singularMatrix column)) ∨
      A.det ≠ 0 ∧ ∃ F : Factors n K, (∀ i l : Fin n, l < i → |(F.entries.get i).get l| ≤ 1) ∧
        (factorize (.matrix A)).outcome s = (.ok ⟨⟩, { s with factors := some ⟨n, F⟩ }) ∧
        Solves { s with factors := some ⟨n, F⟩ } A := by
  have regular : (Factors.of (storedMat A)).smallPivot? s.tolerance = none ↔ A.det ≠ 0 := by
    rw [exact]
    exact Factors.smallPivot?_zero_eq_none Embeds.refl A
  have outcome := outcome_factorize (Shaped.asSquare?_ofMat (storedMat A)) s
  split at outcome
  · rename_i column small
    have singular : A.det = 0 := by
      by_contra nonzero
      rw [regular.2 nonzero] at small
      cases small
    exact .inl ⟨singular, column, congrArg Prod.fst outcome⟩
  · rename_i pivots
    obtain ⟨E, entries, -, small⟩ := Factors.of_embed Embeds.refl A
    refine .inr ⟨regular.1 pivots, Factors.of (storedMat A), fun i l below => ?_, outcome,
      solves_of_factors exact.ge rfl pivots⟩
    rw [entries, get_embedMat, get_embed]
    exact small i l below

/-- **A solver without a tolerance refuses exactly the singular matrices and solves with the others.
Whatever it is asked, with any tolerance, it answers for the last square matrix that it was given, and
has no answer if that was refused or if there was none. Anything but a square matrix changes
nothing.** -/
theorem answers_last_matrix :
    (∀ (n : ℕ) (A : Matrix (Fin n) (Fin n) K) (s : LinearSolver K), s.tolerance = 0 →
      ((∃ column, ((factorize (.matrix A)).outcome s).1 = .error (.singularMatrix column)) ↔
        A.det = 0) ∧
      (A.det ≠ 0 → ∃ F : Factors n K, (∀ i l : Fin n, l < i → |(F.entries.get i).get l| ≤ 1) ∧
        (factorize (.matrix A)).outcome s = (.ok ⟨⟩, { s with factors := some ⟨n, F⟩ }) ∧
        Solves { s with factors := some ⟨n, F⟩ } A)) ∧
    (∀ (tol : K) (s : LinearSolver K) (calls : List (Call K)), new tol = .ok s →
      ((∀ call ∈ calls, call.square? = none) →
        ∀ b, (calls.foldl after s).solve b = .error (.invalid .notFactorized)) ∧
      ∀ before call later n (A : Matrix (Fin n) (Fin n) K), calls = before ++ call :: later →
        call.square? = some ⟨n, storedMat A⟩ → (∀ call ∈ later, call.square? = none) →
        ((∃ column, (call.run.outcome (before.foldl after s)).1 = .error (.singularMatrix column)) ∧
          ∀ b, (calls.foldl after s).solve b = .error (.invalid .notFactorized)) ∨
        ((call.run.outcome (before.foldl after s)).1 = .ok ⟨⟩ ∧ Solves (calls.foldl after s) A ∧
          ∀ b x, (calls.foldl after s).solve b = .ok x →
            ∃ v w : Fin n → K, b = .vector v ∧ x = (stored w).toArray ∧ A *ᵥ w = v)) ∧
    ∀ (A : Shaped K) (s : LinearSolver K), A.asSquare? = none →
      (factorize A).outcome s = (.error (.invalid (.notSquare A.extents)), s) := by
  refine ⟨fun n A s exact => ?_, fun tol s calls created => ⟨?_, ?_⟩,
    fun A s shape => outcome_factorize_refused shape s⟩
  · rcases factorize_matrix (A := A) exact with ⟨singular, refused⟩ | ⟨regular, F, small, found, solves⟩
    · exact ⟨⟨fun _ => singular, fun _ => refused⟩, fun regular => absurd singular regular⟩
    · refine ⟨⟨fun ⟨column, failed⟩ => ?_, fun singular => absurd singular regular⟩,
        fun _ => ⟨F, small, found, solves⟩⟩
      rw [found] at failed
      cases failed
  · intro refused b
    obtain ⟨-, rfl⟩ := new_ok created
    rw [calls_refused refused]
    rfl
  · rintro before call later n A rfl square refused
    obtain ⟨positive, rfl⟩ := new_ok created
    have nonneg : 0 ≤ tol := not_lt.1 positive
    obtain ⟨t, there⟩ : ∃ t, before.foldl after { tolerance := tol } = t := ⟨_, rfl⟩
    have tolerance : t.tolerance = tol := there ▸ tolerance_calls before _
    have last : (before ++ call :: later).foldl after { tolerance := tol } = t.after call := by
      rw [List.foldl_append, List.foldl_cons, there, calls_refused refused]
    have outcome := outcome_of_square? square t
    rw [last, there, after]
    split at outcome
    · rename_i column _
      rw [outcome]
      exact .inl ⟨⟨column, rfl⟩, solve_without rfl⟩
    · rename_i pivots
      rw [tolerance] at pivots
      rw [outcome]
      have solves : Solves { t with factors := some ⟨n, Factors.of (storedMat A)⟩ } A :=
        solves_of_factors nonneg rfl pivots
      exact .inr ⟨rfl, solves, fun b x solved => solves.of_solve rfl solved⟩

/-- A matrix that needs an exchange of rows, between a question too early and a number, which is no
matrix. -/
theorem answers_last_matrix_of_exchange :
    ([.solve (.vector ![4, 5]), .factorize (.matrix !![0, 2; 1, 0]),
        .factorize (.ofNumber 3)].foldl after ({ tolerance := 0 } : LinearSolver ℚ)).solve
      (.vector ![4, 5]) = .ok (stored ![5, 2]).toArray := by
  obtain ⟨exactly, latest, -⟩ := answers_last_matrix (K := ℚ)
  have regular : (!![0, 2; 1, 0] : Matrix (Fin 2) (Fin 2) ℚ).det ≠ 0 := by
    rw [det_fin_two_of]
    norm_num
  obtain ⟨-, last⟩ := latest 0 { tolerance := 0 } _ (by simp [new])
  obtain ⟨⟨column, refused⟩, -⟩ | ⟨-, solves, -⟩ := last [.solve (.vector ![4, 5])]
    (.factorize (.matrix !![0, 2; 1, 0])) [.factorize (.ofNumber 3)] 2 !![0, 2; 1, 0] rfl
    (Shaped.asSquare?_ofMat _) (by simp [Call.square?, Shaped.asSquare?, Shaped.dense?, Shaped.ofNumber])
  · obtain ⟨singular, -⟩ := exactly 2 !![0, 2; 1, 0]
      ([.solve (.vector ![4, 5])].foldl after { tolerance := 0 }) (tolerance_calls _ _)
    exact absurd (singular.1 ⟨column, refused⟩) regular
  · obtain ⟨x, solved, -, only⟩ := solves ![4, 5]
    have solution : !![0, 2; 1, 0] *ᵥ ![(5 : ℚ), 2] = ![4, 5] := by
      ext i
      fin_cases i <;> norm_num
    rw [only _ solution]
    exact solved

end

end Descent.LinearSolver
