/-
# Descent.Proofs.Count — what is counted of the calls

The state of the user's functions may itself record how often they are called.  A run
that returns has counted what they recorded in the meantime: residuals and values, known
Jacobians and gradients, and known Hessians, each in a counter of its own, the calls for
derivatives by differences and those of the line search among them.  What is not known is
not counted.

There is one exception.  A residual is counted once it is there, so a call that fails is
not; and a march that asks a residual which looks for a bracket itself, and finds none,
takes this for a fault of its own: the search goes on by backtracking, and the run may
return.  Such a run has counted every call but these (`Descent.evaluations_counted`, and
`FixedPoint.undercounts_beyond_zero` for one of them).  The value of an objective is counted
before it is there, so an optimizer counts every call.
-/
import Descent.Proofs.Coherence
import Descent.Proofs.Differences
import Descent.Proofs.Equations.Ledger
import Descent.Proofs.Equations.Picard
import Descent.Proofs.Equations.Recorded
import Descent.Proofs.Objective.Ledger

namespace Descent
set_option autoImplicit false

/-! ## What is counted against what is called -/

namespace Evaluations

theorem eq_iff {a b : Evaluations} :
    a = b ↔ a.values = b.values ∧ a.first = b.first ∧ a.second = b.second := by
  cases a
  cases b
  simp

@[simp] theorem values_add (a b : Evaluations) : (a + b).values = a.values + b.values := rfl

@[simp] theorem first_add (a b : Evaluations) : (a + b).first = a.first + b.first := rfl

@[simp] theorem second_add (a b : Evaluations) : (a + b).second = a.second + b.second := rfl

end Evaluations

variable {δ ω α β : Type} {calls : ω → Evaluations} {missed : ω → ℕ}

/-- As much was recorded between two sessions as was counted, and the values that were missed. -/
def Session.Balanced (calls : ω → Evaluations) (missed : ω → ℕ) (s t : Session δ ω α) : Prop :=
  ∃ n, missed t.env = missed s.env + n ∧
    calls t.env + s.count = calls s.env + t.count + { values := n }

namespace Session.Balanced

variable {s t : Session δ ω α} {n : Evaluations}

instance : Act.Ledger (Balanced calls missed : Session δ ω α → Session δ ω α → Prop) where
  refl _ := ⟨0, rfl, rfl⟩
  trans _ _ _ before after := by
    obtain ⟨m, missed, before⟩ := before
    obtain ⟨n, missed', after⟩ := after
    refine ⟨m + n, by omega, ?_⟩
    simp only [Evaluations.eq_iff, Evaluations.values_add, Evaluations.first_add,
      Evaluations.second_add] at before after ⊢
    omega
  aside _ _ _ _ := ⟨0, rfl, rfl⟩

theorem of_both (recorded : calls t.env = calls s.env + n) (same : missed t.env = missed s.env)
    (counted : t.count = s.count + n) : Balanced calls missed s t := by
  refine ⟨0, same, ?_⟩
  simp only [recorded, counted, Evaluations.eq_iff, Evaluations.values_add, Evaluations.first_add,
    Evaluations.second_add]
  omega

/-- A value that is recorded, but not counted, is missed. -/
theorem of_missed (recorded : calls t.env = calls s.env + { values := 1 })
    (one : missed t.env = missed s.env + 1) (same : t.count = s.count) :
    Balanced calls missed s t := by
  refine ⟨1, one, ?_⟩
  simp only [recorded, same, Evaluations.eq_iff, Evaluations.values_add, Evaluations.first_add,
    Evaluations.second_add]
  omega

/-- From nothing counted, what was recorded is what is counted and what was missed. -/
theorem from_none (balanced : Balanced calls missed { s with count := {} } t) :
    ∃ n, missed t.env = missed s.env + n ∧
      calls t.env = calls s.env + t.count + { values := n } := balanced

end Session.Balanced

/-- A call adds to a record what it costs, which may depend on how it ends, and counts nothing. -/
def Act.Records {κ : Type} [Add κ] (record : ω → κ) (cost : Except (Fault α) β → κ)
    (act : Act δ ω α β) : Prop :=
  ∀ s r t, act.outcome s = (r, t) → record t.env = record s.env + cost r ∧ t.count = s.count

namespace Act.Records

section
variable {κ : Type} [Add κ] {record : ω → κ} {cost : Except (Fault α) β → κ} {act : Act δ ω α β}
  (records : Records record cost act)
include records

/-- What a call that returns adds to a part of a record. -/
theorem spends (part : κ → ℕ) (adds : ∀ a b, part (a + b) = part a + part b) {n : ℕ}
    (value : ∀ b, part (cost (.ok b)) = n) :
    Edit.Spends (fun s => part (record s.env)) n act := by
  intro s b t ran
  dsimp only
  rw [(records s _ t ran).1, adds, value]

end

variable {n : Evaluations} {act : Act δ ω α β} (records : Records calls (fun _ => n) act)
include records

/-- Calls that cost nothing but values leave the other records alone. -/
theorem keeps (first : n.first = 0) (second : n.second = 0) :
    Edit.Keeps
      (Edit.Unchanged fun s : Session δ ω α =>
        ((calls s.env).first, (calls s.env).second, s.count)) (fun _ => True) act where
  state s := by
    rcases ran : act.outcome s with ⟨r, t⟩
    obtain ⟨recorded, count⟩ := records s r t ran
    simp only [Edit.Unchanged, recorded, count, Evaluations.first_add, Evaluations.second_add,
      first, second, Nat.add_zero]
  fault _ _ _ := trivial

/-- A call of a derivative that is known is counted by what it records. -/
theorem settles_counted (whole : Records missed (fun _ => 0) act) :
    Edit.Settles (Session.Balanced calls missed) (fun _ => False)
      (Act.counted (do return (← act, n)) : Act δ ω α β) := by
  intro s only
  rcases ran : act.outcome s with ⟨e | b, t⟩
  · rw [Act.counted, Edit.outcome_bind, Edit.outcome_bind, ran] at only
    exact (only e rfl).elim
  · obtain ⟨recorded, count⟩ := records s _ t ran
    rw [Act.counted, Edit.outcome_bind, Edit.outcome_bind, ran]
    exact .of_both recorded (whole s _ t ran).1 (congrArg (· + n) count)

/-- Records of some kinds of calls only. -/
theorem mask (only : Evaluations → Evaluations) (adds : ∀ a b, only (a + b) = only a + only b)
    (cost : only n = n) : Records (fun w => only (calls w)) (fun _ => n) act := by
  intro s r t ran
  obtain ⟨recorded, count⟩ := records s r t ran
  refine ⟨?_, count⟩
  calc only (calls t.env) = only (calls s.env) + only n := by rw [recorded, adds]
    _ = only (calls s.env) + n := by rw [cost]

end Act.Records

/-- A derivative by differences is counted by the values that it costs. -/
theorem Edit.Bills.settles_counted {γ : Type} {f : γ → β} {act : Act δ ω α (γ × ℕ)} {n : ℕ}
    (bills : Edit.Bills (fun s => (calls s.env).values) n act)
    (whole : Edit.Spends (fun s => missed s.env) 0 act)
    (keeps : Edit.Keeps
      (Unchanged fun s : Session δ ω α => ((calls s.env).first, (calls s.env).second, s.count))
      (fun _ => True) act) :
    Edit.Settles (Session.Balanced calls missed) (fun _ => False)
      (Act.counted (do
        let (c, evaluations) ← act
        return (f c, { values := evaluations })) : Act δ ω α β) := by
  intro s only
  rcases ran : act.outcome s with ⟨e | ⟨c, m⟩, t⟩
  · rw [Act.counted, Edit.outcome_bind, Edit.outcome_bind, ran] at only
    exact (only e rfl).elim
  · obtain ⟨rfl, spent⟩ := bills s c m t ran
    obtain ⟨first, second, count⟩ :
        (calls t.env).first = (calls s.env).first ∧ (calls t.env).second = (calls s.env).second ∧
          t.count = s.count := by
      simpa only [Prod.mk.injEq] using keeps.preserves ran
    rw [Act.counted, Edit.outcome_bind, Edit.outcome_bind, ran]
    have recorded : calls t.env = calls s.env + { values := m } :=
      Evaluations.eq_iff.2 ⟨spent, first, second⟩
    exact .of_both recorded (whole s _ t ran) (congrArg (· + { values := m }) count)

/-! ## Systems -/

/-- The state of the user's functions records how often they are called, and how many of the residuals
among these calls ended in a bracketing fault. -/
structure Equations.Records (calls : ω → Evaluations) (missed : ω → ℕ) (F : Equations δ ω α) :
    Prop where
  residual : ∀ x, Act.Records calls (fun _ => { values := 1 }) (F.residual x)
  jacobian : ∀ J, F.jacobian = some J → ∀ x, Act.Records calls (fun _ => { first := 1 }) (J x)
  residualMisses : ∀ x, Act.Records missed Equations.misses (F.residual x)
  jacobianMisses : ∀ J, F.jacobian = some J → ∀ x, Act.Records missed (fun _ => 0) (J x)

namespace Equations.Records

variable {F : Equations δ ω α} (records : F.Records calls missed)
include records

theorem mask (only : Evaluations → Evaluations) (adds : ∀ a b, only (a + b) = only a + only b)
    (value : only { values := 1 } = { values := 1 })
    (known : F.jacobian ≠ none → only { first := 1 } = { first := 1 }) :
    F.Records (fun w => only (calls w)) missed where
  residual x := (records.residual x).mask only adds value
  jacobian J there x := (records.jacobian J there x).mask only adds
    (known (by rw [there]; exact Option.some_ne_none J))
  residualMisses := records.residualMisses
  jacobianMisses := records.jacobianMisses

/-- A residual is balanced if it returns, and if it fails with a bracketing fault. -/
theorem settles_residualAt [Scalar α] (x : Vec α) : Edit.Settles (Session.Balanced calls missed)
    (fun e => e.isBracketing = true) (F.residualAt x) := by
  intro s only
  rcases ran : (F.residual x).outcome s with ⟨e | y, t⟩
  · obtain ⟨recorded, count⟩ := records.residual x s _ t ran
    obtain ⟨one, -⟩ := records.residualMisses x s _ t ran
    rw [residualAt, Edit.outcome_bind, ran] at only ⊢
    rw [misses, if_pos (only e rfl)] at one
    exact .of_missed recorded one count
  · obtain ⟨recorded, count⟩ := records.residual x s _ t ran
    rw [residualAt, Edit.outcome_bind, ran]
    exact .of_both recorded (records.residualMisses x s _ t ran).1 (congrArg (· + { values := 1 }) count)

theorem settles_jacobianAt [Scalar α] (x : Vec α) :
    Edit.Settles (Session.Balanced calls missed) (fun _ => False) (F.jacobianAt x) := by
  unfold jacobianAt jacobianCost
  cases known : F.jacobian with
  | some J => exact (records.jacobian J known x).settles_counted (records.jacobianMisses J known x)
  | none =>
    have one (z : Vec α) : Edit.Spends (fun s => (calls s.env).values) 1 (F.residual z) :=
      (records.residual z).spends Evaluations.values (fun _ _ => rfl) fun _ => rfl
    have none (z : Vec α) : Edit.Spends (fun s => missed s.env) 0 (F.residual z) :=
      (records.residualMisses z).spends id (fun _ _ => rfl) fun _ => rfl
    exact (Differences.jacobian_bills one _ x).settles_counted (f := id)
      (by simpa using Differences.jacobian_spends none x 1e-6)
      ((Correspondence.keeping _ fun _ => True).jacobian (g := F.residual) (fun _ _ => trivial)
        (fun z => (records.residual z).keeps rfl rfl) x _)

theorem settles [Extended α] : F.Settles (Session.Balanced calls missed) where
  residual := records.settles_residualAt
  jacobian := records.settles_jacobianAt

end Equations.Records

/-! ## Objectives -/

/-- The state of the user's functions records how often they are called. -/
structure Objective.Records (calls : ω → Evaluations) (F : Objective δ ω α) : Prop where
  value : ∀ x, Act.Records calls (fun _ => { values := 1 }) (F.value x)
  gradient : ∀ g, F.gradient = some g → ∀ x, Act.Records calls (fun _ => { first := 1 }) (g x)
  hessian : ∀ H, F.hessian = some H → ∀ x, Act.Records calls (fun _ => { second := 1 }) (H x)

namespace Objective.Records

variable {F : Objective δ ω α} (records : F.Records calls)
include records

theorem mask (only : Evaluations → Evaluations) (adds : ∀ a b, only (a + b) = only a + only b)
    (value : only { values := 1 } = { values := 1 })
    (gradient : F.gradient ≠ none → only { first := 1 } = { first := 1 })
    (hessian : F.hessian ≠ none → only { second := 1 } = { second := 1 }) :
    F.Records fun w => only (calls w) where
  value x := (records.value x).mask only adds value
  gradient g there x := (records.gradient g there x).mask only adds
    (gradient (by rw [there]; exact Option.some_ne_none g))
  hessian H there x := (records.hessian H there x).mask only adds
    (hessian (by rw [there]; exact Option.some_ne_none H))

/-- Nothing is missed. -/
theorem settles [Extended α] : F.Settles (Session.Balanced calls fun _ => 0) where
  value x := by
    intro s _
    rcases ran : (F.value x).outcome { s with count := s.count + { values := 1 } } with ⟨r, t⟩
    obtain ⟨recorded, count⟩ := records.value x _ r t ran
    have outcome : (F.valueAt x).outcome s = (r, t) := ran
    rw [outcome]
    exact .of_both recorded rfl count
  gradient x := by
    unfold gradientAt gradientCost
    cases known : F.gradient with
    | some g =>
      exact (records.gradient g known x).settles_counted fun s r t ran =>
        ⟨rfl, (records.gradient g known x s r t ran).2⟩
    | none =>
      have spends (x : Vec α) := (records.value x).spends Evaluations.values (fun _ _ => rfl) fun _ => rfl
      exact (Differences.gradient_bills spends x _).settles_counted (f := Shaped.ofVec)
        (fun _ _ _ _ => rfl)
        ((Correspondence.keeping _ fun _ => True).gradient (g := F.value) (fun _ _ => trivial)
          (fun x => (records.value x).keeps rfl rfl) x _)
  hessian x := by
    unfold hessianAt hessianCost
    cases known : F.hessian with
    | some H =>
      exact (records.hessian H known x).settles_counted fun s r t ran =>
        ⟨rfl, (records.hessian H known x s r t ran).2⟩
    | none =>
      have spends (x : Vec α) := (records.value x).spends Evaluations.values (fun _ _ => rfl) fun _ => rfl
      exact (Differences.hessian_bills spends x _).settles_counted (f := Shaped.ofDense)
        (fun _ _ _ _ => rfl)
        ((Correspondence.keeping _ fun _ => True).hessian (g := F.value) (fun _ _ => trivial)
          (fun x => (records.value x).keeps rfl rfl) x _)

end Objective.Records

/-! ## All drivers -/

section
variable {μ : Type} [Extended α] {x : Vec α}

/-- A solver that returns has counted the calls that were made of the residual and the Jacobian, but for
the residuals that ended in a bracketing fault of their own: exactly if there were none of these it
has counted all. Of a Jacobian that is not known there are no calls. -/
def Solver.Counts (calls : ω → Evaluations) (missed : ω → ℕ) (F : Solver.Problem μ ω α)
    (M : Solver μ ω α) (x : Vec α)
    (s : Drive.State (SystemPoint α) (ResidualProgress α) μ ω α) : Prop :=
  ∀ out t, (M.solve x).outcome s = (.ok out, t) →
    (∃ n, missed t.env = missed s.env + n ∧
      calls t.env = calls s.env + out.count + { values := n }) ∧
    (calls t.env = calls s.env + out.count ↔ missed t.env = missed s.env) ∧
    (F.jacobian = none → out.count.first = 0) ∧ out.count.second = 0

/-- An optimizer that returns has counted the calls that were made of the objective and its
derivatives; of derivatives that are not known there are none. -/
def Optimizer.Counts (calls : ω → Evaluations) (F : Optimizer.Problem ω α)
    (c : Optimizer.Settings α) (x : Vec α)
    (s : Drive.State (ObjectivePoint α) (ObjectiveProgress α) (Optimizer.Memory α) ω α) : Prop :=
  ∀ out t, ((Optimizer.method F c).solve x).outcome s = (.ok out, t) →
    calls t.env = calls s.env + out.count ∧ (F.gradient = none → out.count.first = 0) ∧
      (F.hessian = none → out.count.second = 0)

/-- What a run counts is what was recorded while it went on, but for the values that were missed. -/
theorem Method.Settles.counts {ι π : Type} [Iterate ι π α] {M : Method ι π μ ω α}
    (settles : M.Settles (Session.Balanced calls missed)) {out : Outcome ι α}
    {s t : Drive.State ι π μ ω α} (returned : (M.solve x).outcome s = (.ok out, t)) :
    ∃ n, missed t.env = missed s.env + n ∧
      calls t.env = calls s.env + out.count + { values := n } := by
  obtain ⟨balanced, count⟩ := settles.solve returned
  rw [count]
  exact balanced.from_none

theorem Solver.Of.counts {F : Solver.Problem μ ω α} {M : Solver μ ω α} (of : Solver.Of F M)
    (records : F.Records calls missed)
    (s : Drive.State (SystemPoint α) (ResidualProgress α) μ ω α) :
    Solver.Counts calls missed F M x s := by
  intro out t returned
  have exactly {calls : ω → Evaluations} (records : F.Records calls missed) :
      ∃ n, missed t.env = missed s.env + n ∧
        calls t.env = calls s.env + out.count + { values := n } :=
    (of.settles records.settles).counts returned
  obtain ⟨n, more, recorded⟩ := exactly records
  refine ⟨⟨n, more, recorded⟩, ?_, fun unknown => ?_, ?_⟩
  · rw [recorded, more, Evaluations.eq_iff]
    simp
  · obtain ⟨_, -, none⟩ := exactly (records.mask (fun a => { a with first := 0 }) (fun _ _ => rfl)
      rfl fun known => absurd unknown known)
    simpa using (congrArg Evaluations.first none).symm
  · obtain ⟨_, -, none⟩ := exactly (records.mask (fun a => { a with second := 0 }) (fun _ _ => rfl)
      rfl fun _ => rfl)
    simpa using (congrArg Evaluations.second none).symm

theorem Optimizer.counts {F : Optimizer.Problem ω α} (records : F.Records calls)
    (c : Optimizer.Settings α)
    (s : Drive.State (ObjectivePoint α) (ObjectiveProgress α) (Optimizer.Memory α) ω α) :
    Optimizer.Counts calls F c x s := by
  intro out t returned
  have exactly {calls : ω → Evaluations} (records : F.Records calls) :
      calls t.env = calls s.env + out.count := by
    obtain ⟨n, none, recorded⟩ := (Optimizer.settles_method records.settles c).counts returned
    obtain rfl : n = 0 := by omega
    exact recorded
  refine ⟨exactly records, fun unknown => ?_, fun unknown => ?_⟩
  · have none := exactly (records.mask (fun a => { a with first := 0 }) (fun _ _ => rfl) rfl
      (fun known => absurd unknown known) fun _ => rfl)
    simpa using (congrArg Evaluations.first none).symm
  · have none := exactly (records.mask (fun a => { a with second := 0 }) (fun _ _ => rfl) rfl
      (fun _ => rfl) fun known => absurd unknown known)
    simpa using (congrArg Evaluations.second none).symm

end

/-- **Evaluations are counted exactly**, by every solver and by the optimizer, with every line
search, from every start, with derivatives that are known and derivatives by differences. The one
exception is a residual that ends in a bracketing fault of its own: a solver that returns
nevertheless has called the residual once more for each of these than it has counted. Derivatives by
differences cost as many calls as they report: two for each axis, and for a Hessian two for each pair
of axes and one. -/
theorem evaluations_counted {ω α : Type} [Extended α] (calls : ω → Evaluations) (missed : ω → ℕ)
    (x : Vec α) :
    (∀ {μ : Type} (F : Solver.Problem μ ω α) (M : Solver μ ω α) s, Solver.Of F M →
      F.Records calls missed → Solver.Counts calls missed F M x s) ∧
    (∀ (F : Optimizer.Problem ω α) (c : Optimizer.Settings α) s, F.Records calls →
      Optimizer.Counts calls F c x s) ∧
    (∀ {β σ : Type} [Scalar β] (calls : σ → ℕ) (f : Vec β → Edit β σ β),
      (∀ z, Edit.Spends calls 1 (f z)) → ∀ z eps,
        Edit.Bills calls (2 * z.size) (Differences.gradient f z eps) ∧
        Edit.Bills calls (2 * z.size * z.size + 1) (Differences.hessian f z eps)) ∧
    (∀ {β σ : Type} [Scalar β] (calls : σ → ℕ) (f : Vec β → Edit β σ (Shaped β)),
      (∀ z, Edit.Spends calls 1 (f z)) → ∀ (eps : β),
        (∀ z, Edit.Bills calls (2 * z.size) (Differences.jacobian f z eps)) ∧
        (∀ z, Edit.Bills calls (2 * z.flat.size) (Differences.gradientOfArray f z eps)) ∧
        ∀ z, Edit.Bills calls (2 * z.size * z.size + 1) (Differences.hessianOfList f z eps)) := by
  refine ⟨?_, ?_, ?_, ?_⟩
  · intro μ F M s of records
    exact of.counts records s
  · intro F c s records
    exact Optimizer.counts records c s
  · intro β σ _ calls f one z eps
    exact ⟨Differences.gradient_bills one z eps, Differences.hessian_bills one z eps⟩
  · intro β σ _ calls f one eps
    exact ⟨Differences.jacobian_bills one eps, Differences.gradientOfArray_bills one eps,
      fun z => Differences.hessianOfList_bills one z eps⟩

/-! ## Functions that record their calls -/

theorem Act.records_recorded {ω κ : Type} [Add ω] [Add κ] {record : ω → κ}
    (adds : ∀ a b, record (a + b) = record a + record b) {price : Except (Fault α) β → κ} {cost : ω}
    {r : Except (Fault α) β} (same : record cost = price r) :
    Act.Records record price (recorded cost r : Act δ ω α β) := by
  intro s r' t ran
  rw [outcome_recorded] at ran
  cases ran
  exact ⟨(adds ..).trans (congrArg (record s.env + ·) same), rfl⟩

theorem PureEquations.records_recorded (G : PureEquations α) :
    (G.recorded : Equations δ Calls α).Records Calls.made Calls.missed where
  residual x := Act.records_recorded (fun _ _ => rfl) rfl
  jacobian J known x := by
    obtain ⟨J', -, rfl⟩ := Option.map_eq_some_iff.1 known
    exact Act.records_recorded (fun _ _ => rfl) rfl
  residualMisses x := Act.records_recorded (fun _ _ => rfl) rfl
  jacobianMisses J known x := by
    obtain ⟨J', -, rfl⟩ := Option.map_eq_some_iff.1 known
    exact Act.records_recorded (fun _ _ => rfl) rfl

/-- An objective of plain functions that record their calls. -/
def PureObjective.recorded (G : PureObjective α) : Objective δ Evaluations α where
  value x := Act.recorded { values := 1 } (G.value x)
  gradient := G.gradient.map fun g x => Act.recorded { first := 1 } (g x)
  hessian := G.hessian.map fun H x => Act.recorded { second := 1 } (H x)
  dim := G.dim

theorem PureObjective.records_recorded (G : PureObjective α) :
    (G.recorded : Objective δ Evaluations α).Records id where
  value x := Act.records_recorded (fun _ _ => rfl) rfl
  gradient g known x := by
    obtain ⟨g', -, rfl⟩ := Option.map_eq_some_iff.1 known
    exact Act.records_recorded (fun _ _ => rfl) rfl
  hessian H known x := by
    obtain ⟨H', -, rfl⟩ := Option.map_eq_some_iff.1 known
    exact Act.records_recorded (fun _ _ => rfl) rfl

theorem evaluations_counted_recorded :
    Solver.Counts Calls.made Calls.missed PureEquations.identity.recorded
      (Newton.method PureEquations.identity.recorded ⟨.strict, .standard, 0, .always⟩) #[1]
      ⟨Drive.idle (Newton.blank ⟨.strict, .standard, 0, .always⟩), {}, {}, {}, #[]⟩ ∧
    Optimizer.Counts id PureObjective.bowl.recorded ⟨.exact, .standard, .strict⟩ #[1]
      ⟨Drive.idle none, {}, {}, {}, #[]⟩ ∧
    Edit.Bills id 2 (Differences.gradient
      (fun x => do modify (· + 1); return x.normSq : Vec Float → Edit Float ℕ Float) #[1] 1e-6) ∧
    Edit.Bills id 2 (Differences.jacobian
      (fun x => do modify (· + 1); return .ofVec x : Vec Float → Edit Float ℕ (Shaped Float)) #[1]
      1e-6) := by
  obtain ⟨solvers, -⟩ := evaluations_counted Calls.made Calls.missed (#[1] : Vec Float)
  obtain ⟨-, optimizers, values, arrays⟩ := evaluations_counted id (fun _ => 0) (#[1] : Vec Float)
  have one {β : Type} (b : β) :
      Edit.Spends id 1 (do modify (· + 1); return b : Edit Float ℕ β) := by
    rintro s c t ⟨⟩
    rfl
  exact ⟨solvers _ _ _ (.newton _ _) PureEquations.identity.records_recorded,
    optimizers _ _ _ PureObjective.bowl.records_recorded,
    (values id _ (fun _ => one _) #[1] _).1, (arrays id _ (fun _ => one _) _).1 #[1]⟩

/-! ## A residual that is missed -/

open Wide

/-- The system `x / 2 = 0`; where an entry is negative the residual looks for a bracket and finds none. -/
noncomputable def PureEquations.fenced : PureEquations Wide where
  residual x :=
    if x.any (· < 0) then .error (.noRoot 0) else .ok (.ofVec (x.map (real 0.5 * ·)))
  jacobian := some fun _ => .ok (.ofMat (embedMat real !![0.5]))
  dim := some 1
  fixed x x' y y' size there there' := by
    split at there
    · cases there
    · split at there'
      · cases there'
      · cases there
        cases there'
        simp only [Shaped.ofVec, Array.size_map, size]

theorem PureEquations.fenced_inside {a : ℝ} (inside : 0 ≤ a) :
    fenced.residual (reals ![a]).toArray = .ok (.ofVec (reals ![a / 2]).toArray) := by
  have entries : (reals ![a]).toArray = #[real a] := rfl
  have half : 0.5 * a = a / 2 := by
    norm_num
    ring
  have halves : #[real (0.5 * a)] = (reals ![a / 2]).toArray := by
    rw [half]
    rfl
  simp [fenced, entries, zero_eq, not_lt.2 inside, ← halves]

theorem PureEquations.pointAt_fenced {a : ℝ} (inside : 0 ≤ a) :
    fenced.pointAt (reals ![a]).toArray = .ok (.reals ![a] ![a / 2]) := by
  rw [pointAt, fenced_inside inside]
  rfl

theorem PureEquations.fenced_outside {a : ℝ} (outside : a < 0) :
    fenced.residual (reals ![a]).toArray = .error (.noRoot 0) := by
  have entries : (reals ![a]).toArray = #[real a] := rfl
  simp [fenced, entries, zero_eq, outside]

/-- Bisection with a first step that is too long. -/
noncomputable def LineSearch.striding : LineSearch ℝ := { standard with kind := .bisection, s := 4.0 }

theorem LineSearch.check_striding : striding.check = .ok striding :=
  check_ok_iff.2 (by constructor <;> norm_num [striding, standard])

namespace PureEquations

/-- The line from one to one half. -/
theorem linePoint_fenced (a : ℝ) : linePoint (reals ![1]).toArray (reals ![-1 / 2]).toArray (real a) =
    (reals ![1 - a / 2]).toArray := by
  have moved : ![1] + a • ![-1 / 2] = ![1 - a / 2] := by
    ext i
    fin_cases i
    simp
    ring
  rw [linePoint_reals, moved]

theorem residual_fenced {a : ℝ} (inside : a ≤ 2) :
    fenced.residual (linePoint (reals ![1]).toArray (reals ![-1 / 2]).toArray (real a)) =
      .ok (.ofVec (reals ![(1 - a / 2) / 2]).toArray) := by
  rw [linePoint_fenced, fenced_inside (by linarith)]

theorem value_fenced {a : ℝ} (inside : a ≤ 2) :
    (fenced.ray (reals ![1]).toArray (reals ![-1 / 2]).toArray none).value (real a) =
      .ok (real (((1 - a / 2) / 2) ^ 2)) := by
  simp only [ray, residual_fenced inside, ok_bind, Shaped.inner_toArray, embeds.dot]
  congr 2
  simp
  ring

theorem slope_fenced {a : ℝ} (inside : a ≤ 2) :
    (fenced.ray (reals ![1]).toArray (reals ![-1 / 2]).toArray none).slope (real a) =
      .ok (real (-(1 - a / 2) / 4)) := by
  have taken (z : Vec Wide) : fenced.derivative z = .ok (.ofMat (embedMat real !![0.5])) := rfl
  have rise : Matrix.mulVec !![(0.5 : ℝ)] ![-1 / 2] = ![-1 / 4] := by
    ext i
    fin_cases i
    norm_num [Matrix.mulVec, dotProduct]
  simp only [ray, residual_fenced inside, ok_bind, taken, Shaped.product?_toArray, embeds.mulVec, rise,
    fit, pure_ok, Shaped.inner_toArray, embeds.dot, two_eq, real_mul]
  congr 2
  simp
  ring

end PureEquations

namespace LineSearch

open Session (Missing)

theorem check_striding_march : (March.doubling striding.wide.s).check = .ok ⟨⟩ := by
  have steps : (striding.wide.s == 0) = false := by
    rw [zero_eq, wide, map, real_beq]
    norm_num [striding]
  have growth : ¬ (2.0 : Wide) ≤ 1 := by
    rw [ofScientific_eq, one_eq, real_le]
    norm_num
  simp [March.check, March.doubling, steps, growth]

theorem steep_striding {d : ℝ} (steep : 1 / 8 ≤ |d|) : isFlat (real d) striding.wide.tol = false := by
  simp only [isFlat, abs_real, wide, map, real_lt, decide_eq_false_iff_not, not_lt]
  refine le_trans ?_ steep
  norm_num [striding, standard]

section
variable {δ : Type} (n : ℕ)

theorem yields_value_fenced {a : ℝ} (inside : a ≤ 2) :
    Edit.Yields (Missing (reals ![1]).toArray (reals ![-1 / 2]).toArray n)
      (.ok (real (((1 - a / 2) / 2) ^ 2))) (Missing (reals ![1]).toArray (reals ![-1 / 2]).toArray n)
      ((PureEquations.fenced.recorded.ray none).value (real a) : Act δ Calls Wide Wide) := by
  have yields := PureEquations.fenced.yields_value (δ := δ) (reals ![1]).toArray
    (reals ![-1 / 2]).toArray n (real a)
  rwa [PureEquations.residual_fenced inside, PureEquations.value_fenced inside] at yields

theorem yields_slope_fenced {a : ℝ} (inside : a ≤ 2) :
    Edit.Yields (Missing (reals ![1]).toArray (reals ![-1 / 2]).toArray n)
      (.ok (real (-(1 - a / 2) / 4))) (Missing (reals ![1]).toArray (reals ![-1 / 2]).toArray n)
      ((PureEquations.fenced.recorded.ray none).slope (real a) : Act δ Calls Wide Wide) := by
  have yields := PureEquations.fenced.yields_slope (δ := δ) (reals ![1]).toArray
    (reals ![-1 / 2]).toArray n rfl (PureEquations.residual_fenced inside)
  rwa [PureEquations.slope_fenced inside] at yields

/-- The first probe of the march is beyond the fence. -/
theorem yields_march_fenced :
    Edit.Yields (Missing (reals ![1]).toArray (reals ![-1 / 2]).toArray n) (.error (.noRoot 0))
      (Missing (reals ![1]).toArray (reals ![-1 / 2]).toArray (n + 1))
      (bracketMinimum (PureEquations.fenced.recorded.ray none).value 0
        (.doubling striding.wide.s) : Act δ Calls Wide _) := by
  have outside : PureEquations.fenced.residual
      (linePoint (reals ![1]).toArray (reals ![-1 / 2]).toArray (real 4)) = .error (.noRoot 0) := by
    rw [PureEquations.linePoint_fenced, PureEquations.fenced_outside (by norm_num)]
  have missed := PureEquations.fenced.yields_value (δ := δ) (reals ![1]).toArray
    (reals ![-1 / 2]).toArray n (real 4)
  simp only [PureEquations.ray, outside, error_bind] at missed
  have first : (0 : Wide) + striding.wide.s = real 4 := by
    rw [zero_eq, wide, map, real_add]
    norm_num [striding]
  exact yields_bracketMinimum check_striding_march (yields_value_fenced n (a := 0) (by norm_num))
    (first.symm ▸ missed)

/-- The march meets the fence, and the search ends by backtracking. -/
theorem yields_search_fenced :
    Edit.Yields (Missing (reals ![1]).toArray (reals ![-1 / 2]).toArray n) (.ok 1)
      (Missing (reals ![1]).toArray (reals ![-1 / 2]).toArray (n + 1))
      (striding.wide.search (PureEquations.fenced.recorded.ray none) 1 : Act δ Calls Wide Wide) := by
  have falls : sufficientDecrease (real (((1 - 1 / 2) / 2) ^ 2)) (real (((1 - 0 / 2) / 2) ^ 2))
      (real (-(1 - 0 / 2) / 4)) 1 striding.wide.c1 = true := by
    simp only [sufficientDecrease, one_eq, wide, map, real_mul, real_add, real_le, decide_eq_true_eq]
    norm_num [striding, standard]
  have steep : isFlat (real (-(1 - 0 / 2) / 4)) striding.wide.tol = false :=
    steep_striding (by norm_num [abs_of_pos])
  have value (m : ℕ) := yields_value_fenced (δ := δ) m (a := 0) (by norm_num)
  have slope (m : ℕ) := yields_slope_fenced (δ := δ) m (a := 0) (by norm_num)
  refine yields_bisectSlope (slope n) steep (yields_slope_fenced n (a := 1) (by norm_num))
    (steep_striding (by norm_num [abs_of_pos])) (yields_march_fenced n) rfl Missing.yields_report ?_
  exact yields_backtrack (value _) (slope _) steep (by norm_num [striding, standard, wide, map]) rfl
    (yields_value_fenced _ (a := 1) (by norm_num)) falls

end

end LineSearch

namespace FixedPoint

/-- Aim is taken by evaluations alone. -/
theorem settles_aim {ω : Type} {F : Solver.Problem Unit ω Wide} {R : State ω Wide → State ω Wide → Prop}
    [Act.Ledger R] (settles : F.Settles R) (c : LineSearch Wide) (verbosity : Int) (x d : Vec Wide) :
    Edit.Settles R (fun _ => False) (Drive.aim F.residualAt c verbosity x d) :=
  .bind (.shortenUndefined (Solver.settles_residualAt settles) Drive.settles_report _ _ _ _ _) fun _ =>
    .bind (.of_keeps (Act.keeps_edit _ _ _)) fun _ => .bind (.of_keeps (Act.keeps_onTrack _)) fun _ =>
      .pure _

/-- A tolerance that the residual gets within in one iteration. -/
noncomputable def striding : Settings Wide :=
  ⟨{ Options.usual with valueTol := real 0.3 }, LineSearch.striding.wide⟩

/-- The step from one to one half. -/
theorem way_fenced : (![1 / 2] : Fin 1 → ℝ) - ![1] = ![-1 / 2] := by
  ext i
  fin_cases i
  norm_num

theorem leads_fenced : Leads PureEquations.fenced.residual (reals ![1]).toArray false
    (reals ![-1 / 2]).toArray := by
  refine ⟨_, _, add?_reals _ _, ?_, (Shaped.hasNaN_ofVec _).trans (hasNaN_reals ![1 / 2 / 2])⟩
  rw [← way_fenced, add_sub_cancel, PureEquations.fenced_inside (by norm_num)]

/-- Aim is taken at one half. -/
theorem aim_fenced {h : State Calls Wide} (fresh : Method.Fresh () (.reals ![1] ![1 / 2]) h) :
    ∃ u, (Drive.aim (PureEquations.fenced.recorded : Solver.Problem Unit Calls Wide).residualAt
        striding.search striding.options.verbosity (reals ![1]).toArray
        (reals ![-1 / 2]).toArray).outcome h = (.ok (reals ![-1 / 2]).toArray, u) ∧
      u.Along (reals ![1]).toArray (reals ![-1 / 2]).toArray ∧ h.env.missed ≤ u.env.missed := by
  let F : Solver.Problem Unit Calls Wide := PureEquations.fenced.recorded
  have kept : F.Keeps Drive.SameSizes fun _ => True :=
    PureEquations.keeps_recorded (fun _ _ _ sized => ⟨sized.cached, sized.base, sized.line⟩)
      fun _ _ => trivial
  have plain (z : Vec Wide) : (Correspondence.within fun _ => True).Rel
      (PureEquations.fenced.residual z) (F.residualAt z) :=
    fun s _ => ⟨(PureEquations.fenced.yields_residualAt _ _ _ z s ⟨⟨rfl, rfl⟩, rfl⟩).1, trivial⟩
  obtain ⟨u, aimed, along⟩ : ∃ u, (Drive.aim F.residualAt striding.search
      striding.options.verbosity (reals ![1]).toArray (reals ![-1 / 2]).toArray).outcome h =
        (.ok (reals ![-1 / 2]).toArray, u) ∧ u.Along (reals ![1]).toArray (reals ![-1 / 2]).toArray :=
    Drive.outcome_aim plain (Solver.keeps_residualAt kept) fresh.sized (by simp) leads_fenced
      (by decide)
  obtain ⟨n, before, -⟩ : Session.Balanced Calls.made Calls.missed h u :=
    (settles_aim PureEquations.fenced.records_recorded.settles _ _ _ _).returned aimed
  exact ⟨u, aimed, along, by omega⟩

/-- The first step leads to one half, and misses a value. -/
theorem step_fenced {h : State Calls Wide} (fresh : Method.Fresh () (.reals ![1] ![1 / 2]) h) :
    ∃ u, (method PureEquations.fenced.recorded striding).step.outcome h =
        (.ok (reals ![1 / 2]).toArray, u) ∧ h.env.missed < u.env.missed := by
  let F : Solver.Problem Unit Calls Wide := PureEquations.fenced.recorded
  have read : (Drive.now : Solver.Action Unit Calls Wide _).outcome h =
      (.ok (.reals ![1] ![1 / 2]), h) := by
    rw [← fresh.now]
    rfl
  have defined : (Solver.defined (SystemPoint.reals ![1] ![1 / 2]).y.neg.flat :
      Solver.Action Unit Calls Wide _).outcome h = (.ok (reals ![-1 / 2]).toArray, h) := by
    have opposite : -(![1 / 2] : Fin 1 → ℝ) = ![-1 / 2] := by
      ext i
      fin_cases i
      norm_num
    rw [neg_reals, opposite, Shaped.flat_ofVec, Solver.defined, hasNaN_reals]
    rfl
  obtain ⟨u, aimed, along, before⟩ := aim_fenced fresh
  obtain ⟨found, -, missed⟩ := LineSearch.yields_search_fenced u.env.missed u ⟨along, rfl⟩
  rcases searched : (LineSearch.striding.wide.search (F.ray none) 1).outcome u with ⟨r, v⟩
  rw [searched] at found missed
  obtain rfl : r = .ok 1 := found
  refine ⟨v, ?_, before.trans_lt (missed.symm ▸ Nat.lt_succ_self _)⟩
  rw [step_eq]
  refine Edit.outcome_bind_ok.2 ⟨_, h, read, ?_⟩
  refine Edit.outcome_bind_ok.2 ⟨_, h, defined, ?_⟩
  refine Edit.outcome_bind_ok.2 ⟨_, h, read, ?_⟩
  refine Edit.outcome_bind_ok.2 ⟨_, u, aimed, ?_⟩
  refine Edit.outcome_bind_ok.2 ⟨_, v, searched, ?_⟩
  rw [← way_fenced, add?_unit]
  rfl

/-- It gets the residual within the tolerance. -/
theorem reaches_fenced :
    (method PureEquations.fenced.recorded striding).Reaches PureEquations.fenced.pointAt
      (fun _ => True) () (.reals ![1] ![1 / 2]) (.reals ![1 / 2] ![1 / 2 / 2]) where
  start := rfl
  prepares := outcome_square _ _
  value := PureEquations.pointAt_fenced zero_le_one
  steps _ fresh := by
    obtain ⟨u, stepped, -⟩ := step_fenced fresh
    exact ⟨u, stepped, trivial⟩
  lands := PureEquations.pointAt_fenced (by norm_num)
  measured := by
    refine SystemPoint.converged_within (Options.usual_unbroken_within (by norm_num)) _ _ ?_ ?_
    · norm_num [striding]
    · norm_num
  learns _ _ := rfl

/-- A run with an admitted search that returns, although a call of the residual is not counted. -/
theorem undercounts_beyond_zero :
    LineSearch.striding.check = .ok LineSearch.striding ∧
      ∃ out t, ((method PureEquations.fenced.recorded striding).solve (reals ![1]).toArray).outcome
          ⟨Drive.idle (), {}, {}, {}, #[]⟩ = (.ok out, t) ∧
        out.phase = .converged ∧ out.count.values < t.env.made.values := by
  let s : State Calls Wide := ⟨Drive.idle (), {}, {}, {}, #[]⟩
  have sound := sound_recorded PureEquations.fenced striding
  have settles : (method PureEquations.fenced.recorded striding).Settles
      (Session.Balanced Calls.made Calls.missed) :=
    settles_method PureEquations.fenced.records_recorded.settles striding
  obtain ⟨out, t, returned, single⟩ := sound.single reaches_fenced
    (fun x => { state := fun _ _ => trivial, fault := fun _ _ _ => trivial })
    (by decide) (s := s) rfl
  refine ⟨LineSearch.check_striding, out, t, returned, single.phase, ?_⟩
  obtain ⟨trace, h, z, u, entered, stepped, -, k, after, -⟩ :=
    settles.first_step returned (by decide)
  obtain ⟨trace', h', entered', fresh⟩ := sound.enters reaches_fenced (Method.marked true s)
  cases entered.symm.trans entered'
  obtain ⟨u', stepped', less⟩ := step_fenced fresh
  cases stepped.symm.trans stepped'
  obtain ⟨n, missed, counted⟩ := settles.counts returned
  have none : s.env.missed = 0 := rfl
  have values : t.env.made.values = 0 + out.count.values + n := congrArg Evaluations.values counted
  omega

end FixedPoint

end Descent
