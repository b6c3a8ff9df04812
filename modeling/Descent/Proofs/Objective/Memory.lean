/-
# Descent.Proofs.Objective.Memory — what the optimizer remembers

An optimizer with an estimate of the inverse Hessian remembers one from its preparation
on (`memory_of_prepare`).  There are two places where it changes: a direction that leads
uphill resets it (`memory_of_step`), and the lesson of an iteration may correct its matrix
(`memory_of_learn`).
-/
import Descent.Proofs.Iteration.Memory
import Descent.Proofs.Objective.Frame

namespace Descent
set_option autoImplicit false

namespace Optimizer

/-- A session of the optimizer. -/
abbrev State (ω α : Type) := Drive.State (ObjectivePoint α) (ObjectiveProgress α) (Memory α) ω α

variable {ω α : Type} [Extended α] {F : Problem ω α} {c : Settings α} {kind : HessianKind}
  {h : InverseHessian α} {t u : State ω α} {d z : Vec α}

/-- A preparation does nothing but write down the estimate of the start. -/
theorem memory_of_prepare (approximated : kind ≠ .exact)
    (prepared : (prepare kind : Action ω α Unit).outcome t = (.ok ⟨⟩, u)) :
    ∃ rule, u = { t with driver := { t.driver with
      memory := some (.start rule t.driver.current.now.x.size) } } := by
  obtain ⟨rule, known⟩ : ∃ rule, kind.rule? = some rule := by
    cases kind with
    | exact => exact absurd rfl approximated
    | bfgs => exact ⟨_, rfl⟩
    | dfp => exact ⟨_, rfl⟩
  unfold prepare at prepared
  rw [known] at prepared
  obtain ⟨p, _, ⟨⟩, prepared⟩ := Edit.outcome_bind_ok.1 prepared
  obtain ⟨h, s, created, prepared⟩ := Edit.outcome_bind_ok.1 prepared
  rw [Edit.outcome_ofExcept] at created
  obtain ⟨new, rfl⟩ := Prod.mk.inj created
  cases prepared
  refine ⟨rule, ?_⟩
  unfold InverseHessian.new at new
  split at new
  · cases new
  · obtain ⟨⟨⟩, -, returned⟩ := bind_eq_ok.1 new
    cases returned
    rfl

/-- A direction that is found leaves the estimate as it was, or resets it. -/
theorem memory_of_direction {p : ObjectivePoint α} (here : t.driver.memory = some h)
    (directed : (direction F p).outcome t = (.ok d, u)) :
    u.driver.memory = some h ∨ u.driver.memory = some h.reset := by
  obtain ⟨_, _, ⟨⟩, directed⟩ := Edit.outcome_bind_ok.1 directed
  dsimp only at directed
  rw [here] at directed
  obtain ⟨d', s, found, directed⟩ := Edit.outcome_bind_ok.1 directed
  obtain ⟨D, _, first, found⟩ := Edit.outcome_bind_ok.1 found
  rw [Edit.outcome_ofExcept] at first
  obtain ⟨-, rfl⟩ := Prod.mk.inj first
  obtain ⟨slope, _, product, found⟩ := Edit.outcome_bind_ok.1 found
  rw [Edit.outcome_ofExcept] at product
  obtain ⟨-, rfl⟩ := Prod.mk.inj product
  have same : u = s := by
    split at directed
    · cases directed
    · cases directed
      rfl
  rw [same]
  split at found
  · obtain ⟨⟨⟩, _, ⟨⟩, found⟩ := Edit.outcome_bind_ok.1 found
    obtain ⟨⟨⟩, _, ⟨⟩, found⟩ := Edit.outcome_bind_ok.1 found
    obtain ⟨D', _, second, found⟩ := Edit.outcome_bind_ok.1 found
    rw [Edit.outcome_ofExcept] at second
    obtain ⟨-, rfl⟩ := Prod.mk.inj second
    cases found
    exact .inr rfl
  · cases found
    exact .inl here

/-- Nothing else in a step touches the estimate. -/
theorem memory_of_step
    (kept : F.Keeps (Edit.Unchanged fun s : State ω α => s.driver.memory) fun _ => True)
    (here : t.driver.memory = some h) (stepped : (step F c).outcome t = (.ok z, u)) :
    u.driver.memory = some h ∨ u.driver.memory = some h.reset := by
  obtain ⟨p, _, ⟨⟩, stepped⟩ := Edit.outcome_bind_ok.1 stepped
  obtain ⟨d, v, directed, rest⟩ := Edit.outcome_bind_ok.1 stepped
  have unchanged : Edit.Unchanged (fun s : State ω α => s.driver.memory) v u := by
    refine Edit.Keeps.related (P := fun _ => True) ?_ rest
    refine .bind (Drive.keeps_shortenUndefined (keeps_shown kept) _ _ _ _ _) fun d => ?_
    refine .bind (Drive.keeps_turn _) fun _ => .bind (Drive.keeps_reset _ _) fun _ => ?_
    exact .bind ((keeps_ray kept).search Drive.keeps_report (fun _ _ => trivial) _ 1) fun _ =>
      Drive.keeps_fit _
  have same : u.driver.memory = v.driver.memory := unchanged
  rw [same]
  exact memory_of_direction here directed

/-- The step from one iterate to another, with the change of the gradient, corrects an estimate to a
matrix. -/
def Teaches (old new : ObjectivePoint α) (h : InverseHessian α) (A : Shaped α) : Prop :=
  ∃ dx dg, Vec.sub? new.x old.x = some dx ∧ new.g.sub? old.g = some dg ∧
    h.rule.update? h.matrix (.ofVec dx) dg = .ok (some A)

/-- A lesson is drawn from the last two iterates.  Unless it corrects the matrix of the estimate, it
leaves the estimate as it was, also where it fails. -/
theorem memory_of_learn {r : Except (Fault α) Unit} (here : t.driver.memory = some h)
    (learned : (learn : Action ω α Unit).outcome t = (r, u)) :
    u.driver.memory = some h ∧
        (∀ A, ¬ Teaches t.driver.current.before t.driver.current.now h A) ∨
      ∃ A, Teaches t.driver.current.before t.driver.current.now h A ∧
        u.driver.memory = some { h with matrix := A } := by
  rw [learn, Edit.outcome_bind, Act.outcome_driver, Edit.andThen_ok, here] at learned
  dsimp only at learned
  rw [Edit.outcome_bind, Act.outcome_driver, Edit.andThen_ok, Edit.outcome_bind] at learned
  unfold Teaches
  cases step : Vec.sub? t.driver.current.now.x t.driver.current.before.x with
  | none =>
    rw [step] at learned
    cases learned
    exact .inl ⟨here, by simp⟩
  | some dx =>
    rw [step, fit, Edit.outcome_pure, Edit.andThen_ok, Edit.outcome_bind] at learned
    cases change : t.driver.current.now.g.sub? t.driver.current.before.g with
    | none =>
      rw [change] at learned
      cases learned
      exact .inl ⟨here, by simp⟩
    | some dg =>
      rw [change, fit, Edit.outcome_pure, Edit.andThen_ok, Edit.outcome_bind,
        InverseHessian.learn, Edit.outcome_bind, Edit.outcome_ofExcept] at learned
      rcases updated : h.rule.update? h.matrix (.ofVec dx) dg with e | _ | A <;>
        rw [updated] at learned <;> cases learned
      · exact .inl ⟨here, by simp [updated]⟩
      · exact .inl ⟨rfl, by simp [updated]⟩
      · exact .inr ⟨A, ⟨dx, dg, rfl, rfl, updated⟩, rfl⟩

end Optimizer

end Descent
