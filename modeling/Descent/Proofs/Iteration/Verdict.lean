/-
# Descent.Proofs.Iteration.Verdict — what the end of a run means

The verdict on an iteration is a choice between three conditions: a guard against
divergence, a criterion of convergence and the limit on iterations.  Which of them
ended a run can be told from the measures of its iterations alone
(`Method.Measures`), whatever the arithmetic makes of them, provided that nothing
but the driver writes them (`Method.Private`): every iteration is judged by its own
measures (`After.judged`), those before the last one were not to end the run
(`Measures.goes_on`), and the limit is never passed (`After.le_limit`).
-/
import Descent.Proofs.Iteration.Run

namespace Descent
set_option autoImplicit false

/-! ## The choice of a verdict -/

section
variable {α : Type} {o : Options α} {k : Nat} {diverged converged : Bool}

theorem verdictOf_running : verdictOf o k diverged converged = .running ↔
    diverged = false ∧ ¬ (converged = true ∧ o.minIterations ≤ k) ∧ k < o.maxIterations := by
  unfold verdictOf
  cases diverged <;> cases converged <;> grind

theorem verdictOf_diverged : verdictOf o k diverged converged = .diverged ↔ diverged = true := by
  unfold verdictOf
  cases diverged <;> cases converged <;> grind

theorem verdictOf_converged : verdictOf o k diverged converged = .converged ↔
    diverged = false ∧ converged = true ∧ o.minIterations ≤ k := by
  unfold verdictOf
  cases diverged <;> cases converged <;> grind

theorem verdictOf_exhausted : verdictOf o k diverged converged = .exhausted ↔
    diverged = false ∧ ¬ (converged = true ∧ o.minIterations ≤ k) ∧ o.maxIterations ≤ k := by
  unfold verdictOf
  cases diverged <;> cases converged <;> grind

theorem verdictOf_ne_ready : verdictOf o k diverged converged ≠ .ready := by
  unfold verdictOf
  cases diverged <;> cases converged <;> grind

end

/-- The number of iterations that measures have counted. -/
def Iterate.count (ι : Type) {π α : Type} [Iterate ι π α] (p : π) : Nat :=
  (Iterate.progress (ι := ι) p).iteration

/-- Measures that count iterations, with a verdict that is chosen by a guard and a criterion. -/
class Iterate.Judged (ι : Type) (π α : outParam Type) [Extended α] [Iterate ι π α] where
  /-- A criterion of convergence holds. -/
  isConverged : π → Bool
  /-- A guard against divergence fires. -/
  isDiverged : Options α → π → Bool
  verdict_eq (o : Options α) (p : π) : Iterate.verdict (ι := ι) o p =
    verdictOf o (Iterate.count ι p) (isDiverged o p) (isConverged p)
  count_start (first : ι) : Iterate.count ι (Iterate.start first) = 0
  count_update {new old : ι} {p p' : π} :
    (Iterate.update new old : Edit α π Unit).outcome p = (.ok ⟨⟩, p') →
      Iterate.count ι p' = Iterate.count ι p + 1
  count_assess (o : Options α) (p : π) :
    Iterate.count ι (Iterate.assess (ι := ι) o p) = Iterate.count ι p

section
variable {α : Type} [Extended α]

instance : Iterate.Judged (SystemPoint α) (ResidualProgress α) α where
  isConverged := ResidualProgress.isConverged
  isDiverged := ResidualProgress.isDiverged
  verdict_eq _ _ := rfl
  count_start _ := rfl
  count_update {new old p p'} updated := by
    simp only [Iterate.update, ResidualProgress.update] at updated
    obtain ⟨⟨⟩, q, counted, rest⟩ := Edit.outcome_bind_ok.1 updated
    cases counted
    refine Edit.Keeps.preserves (p := ResidualProgress.iteration) ?_ rest
    exact .bind (.fit trivial) fun _ => .bind (.change fun _ => rfl) fun _ =>
      .bind (.fit trivial) fun _ => .change fun _ => rfl
  count_assess _ _ := rfl

instance : Iterate.Judged (ObjectivePoint α) (ObjectiveProgress α) α where
  isConverged := ObjectiveProgress.isConverged
  isDiverged := ObjectiveProgress.isDiverged
  verdict_eq _ _ := rfl
  count_start _ := rfl
  count_update {new old p p'} updated := by
    simp only [Iterate.update, ObjectiveProgress.update] at updated
    obtain ⟨⟨⟩, q, counted, rest⟩ := Edit.outcome_bind_ok.1 updated
    cases counted
    refine Edit.Keeps.preserves (p := ObjectiveProgress.iteration) ?_ rest
    exact .bind (.fit trivial) fun _ => .bind (.change fun _ => rfl) fun _ =>
      .bind (.fit trivial) fun _ => .bind (.change fun _ => rfl) fun _ =>
        .bind (.ofExcept fun _ _ => trivial) fun _ => .change fun _ => rfl
  count_assess _ _ := rfl

end

variable {ι π μ ω α : Type} [Extended α] [Iterate ι π α]

/-- The measures are the same. -/
abbrev Drive.sameMeasures : Drive.State ι π μ ω α → Drive.State ι π μ ω α → Prop :=
  Edit.Unchanged fun s => s.driver.progress

namespace Method

/-- Nothing but the driver writes the measures of a run. -/
abbrev Private (M : Method ι π μ ω α) : Prop := M.Keeps Drive.sameMeasures fun _ => True

variable {M : Method ι π μ ω α} {h s t u : Drive.State ι π μ ω α} {j k : Nat}
  {phase phase' : Phase} {new : ι} {p q : π} {x : Vec α} {e : Fault α}

/-! ## Measures -/

/-- The measures of an iteration, as they are judged; iterations are counted from one. -/
inductive Measures (M : Method ι π μ ω α) (h : Drive.State ι π μ ω α) : (iteration : Nat) → π → Prop
  | judged {k : Nat} {s t : Drive.State ι π μ ω α} {new : ι} {phase : Phase} :
      M.After h k .running s → M.propose.outcome s = (.ok (new, phase), t) →
      Measures M h (k + 1) t.driver.progress

theorem Measures.unique (first : M.Measures h k p) (second : M.Measures h k q) : p = q := by
  cases first with
  | judged before proposed =>
    cases second with
    | judged before' proposed' =>
      obtain rfl := (before.unique before').2
      rw [proposed] at proposed'
      cases proposed'
      rfl

theorem Measures.pos (measured : M.Measures h k p) : k ≠ 0 := by
  cases measured
  exact Nat.succ_ne_zero _

theorem Measures.le_of_stopped (measured : M.Measures h k p) (stopped : M.After h j phase t)
    (ended : phase ≠ .running) : k ≤ j := by
  cases measured with
  | @judged k s _ _ _ before proposed =>
    have within := stopped.le_of_stopped ended before
    rcases Nat.lt_or_eq_of_le within with less | rfl
    · exact less
    · exact absurd (stopped.unique before).1 ended

theorem judge_ok (judged : (M.judge new).outcome s = (.ok phase, t)) :
    ∃ p, (Iterate.update new s.driver.current.now).outcome s.driver.progress = (.ok ⟨⟩, p) ∧
      t.driver.progress = Iterate.assess (ι := ι) M.options p ∧
      t.driver.cache = s.driver.cache ∧
      phase = Iterate.verdict (ι := ι) M.options t.driver.progress := by
  simp only [judge, Edit.outcome_bind_ok] at judged
  obtain ⟨old, s', found, ⟨⟩, s'', updated, d, s''', read, ⟨⟩, v, changed, returned⟩ := judged
  cases found
  cases read
  cases changed
  cases returned
  rw [Act.outcome_edit] at updated
  obtain ⟨ran, rfl⟩ := Prod.mk.inj updated
  exact ⟨_, Prod.ext ran rfl, rfl, rfl, rfl⟩

theorem accept_leaves (own : M.Private) (accepted : (M.accept new).outcome s = (.ok ⟨⟩, t)) :
    t.driver.progress = s.driver.progress := by
  simp only [accept, Edit.outcome_bind_ok] at accepted
  obtain ⟨⟨⟩, v, moved, learned⟩ := accepted
  rw [own.learn.preserves learned]
  rw [Drive.onCache, Act.outcome_edit] at moved
  obtain ⟨-, rfl⟩ := Prod.mk.inj moved
  rfl

variable [Iterate.Judged ι π α]

/-- A proposal is counted, and judged by the measures that it leaves. -/
theorem propose_ok (own : M.Private) (proposed : M.propose.outcome s = (.ok (new, phase), t)) :
    Iterate.count ι t.driver.progress = Iterate.count ι s.driver.progress + 1 ∧
      phase = verdictOf M.options (Iterate.count ι t.driver.progress)
        (Iterate.Judged.isDiverged ι M.options t.driver.progress)
        (Iterate.Judged.isConverged ι t.driver.progress) := by
  simp only [propose, Edit.outcome_bind_ok] at proposed
  obtain ⟨x, s', stepped, _, s'', evaluated, _, v, judged, returned⟩ := proposed
  cases returned
  obtain ⟨p, updated, assessed, -, verdict⟩ := judge_ok judged
  have same : s''.driver.progress = s.driver.progress :=
    ((own.evaluate x).preserves evaluated).trans (own.step.preserves stepped)
  constructor
  · rw [assessed, Iterate.Judged.count_assess, Iterate.Judged.count_update updated, same]
  · rw [verdict, Iterate.Judged.verdict_eq]

theorem enter_counts (own : M.Private) {trace : List (Vec α)}
    (entered : (M.enter x).outcome s = (.ok trace, h)) :
    Iterate.count ι h.driver.progress = 0 := by
  obtain ⟨t, u, placing, prepared, rfl, -⟩ := enter_ok.1 entered
  obtain ⟨-, first, v, -, rfl⟩ := place_ok.1 placing
  change Iterate.count ι u.driver.progress = 0
  rw [own.prepare.preserves prepared]
  exact Iterate.Judged.count_start first

/-- The verdict on an iteration by its measures. -/
def ruling (M : Method ι π μ ω α) (k : Nat) (p : π) : Phase :=
  verdictOf M.options k (Iterate.Judged.isDiverged ι M.options p) (Iterate.Judged.isConverged ι p)

/-- Every iteration that was made has been measured, and judged by its measures. -/
theorem After.judged (own : M.Private) (zero : Iterate.count ι h.driver.progress = 0)
    (after : M.After h k phase t) :
    Iterate.count ι t.driver.progress = k ∧
      (k ≠ 0 → M.Measures h k t.driver.progress ∧ phase = M.ruling k t.driver.progress ∧
        phase ≠ .diverged) := by
  induction after with
  | none => exact ⟨zero, fun some => absurd rfl some⟩
  | one before advanced ih =>
    obtain ⟨new, u, proposed, valid, accepted⟩ := advance_ok.1 advanced
    obtain ⟨count, verdict⟩ := propose_ok own proposed
    rw [ih.1] at count
    rw [accept_leaves own accepted]
    refine ⟨count, fun _ => ⟨.judged before proposed, ?_, valid⟩⟩
    rw [verdict, count]
    rfl

section
variable (own : M.Private) (zero : Iterate.count ι h.driver.progress = 0)
include own zero

/-- The verdict on an iteration is told by its measures. -/
theorem Measures.ends (measured : M.Measures h k p) (after : M.After h k phase t) :
    phase = M.ruling k p ∧ p = t.driver.progress := by
  obtain ⟨measured', verdict, -⟩ := (after.judged own zero).2 measured.pos
  obtain rfl := measured.unique measured'
  exact ⟨verdict, rfl⟩

/-- An iteration before another one did not end the run. -/
theorem Measures.goes_on (measured : M.Measures h k p) (after : M.After h j phase t)
    (less : k < j) : M.ruling k p = .running := by
  obtain ⟨t', before⟩ := after.before less
  exact (measured.ends own zero before).1.symm

theorem After.measured (after : M.After h k phase t) (some : j ≠ 0) (within : j ≤ k) :
    ∃ p, M.Measures h j p := by
  rcases Nat.lt_or_eq_of_le within with less | rfl
  · obtain ⟨t', before⟩ := after.before less
    exact ⟨_, ((before.judged own zero).2 some).1⟩
  · exact ⟨_, ((after.judged own zero).2 some).1⟩

/-- The verdict stops a run at the limit at the latest. -/
theorem After.le_limit (room : 1 ≤ M.options.maxIterations) (after : M.After h k phase t) :
    (k : Int) ≤ M.options.maxIterations := by
  cases after with
  | none => omega
  | @one k s _ _ before advanced =>
    by_cases first : k = 0
    · subst first
      exact room
    · obtain ⟨-, verdict, -⟩ := (before.judged own zero).2 first
      have below := (verdictOf_running.1 verdict.symm).2.2
      omega

end

end Method

end Descent
