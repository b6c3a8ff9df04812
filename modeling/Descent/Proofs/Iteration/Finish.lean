/-
# Descent.Proofs.Iteration.Finish — the end of a run, told by its measures

What a run that stands before its first iteration will show when it ends:

* `Method.Returned` — it returned, and the criterion or the limit ended it;
* `Method.DivergesFirst` — a guard fired before anything else ended it;
* `Method.Breaks` — an action of an iteration failed.

There is no other end (`Method.run_finishes`).
-/
import Descent.Proofs.Iteration.Verdict

namespace Descent.Method
set_option autoImplicit false

variable {ι π μ ω α : Type} [Extended α] [Iterate ι π α] [Iterate.Judged ι π α]

/-- No guard fired and no criterion was believed in the iteration of these measures, and there was
room for another one. -/
structure GoesOn (M : Method ι π μ ω α) (k : Nat) (p : π) : Prop where
  guarded : Iterate.Judged.isDiverged ι M.options p = false
  unconverged : M.options.minIterations ≤ k → Iterate.Judged.isConverged ι p = false
  room : (k : Int) < M.options.maxIterations

/-- What a run that returned from a session `h` before its first iteration has to show. -/
structure Returned (M : Method ι π μ ω α) (h : Drive.State ι π μ ω α) (out : Outcome ι α) :
    Prop where
  within : 1 ≤ out.iterations ∧ (out.iterations : Int) ≤ M.options.maxIterations
  ending : out.phase = .converged ∨ out.phase = .exhausted
  success : out.success = true ↔ out.phase = .converged
  /-- The criterion is the first one to be believed. -/
  converged : out.phase = .converged →
    M.options.minIterations ≤ out.iterations ∧
      (∃ p, M.Measures h out.iterations p ∧ Iterate.Judged.isConverged ι p = true) ∧
      ∀ (k : Nat) p, k < out.iterations → M.options.minIterations ≤ k → M.Measures h k p →
        Iterate.Judged.isConverged ι p = false
  exhausted : out.phase = .exhausted →
    (out.iterations : Int) = M.options.maxIterations ∧
      ∀ (k : Nat) p, M.options.minIterations ≤ k → M.Measures h k p →
        Iterate.Judged.isConverged ι p = false
  /-- All iterations are measured, and none of them sets off a guard. -/
  guarded : ∀ k, 1 ≤ k → k ≤ out.iterations →
    ∃ p, M.Measures h k p ∧ Iterate.Judged.isDiverged ι M.options p = false
  traced : M.Traced h out.iterations out.trace
  last : M.options.keepTrace = true → out.trace.getLast? = some (Iterate.point out.last)

/-- A guard fires in an iteration, and nothing ended the run before. -/
structure DivergesFirst (M : Method ι π μ ω α) (h : Drive.State ι π μ ω α) (k : Nat) (p : π) :
    Prop where
  measured : M.Measures h k p
  fires : Iterate.Judged.isDiverged ι M.options p = true
  before : ∀ j q, j < k → M.Measures h j q → M.GoesOn j q

omit [Iterate.Judged ι π α] in
/-- An action of an iteration fails: the step, the evaluation or the measurement of a proposal, or
the move to it. -/
def Breaks (M : Method ι π μ ω α) (h : Drive.State ι π μ ω α) (e : Fault α) : Prop :=
  ∃ k s t, M.After h k .running s ∧
    (M.propose.outcome s = (.error e, t) ∨
      ∃ new phase u, M.propose.outcome s = (.ok (new, phase), u) ∧ phase ≠ .diverged ∧
        (M.accept new).outcome u = (.error e, t))

/-- How a run from `x` in session `s` ends that stands before its first iteration in session `h`. -/
structure Finishes (M : Method ι π μ ω α) (x : Vec α) (s h : Drive.State ι π μ ω α) : Prop where
  started : h.point = x
  /-- There are never more iterations than the limit. -/
  limit : ∀ k phase t, M.After h k phase t → (k : Int) ≤ M.options.maxIterations
  returned : ∀ out u, (M.run x).outcome s = (.ok out, u) → M.Returned h out
  failed : ∀ e u, (M.run x).outcome s = (.error e, u) →
    M.Breaks h e ∨ ∃ k p z, M.DivergesFirst h k p ∧
      e = .diverged M.name (Iterate.progress (ι := ι) p) z
  /-- A guard that fires is not overlooked. -/
  diverged : ∀ k p, M.Measures h k p → Iterate.Judged.isDiverged ι M.options p = true →
    ∃ z u, (M.run x).outcome s = (.error (.diverged M.name (Iterate.progress (ι := ι) p) z), u)

variable {M : Method ι π μ ω α} {h s t u : Drive.State ι π μ ω α} {j k : Nat} {phase : Phase}
  {p q : π} {x : Vec α} {out : Outcome ι α}

theorem goesOn_of_running (running : M.ruling k p = .running) : M.GoesOn k p := by
  obtain ⟨guarded, unconverged, room⟩ := verdictOf_running.1 running
  refine ⟨guarded, fun least => ?_, room⟩
  rw [← Bool.not_eq_true]
  exact fun converged => unconverged ⟨converged, least⟩

omit [Iterate.Judged ι π α] in
theorem getLast?_of_traced {points : List (Vec α)} (traced : M.Traced h k points)
    (after : M.After h k phase t) (keeps : M.options.keepTrace = true) :
    points.getLast? = some t.point := by
  simp only [Traced, keeps, if_true] at traced
  obtain ⟨count, entries⟩ := traced
  rw [List.getLast?_eq_getElem?, count]
  exact entries k phase t after (Nat.le_refl k)

/-- Iteration `k` is the last one of a run: its measures `p` end the run in `phase`. -/
structure LastIteration (M : Method ι π μ ω α) (h : Drive.State ι π μ ω α) (k : Nat) (phase : Phase)
    (p : π) : Prop where
  measured : M.Measures h k p
  verdict : phase = M.ruling k p
  stopped : phase ≠ .running
  valid : phase ≠ .diverged
  all : ∀ j, 1 ≤ j → j ≤ k → ∃ q, M.Measures h j q
  before : ∀ j q, j < k → M.Measures h j q → M.GoesOn j q
  latest : ∀ j q, M.Measures h j q → j ≤ k

namespace LastIteration
variable (final : M.LastIteration h k phase p)
include final

theorem ending : phase = .converged ∨ phase = .exhausted := by
  cases phase with
  | ready => exact absurd final.verdict.symm verdictOf_ne_ready
  | running => exact absurd rfl final.stopped
  | converged => exact .inl rfl
  | diverged => exact absurd rfl final.valid
  | exhausted => exact .inr rfl

/-- No guard fires in any iteration, the last one included. -/
theorem guarded (j : Nat) (first : 1 ≤ j) (within : j ≤ k) :
    ∃ q, M.Measures h j q ∧ Iterate.Judged.isDiverged ι M.options q = false := by
  rcases Nat.lt_or_eq_of_le within with less | rfl
  · obtain ⟨q, measured⟩ := final.all j first within
    exact ⟨q, measured, (final.before j q less measured).guarded⟩
  · refine ⟨p, final.measured, ?_⟩
    rw [← Bool.not_eq_true]
    exact fun fires => final.valid (final.verdict.trans (verdictOf_diverged.2 fires))

theorem first_to_converge (converges : phase = .converged) :
    M.options.minIterations ≤ k ∧ Iterate.Judged.isConverged ι p = true ∧
      ∀ (j : Nat) q, j < k → M.options.minIterations ≤ j → M.Measures h j q →
        Iterate.Judged.isConverged ι q = false := by
  obtain ⟨-, converged, least⟩ := verdictOf_converged.1 (final.verdict.symm.trans converges)
  exact ⟨least, converged, fun j q less believed measured =>
    (final.before j q less measured).unconverged believed⟩

theorem never_converged (exhausts : phase = .exhausted) :
    M.options.maxIterations ≤ k ∧
      ∀ (j : Nat) q, M.options.minIterations ≤ j → M.Measures h j q →
        Iterate.Judged.isConverged ι q = false := by
  obtain ⟨-, unconverged, full⟩ := verdictOf_exhausted.1 (final.verdict.symm.trans exhausts)
  refine ⟨full, fun j q believed measured => ?_⟩
  rcases Nat.lt_or_eq_of_le (final.latest j q measured) with less | rfl
  · exact (final.before j q less measured).unconverged believed
  · obtain rfl := final.measured.unique measured
    rw [← Bool.not_eq_true]
    exact fun converged => unconverged ⟨converged, believed⟩

end LastIteration

section
variable (own : M.Private) (zero : Iterate.count ι h.driver.progress = 0)
  (room : 1 ≤ M.options.maxIterations)
include own zero room

/-- The limit is not what ends the loop: it has a verdict by then. -/
theorem stopped_of_full (after : M.After h k phase t)
    (full : phase = .running → k = M.options.maxIterations.toNat) : phase ≠ .running := by
  intro running
  have count := full running
  obtain ⟨-, verdict, -⟩ := (after.judged own zero).2 (by omega)
  have below := (verdictOf_running.1 (verdict.symm.trans running)).2.2
  omega

omit room in
theorem lastIteration_of_after (after : M.After h k phase t) (stopped : phase ≠ .running) :
    M.LastIteration h k phase t.driver.progress := by
  have some : k ≠ 0 := by
    rintro rfl
    cases after
    exact stopped rfl
  obtain ⟨measured, verdict, valid⟩ := (after.judged own zero).2 some
  exact
    { measured, verdict, stopped, valid
      all := fun j first within => after.measured own zero (by omega) within
      before := fun j q less measured => goesOn_of_running (measured.goes_on own zero after less)
      latest := fun j q measured => measured.le_of_stopped after stopped }

theorem returned_of_stopped (after : M.After h k phase t) (stopped : phase ≠ .running)
    (traced : M.Traced h k out.trace) (ending : out.phase = phase)
    (last : out.last = t.driver.current.now)
    (count : out.iterations = Iterate.count ι t.driver.progress) : M.Returned h out := by
  obtain rfl : out.iterations = k := count.trans (after.judged own zero).1
  obtain rfl : out.phase = phase := ending
  have limit := after.le_limit own zero room
  have final := lastIteration_of_after own zero after stopped
  exact
    { within := ⟨Nat.one_le_iff_ne_zero.2 final.measured.pos, limit⟩
      ending := final.ending
      success := by simp [Outcome.success]
      converged := fun converges =>
        have ⟨least, converged, first⟩ := final.first_to_converge converges
        ⟨least, ⟨_, final.measured, converged⟩, first⟩
      exhausted := fun exhausts =>
        have ⟨full, never⟩ := final.never_converged exhausts
        ⟨Int.le_antisymm limit full, never⟩
      guarded := final.guarded
      traced
      last := fun keeps => by
        rw [getLast?_of_traced traced after keeps, last]
        rfl }

omit room in
/-- A run that fails in an iteration fails with an action, or because a guard fired. -/
theorem breaks_or_diverges {e : Fault α} (before : M.After h k .running s)
    (failed : M.advance.outcome s = (.error e, u)) :
    M.Breaks h e ∨ ∃ k p z, M.DivergesFirst h k p ∧
      e = .diverged M.name (Iterate.progress (ι := ι) p) z := by
  rcases advance_error failed with proposing | ⟨new, proposed, rfl⟩ | moving
  · exact .inl ⟨k, s, u, before, .inl proposing⟩
  · obtain ⟨count, verdict⟩ := propose_ok own proposed
    refine .inr ⟨k + 1, u.driver.progress, u.point, ⟨.judged before proposed, ?_, ?_⟩, rfl⟩
    · exact verdictOf_diverged.1 verdict.symm
    · intro j q less measured
      refine goesOn_of_running ?_
      rcases Nat.lt_or_eq_of_le (Nat.lt_succ_iff.1 less) with earlier | rfl
      · exact measured.goes_on own zero before earlier
      · exact (measured.ends own zero before).1.symm
  · exact .inl ⟨k, s, u, before, .inr moving⟩

omit zero room in
/-- Where a guard fires the iteration fails. -/
theorem advance_of_fires (measured : M.Measures h k p)
    (fires : Iterate.Judged.isDiverged ι M.options p = true) :
    ∃ j s u, k = j + 1 ∧ M.After h j .running s ∧
      M.advance.outcome s =
        (.error (.diverged M.name (Iterate.progress (ι := ι) p) u.point), u) := by
  cases measured with
  | @judged j s u new phase before proposed =>
    obtain ⟨-, verdict⟩ := propose_ok own proposed
    have diverges : phase = .diverged := verdict.trans (verdictOf_diverged.2 fires)
    subst diverges
    exact ⟨j, s, u, rfl, before, advance_of_diverged proposed⟩

/-- A run fails if an iteration does. -/
theorem run_of_failed {trace : List (Vec α)} {e : Fault α} {v : Drive.State ι π μ ω α}
    (entered : (M.enter x).outcome v = (.ok trace, h)) (before : M.After h k .running s)
    (failed : M.advance.outcome s = (.error e, u)) : (M.run x).outcome v = (.error e, u) := by
  rcases ran : (M.run x).outcome v with ⟨e' | out, w⟩
  · rcases run_failed ran with entering | ⟨_, h', j, t, entered', before', failed'⟩
    · rw [entered] at entering
      cases entering
    · rw [entered] at entered'
      cases entered'
      obtain rfl : j = k :=
        Nat.le_antisymm (before'.le_of_failed before failed) (before.le_of_failed before' failed')
      obtain rfl := (before.unique before').2
      rw [failed] at failed'
      cases failed'
      rfl
  · obtain ⟨_, h', j, phase, t, entered', after, -, full, -⟩ := run_returned ran
    rw [entered] at entered'
    cases entered'
    have stopped := stopped_of_full own zero room after full
    obtain rfl : j = k :=
      Nat.le_antisymm (after.le_of_failed before failed) (after.le_of_stopped stopped before)
    exact absurd (after.unique before).1 stopped

end

omit [Iterate.Judged ι π α] in
/-- The first iteration starts from where the run does. -/
theorem point_of_entered
    (placed : ∀ x s first t, (M.evaluate x).outcome s = (.ok first, t) → Iterate.point first = x)
    (prepares : Edit.Keeps (Edit.Unchanged Session.point) (fun _ => True) M.prepare)
    {trace : List (Vec α)} (entered : (M.enter x).outcome s = (.ok trace, h)) : h.point = x := by
  obtain ⟨t, u, placing, prepared, rfl, -⟩ := enter_ok.1 entered
  obtain ⟨-, first, v, evaluated, rfl⟩ := place_ok.1 placing
  exact (prepares.preserves prepared).trans (placed x _ first v evaluated)

/-- A run ends within the limit: it returns with what ended it, or a guard fired, or an action of an
iteration failed. -/
theorem run_finishes (own : M.Private) (room : 1 ≤ M.options.maxIterations)
    (placed : ∀ x s first t, (M.evaluate x).outcome s = (.ok first, t) → Iterate.point first = x)
    (prepares : Edit.Keeps (Edit.Unchanged Session.point) (fun _ => True) M.prepare)
    {trace : List (Vec α)} (entered : (M.enter x).outcome s = (.ok trace, h)) :
    M.Finishes x s h := by
  have zero := enter_counts own entered
  refine
    { started := point_of_entered placed prepares entered
      limit := fun k phase t after => after.le_limit own zero room
      returned := fun out u returned => ?_
      failed := fun e u failed => ?_
      diverged := fun k p measured fires => ?_ }
  · obtain ⟨_, h', k, phase, t, entered', after, traced, full, ending, last, count, -⟩ :=
      run_returned returned
    rw [entered] at entered'
    cases entered'
    have stopped := stopped_of_full own zero room after full
    rw [if_neg stopped] at ending
    exact returned_of_stopped own zero room after stopped traced ending last count
  · rcases run_failed failed with entering | ⟨_, h', k, t, entered', before, failing⟩
    · rw [entered] at entering
      cases entering
    · rw [entered] at entered'
      cases entered'
      exact breaks_or_diverges own zero before failing
  · obtain ⟨j, t, u, -, before, failing⟩ := advance_of_fires own measured fires
    exact ⟨u.point, u, run_of_failed own zero room entered before failing⟩

end Descent.Method
