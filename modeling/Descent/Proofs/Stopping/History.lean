/-
# Descent.Proofs.Stopping.History — what the guard against divergence goes by

Measures are started, follow moves from one point to the next, and are asked in between
how things stand.  Questions leave what is measured as it is (`asked`), so after a move the
guard goes by the measures of this move, whatever was measured or asked before.

The flag for growth is the exception.  For an objective it is set with the measures.  For a
residual it is set by the next assessment: until then it is the one of the last assessment
since the start (`residualIncreased_iff`), and the guard can miss the growth of the residual
in the latest move, or hold that of an earlier one against it
(`isDiverged_after_latest_move`).
-/
import Descent.Proofs.Stopping

namespace Descent.Stopping
set_option autoImplicit false

/-! ## Calls -/

/-- Measures are started, follow a move, or are asked how things stand. -/
inductive Call (ι α : Type) where
  | start (first : ι)
  | update (new old : ι)
  | assess (o : Options α)
  | isDiverged (o : Options α)
  | verdict (o : Options α)

namespace Call

variable {ι α : Type}

/-- The call asks how things stand. -/
def asks : Call ι α → Bool
  | assess _ | isDiverged _ | verdict _ => true
  | start _ | update _ _ => false

/-- The call compares the measures with tolerances. A verdict does so first. -/
def assesses : Call ι α → Bool
  | assess _ | verdict _ => true
  | start _ | update _ _ | isDiverged _ => false

/-- The call starts the measures anew. -/
def starts : Call ι α → Bool
  | start _ => true
  | update _ _ | assess _ | isDiverged _ | verdict _ => false

end Call

/-- Measures `π` of the moves between points `ι`. -/
class Measures (ι : Type) (π α : outParam Type) where
  unmeasured : π
  start : ι → π
  update (new old : ι) : Edit α π Unit
  assess : Options α → π → π
  /-- An assessment looks at nothing that an assessment writes. -/
  assess_assess (o o' : Options α) (p : π) : assess o (assess o' p) = assess o p

section
variable {ι π α : Type} [Measures ι π α]

/-- The measures after a call. A move that cannot be measured leaves what it has written. -/
def after (p : π) : Call ι α → π
  | .start first => Measures.start first
  | .update new old => ((Measures.update new old).outcome p).2
  | .assess o | .verdict o => Measures.assess ι o p
  | .isDiverged _ => p

/-- The measures after any calls. -/
def measured (calls : List (Call ι α)) : π := calls.foldl after (Measures.unmeasured ι)

theorem measured_append (calls later : List (Call ι α)) :
    measured (calls ++ later) = later.foldl after (measured calls) := List.foldl_append

/-- Questions leave the measures as they are, or as the last assessment among them does. -/
theorem asked {p : π} {questions : List (Call ι α)} (ask : ∀ c ∈ questions, c.asks = true) :
    questions.any Call.assesses = false ∧ questions.foldl after p = p ∨
      questions.any Call.assesses = true ∧
        ∃ o, questions.foldl after p = Measures.assess ι o p := by
  induction questions using List.reverseRecOn with
  | nil => exact .inl ⟨rfl, rfl⟩
  | append_singleton questions c ih =>
    rw [List.forall_mem_append, List.forall_mem_singleton] at ask
    have before := ih ask.1
    have assessed (o : Options α) :
        ∃ o', Measures.assess ι o (questions.foldl after p) = Measures.assess ι o' p := by
      obtain ⟨-, same⟩ | ⟨-, o', same⟩ := before
      · exact ⟨o, by rw [same]⟩
      · exact ⟨o, by rw [same, Measures.assess_assess]⟩
    rw [List.foldl_append, List.any_append]
    cases c with
    | start first => cases ask.2
    | update new old => cases ask.2
    | assess o => exact .inr ⟨by simp [Call.assesses], assessed o⟩
    | verdict o => exact .inr ⟨by simp [Call.assesses], assessed o⟩
    | isDiverged o => simpa [Call.assesses, after] using before

/-- The measures `p` after any calls, a move and questions: nothing was started or moved since. -/
structure LatestMove (calls : List (Call ι α)) (new old : ι) (questions : List (Call ι α)) (p : π) :
    Prop where
  ask : ∀ c ∈ questions, c.asks = true
  moved : ∃ q, (Measures.update new old).outcome (measured calls) = (.ok ⟨⟩, q) ∧
    questions.foldl after q = p

end

/-! ## Residuals -/

/-- A point and the residual there, as arrays of any extents. -/
structure SystemReading (α : Type) where
  point : Shaped α
  residual : Shaped α

section
variable {α : Type} [Extended α]

instance : Measures (SystemReading α) (ResidualProgress α) α where
  unmeasured := .unmeasured
  start first := .start first.point first.residual
  update new old := ResidualProgress.update new.point old.point new.residual old.residual
  assess := .assess
  assess_assess _ _ _ := rfl

/-- The measures of a move. -/
structure SystemReading.Measured (new old : SystemReading α) (p : ResidualProgress α) : Prop where
  step : ∃ dx, new.point.sub? old.point = some dx ∧ p.step = dx.norm
  relativeStep : p.relativeStep = ratio p.step new.point.norm
  residual : p.residual = new.residual.norm
  relativeResidual : p.relativeResidual = ratio new.residual.norm p.firstResidual
  lastResidual : p.lastResidual = old.residual.norm
  point : p.pointUndefined = new.point.hasNaN
  value : p.residualUndefined = new.residual.hasNaN

/-- A break threshold is passed, or something is undefined. -/
def SystemReading.Breaks (o : Options α) (new : SystemReading α) (p : ResidualProgress α) : Prop :=
  o.stepBreak < p.step ∨ o.relativeStepBreak < p.relativeStep ∨ o.valueBreak < p.residual ∨
    o.relativeValueBreak < p.relativeResidual ∨ new.point.hasNaN = true ∨
    new.residual.hasNaN = true

variable {calls questions : List (Call (SystemReading α) α)} {new old : SystemReading α}
  {p q : ResidualProgress α}

theorem SystemReading.measured_of_update
    (updated : (Measures.update new old).outcome q = (.ok ⟨⟩, p)) :
    new.Measured old p ∧ p.residualIncreased = q.residualIncreased := by
  simp only [Measures.update, ResidualProgress.update] at updated
  obtain ⟨⟨⟩, _, ⟨⟩, updated⟩ := Edit.outcome_bind_ok.1 updated
  obtain ⟨dx, _, stepped, updated⟩ := Edit.outcome_bind_ok.1 updated
  obtain ⟨step, rfl⟩ := Edit.outcome_fit_ok.1 stepped
  obtain ⟨⟨⟩, _, ⟨⟩, updated⟩ := Edit.outcome_bind_ok.1 updated
  obtain ⟨dy, _, changed, updated⟩ := Edit.outcome_bind_ok.1 updated
  obtain ⟨-, rfl⟩ := Edit.outcome_fit_ok.1 changed
  cases updated
  exact ⟨⟨⟨dx, step, rfl⟩, rfl, rfl, rfl, rfl, rfl, rfl⟩, rfl⟩

/-- The flag for growth is not touched by a move, also if it cannot be measured. -/
theorem residualIncreased_update (new old : SystemReading α) :
    Edit.Keeps (Edit.Unchanged ResidualProgress.residualIncreased) (fun _ => True)
      (Measures.update new old) := by
  simp only [Measures.update, ResidualProgress.update]
  exact .bind (.change fun _ => rfl) fun _ => .bind (.fit trivial) fun _ =>
    .bind (.change fun _ => rfl) fun _ => .bind (.fit trivial) fun _ => .change fun _ => rfl

/-- The last assessment since the last start found that the residual had grown. -/
def Flagged (calls : List (Call (SystemReading α) α)) : Prop :=
  ∃ before c rest, calls = before ++ c :: rest ∧ c.assesses = true ∧
    (∀ d ∈ rest, d.assesses = false ∧ d.starts = false) ∧
    (measured before).lastResidual < (measured before).residual

theorem flagged_append_iff (calls : List (Call (SystemReading α) α)) (c : Call (SystemReading α) α) :
    Flagged (calls ++ [c]) ↔
      c.assesses = true ∧ (measured calls).lastResidual < (measured calls).residual ∨
        c.assesses = false ∧ c.starts = false ∧ Flagged calls := by
  constructor
  · rintro ⟨before, d, rest, split, assesses, quiet, grown⟩
    obtain rfl | ⟨rest, e, rfl⟩ := rest.eq_nil_or_concat'
    · obtain ⟨rfl, ⟨⟩⟩ := List.append_inj' split rfl
      exact .inl ⟨assesses, grown⟩
    · rw [← List.cons_append, ← List.append_assoc] at split
      obtain ⟨rfl, ⟨⟩⟩ := List.append_inj' split rfl
      rw [List.forall_mem_append, List.forall_mem_singleton] at quiet
      exact .inr ⟨quiet.2.1, quiet.2.2, before, d, rest, rfl, assesses, quiet.1, grown⟩
  · rintro (⟨assesses, grown⟩ | ⟨silent, starts, before, d, rest, rfl, assesses, quiet, grown⟩)
    · exact ⟨calls, c, [], rfl, assesses, nofun, grown⟩
    · refine ⟨before, d, rest ++ [c], by simp, assesses, ?_, grown⟩
      rw [List.forall_mem_append, List.forall_mem_singleton]
      exact ⟨quiet, silent, starts⟩

/-- The flag is the one of the last assessment, unless there was a start after it. -/
theorem residualIncreased_iff (calls : List (Call (SystemReading α) α)) :
    (measured calls).residualIncreased = true ↔ Flagged calls := by
  induction calls using List.reverseRecOn with
  | nil =>
    refine iff_of_false Bool.false_ne_true ?_
    rintro ⟨before, c, rest, split, -⟩
    simp at split
  | append_singleton calls c ih =>
    rw [flagged_append_iff, ← ih, measured_append, List.foldl_cons, List.foldl_nil]
    cases c with
    | start first => simp [after, Measures.start, ResidualProgress.start, Call.assesses, Call.starts,
        ResidualProgress.unmeasured]
    | update new old =>
      have kept := (residualIncreased_update new old).state (measured calls)
      simp only [after, Call.assesses, Call.starts, Bool.false_eq_true, false_and, true_and, false_or]
      rw [kept]
    | assess o => simp [after, Measures.assess, ResidualProgress.assess, Call.assesses]
    | verdict o => simp [after, Measures.assess, ResidualProgress.assess, Call.assesses]
    | isDiverged o => simp [after, Call.assesses, Call.starts]

theorem SystemReading.Measured.isDiverged_iff (moved : new.Measured old p) (o : Options α) :
    p.isDiverged o = true ↔
      o.allowIncrease = false ∧ p.residualIncreased = true ∨ new.Breaks o p := by
  simp only [ResidualProgress.isDiverged, Breaks, moved.point, moved.value, Bool.or_eq_true,
    Bool.and_eq_true, Bool.not_eq_true', decide_eq_true_eq, or_assoc, and_comm]

/-- After questions the measures are those of the move still, and the flag is that of the move or, if
nothing was assessed, the one before it. -/
theorem SystemReading.measured_of_latest (latest : LatestMove calls new old questions p) :
    new.Measured old p ∧
      (questions.any Call.assesses = true →
        (p.residualIncreased = true ↔ old.residual.norm < new.residual.norm)) ∧
      (questions.any Call.assesses = false → (p.residualIncreased = true ↔ Flagged calls)) := by
  obtain ⟨ask, q, updated, rfl⟩ := latest
  obtain ⟨moved, flag⟩ := measured_of_update updated
  obtain ⟨silent, same⟩ | ⟨assesses, o, same⟩ := asked (p := q) ask
  · rw [same, flag, residualIncreased_iff, silent]
    exact ⟨moved, nofun, fun _ => Iff.rfl⟩
  · rw [same, assesses]
    refine ⟨⟨moved.step, moved.relativeStep, moved.residual, moved.relativeResidual,
      moved.lastResidual, moved.point, moved.value⟩, fun _ => ?_, nofun⟩
    rw [← moved.lastResidual, ← moved.residual]
    exact decide_eq_true_iff

end

/-! ## Objectives -/

/-- A point, and the value and the gradient there, as arrays of any extents. -/
structure ObjectiveReading (α : Type) where
  point : Shaped α
  value : α
  gradient : Shaped α

section
variable {α : Type} [Extended α]

instance : Measures (ObjectiveReading α) (ObjectiveProgress α) α where
  unmeasured := .unmeasured
  start first := .start first.point first.value first.gradient
  update new old :=
    ObjectiveProgress.update new.point old.point new.value old.value new.gradient old.gradient
  assess := .assess
  assess_assess _ _ _ := rfl

namespace ObjectiveReading

/-- The measures of a move. -/
structure Measured (new old : ObjectiveReading α) (p : ObjectiveProgress α) : Prop where
  step : ∃ dx, new.point.sub? old.point = some dx ∧ p.step = dx.norm
  relativeStep : p.relativeStep = ratio p.step new.point.norm
  change : p.change = Scalar.abs (new.value - old.value)
  relativeChange : p.relativeChange = ratio p.change (Scalar.abs new.value)
  gradient : p.gradient = new.gradient.norm
  increased : p.valueIncreased = decide (old.value < new.value)
  point : p.pointUndefined = new.point.hasNaN
  value : p.valueUndefined = Scalar.isNaN new.value
  slope : p.gradientUndefined = new.gradient.hasNaN

/-- A break threshold is passed, or something is undefined. -/
def Breaks (o : Options α) (new : ObjectiveReading α) (p : ObjectiveProgress α) : Prop :=
  o.stepBreak < p.step ∨ o.relativeStepBreak < p.relativeStep ∨ o.valueBreak < p.change ∨
    o.relativeValueBreak < p.relativeChange ∨ o.gradientBreak < p.gradient ∨
    new.point.hasNaN = true ∨ Scalar.isNaN new.value = true ∨ new.gradient.hasNaN = true

variable {calls questions : List (Call (ObjectiveReading α) α)} {new old : ObjectiveReading α}
  {p q : ObjectiveProgress α}

theorem measured_of_update (updated : (Measures.update new old).outcome q = (.ok ⟨⟩, p)) :
    new.Measured old p := by
  simp only [Measures.update, ObjectiveProgress.update] at updated
  obtain ⟨⟨⟩, _, ⟨⟩, updated⟩ := Edit.outcome_bind_ok.1 updated
  obtain ⟨dx, _, stepped, updated⟩ := Edit.outcome_bind_ok.1 updated
  obtain ⟨step, rfl⟩ := Edit.outcome_fit_ok.1 stepped
  obtain ⟨⟨⟩, _, ⟨⟩, updated⟩ := Edit.outcome_bind_ok.1 updated
  obtain ⟨dg, _, changed, updated⟩ := Edit.outcome_bind_ok.1 updated
  obtain ⟨-, rfl⟩ := Edit.outcome_fit_ok.1 changed
  obtain ⟨⟨⟩, _, ⟨⟩, updated⟩ := Edit.outcome_bind_ok.1 updated
  obtain ⟨slope, _, multiplied, updated⟩ := Edit.outcome_bind_ok.1 updated
  rw [Edit.outcome_ofExcept] at multiplied
  obtain ⟨-, rfl⟩ := Prod.mk.inj multiplied
  cases updated
  exact ⟨⟨dx, step, rfl⟩, rfl, rfl, rfl, rfl, rfl, rfl, rfl, rfl⟩

theorem Measured.isDiverged_iff (moved : new.Measured old p) (o : Options α) :
    p.isDiverged o = true ↔
      o.allowIncrease = false ∧ old.value < new.value ∨ new.Breaks o p := by
  simp only [ObjectiveProgress.isDiverged, Breaks, moved.increased, moved.point, moved.value,
    moved.slope, Bool.or_eq_true, Bool.and_eq_true, Bool.not_eq_true', decide_eq_true_eq, or_assoc,
    and_comm]

theorem measured_of_latest (latest : LatestMove calls new old questions p) :
    new.Measured old p := by
  obtain ⟨ask, q, updated, rfl⟩ := latest
  have moved := measured_of_update updated
  obtain ⟨-, same⟩ | ⟨-, o, same⟩ := asked (p := q) ask
  · rw [same]
    exact moved
  · rw [same]
    exact ⟨moved.step, moved.relativeStep, moved.change, moved.relativeChange, moved.gradient,
      moved.increased, moved.point, moved.value, moved.slope⟩

end ObjectiveReading

end

/-! ## A residual that doubles -/

section
open Wide

/-- A real point and a real residual. -/
noncomputable def reading (x y : ℝ) : SystemReading Wide :=
  ⟨.ofVec (reals ![x]).toArray, .ofVec (reals ![y]).toArray⟩

/-- The standard options, but the residual must not grow. -/
noncomputable def strict : Options Wide := { Options.standard with allowIncrease := false }

theorem norm_reading (x y : ℝ) : (reading x y).residual.norm = real |y| := by
  rw [reading, Shaped.norm, Shaped.flat_ofVec, norm_toArray_reals]
  simp [Real.sqrt_mul_self_eq_abs]

theorem reading_moves (x x' y y' : ℝ) (q : ResidualProgress Wide) :
    ∃ p, (Measures.update (reading x y) (reading x' y')).outcome q = (.ok ⟨⟩, p) := by
  simp only [Measures.update, ResidualProgress.update, reading, sub?_reals, fit, Edit.outcome_bind,
    Edit.outcome_modify, Edit.outcome_pure, Edit.andThen_ok]
  exact ⟨_, rfl⟩

/-- Infinite thresholds are not passed. -/
theorem not_breaks_reading (x y : ℝ) (p : ResidualProgress Wide) :
    ¬ (reading x y).Breaks strict p := by
  simp [SystemReading.Breaks, strict, Options.standard, reading, Shaped.hasNaN, hasNaN_reals,
    Options.not_inf_lt]

/-- From a residual of one to one of two, with a question after it. -/
theorem exists_latest (question : Call (SystemReading Wide) Wide) (ask : question.asks = true) :
    ∃ p, LatestMove [.start (reading 0 1)] (reading 1 2) (reading 0 1) [question] p := by
  obtain ⟨q, moved⟩ := reading_moves 1 0 2 1 (measured [.start (reading 0 1)])
  exact ⟨_, by simpa using ask, q, moved, rfl⟩

end

/-! ## The guard -/

/-- Whatever calls came before a move and whatever was asked after it, the measures are those of the
move.  The guard for an objective goes by them alone.  The one for a residual does so if something
was assessed since the move; otherwise the growth that it goes by is not that of the move but the
one of the last assessment before it. -/
theorem isDiverged_after_latest_move {α : Type} [Extended α] :
    (∀ calls questions (new old : SystemReading α) (p : ResidualProgress α),
      LatestMove calls new old questions p →
        new.Measured old p ∧
        (questions.any Call.assesses = true → ∀ o : Options α, p.isDiverged o = true ↔
          o.allowIncrease = false ∧ old.residual.norm < new.residual.norm ∨ new.Breaks o p) ∧
        (questions.any Call.assesses = false → ∀ o : Options α, p.isDiverged o = true ↔
          o.allowIncrease = false ∧ Flagged calls ∨ new.Breaks o p)) ∧
    ∀ calls questions (new old : ObjectiveReading α) (p : ObjectiveProgress α),
      LatestMove calls new old questions p →
        new.Measured old p ∧ ∀ o : Options α, p.isDiverged o = true ↔
          o.allowIncrease = false ∧ old.value < new.value ∨ new.Breaks o p := by
  constructor
  · intro calls questions new old p latest
    obtain ⟨moved, assessed, silent⟩ := SystemReading.measured_of_latest latest
    refine ⟨moved, fun some o => ?_, fun none o => ?_⟩
    · rw [moved.isDiverged_iff, assessed some]
    · rw [moved.isDiverged_iff, silent none]
  · intro calls questions new old p latest
    have moved := ObjectiveReading.measured_of_latest latest
    exact ⟨moved, moved.isDiverged_iff⟩

section
open Wide

theorem isDiverged_after_verdict :
    ∃ p, LatestMove [.start (reading 0 1)] (reading 1 2) (reading 0 1) [.verdict strict] p ∧
      p.isDiverged strict = true := by
  obtain ⟨p, latest⟩ := exists_latest (.verdict strict) rfl
  obtain ⟨-, assessed, -⟩ := isDiverged_after_latest_move.1 _ _ _ _ p latest
  refine ⟨p, latest, (assessed rfl strict).2 (.inl ⟨rfl, ?_⟩)⟩
  rw [norm_reading, norm_reading, real_lt]
  norm_num

/-- Without an assessment the growth of the residual from one to two goes unnoticed. -/
theorem isDiverged_misses_growth :
    ∃ p, LatestMove [.start (reading 0 1)] (reading 1 2) (reading 0 1) [.isDiverged strict] p ∧
      strict.allowIncrease = false ∧
      (reading 0 1).residual.norm < (reading 1 2).residual.norm ∧
      p.isDiverged strict = false := by
  obtain ⟨p, latest⟩ := exists_latest (.isDiverged strict) rfl
  obtain ⟨moved, -, silent⟩ := SystemReading.measured_of_latest latest
  have unflagged : ¬ p.residualIncreased = true := by
    rw [silent rfl, ← residualIncreased_iff]
    exact Bool.false_ne_true
  refine ⟨p, latest, rfl, ?_, ?_⟩
  · rw [norm_reading, norm_reading, real_lt]
    norm_num
  · rw [Bool.eq_false_iff, Ne, moved.isDiverged_iff]
    rintro (⟨-, flagged⟩ | breaks)
    · exact unflagged flagged
    · exact not_breaks_reading 1 2 p breaks

end

end Descent.Stopping
