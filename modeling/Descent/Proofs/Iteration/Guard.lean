/-
# Descent.Proofs.Iteration.Guard — what the guards of a run let pass

A driver measures a new iterate against the present one and writes it into the cache
only if no guard fires.  `Iterate.Guarded` says in terms of the iterates themselves what
this means: an iterate that is `Admitted` has no undefined part, its measures do not pass
a break threshold, and it has not grown where it must not.

`Method.Commits` are the iterates that a run writes into its cache, also those in an
iteration that fails afterwards.  If a method is `Method.Steady` a new iterate replaces
the present one as a whole, so that what was measured is what is written, and every
commit is admitted after the one before it (`Commits.guarded`).
-/
import Descent.Proofs.Iteration.Alike
import Descent.Proofs.Iteration.Coherence

namespace Descent
set_option autoImplicit false

/-! ## Admitted iterates -/

/-- Iterates for which the guards against divergence have a meaning of their own. -/
class Iterate.Guarded (ι : Type) (π α : outParam Type) [Extended α] [Iterate ι π α]
    [Iterate.Judged ι π α] where
  /-- The measures belong to a run from a first iterate. -/
  Since : (first : ι) → π → Prop
  /-- An iterate may come after another one in a run from a first one. -/
  Admitted : Options α → (first old new : ι) → Prop
  since_start (first : ι) : Since first (Iterate.start first)
  since_update {o : Options α} {first new old : ι} {p p' : π} :
    (Iterate.update new old : Edit α π Unit).outcome p = (.ok ⟨⟩, p') → Since first p →
      Since first (Iterate.assess (ι := ι) o p')
  admitted {o : Options α} {first new old : ι} {p p' : π} :
    (Iterate.update new old : Edit α π Unit).outcome p = (.ok ⟨⟩, p') → Since first p →
      Iterate.Judged.isDiverged ι o (Iterate.assess (ι := ι) o p') = false →
        Admitted o first old new

section
variable {α : Type} [Extended α]

/-- A move from `x'` to `x` does not pass the break thresholds on the step. -/
def Options.Allows (o : Options α) (x' x : Vec α) : Prop :=
  ∃ dx, (Shaped.ofVec x).sub? (.ofVec x') = some dx ∧ ¬ o.stepBreak < dx.norm ∧
    ¬ o.relativeStepBreak < ratio dx.norm x.norm

/-- A point with a residual may come after another one in a run from a first one. -/
structure SystemPoint.Admitted (o : Options α) (first old new : SystemPoint α) : Prop where
  point : new.x.hasNaN = false
  residual : new.y.hasNaN = false
  step : o.Allows old.x new.x
  size : ¬ o.valueBreak < new.y.norm
  relativeSize : ¬ o.relativeValueBreak < ratio new.y.norm first.y.norm
  grows : o.allowIncrease = false → ¬ old.y.norm < new.y.norm

instance : Iterate.Guarded (SystemPoint α) (ResidualProgress α) α where
  Since first p := p.firstResidual = first.y.norm
  Admitted := SystemPoint.Admitted
  since_start _ := rfl
  since_update {o first new old p p'} updated since := by
    have kept : Edit.Keeps (α := α) (Edit.Unchanged ResidualProgress.firstResidual) (fun _ => True)
        (Iterate.update new old) := by
      simp only [Iterate.update, ResidualProgress.update]
      exact .bind (.change fun _ => rfl) fun _ => .bind (.fit trivial) fun _ =>
        .bind (.change fun _ => rfl) fun _ => .bind (.fit trivial) fun _ => .change fun _ => rfl
    exact (kept.preserves updated).trans since
  admitted {o first new old p p'} updated since unfired := by
    simp only [Iterate.update, ResidualProgress.update, Edit.outcome_bind_ok,
      Edit.outcome_fit_ok] at updated
    obtain ⟨⟨⟩, _, ⟨⟩, dx, _, ⟨moved, rfl⟩, ⟨⟩, _, ⟨⟩, dy, _, ⟨-, rfl⟩, ⟨⟩⟩ := updated
    simp only [Iterate.Judged.isDiverged, Iterate.assess, ResidualProgress.isDiverged,
      ResidualProgress.assess, since, Bool.or_eq_false_iff, Bool.and_eq_false_iff,
      decide_eq_false_iff_not, Bool.not_eq_false', Shaped.norm_ofVec, Shaped.hasNaN_ofVec]
      at unfired
    obtain ⟨⟨⟨⟨⟨⟨grows, step⟩, relativeStep⟩, size⟩, relativeSize⟩, point⟩, residual⟩ := unfired
    exact ⟨point, residual, ⟨dx, moved, step, relativeStep⟩, size, relativeSize, fun bounded =>
      grows.resolve_right (by simp [bounded])⟩

/-- A point with a value and a gradient may come after another one. -/
structure ObjectivePoint.Admitted (o : Options α) (old new : ObjectivePoint α) : Prop where
  point : new.x.hasNaN = false
  value : Scalar.isNaN new.f = false
  gradient : new.g.hasNaN = false
  step : o.Allows old.x new.x
  change : ¬ o.valueBreak < Scalar.abs (new.f - old.f)
  relativeChange : ¬ o.relativeValueBreak < ratio (Scalar.abs (new.f - old.f)) (Scalar.abs new.f)
  length : ¬ o.gradientBreak < new.g.norm
  grows : o.allowIncrease = false → ¬ old.f < new.f

instance : Iterate.Guarded (ObjectivePoint α) (ObjectiveProgress α) α where
  Since _ _ := True
  Admitted o _ := ObjectivePoint.Admitted o
  since_start _ := trivial
  since_update _ _ := trivial
  admitted {o first new old p p'} updated _ unfired := by
    simp only [Iterate.update, ObjectiveProgress.update, Edit.outcome_bind_ok, Edit.outcome_fit_ok,
      Edit.outcome_ofExcept, Prod.mk.injEq] at updated
    obtain ⟨⟨⟩, _, ⟨-, rfl⟩, dx, _, ⟨moved, rfl⟩, ⟨⟩, _, ⟨-, rfl⟩, dg, _, ⟨-, rfl⟩, ⟨⟩, _, ⟨-, rfl⟩,
      slope, _, ⟨-, rfl⟩, -, rfl⟩ := updated
    simp only [Iterate.Judged.isDiverged, Iterate.assess, ObjectiveProgress.isDiverged,
      ObjectiveProgress.assess, Bool.or_eq_false_iff, Bool.and_eq_false_iff,
      decide_eq_false_iff_not, Bool.not_eq_false', Shaped.norm_ofVec, Shaped.hasNaN_ofVec]
      at unfired
    obtain ⟨⟨⟨⟨⟨⟨⟨⟨grows, step⟩, relativeStep⟩, change⟩, relativeChange⟩, length⟩, point⟩, value⟩,
      gradient⟩ := unfired
    exact ⟨point, value, gradient, ⟨dx, moved, step, relativeStep⟩, change, relativeChange, length,
      fun bounded => grows.resolve_right (by simp [bounded])⟩

end

/-! ## Commits -/

namespace Method

variable {ι π μ ω α : Type} [Extended α] [Iterate ι π α]

/-- The iterates that a run writes into its cache, the first one before it is in session `h`. -/
inductive Commits (M : Method ι π μ ω α) (h : Drive.State ι π μ ω α) : Nat → ι → Prop
  | start : Commits M h 0 h.driver.current.now
  | next {k : Nat} {s t : Drive.State ι π μ ω α} {new : ι} {phase : Phase} :
      M.After h k .running s → M.propose.outcome s = (.ok (new, phase), t) → phase ≠ .diverged →
        Commits M h (k + 1)
          ((Drive.onCache (Cache.commit new)).outcome t).2.driver.current.now

/-- The iterate is what the method made of its point. -/
def Evaluates (M : Method ι π μ ω α) (p : ι) : Prop :=
  ∃ s t, (M.evaluate (Iterate.point p)).outcome s = (.ok p, t)

/-- A method whose iterates replace one another as a whole. -/
structure Steady (M : Method ι π μ ω α) : Prop where
  own : M.Private
  keeps : M.Keeps Drive.SameIterates fun _ => True
  point : ∀ x s p t, (M.evaluate x).outcome s = (.ok p, t) → Iterate.point p = x
  /-- Iterates of one size are alike. -/
  overwrites : ∀ p p', M.Evaluates p → M.Evaluates p' →
    (Iterate.point p').size = (Iterate.point p).size →
      (Iterate.overwrite p').outcome p = (.ok ⟨⟩, p')
  /-- A step keeps the size. -/
  stays : ∀ s t c z, s.driver.cache = some c → c.direction.size = (Iterate.point c.now).size →
    M.step.outcome s = (.ok z, t) → z.size = (Iterate.point c.now).size

variable {M : Method ι π μ ω α} {s h t u : Drive.State ι π μ ω α} {j k n : Nat} {phase : Phase}
  {new p q : ι} {x : Vec α} {trace : List (Vec α)}

/-- There is one commit for each number of iterations. -/
theorem Commits.unique (first : M.Commits h k p) (second : M.Commits h k q) : p = q := by
  cases first with
  | start =>
    cases second
    rfl
  | next before proposed _ =>
    cases second with
    | next before' proposed' _ =>
      obtain rfl := (before.unique before').2
      rw [proposed] at proposed'
      cases proposed'
      rfl

variable [Iterate.Judged ι π α] [Iterate.Guarded ι π α]

/-- The cache holds commit `k` of a run in which iterates have size `n`. -/
def Stands (M : Method ι π μ ω α) (h : Drive.State ι π μ ω α) (n k : Nat)
    (t : Drive.State ι π μ ω α) : Prop :=
  Iterate.Guarded.Since h.driver.current.now t.driver.progress ∧
    ∃ c, t.driver.cache = some c ∧ M.Commits h k c.now ∧ M.Evaluates c.now ∧
      (Iterate.point c.now).size = n ∧ c.direction.size = n

theorem Stands.of_sameIterates (stands : M.Stands h n k t) (same : Drive.SameIterates t u)
    (measures : u.driver.progress = t.driver.progress) : M.Stands h n k u := by
  obtain ⟨since, c, here, committed, evaluates, size, direction⟩ := stands
  obtain ⟨d, there, now, -, direction'⟩ := same c here
  refine ⟨measures ▸ since, d, there, ?_⟩
  rw [now]
  exact ⟨committed, evaluates, size, direction'.trans direction⟩

theorem Stands.now (stands : M.Stands h n k t) : M.Commits h k t.driver.current.now := by
  obtain ⟨-, c, here, committed, -⟩ := stands
  rwa [Drive.current, here, Option.getD_some]

/-- A proposal that does not diverge is written as it is, and it is admitted. -/
theorem Steady.commits (steady : M.Steady) (before : M.After h k .running t)
    (stands : M.Stands h n k t) (proposed : M.propose.outcome t = (.ok (new, phase), u))
    (valid : phase ≠ .diverged) : ∃ v old, (Drive.onCache (Cache.commit new)).outcome u = (.ok ⟨⟩, v) ∧
      v.driver.current.now = new ∧ M.Stands h n (k + 1) v ∧ M.Commits h k old ∧
        Iterate.Guarded.Admitted M.options h.driver.current.now old new := by
  have committed := Commits.next before proposed valid
  simp only [propose, Edit.outcome_bind_ok] at proposed
  obtain ⟨z, v, stepped, _, w, evaluated, _, _, judged, returned⟩ := proposed
  cases returned
  obtain ⟨since, c, here, current, evaluates, size, direction⟩ := stands
  obtain ⟨d, there, now, -, direction'⟩ := trans_of Drive.SameIterates
    (steady.keeps.step.related stepped) ((steady.keeps.evaluate z).related evaluated) c here
  have measures : w.driver.progress = t.driver.progress :=
    ((steady.own.evaluate z).preserves evaluated).trans (steady.own.step.preserves stepped)
  obtain ⟨p, updated, assessed, cached, verdict⟩ := judge_ok judged
  rw [measures] at updated
  have point : Iterate.point new = z := steady.point z v new w evaluated
  have evaluates' : M.Evaluates new := ⟨v, w, by rw [point, evaluated]⟩
  have size' : (Iterate.point new).size = n := by
    rw [point, ← size]
    exact steady.stays t v c z here (direction.trans size.symm) stepped
  have written : (Iterate.overwrite new).outcome d.now = (.ok ⟨⟩, new) := by
    rw [now]
    exact steady.overwrites c.now new evaluates evaluates' (size'.trans size.symm)
  have old : w.driver.current.now = c.now := by rw [Drive.current, there, Option.getD_some, now]
  have moved := outcome_commit (cached.trans there) written
  rw [moved] at committed
  refine ⟨_, c.now, moved, rfl, ⟨?_, _, rfl, committed, evaluates', size', direction'.trans direction⟩,
    current, ?_⟩
  · rw [old] at updated
    have since' := Iterate.Guarded.since_update (o := M.options) updated since
    rwa [← assessed] at since'
  · rw [old] at updated
    refine Iterate.Guarded.admitted updated since ?_
    rw [← assessed, ← Bool.not_eq_true]
    intro fires
    rw [Iterate.Judged.verdict_eq] at verdict
    exact valid (verdict.trans (verdictOf_diverged.2 fires))

omit [Iterate.Judged ι π α] [Iterate.Guarded ι π α] in
theorem keeps_propose (keeps : M.Keeps Drive.SameIterates fun _ => True) :
    Edit.Keeps Drive.SameIterates (fun _ => True) M.propose := by
  have judges (new : ι) : Edit.Keeps Drive.SameIterates (fun _ => True) (M.judge new) :=
    { state := fun s => by
        rw [outcome_judge]
        split <;> exact .of_cache rfl
      fault := fun _ _ _ => trivial }
  exact .bind keeps.step fun x => .bind (keeps.evaluate x) fun new => .bind (judges new) fun _ =>
    .pure _

theorem Steady.stands_of_entered (steady : M.Steady)
    (entered : (M.enter x).outcome s = (.ok trace, h)) :
    M.Stands h x.size 0 h ∧ M.Evaluates h.driver.current.now ∧ h.point = x := by
  obtain ⟨t, u, placing, prepared, rfl, -⟩ := enter_ok.1 entered
  obtain ⟨-, first, v, evaluated, rfl⟩ := place_ok.1 placing
  have point := steady.point x _ first v evaluated
  have evaluates : M.Evaluates first := ⟨_, v, by rw [point, evaluated]⟩
  obtain ⟨d, there, now, -, direction⟩ :=
    steady.keeps.prepare.related prepared (Cache.start first) rfl
  have measures := steady.own.prepare.preserves prepared
  have current : u.driver.current.now = first := by rw [Drive.current, there, Option.getD_some, now]; rfl
  refine ⟨⟨?_, d, there, ?_, ?_, ?_, ?_⟩, ?_, ?_⟩
  · change Iterate.Guarded.Since u.driver.current.now u.driver.progress
    rw [current, measures]
    exact Iterate.Guarded.since_start first
  · have committed : M.Commits
        { u with driver := { u.driver with phase := .running } } 0 u.driver.current.now := .start
    rwa [Drive.current, there, Option.getD_some] at committed
  · rwa [now]
  · rw [now, ← point]
    rfl
  · rw [direction, ← point]
    simp [Cache.start, Vec.zeros]
  · change M.Evaluates u.driver.current.now
    rwa [current]
  · change Iterate.point u.driver.current.now = x
    rw [current, point]

/-- At the head of every iteration the cache holds the last commit. -/
theorem After.stands (steady : M.Steady) (start : M.Stands h n 0 h) (after : M.After h k phase t) :
    M.Stands h n k t := by
  induction after with
  | none => exact start
  | one before advanced ih =>
    obtain ⟨new, u, proposed, valid, accepted⟩ := advance_ok.1 advanced
    obtain ⟨v, _, moved, -, stands, -, -⟩ := steady.commits before ih proposed valid
    obtain ⟨⟨⟩, v', moved', learned⟩ := Edit.outcome_bind_ok.1 accepted
    rw [moved] at moved'
    cases moved'
    exact stands.of_sameIterates (steady.keeps.learn.related learned)
      (steady.own.learn.preserves learned)

/-- Where an iteration fails the cache holds a commit. -/
theorem Steady.commits_of_failed {e : Fault α} (steady : M.Steady)
    (before : M.After h k .running t) (stands : M.Stands h n k t)
    (failed : M.advance.outcome t = (.error e, u)) : ∃ j, M.Commits h j u.driver.current.now := by
  have stays {v : Drive.State ι π μ ω α} {r : Except (Fault α) (ι × Phase)}
      (proposed : M.propose.outcome t = (r, v)) : M.Commits h k v.driver.current.now := by
    obtain ⟨-, c, here, committed, -⟩ := stands
    obtain ⟨d, there, now, -⟩ := (keeps_propose steady.keeps).related proposed c here
    rwa [Drive.current, there, Option.getD_some, now]
  rcases advance_error failed with proposing | ⟨_, proposed, -⟩ | ⟨new, phase, v, proposed, valid, accepting⟩
  · exact ⟨k, stays proposing⟩
  · exact ⟨k, stays proposed⟩
  · obtain ⟨w, _, moved, -, stands', -⟩ := steady.commits before stands proposed valid
    rw [accept, Edit.outcome_bind, moved, Edit.andThen_ok] at accepting
    exact ⟨k + 1, (stands'.of_sameIterates (steady.keeps.learn.related accepting)
      (steady.own.learn.preserves accepting)).now⟩

/-- What a call of `solve` from `x` in session `s` commits, whether it returns or fails. -/
structure Careful (M : Method ι π μ ω α) (x : Vec α) (s : Drive.State ι π μ ω α) : Prop where
  started : ∀ trace h, (M.enter x).outcome (marked true s) = (.ok trace, h) →
    M.Evaluates h.driver.current.now ∧ h.point = x
  committed : ∀ trace h k new, (M.enter x).outcome (marked true s) = (.ok trace, h) →
    M.Commits h (k + 1) new → M.Evaluates new ∧ ∃ old, M.Commits h k old ∧
      Iterate.Guarded.Admitted M.options h.driver.current.now old new
  /-- The cache never holds anything else. -/
  heads : ∀ trace h k phase t, (M.enter x).outcome (marked true s) = (.ok trace, h) →
    M.After h k phase t → M.Commits h k t.driver.current.now
  returned : ∀ out t, (M.solve x).outcome s = (.ok out, t) → ∃ trace h k,
    (M.enter x).outcome (marked true s) = (.ok trace, h) ∧ out.iterations = k + 1 ∧
      M.Commits h (k + 1) out.last
  failed : ∀ trace h e t, (M.enter x).outcome (marked true s) = (.ok trace, h) →
    (M.solve x).outcome s = (.error e, t) → ∃ k, M.Commits h k t.driver.current.now

/-- The first iterate has whatever passes from an iterate to every one that may come after it, and
then the iterate that a run shows has it as well. -/
theorem Careful.induction {P : ι → Prop} {out : Outcome ι α} (careful : M.Careful x s)
    (returned : (M.solve x).outcome s = (.ok out, t)) {trace : List (Vec α)}
    (entered : (M.enter x).outcome (marked true s) = (.ok trace, h))
    (start : P h.driver.current.now) (next : ∀ old new, P old →
      Iterate.Guarded.Admitted M.options h.driver.current.now old new → P new) : P out.last := by
  have commits (k : Nat) (p : ι) (committed : M.Commits h k p) : P p := by
    induction k generalizing p with
    | zero =>
      cases committed
      exact start
    | succ k ih =>
      obtain ⟨-, old, before, admitted⟩ := careful.committed trace h k p entered committed
      exact next old p (ih old before) admitted
  obtain ⟨_, _, k, entered', -, committed⟩ := careful.returned out t returned
  rw [entered] at entered'
  cases entered'
  exact commits _ _ committed

/-- A steady method commits nothing but admitted iterates. -/
theorem Steady.careful (steady : M.Steady) (room : 1 ≤ M.options.maxIterations)
    (idle : s.driver.running = false) : M.Careful x s := by
  have stands {trace : List (Vec α)} {h t : Drive.State ι π μ ω α} {k : Nat} {phase : Phase}
      (entered : (M.enter x).outcome (marked true s) = (.ok trace, h)) (after : M.After h k phase t) :
      M.Stands h x.size k t := after.stands steady (steady.stands_of_entered entered).1
  refine
    { started := fun trace h entered => (steady.stands_of_entered entered).2
      committed := fun trace h k new entered committed => ?_
      heads := fun trace h k phase t entered after => (stands entered after).now
      returned := fun out t returned => ?_
      failed := fun trace h e t entered failed => ?_ }
  · cases committed with
    | next before proposed valid =>
      obtain ⟨v, old, moved, now, ⟨-, c, here, -, evaluates, -⟩, current, admitted⟩ :=
        steady.commits before (stands entered before) proposed valid
      rw [moved, now]
      rw [Drive.current, here, Option.getD_some] at now
      exact ⟨now ▸ evaluates, old, current, admitted⟩
  · rw [outcome_solve x idle] at returned
    obtain ⟨ran, rfl⟩ := Prod.mk.inj returned
    obtain ⟨trace, h, k, phase, t, entered, after, -, full, -, last, count, -⟩ :=
      run_returned (Prod.ext ran rfl)
    have zero := enter_counts steady.own entered
    have stopped := stopped_of_full steady.own zero room after full
    obtain rfl : out.iterations = k := count.trans (after.judged steady.own zero).1
    have committed := (stands entered after).now
    rw [← last] at committed
    cases count' : out.iterations with
    | zero =>
      rw [count'] at after
      cases after
      exact absurd rfl stopped
    | succ k => exact ⟨trace, h, k, entered, rfl, count' ▸ committed⟩
  · rw [outcome_solve x idle] at failed
    obtain ⟨ran, rfl⟩ := Prod.mk.inj failed
    rcases run_failed (Prod.ext ran rfl) with entering | ⟨_, h', k, t, entered', before, failing⟩
    · rw [entered] at entering
      cases entering
    · rw [entered] at entered'
      cases entered'
      obtain ⟨j, committed⟩ := steady.commits_of_failed before (stands entered before) failing
      exact ⟨j, committed⟩

end Method

end Descent
