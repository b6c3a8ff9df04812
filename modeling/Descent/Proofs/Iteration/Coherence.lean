/-
# Descent.Proofs.Iteration.Coherence — the cache holds the last two iterates

`Method.Visits` is the sequence of points that a run moves to: the start, and
whatever point a step returned that did not diverge.  It is told without the cache.
`Method.Coherent k` says of the cache that it holds iterate `k` and the one before
it, each with its own values; at `k = 0` the start stands for both.

A method is `Method.Sound` if its points are evaluated to the same values in every
session, if a step keeps their size, and if nothing but the driver writes the
iterates and the measures.  Its cache is coherent at the head of every iteration
(`After.coherent`), when a run returns and when it fails (`Sound.faithful`): a step
or an evaluation that fails has not written the iterates, a diverging iterate is not
written, and one that is written fits, so that no half of it can be missing.
-/
import Descent.Proofs.Iteration.Finish
import Descent.Proofs.Iteration.Frame

namespace Descent
set_option autoImplicit false

variable {ι π μ ω α : Type} [Extended α] [Iterate ι π α]

namespace Method

/-- The points that a run from `x` in session `s` moves to. -/
inductive Visits (M : Method ι π μ ω α) (x : Vec α) (s : Drive.State ι π μ ω α) : Nat → Vec α → Prop
  | start {t : Drive.State ι π μ ω α} : (M.place x).outcome s = (.ok ⟨⟩, t) → Visits M x s 0 x
  | next {trace : List (Vec α)} {h t u v : Drive.State ι π μ ω α} {k : Nat} {z : Vec α} {new : ι}
      {phase : Phase} : (M.enter x).outcome s = (.ok trace, h) → M.After h k .running t →
      M.step.outcome t = (.ok z, u) → M.propose.outcome t = (.ok (new, phase), v) →
      phase ≠ .diverged → Visits M x s (k + 1) z

/-- A cache holds iterate `k`, which is `z`, and the one before it, `z'`. -/
structure Holds (M : Method ι π μ ω α) (V : Vec α → Except (Fault α) ι) (x : Vec α)
    (s : Drive.State ι π μ ω α) (k : Nat) (z z' : Vec α) (c : Cache ι α) : Prop where
  visited : M.Visits x s k z
  visitedBefore : M.Visits x s (k - 1) z'
  point : Iterate.point c.now = z
  pointBefore : Iterate.point c.before = z'
  value : V z = .ok c.now
  valueBefore : V z' = .ok c.before
  /-- All iterates have the size of the start, and so has the direction. -/
  size : z.size = x.size
  direction : c.direction.size = x.size

/-- The cache of a session holds iterate `k` and the one before it, each with its values. -/
def Coherent (M : Method ι π μ ω α) (V : Vec α → Except (Fault α) ι) (x : Vec α)
    (s : Drive.State ι π μ ω α) (k : Nat) (t : Drive.State ι π μ ω α) : Prop :=
  ∃ z z' c, t.driver.cache = some c ∧ M.Holds V x s k z z' c

/-- What a method has to be like for its cache to be coherent: `V` are the values of points, `P` the
faults that are not verdicts of the driver. -/
structure Sound (M : Method ι π μ ω α) (V : Vec α → Except (Fault α) ι) (P : Fault α → Prop) :
    Prop where
  own : M.Private
  keeps : M.Keeps Drive.SameIterates P
  evaluates : ∀ x s, ((M.evaluate x).outcome s).1 = V x
  point : ∀ x p, V x = .ok p → Iterate.point p = x
  /-- Iterates of one size are alike. -/
  overwrites : ∀ x x' p p', x'.size = x.size → V x = .ok p → V x' = .ok p' →
    (Iterate.overwrite p').outcome p = (.ok ⟨⟩, p')
  measures : ∀ (new old : ι) p, Fault.Only P ((Iterate.update new old).outcome p).1
  /-- A step keeps the size. -/
  stays : ∀ s t c z, s.driver.cache = some c → c.direction.size = (Iterate.point c.now).size →
    M.step.outcome s = (.ok z, t) → z.size = (Iterate.point c.now).size

variable {M : Method ι π μ ω α} {V : Vec α → Except (Fault α) ι} {P : Fault α → Prop}
  {x z z' : Vec α} {s h t u : Drive.State ι π μ ω α} {j k : Nat} {phase : Phase} {new : ι} {c : Cache ι α}
  {trace : List (Vec α)} {e : Fault α}

/-- There is one point for each number of iterations. -/
theorem Visits.unique (first : M.Visits x s k z) (second : M.Visits x s k z') : z = z' := by
  cases first with
  | start _ =>
    cases second
    rfl
  | next entered before stepped _ _ =>
    cases second with
    | next entered' before' stepped' _ _ =>
      rw [entered] at entered'
      cases entered'
      obtain rfl := (before.unique before').2
      rw [stepped] at stepped'
      cases stepped'
      rfl

/-! ## What a proposal leaves -/

theorem Holds.of_sameIterates {d : Cache ι α}
    (holds : M.Holds V x s k z z' c) (now : d.now = c.now) (before : d.before = c.before)
    (direction : d.direction.size = c.direction.size) : M.Holds V x s k z z' d where
  visited := holds.visited
  visitedBefore := holds.visitedBefore
  point := by rw [now, holds.point]
  pointBefore := by rw [before, holds.pointBefore]
  value := by rw [now, holds.value]
  valueBefore := by rw [before, holds.valueBefore]
  size := holds.size
  direction := direction.trans holds.direction

theorem Coherent.of_sameIterates (coherent : M.Coherent V x s k t)
    (same : Drive.SameIterates t u) : M.Coherent V x s k u := by
  obtain ⟨z, z', c, here, holds⟩ := coherent
  obtain ⟨d, there, now, before, direction⟩ := same c here
  exact ⟨z, z', d, there, holds.of_sameIterates now before direction⟩

theorem Sound.keeps_judge (sound : M.Sound V P) (new : ι) :
    Edit.Keeps Drive.SameIterates P (M.judge new) := by
  refine .bind Drive.keeps_now fun old => ?_
  have updates : Edit.Keeps Drive.SameIterates P (Act.edit (fun d : Drive ι π μ α => d.progress)
      (fun progress d => { d with progress }) (Iterate.update new old) :
        Drive.Action ι π μ ω α Unit) :=
    { state := fun s => .of_cache rfl
      fault := fun s => sound.measures new old s.driver.progress }
  refine .bind updates fun _ => .bind Drive.keeps_driver fun d => ?_
  exact .bind (.change fun s => .of_cache rfl) fun _ => .pure _

theorem Sound.keeps_propose (sound : M.Sound V P) : Edit.Keeps Drive.SameIterates P M.propose :=
  .bind sound.keeps.step fun x => .bind (sound.keeps.evaluate x) fun new =>
    .bind (sound.keeps_judge new) fun _ => .pure _

/-- A proposal is the point that the step returns, with its values. -/
theorem Sound.proposed (sound : M.Sound V P)
    (proposed : M.propose.outcome s = (.ok (new, phase), t)) :
    ∃ z u, M.step.outcome s = (.ok z, u) ∧ V z = .ok new := by
  simp only [propose, Edit.outcome_bind_ok] at proposed
  obtain ⟨z, u, stepped, new', v, evaluated, phase', w, -, returned⟩ := proposed
  cases returned
  refine ⟨z, u, stepped, ?_⟩
  rw [← sound.evaluates z u, evaluated]

/-- A point keeps its size when a direction that was written into the cache is added to it, whatever
the direction was multiplied by. -/
theorem size_of_moved {d y : Vec α} {s' : Drive.State ι π μ ω α} (here : s.driver.cache = some c)
    (same : Drive.SameIterates s s') (fits : c.direction.size = x.size)
    (turned : (Drive.onCache (Cache.turn d)).outcome s' = (.ok ⟨⟩, t)) (alike : y.size = d.size)
    (added : Vec.add? x y = some z) : z.size = x.size := by
  obtain ⟨c', there, -, -, direction⟩ := same c here
  rw [Drive.outcome_turn, Drive.current, there, Option.getD_some] at turned
  refine Vec.size_of_combine? added ?_
  cases written : Vec.assign? c'.direction d with
  | none =>
    rw [written] at turned
    cases turned
  | some _ =>
    rw [alike, ← fits, ← direction]
    exact Vec.size_or_one_of_assign? written

/-! ## Moving on -/

theorem outcome_commit (here : s.driver.cache = some c)
    (written : (Iterate.overwrite new).outcome c.now = (.ok ⟨⟩, new)) :
    (Drive.onCache (Cache.commit new)).outcome s = (.ok ⟨⟩, { s with
      driver := s.driver.setCache { now := new, before := c.now, direction := c.direction } }) := by
  rw [Drive.onCache, Act.outcome_edit, Cache.commit, Edit.outcome_bind, Edit.outcome_modify,
    Edit.andThen_ok, Edit.outcome_focus]
  simp only [Drive.current, here, Option.getD_some, written]

theorem Holds.size_of_step (holds : M.Holds V x s k z z' c) (sound : M.Sound V P)
    (here : t.driver.cache = some c) {w : Vec α} (stepped : M.step.outcome t = (.ok w, u)) :
    w.size = x.size := by
  have kept : w.size = (Iterate.point c.now).size := by
    refine sound.stays t u c w here ?_ stepped
    rw [holds.direction, holds.point, holds.size]
  rw [kept, holds.point, holds.size]

/-- A proposal is written whole, and the present iterate is kept as the one before it. -/
theorem Sound.commit_ok (sound : M.Sound V P) (coherent : M.Coherent V x s k t)
    (proposed : M.propose.outcome t = (.ok (new, phase), u)) :
    ∃ direction : Vec α, direction.size = x.size ∧
      (Drive.onCache (Cache.commit new)).outcome u = (.ok ⟨⟩, { u with
        driver := u.driver.setCache { now := new, before := t.driver.current.now, direction } }) := by
  obtain ⟨z, z', c, here, holds⟩ := coherent
  obtain ⟨d, there, now, -, direction⟩ := sound.keeps_propose.related proposed c here
  obtain ⟨w, t', stepped, value⟩ := sound.proposed proposed
  have size : w.size = z.size := (holds.size_of_step sound here stepped).trans holds.size.symm
  have value' : V z = .ok d.now := by rw [now, holds.value]
  have present : t.driver.current.now = d.now := by rw [Drive.current, here, Option.getD_some, now]
  rw [present]
  exact ⟨d.direction, direction.trans holds.direction,
    outcome_commit there (sound.overwrites z w d.now new size value' value)⟩

/-- A proposal that does not diverge is the next iterate. -/
theorem Sound.commits (sound : M.Sound V P) (entered : (M.enter x).outcome s = (.ok trace, h))
    (before : M.After h k .running t) (coherent : M.Coherent V x s k t)
    (proposed : M.propose.outcome t = (.ok (new, phase), u)) (valid : phase ≠ .diverged) :
    ∃ v, (Drive.onCache (Cache.commit new)).outcome u = (.ok ⟨⟩, v) ∧
      M.Coherent V x s (k + 1) v := by
  obtain ⟨direction, same, written⟩ := sound.commit_ok coherent proposed
  obtain ⟨z, z', c, here, holds⟩ := coherent
  obtain ⟨w, t', stepped, value⟩ := sound.proposed proposed
  have present : t.driver.current.now = c.now := by rw [Drive.current, here, Option.getD_some]
  exact ⟨_, written, w, z, _, rfl,
    { visited := .next entered before stepped proposed valid
      visitedBefore := holds.visited
      point := sound.point w new value
      pointBefore := (congrArg Iterate.point present).trans holds.point
      value
      valueBefore := holds.value.trans (congrArg Except.ok present.symm)
      size := holds.size_of_step sound here stepped
      direction := same }⟩

/-- Once a proposal is written, nothing that comes after it in the iteration undoes that. -/
theorem Sound.accepts (sound : M.Sound V P) (entered : (M.enter x).outcome s = (.ok trace, h))
    (before : M.After h k .running t) (coherent : M.Coherent V x s k t)
    (proposed : M.propose.outcome t = (.ok (new, phase), u)) (valid : phase ≠ .diverged) :
    M.Coherent V x s (k + 1) ((M.accept new).outcome u).2 ∧
      Fault.Only P ((M.accept new).outcome u).1 := by
  obtain ⟨v, moved, coherent'⟩ := sound.commits entered before coherent proposed valid
  rw [accept, Edit.outcome_bind, moved, Edit.andThen_ok]
  exact ⟨coherent'.of_sameIterates (sound.keeps.learn.state v), sound.keeps.learn.fault v⟩

/-! ## The heads of the iterations -/

/-- A start with a value is placed. -/
theorem Sound.places {first : ι} (sound : M.Sound V P) (admitted : M.checkStart x = .ok ⟨⟩)
    (value : V x = .ok first) (s : Drive.State ι π μ ω α) :
    ∃ u, (M.place x).outcome s = (.ok ⟨⟩, placed first x u) := by
  rcases evaluated : (M.evaluate x).outcome { s with count := {} } with ⟨r, u⟩
  obtain rfl : r = .ok first := by
    rw [← value, ← sound.evaluates x { s with count := {} }, evaluated]
  exact ⟨u, place_ok.2 ⟨admitted, first, u, evaluated, rfl⟩⟩

/-- So a run from it gets to its first iteration, if the memory can be prepared. -/
theorem Sound.reaches_head {first : ι} (sound : M.Sound V P) (admitted : M.checkStart x = .ok ⟨⟩)
    (value : V x = .ok first) (prepares : ∀ u, (M.prepare.outcome (placed first x u)).1 = .ok ⟨⟩)
    (s : Drive.State ι π μ ω α) : ∃ trace h, (M.enter x).outcome s = (.ok trace, h) := by
  obtain ⟨u, placing⟩ := sound.places admitted value s
  exact ⟨_, _, enter_ok.2 ⟨_, _, placing, Prod.ext (prepares u) rfl, rfl, rfl⟩⟩

theorem Sound.coherent_of_placed (sound : M.Sound V P)
    (placing : (M.place x).outcome s = (.ok ⟨⟩, t)) : M.Coherent V x s 0 t := by
  obtain ⟨-, first, u, evaluated, rfl⟩ := place_ok.1 placing
  have value : V x = .ok first := by rw [← sound.evaluates x { s with count := {} }, evaluated]
  have point := sound.point x first value
  exact ⟨x, x, Cache.start first, rfl,
    { visited := .start placing
      visitedBefore := .start placing
      point
      pointBefore := point
      value
      valueBefore := value
      size := rfl
      direction := by
        rw [← point]
        simp [Cache.start, Vec.zeros] }⟩

theorem Sound.coherent_of_entered (sound : M.Sound V P)
    (entered : (M.enter x).outcome s = (.ok trace, h)) : M.Coherent V x s 0 h := by
  obtain ⟨t, u, placing, prepared, rfl, -⟩ := enter_ok.1 entered
  have prepares := sound.keeps.prepare.related prepared
  exact ((sound.coherent_of_placed placing).of_sameIterates prepares).of_sameIterates (.of_cache rfl)

/-- The cache is coherent after every iteration. -/
theorem After.coherent (sound : M.Sound V P) (entered : (M.enter x).outcome s = (.ok trace, h))
    (after : M.After h k phase t) : M.Coherent V x s k t := by
  induction after with
  | none => exact sound.coherent_of_entered entered
  | one before advanced ih =>
    obtain ⟨new, u, proposed, valid, accepted⟩ := advance_ok.1 advanced
    have coherent := (sound.accepts entered before ih proposed valid).1
    rwa [accepted] at coherent

/-- The present iterate is the last one that was visited, with its values. -/
theorem Coherent.present (coherent : M.Coherent V x s k t) :
    M.Visits x s k t.point ∧ V t.point = .ok t.driver.current.now ∧ t.point.size = x.size := by
  obtain ⟨z, z', c, here, holds⟩ := coherent
  have now : t.driver.current = c := by rw [Drive.current, here, Option.getD_some]
  have point : t.point = z := by rw [Session.point, now, holds.point]
  rw [point, now]
  exact ⟨holds.visited, holds.value, holds.size⟩

/-! ## The ends of a run -/

/-- The cache holds the last iterate that a run moved to, and the one before it. -/
def Ends (M : Method ι π μ ω α) (V : Vec α → Except (Fault α) ι) (x : Vec α)
    (s : Drive.State ι π μ ω α) (k : Nat) (t : Drive.State ι π μ ω α) : Prop :=
  M.Coherent V x s k t ∧ ∀ j z, M.Visits x s j z → j ≤ k

/-- What the cache holds when `solve` is called from `x` in session `s`. -/
structure Faithful (M : Method ι π μ ω α) (V : Vec α → Except (Fault α) ι) (P : Fault α → Prop)
    (x : Vec α) (s : Drive.State ι π μ ω α) : Prop where
  heads : ∀ trace h k t, (M.enter x).outcome (marked true s) = (.ok trace, h) →
    M.After h k .running t → M.Coherent V x (marked true s) k t
  returned : ∀ out t, (M.solve x).outcome s = (.ok out, t) →
    M.Ends V x (marked true s) out.iterations t ∧ out.last = t.driver.current.now
  /-- Once there is a cache it stays coherent, whatever the fault. A verdict tells the last iterate,
  and the number of the iteration that would have come after it. -/
  failed : ∀ e t u, (M.place x).outcome (marked true s) = (.ok ⟨⟩, u) →
    (M.solve x).outcome s = (.error e, t) → ∃ k, M.Ends V x (marked true s) k t ∧
      (P e ∨ ∃ name p z, e = .diverged name p z ∧ M.Visits x (marked true s) k z ∧
        p.iteration = k + 1)

/-- A run that does not get to its first iteration stays at the start. -/
theorem Visits.of_not_entered (failed : (M.enter x).outcome s = (.error e, u))
    (visited : M.Visits x s j z) : j ≤ 0 := by
  cases visited with
  | start _ => exact Nat.le_refl 0
  | next entered _ _ _ _ =>
    rw [failed] at entered
    cases entered

section
variable (entered : (M.enter x).outcome s = (.ok trace, h)) (visited : M.Visits x s j z)
include entered visited

theorem Visits.le_of_stopped (after : M.After h k phase t) (ended : phase ≠ .running) : j ≤ k := by
  cases visited with
  | start _ => exact Nat.zero_le k
  | next entered' before _ _ _ =>
    rw [entered] at entered'
    cases entered'
    rcases Nat.lt_or_eq_of_le (after.le_of_stopped ended before) with less | rfl
    · exact less
    · exact absurd (after.unique before).1 ended

theorem Visits.le_of_failed (before : M.After h k .running t)
    (failed : M.advance.outcome t = (.error e, u)) : j ≤ k + 1 := by
  cases visited with
  | start _ => exact Nat.zero_le _
  | next entered' before' _ _ _ =>
    rw [entered] at entered'
    cases entered'
    exact Nat.succ_le_succ (before'.le_of_failed before failed)

/-- A run that has no valid proposal does not move on. -/
theorem Visits.le_of_stuck (before : M.After h k .running t)
    (failed : M.advance.outcome t = (.error e, u))
    (stuck : ∀ new phase v, M.propose.outcome t = (.ok (new, phase), v) → phase = .diverged) :
    j ≤ k := by
  rcases Nat.lt_or_eq_of_le (visited.le_of_failed entered before failed) with less | rfl
  · exact Nat.lt_succ_iff.1 less
  · cases visited with
    | next entered' before' _ proposed valid =>
      rw [entered] at entered'
      cases entered'
      obtain rfl := (before.unique before').2
      exact absurd (stuck _ _ _ proposed) valid

end

/-- Where the preparation of a run fails the cache holds the start. -/
theorem Sound.ends_of_not_entered (sound : M.Sound V P)
    (placing : (M.place x).outcome s = (.ok ⟨⟩, t))
    (failed : (M.enter x).outcome s = (.error e, u)) :
    M.Ends V x s 0 u ∧ P e := by
  have ran := failed
  rw [enter, Edit.outcome_bind, placing, Edit.andThen_ok, Edit.outcome_bind] at ran
  rcases prepared : M.prepare.outcome t with ⟨e' | ⟨⟩, v⟩ <;> rw [prepared] at ran
  · cases ran
    refine ⟨⟨?_, fun j z visited => visited.of_not_entered failed⟩,
      sound.keeps.prepare.kind prepared⟩
    exact (sound.coherent_of_placed placing).of_sameIterates (sound.keeps.prepare.related prepared)
  · rw [Edit.andThen_ok, Edit.outcome_bind, outcome_extend] at ran
    cases ran

variable [Iterate.Judged ι π α]

/-- Where an iteration fails the cache holds the last iterate, which is the next one only if it had
been written. -/
theorem Sound.ends_of_failed (sound : M.Sound V P) (entered : (M.enter x).outcome s = (.ok trace, h))
    (before : M.After h k .running t) (failed : M.advance.outcome t = (.error e, u)) :
    ∃ k, M.Ends V x s k u ∧ (P e ∨ ∃ name p z, e = .diverged name p z ∧ M.Visits x s k z ∧
      p.iteration = k + 1) := by
  have coherent := before.coherent sound entered
  rcases advance_error failed with
    proposing | ⟨new, proposed, rfl⟩ | ⟨new, phase, v, proposed, valid, accepting⟩
  · refine ⟨k, ⟨coherent.of_sameIterates (sound.keeps_propose.related proposing),
      fun j z visited => ?_⟩, .inl (sound.keeps_propose.kind proposing)⟩
    refine visited.le_of_stuck entered before failed fun new phase v proposed => ?_
    rw [proposing] at proposed
    cases proposed
  · obtain ⟨z, z', c, here, holds⟩ :=
      coherent.of_sameIterates (sound.keeps_propose.related proposed)
    have point : u.point = z := by
      rw [← holds.point, Session.point, Drive.current, here, Option.getD_some]
    obtain ⟨count, -⟩ := propose_ok sound.own proposed
    rw [(before.judged sound.own (enter_counts sound.own entered)).1] at count
    refine ⟨k, ⟨⟨z, z', c, here, holds⟩, fun j w visited => ?_⟩,
      .inr ⟨_, _, _, rfl, point ▸ holds.visited, count⟩⟩
    refine visited.le_of_stuck entered before failed fun new phase v proposed' => ?_
    rw [proposed] at proposed'
    cases proposed'
    rfl
  · obtain ⟨coherent', kind⟩ := sound.accepts entered before coherent proposed valid
    rw [accepting] at coherent' kind
    exact ⟨k + 1, ⟨coherent', fun j z visited => visited.le_of_failed entered before failed⟩,
      .inl (kind e rfl)⟩

/-- The cache of a sound method is coherent whenever a run is at the head of an iteration or at its
end. -/
theorem Sound.faithful (sound : M.Sound V P) (room : 1 ≤ M.options.maxIterations)
    (idle : s.driver.running = false) : M.Faithful V P x s := by
  have unmarked (k : Nat) {t : Drive.State ι π μ ω α} (ends : M.Ends V x (marked true s) k t) :
      M.Ends V x (marked true s) k (marked false t) :=
    ⟨ends.1.of_sameIterates (.of_cache rfl), ends.2⟩
  refine
    { heads := fun trace h k t entered after => after.coherent sound entered
      returned := fun out t returned => ?_
      failed := fun e t u placing failed => ?_ }
  · rw [outcome_solve x idle] at returned
    obtain ⟨ran, rfl⟩ := Prod.mk.inj returned
    obtain ⟨trace, h, k, phase, t, entered, after, -, full, -, last, count, -, same⟩ :=
      run_returned (Prod.ext ran rfl)
    have zero := enter_counts sound.own entered
    have stopped := stopped_of_full sound.own zero room after full
    obtain rfl : out.iterations = k := count.trans (after.judged sound.own zero).1
    refine ⟨unmarked _ ⟨?_, fun j z visited => visited.le_of_stopped entered after stopped⟩, ?_⟩
    · refine (after.coherent sound entered).of_sameIterates (.of_cache ?_)
      rw [same]
    · rw [last, ← same]
      rfl
  · rw [outcome_solve x idle] at failed
    obtain ⟨ran, rfl⟩ := Prod.mk.inj failed
    rcases run_failed (Prod.ext ran rfl) with entering | ⟨trace, h, k, t, entered, before, failing⟩
    · obtain ⟨ends, kind⟩ := sound.ends_of_not_entered placing entering
      exact ⟨0, unmarked 0 ends, .inl kind⟩
    · obtain ⟨k, ends, kind⟩ := sound.ends_of_failed entered before failing
      exact ⟨k, unmarked k ends, kind⟩

end Method

end Descent
