/-
# Descent.Proofs.Iteration.Single — runs of a single iteration

A run stands before its first iteration with the memory, the measures and the sizes that its
preparation leaves (`Method.Fresh`).  If the first step leads from there to a point that the
verdict is content with (`Method.Reaches`), the run returns after this iteration, with that
point as its last iterate (`Sound.single`): what is proposed is committed, and nothing that
comes after it undoes that.

A step takes the direction that it has found as it is if this leads to defined values
(`Drive.outcome_aim`).
-/
import Descent.Proofs.Iteration.Aim
import Descent.Proofs.Iteration.Coherence
import Descent.Proofs.Iteration.Memory

namespace Descent
set_option autoImplicit false

variable {ι π μ ω α : Type} [Extended α] [Iterate ι π α]

/-! ## Directions that lead to defined values -/

namespace Drive

/-- The direction in the cache and the line have a size. -/
structure Sized (n : ℕ) (s : State ι π μ ω α) : Prop where
  cached : s.driver.current.direction.size = n
  base : s.track.base.size = n
  line : s.track.direction.size = n

/-- Sizes are not lost. -/
def SameSizes (s t : State ι π μ ω α) : Prop := ∀ n, Sized n s → Sized n t

instance : IsPreorder (State ι π μ ω α) SameSizes where
  refl _ _ := id
  trans _ _ _ first next n := next n ∘ first n

instance : Frame (SameSizes : State ι π μ ω α → State ι π μ ω α → Prop) where
  memory _ _ _ sized := ⟨sized.cached, sized.base, sized.line⟩
  turn _ _ size _ sized := ⟨size.trans sized.cached, sized.base, sized.line⟩
  track _ _ alike _ sized :=
    ⟨sized.cached, alike.1.trans sized.base, alike.2.trans sized.line⟩
  count _ _ _ sized := ⟨sized.cached, sized.base, sized.line⟩
  log _ _ _ sized := ⟨sized.cached, sized.base, sized.line⟩

end Drive

omit [Iterate ι π α] in
/-- The first trial is enough. -/
theorem shortenUndefined_of_leads {V : Vec α → Except (Fault α) (Shaped α)} {x d : Vec α}
    {reductions : Int} (factor : α) (verbosity : Int) (leads : Leads V x false d)
    (tries : 0 ≤ reductions) :
    shortenUndefined V x d factor reductions verbosity = .ok d := by
  obtain ⟨z, y, added, there, defined⟩ := leads
  obtain ⟨n, count⟩ : ∃ n, (reductions + 1).toNat = n + 1 := ⟨reductions.toNat, by omega⟩
  rw [shortenUndefined, shorten, count, shortenWithin, added]
  simp only [fit, pure_ok, ok_bind, there, defined]
  rfl

/-- A direction is taken as it is if it leads to defined values. -/
theorem Drive.outcome_aim {evaluate : Vec α → Action ι π μ ω α (Shaped α)} {c : LineSearch α}
    {verbosity : Int} {x d : Vec α} {s : State ι π μ ω α}
    {V : Vec α → Except (Fault α) (Shaped α)}
    (plain : ∀ z, (Correspondence.within fun _ => True).Rel (V z) (evaluate z))
    (kept : ∀ z, Edit.Keeps SameSizes (fun _ => True) (evaluate z))
    (sized : Sized x.size s) (size : d.size = x.size) (leads : Leads V x false d)
    (tries : 0 ≤ c.nanMaxIterations) :
    ∃ u, (aim evaluate c verbosity x d).outcome s = (.ok d, u) ∧ u.Along x d := by
  have found := ((Correspondence.within fun _ => True).shortenUndefined plain
    (fun r => Correspondence.within_modify fun _ => id) (fun _ _ => trivial) x d c.nanFactor
      c.nanMaxIterations verbosity s trivial).1
  rw [shortenUndefined_of_leads _ _ leads tries] at found
  rcases shortened : (shortenUndefined evaluate x d c.nanFactor c.nanMaxIterations
    verbosity).outcome s with ⟨r, u⟩
  rw [shortened] at found
  cases found
  have sized' : Sized x.size u :=
    (keeps_shortenUndefined (R := SameSizes) kept _ _ _ _ _).related shortened _ sized
  rw [aim, Edit.outcome_bind, shortened, Edit.andThen_ok, Edit.outcome_bind, outcome_turn,
    Vec.assign?_of_size_eq (size.trans sized'.cached.symm)]
  dsimp only
  rw [Edit.andThen_ok, Edit.outcome_bind, Act.onTrack, Edit.outcome_focus, Track.reset,
    Edit.outcome_bind, Track.outcome_moveTo, Vec.assign?_of_size_eq sized'.base.symm]
  simp only [Edit.andThen_ok, Track.outcome_aim,
    Vec.assign?_of_size_eq (size.trans sized'.line.symm)]
  exact ⟨_, rfl, rfl, rfl⟩

/-! ## Before the first iteration -/

namespace Method

/-- A session before the first iteration of a run: its memory is what the preparation leaves, and all
sizes are those of the start. -/
structure Fresh (m : μ) (first : ι) (h : Drive.State ι π μ ω α) : Prop where
  memory : h.driver.memory = m
  progress : h.driver.progress = Iterate.start first
  now : h.driver.current.now = first
  sized : Drive.Sized (Iterate.point first).size h

/-- From the first iterate a method gets to another one in its first step, and the verdict on it is
convergence.  The step leaves a memory from which a lesson can be drawn. -/
structure Reaches (M : Method ι π μ ω α) (V : Vec α → Except (Fault α) ι) (Q : μ → Prop) (m : μ)
    (first new : ι) : Prop where
  start : M.checkStart (Iterate.point first) = .ok ⟨⟩
  prepares : ∀ s, M.prepare.outcome (placed first (Iterate.point first) s) =
    (Act.changeDriver fun d => { d with memory := m }).outcome (placed first (Iterate.point first) s)
  value : V (Iterate.point first) = .ok first
  steps : ∀ h, Fresh m first h →
    ∃ u, M.step.outcome h = (.ok (Iterate.point new), u) ∧ Q u.driver.memory
  lands : V (Iterate.point new) = .ok new
  measured : ∃ p, (Iterate.update new first).outcome (Iterate.start first) = (.ok ⟨⟩, p) ∧
    Iterate.verdict (ι := ι) M.options (Iterate.assess (ι := ι) M.options p) = .converged
  learns : ∀ t, Q t.driver.memory → (M.learn.outcome t).1 = .ok ⟨⟩

/-- What a run has to show that a new iterate ended at once. -/
structure Single (new : ι) (out : Outcome ι α) : Prop where
  phase : out.phase = .converged
  iterations : out.iterations = 1
  last : out.last = new

variable {M : Method ι π μ ω α} {V : Vec α → Except (Fault α) ι} {P : Fault α → Prop} {m : μ}
  {Q : μ → Prop} {first new : ι} {s h : Drive.State ι π μ ω α}

omit [Extended α] [Iterate ι π α] in
/-- A start with as many entries as there are unknowns is admitted. -/
theorem checkStart_ok {x : Vec α} (fits : ∀ k ∈ M.dim, k = x.size) : M.checkStart x = .ok ⟨⟩ := by
  unfold checkStart
  cases known : M.dim with
  | none => rfl
  | some k => exact if_pos (fits k known)

theorem Sound.enters (sound : M.Sound V P) (reaches : M.Reaches V Q m first new)
    (s : Drive.State ι π μ ω α) :
    ∃ trace h, (M.enter (Iterate.point first)).outcome s = (.ok trace, h) ∧ Fresh m first h := by
  obtain ⟨u, placing⟩ := sound.places reaches.start reaches.value s
  refine ⟨_, _, enter_ok.2 ⟨_, _, placing, reaches.prepares u, rfl, rfl⟩, rfl, rfl, rfl, ?_⟩
  constructor <;> simp [placed, Drive.current, Cache.start, Track.zeros, Vec.zeros]

/-! ## The first iteration -/

/-- A step and the evaluation of the point that it returns touch neither the measures nor the present
iterate. -/
theorem Sound.evaluates_step (sound : M.Sound V P) {c : Cache ι α} {u : Drive.State ι π μ ω α}
    {z : Vec α} (here : h.driver.cache = some c) (stepped : M.step.outcome h = (.ok z, u))
    (lands : V z = .ok new) :
    ∃ v, (M.evaluate z).outcome u = (.ok new, v) ∧ v.driver.progress = h.driver.progress ∧
      v.driver.current.now = h.driver.current.now := by
  rcases evaluated : (M.evaluate z).outcome u with ⟨r, v⟩
  obtain rfl : r = .ok new := by rw [← lands, ← sound.evaluates _ u, evaluated]
  have progress : v.driver.progress = h.driver.progress :=
    ((sound.own.evaluate _).preserves evaluated).trans (sound.own.step.preserves stepped)
  obtain ⟨d, there, same, -⟩ := trans_of Drive.SameIterates
    (sound.keeps.step.related stepped) ((sound.keeps.evaluate _).related evaluated) c here
  refine ⟨v, rfl, progress, ?_⟩
  rw [Drive.current, Drive.current, there, here, Option.getD_some, Option.getD_some, same]

section
variable (sound : M.Sound V P) (reaches : M.Reaches V Q m first new)
  (evaluates : ∀ x, Edit.Keeps (Drive.Upholds Q) (fun _ => True) (M.evaluate x))
include sound reaches evaluates

/-- The first iteration proposes the new iterate, and its verdict is convergence. -/
theorem Sound.proposes (fresh : Fresh m first h)
    (coherent : M.Coherent V (Iterate.point first) s 0 h) :
    ∃ u, M.propose.outcome h = (.ok (new, .converged), u) ∧ Q u.driver.memory := by
  obtain ⟨-, -, c, here, -⟩ := coherent
  obtain ⟨p, measured, verdict⟩ := reaches.measured
  obtain ⟨u, stepped, ready⟩ := reaches.steps h fresh
  obtain ⟨v, evaluated, progress, now⟩ := sound.evaluates_step here stepped reaches.lands
  have ready' : Q v.driver.memory := (evaluates _).related evaluated ready
  obtain ⟨w, judged, memory⟩ : ∃ w, (M.judge new).outcome v = (.ok .converged, w) ∧
      w.driver.memory = v.driver.memory := by
    rw [outcome_judge, progress, now, fresh.progress, fresh.now, measured]
    dsimp only
    rw [verdict]
    exact ⟨_, rfl, rfl⟩
  refine ⟨w, ?_, memory ▸ ready'⟩
  refine Edit.outcome_bind_ok.2 ⟨_, u, stepped, ?_⟩
  refine Edit.outcome_bind_ok.2 ⟨_, v, evaluated, ?_⟩
  exact Edit.outcome_bind_ok.2 ⟨_, w, judged, rfl⟩

variable [Iterate.Judged ι π α]

/-- A method that reaches in its first step a point with which the verdict is content returns it. -/
theorem Sound.single (room : 1 ≤ M.options.maxIterations) (idle : s.driver.running = false) :
    ∃ out t, (M.solve (Iterate.point first)).outcome s = (.ok out, t) ∧ Single new out := by
  obtain ⟨trace, h, entered, fresh⟩ := sound.enters reaches (marked true s)
  have coherent := sound.coherent_of_entered entered
  have valid : Phase.converged ≠ .diverged := by decide
  obtain ⟨u, proposed, ready⟩ := sound.proposes reaches evaluates fresh coherent
  obtain ⟨v, moved, -⟩ := sound.commits entered .none coherent proposed valid
  have ready' : Q v.driver.memory := by
    rw [Drive.onCache, Act.outcome_edit] at moved
    obtain ⟨-, rfl⟩ := Prod.mk.inj moved
    exact ready
  rcases learned : M.learn.outcome v with ⟨r, t⟩
  obtain rfl : r = .ok ⟨⟩ := by rw [← reaches.learns v ready', learned]
  have advanced : M.advance.outcome h = (.ok .converged, t) :=
    advance_ok.2 ⟨new, u, proposed, valid, Edit.outcome_bind_ok.2 ⟨_, _, moved, learned⟩⟩
  have after : M.After h 1 .converged t := .one .none advanced
  -- coherence says where the run stands, without a look into `commit` and `learn`
  have last : t.driver.current.now = new := by
    obtain ⟨z, w, stepped, value⟩ := sound.proposed proposed
    obtain ⟨visited, value', -⟩ := (after.coherent sound entered).present
    rw [visited.unique (.next entered .none stepped proposed valid), value] at value'
    exact (Except.ok.inj value').symm
  obtain ⟨n, count⟩ : ∃ n, M.options.maxIterations.toNat = n + 1 :=
    ⟨M.options.maxIterations.toNat - 1, by omega⟩
  rw [outcome_solve _ idle, run, Edit.outcome_bind, entered, Edit.andThen_ok, Edit.outcome_bind,
    count, loop, Edit.outcome_bind, advanced, Edit.andThen_ok, Edit.outcome_bind, outcome_extend,
    Edit.andThen_ok, if_neg (by decide), Edit.outcome_pure, Edit.andThen_ok, outcome_conclude]
  exact ⟨_, _, rfl, rfl, (after.judged sound.own (enter_counts sound.own entered)).1, last⟩

end

end Method

end Descent
