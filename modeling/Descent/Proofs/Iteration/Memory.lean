/-
# Descent.Proofs.Iteration.Memory — what a run does to the memory of its method

A driver measures, judges and moves on without touching the memory of its method or the
line.  A `Drive.Ground` is a relation of sessions that notices nothing else than these:
whatever the actions of a method keep of it (`Method.Stays`), whole runs keep
(`After.related`, `Stays.solve`); for what holds at the heads of iterations only the steps
that return count (`After.upheld`).  A property of the memory that is upheld is a ground, and so
are the sizes of the line.
-/
import Descent.Proofs.Iteration.Alike
import Descent.Proofs.Iteration.Frame

namespace Descent
set_option autoImplicit false

variable {ι π μ ω α : Type} [Extended α] [Iterate ι π α]

/-- A relation of sessions that does not notice what the driver does by itself. -/
class Drive.Ground (R : Drive.State ι π μ ω α → Drive.State ι π μ ω α → Prop) : Prop extends
    Drive.Backdrop R where
  driver (s : Drive.State ι π μ ω α) (d : Drive ι π μ α) : d.memory = s.driver.memory →
    R s { s with driver := d }

/-- A property of the memory is not lost. -/
def Drive.Upholds (Q : μ → Prop) (s t : Drive.State ι π μ ω α) : Prop :=
  Q s.driver.memory → Q t.driver.memory

omit [Extended α] [Iterate ι π α] in
instance (Q : μ → Prop) :
    IsPreorder (Drive.State ι π μ ω α) (Drive.Upholds Q) where
  refl _ := id
  trans _ _ _ first next := next ∘ first

instance (Q : μ → Prop) :
    Drive.Ground (Drive.Upholds Q : Drive.State ι π μ ω α → Drive.State ι π μ ω α → Prop) where
  turn _ _ _ := id
  track _ _ _ := id
  count _ _ := id
  log _ _ := id
  driver s d same start := by
    change Q d.memory
    rwa [same]

instance :
    Drive.Ground (Drive.sameTrack : Drive.State ι π μ ω α → Drive.State ι π μ ω α → Prop) where
  driver s _ _ := refl_of Track.Alike s.track

/-- The state of the user's functions is a ground, and not noticed by changes of the memory. -/
instance {τ : Type} (part : ω → τ) :
    Drive.Frame (Edit.Unchanged fun s : Drive.State ι π μ ω α => part s.env) where
  turn _ _ _ := rfl
  track _ _ _ := rfl
  count _ _ := rfl
  log _ _ := rfl
  memory _ _ := rfl

instance {τ : Type} (part : ω → τ) :
    Drive.Ground (Edit.Unchanged fun s : Drive.State ι π μ ω α => part s.env) where
  driver _ _ _ := rfl

/-- So is the memory itself. -/
instance : Drive.Ground (Edit.Unchanged fun s : Drive.State ι π μ ω α => s.driver.memory) where
  driver _ _ same := same

omit [Extended α] [Iterate ι π α] in
/-- What comes after an action stays within a relation. -/
theorem Edit.Keeps.beyond {σ β γ : Type} {R : σ → σ → Prop} [IsPreorder σ R] {P : Fault α → Prop}
    {act : Edit α σ β} {k : β → Edit α σ γ} (next : ∀ b, Edit.Keeps R P (k b)) (s : σ) :
    R (act.outcome s).2 ((act >>= k).outcome s).2 := by
  rw [outcome_bind]
  rcases act.outcome s with ⟨e | b, t⟩
  · exact refl_of R t
  · exact (next b).state t

namespace Method

/-- In the iterations after session `h` the actions of a method stay within a relation of sessions. -/
structure Stays (R : Drive.State ι π μ ω α → Drive.State ι π μ ω α → Prop) (M : Method ι π μ ω α)
    (h : Drive.State ι π μ ω α) : Prop where
  evaluate : ∀ x, Edit.Keeps R (fun _ => True) (M.evaluate x)
  step : ∀ k t, M.After h k .running t → R t (M.step.outcome t).2
  learn : Edit.Keeps R (fun _ => True) M.learn

variable {R : Drive.State ι π μ ω α → Drive.State ι π μ ω α → Prop} {M : Method ι π μ ω α}
  {x : Vec α} {s h t u : Drive.State ι π μ ω α} {k : Nat} {phase : Phase} {trace : List (Vec α)}

theorem Keeps.stays (keeps : M.Keeps R fun _ => True) (h : Drive.State ι π μ ω α) : M.Stays R h :=
  ⟨keeps.evaluate, fun _ t _ => keeps.step.state t, keeps.learn⟩

variable [Drive.Ground R]

/-- A verdict changes nothing but the driver, and not the memory. -/
theorem judge_leaves {new : ι} {r : Except (Fault α) Phase}
    (judged : (M.judge new).outcome s = (r, t)) :
    ∃ d, t = { s with driver := d } ∧ d.memory = s.driver.memory := by
  rw [outcome_judge] at judged
  split at judged <;> cases judged <;> exact ⟨_, rfl, rfl⟩

/-- To move on is to write the cache, and to learn. -/
theorem accept_ok {new : ι} (accepted : (M.accept new).outcome s = (.ok ⟨⟩, t)) :
    ∃ cache, M.learn.outcome { s with driver := s.driver.setCache cache } = (.ok ⟨⟩, t) := by
  obtain ⟨⟨⟩, u, moved, learned⟩ := Edit.outcome_bind_ok.1 accepted
  rw [Drive.onCache, Act.outcome_edit] at moved
  obtain ⟨-, rfl⟩ := Prod.mk.inj moved
  exact ⟨_, learned⟩

theorem keeps_judge (new : ι) : Edit.Keeps R (fun _ => True) (M.judge new) := by
  refine .bind Drive.keeps_now fun old => .bind ?_ fun _ => .bind Drive.keeps_driver fun d =>
    .bind (.change fun s => Drive.Ground.driver s _ rfl) fun _ => .pure _
  exact { state := fun s => Drive.Ground.driver s _ rfl, fault := fun _ _ _ => trivial }

/-- What comes after the step in an iteration stays within a relation. -/
theorem beyond_step (evaluate : ∀ x, Edit.Keeps R (fun _ => True) (M.evaluate x))
    (learn : Edit.Keeps R (fun _ => True) M.learn) (t : Drive.State ι π μ ω α) :
    R (M.step.outcome t).2 (M.advance.outcome t).2 := by
  have moves (new : ι) : Edit.Keeps R (fun _ => True) (Drive.onCache (Cache.commit new)) :=
    { state := fun s => Drive.Ground.driver s _ rfl, fault := fun _ _ _ => trivial }
  have proposes : R (M.step.outcome t).2 (M.propose.outcome t).2 :=
    Edit.Keeps.beyond (P := fun _ => True) (fun x => .bind (evaluate x) fun new =>
      .bind (keeps_judge new) fun _ => .pure _) t
  refine trans_of R proposes (Edit.Keeps.beyond (P := fun _ => True) (fun ⟨new, phase⟩ => ?_) t)
  dsimp only
  split
  · exact .bind Drive.keeps_driver fun _ => .abort trivial
  · exact .bind (.bind (moves new) fun _ => learn) fun _ => .pure _

theorem Stays.advance (stays : M.Stays R h) (before : M.After h k .running t) :
    R t (M.advance.outcome t).2 :=
  trans_of R (stays.step k t before) (beyond_step stays.evaluate stays.learn t)

/-- A proposal stays within a relation if its step does. -/
theorem propose_related {new : ι} (evaluate : ∀ x, Edit.Keeps R (fun _ => True) (M.evaluate x))
    (step : ∀ z v, M.step.outcome t = (.ok z, v) → R t v)
    (proposed : M.propose.outcome t = (.ok (new, phase), u)) : R t u := by
  simp only [propose, Edit.outcome_bind_ok] at proposed
  obtain ⟨z, v, stepped, _, w, evaluated, _, _, judged, returned⟩ := proposed
  cases returned
  exact trans_of R (step z v stepped) (trans_of R ((evaluate z).related evaluated)
    ((keeps_judge new).related judged))

/-- What holds at the head of the first iteration is related to what holds after others, if the steps
and the lessons that return stay within the relation. -/
theorem After.upheld (evaluate : ∀ x, Edit.Keeps R (fun _ => True) (M.evaluate x))
    (step : ∀ k t z u, M.After h k .running t → M.step.outcome t = (.ok z, u) → R t u)
    (learn : ∀ t u, M.learn.outcome t = (.ok ⟨⟩, u) → R t u)
    (after : M.After h k phase t) : R h t := by
  induction after with
  | none => exact refl_of R h
  | @one k t u phase before advanced ih =>
    obtain ⟨new, v, proposed, -, accepted⟩ := advance_ok.1 advanced
    obtain ⟨cache, learned⟩ := accept_ok accepted
    have proposes := propose_related evaluate (fun z w => step k t z w before) proposed
    exact trans_of R ih (trans_of R proposes
      (trans_of R (Drive.Ground.driver v (v.driver.setCache cache) rfl) (learn _ u learned)))

/-- What holds at the head of the first iteration is related to what holds after others. -/
theorem After.related (after : M.After h k phase t) (stays : M.Stays R h) : R h t := by
  refine after.upheld stays.evaluate (fun k t z u before stepped => ?_) fun _ _ learned =>
    stays.learn.related learned
  have kept := stays.step k t before
  rwa [stepped] at kept

omit [Drive.Ground R] in
/-- At the heads of iterations the line has the size of the start. -/
theorem Keeps.track (keeps : M.Keeps Drive.sameTrack fun _ => True)
    (entered : (M.enter x).outcome s = (.ok trace, h)) (after : M.After h k phase t) :
    t.track.base.size = x.size ∧ t.track.direction.size = x.size := by
  obtain ⟨u, v, placing, prepared, rfl, -⟩ := enter_ok.1 entered
  obtain ⟨-, first, w, -, rfl⟩ := place_ok.1 placing
  have start := keeps.prepare.related prepared
  have since := after.related (keeps.stays _)
  have zeros : (Vec.zeros x.size : Vec α).size = x.size := by simp [Vec.zeros]
  exact ⟨(since.1.trans start.1).trans zeros, (since.2.trans start.2).trans zeros⟩

/-- What holds at the head of the first iteration is related to what holds when the run has ended. -/
theorem Stays.solve (stays : M.Stays R h) (idle : s.driver.running = false)
    (entered : (M.enter x).outcome (marked true s) = (.ok trace, h)) :
    R h ((M.solve x).outcome s).2 := by
  have traced : M.Traced h 0 trace := by
    obtain ⟨_, _, -, -, rfl, rfl⟩ := enter_ok.1 entered
    exact Traced.start
  have unmarked (u : Drive.State ι π μ ω α) (kept : R h u) : R h (marked false u) :=
    trans_of R kept (Drive.Ground.driver u (marked false u).driver rfl)
  rw [outcome_solve x idle, run, Edit.outcome_bind, entered, Edit.andThen_ok, Edit.outcome_bind]
  refine unmarked _ ?_
  rcases loop_outcome M.options.maxIterations.toNat .none traced with
    ⟨k, t, e, u, before, failed, ended⟩ | ⟨k, phase, t, points, after, -, -, ended⟩
  · have kept := stays.advance before
    rw [failed] at kept
    rw [ended]
    exact trans_of R (before.related stays) kept
  · rw [ended, Edit.andThen_ok, outcome_conclude]
    exact trans_of R (after.related stays) (Drive.Backdrop.log t _)

end Method

end Descent
