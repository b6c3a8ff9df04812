/-
# Descent.Proofs.Iteration.Frame — what a step does not touch

A step may change the memory of its method, the direction in the cache, the line,
the counts and the log.  A `Drive.Frame` is a relation of sessions that notices
none of these.  The measures, the present iterate and both iterates in the cache are
frames, so what keeps every frame keeps all of them.

A `Drive.Backdrop` may notice the memory.  Evaluations, shortened directions and line
searches keep every backdrop, so between two changes of its memory a method finds
there what it left.
-/
import Descent.Proofs.Correspondence.Algorithms
import Descent.Proofs.Iteration.Verdict

namespace Descent
set_option autoImplicit false

variable {ι π μ ω α : Type}

/-- A line keeps the sizes of its start and of its direction. -/
def Track.Alike (t t' : Track α) : Prop :=
  t'.base.size = t.base.size ∧ t'.direction.size = t.direction.size

instance : IsPreorder (Track α) Track.Alike where
  refl _ := ⟨rfl, rfl⟩
  trans _ _ _ first next := ⟨next.1.trans first.1, next.2.trans first.2⟩

namespace Track

variable {P : Fault α → Prop}

theorem outcome_moveTo (base : Vec α) (t : Track α) : (moveTo base).outcome t =
    match Vec.assign? t.base base with
    | some base => (.ok ⟨⟩, { t with base })
    | none => (.error .shapeMismatch, t) := by
  rw [moveTo, Edit.outcome_bind, Edit.outcome_get, Edit.andThen_ok]
  cases Vec.assign? t.base base <;> rfl

theorem outcome_aim (direction : Vec α) (t : Track α) : (aim direction).outcome t =
    match Vec.assign? t.direction direction with
    | some direction => (.ok ⟨⟩, { t with direction })
    | none => (.error .shapeMismatch, t) := by
  rw [aim, Edit.outcome_bind, Edit.outcome_get, Edit.andThen_ok]
  cases Vec.assign? t.direction direction <;> rfl

theorem keeps_moveTo (base : Vec α) (kind : P .shapeMismatch) :
    Edit.Keeps Alike P (moveTo base) where
  state t := by
    rw [outcome_moveTo]
    cases written : Vec.assign? t.base base with
    | some b => exact ⟨Vec.size_of_assign? written, rfl⟩
    | none => exact refl_of Alike t
  fault t := by
    rw [outcome_moveTo]
    split
    · exact .ok _
    · exact .error kind

theorem keeps_aim (direction : Vec α) (kind : P .shapeMismatch) :
    Edit.Keeps Alike P (aim direction) where
  state t := by
    rw [outcome_aim]
    cases written : Vec.assign? t.direction direction with
    | some d => exact ⟨rfl, Vec.size_of_assign? written⟩
    | none => exact refl_of Alike t
  fault t := by
    rw [outcome_aim]
    split
    · exact .ok _
    · exact .error kind

end Track

/-- A relation of sessions that does not notice the direction in the cache, the line, the counts and
the log. -/
class Drive.Backdrop [Extended α] [Iterate ι π α]
    (R : Drive.State ι π μ ω α → Drive.State ι π μ ω α → Prop) : Prop extends
    IsPreorder (Drive.State ι π μ ω α) R where
  turn (s : Drive.State ι π μ ω α) (direction : Vec α) :
    direction.size = s.driver.current.direction.size →
      R s { s with driver := s.driver.setCache { s.driver.current with direction } }
  track (s : Drive.State ι π μ ω α) (track : Track α) : s.track.Alike track → R s { s with track }
  count (s : Drive.State ι π μ ω α) (count : Evaluations) : R s { s with count }
  log (s : Drive.State ι π μ ω α) (log : Array (Log.Record α)) : R s { s with log }

/-- A relation of sessions that does not notice what a step may change. -/
class Drive.Frame [Extended α] [Iterate ι π α]
    (R : Drive.State ι π μ ω α → Drive.State ι π μ ω α → Prop) : Prop extends
    Drive.Backdrop R where
  memory (s : Drive.State ι π μ ω α) (memory : μ) :
    R s { s with driver := { s.driver with memory } }

/-- A cache keeps its iterates and the size of its direction. -/
def Drive.SameIterates (s t : Drive.State ι π μ ω α) : Prop :=
  ∀ c, s.driver.cache = some c → ∃ d, t.driver.cache = some d ∧ d.now = c.now ∧
    d.before = c.before ∧ d.direction.size = c.direction.size

theorem Drive.SameIterates.of_cache {s t : Drive.State ι π μ ω α}
    (same : t.driver.cache = s.driver.cache) : Drive.SameIterates s t :=
  fun c here => ⟨c, same.trans here, rfl, rfl, rfl⟩

instance : IsPreorder (Drive.State ι π μ ω α) Drive.SameIterates where
  refl _ := .of_cache rfl
  trans s t u first next c here := by
    obtain ⟨d, there, now, before, direction⟩ := first c here
    obtain ⟨e, yonder, now', before', direction'⟩ := next d there
    exact ⟨e, yonder, now'.trans now, before'.trans before, direction'.trans direction⟩

section
variable [Extended α] [Iterate ι π α]

instance : Drive.Frame (Drive.sameMeasures : Drive.State ι π μ ω α → Drive.State ι π μ ω α → Prop)
    where
  memory _ _ := rfl
  turn _ _ _ := rfl
  track _ _ _ := rfl
  count _ _ := rfl
  log _ _ := rfl

/-- The present iterate is the same. -/
abbrev Drive.sameNow : Drive.State ι π μ ω α → Drive.State ι π μ ω α → Prop :=
  Edit.Unchanged fun s => s.driver.current.now

instance : Drive.Frame (Drive.sameNow : Drive.State ι π μ ω α → Drive.State ι π μ ω α → Prop) where
  memory _ _ := rfl
  turn _ _ _ := rfl
  track _ _ _ := rfl
  count _ _ := rfl
  log _ _ := rfl

instance : Drive.Frame (Edit.Unchanged Session.point :
    Drive.State ι π μ ω α → Drive.State ι π μ ω α → Prop) where
  memory _ _ := rfl
  turn _ _ _ := rfl
  track _ _ _ := rfl
  count _ _ := rfl
  log _ _ := rfl

instance : Drive.Frame
    (Drive.SameIterates : Drive.State ι π μ ω α → Drive.State ι π μ ω α → Prop) where
  memory _ _ := .of_cache rfl
  turn s direction size := by
    intro c here
    simp only [Drive.current, here, Option.getD_some] at size ⊢
    exact ⟨_, rfl, rfl, rfl, size⟩
  track _ _ _ := .of_cache rfl
  count _ _ := .of_cache rfl
  log _ _ := .of_cache rfl

/-- The memory is a backdrop. -/
instance : Drive.Backdrop (Edit.Unchanged fun s : Drive.State ι π μ ω α => s.driver.memory) where
  turn _ _ _ := rfl
  track _ _ _ := rfl
  count _ _ := rfl
  log _ _ := rfl

/-- The line keeps the sizes of its start and of its direction. -/
abbrev Drive.sameTrack : Drive.State ι π μ ω α → Drive.State ι π μ ω α → Prop :=
  fun s t => s.track.Alike t.track

omit [Extended α] [Iterate ι π α] in
instance : IsPreorder (Drive.State ι π μ ω α) Drive.sameTrack where
  refl s := refl_of Track.Alike s.track
  trans _ _ _ first next := trans_of Track.Alike first next

instance :
    Drive.Frame (Drive.sameTrack : Drive.State ι π μ ω α → Drive.State ι π μ ω α → Prop) where
  memory s _ := refl_of Track.Alike s.track
  turn s _ _ := refl_of Track.Alike s.track
  track _ _ alike := alike
  count s _ := refl_of Track.Alike s.track
  log s _ := refl_of Track.Alike s.track

end

namespace Drive

variable [Extended α] [Iterate ι π α]
  {R : Drive.State ι π μ ω α → Drive.State ι π μ ω α → Prop} {P : Fault α → Prop}

/-! ## Changes of the memory -/

section
variable [Drive.Frame R]

theorem keeps_remember (f : Drive ι π μ α → μ) :
    Edit.Keeps R P (Act.changeDriver fun d : Drive ι π μ α => { d with memory := f d }) :=
  .change fun s => Frame.memory s _

/-- A part of the memory is changed. -/
theorem keeps_edit {β τ : Type} {T : τ → τ → Prop} (view : μ → τ) (put : τ → μ → μ)
    {act : Edit α τ β} (kept : Edit.Keeps T P act) :
    Edit.Keeps R P (Act.edit (fun d : Drive ι π μ α => view d.memory)
      (fun t d => { d with memory := put t d.memory }) act : Drive.Action ι π μ ω α β) where
  state s := Frame.memory s _
  fault _ := kept.fault _

end

/-! ## Everything else -/

variable [Drive.Backdrop R]

theorem keeps_tally (cost : Evaluations) : Edit.Keeps R P (Act.tally cost) :=
  .change fun s => Backdrop.count s _

theorem keeps_report (r : Log.Record α) :
    Edit.Keeps R P (Reports.report r : Drive.Action ι π μ ω α Unit) :=
  .change fun s => Backdrop.log s _

theorem keeps_driver : Edit.Keeps R P (Act.driver : Drive.Action ι π μ ω α (Drive ι π μ α)) :=
  .bind .get fun _ => .pure _

theorem keeps_now : Edit.Keeps R P (Drive.now : Drive.Action ι π μ ω α ι) :=
  .bind keeps_driver fun _ => .pure _

theorem keeps_onTrack {β : Type} {act : Edit α (Track α) β} (kept : Edit.Keeps Track.Alike P act) :
    Edit.Keeps R P (Act.onTrack act : Drive.Action ι π μ ω α β) where
  state s := Backdrop.track s _ (kept.state s.track)
  fault s := kept.fault s.track

theorem keeps_visit (alpha : α) :
    Edit.Keeps R P (Act.onTrack (Track.visit alpha) : Drive.Action ι π μ ω α (Vec α)) :=
  keeps_onTrack (.bind (.change fun _ => ⟨rfl, rfl⟩) fun _ => .bind .get fun _ => .pure _)

/-- What a direction that is taken over does to the cache. -/
theorem outcome_turn (direction : Vec α) (s : Drive.State ι π μ ω α) :
    (Drive.onCache (Cache.turn direction)).outcome s =
      match Vec.assign? s.driver.current.direction direction with
      | some written => (.ok ⟨⟩,
          { s with driver := s.driver.setCache { s.driver.current with direction := written } })
      | none =>
        (.error .shapeMismatch, { s with driver := s.driver.setCache s.driver.current }) := by
  rw [Drive.onCache, Act.outcome_edit, Cache.turn, Edit.outcome_bind, Edit.outcome_get,
    Edit.andThen_ok]
  cases Vec.assign? s.driver.current.direction direction <;> rfl

variable [Fault.Broad P]

theorem keeps_ofExcept {β : Type} {r : Except (Fault α) β} (only : Fault.Only Fault.Ordinary r) :
    Edit.Keeps R P (ofExcept r : Drive.Action ι π μ ω α β) :=
  .ofExcept (only.mono Fault.Broad.ordinary)

theorem keeps_fit {β : Type} (b : Option β) : Edit.Keeps R P (fit b : Drive.Action ι π μ ω α β) :=
  .fit (Fault.Broad.ordinary _ trivial)

theorem keeps_shortenUndefined {f : Vec α → Drive.Action ι π μ ω α (Shaped α)}
    (kept : ∀ x, Edit.Keeps R P (f x)) (x direction : Vec α) (factor : α)
    (reductions verbosity : Int) :
    Edit.Keeps R P (shortenUndefined f x direction factor reductions verbosity) :=
  (Correspondence.keeping R P).shortenUndefined (g := f) kept keeps_report
    (Fault.Broad.ordinary (P := P)) x direction factor reductions verbosity

theorem keeps_reset (base direction : Vec α) :
    Edit.Keeps R P (Act.onTrack (Track.reset base direction) : Drive.Action ι π μ ω α Unit) :=
  keeps_onTrack (.bind (Track.keeps_moveTo base (Fault.Broad.ordinary _ trivial)) fun _ =>
    Track.keeps_aim direction (Fault.Broad.ordinary _ trivial))

theorem keeps_turn (direction : Vec α) :
    Edit.Keeps R P (Drive.onCache (Cache.turn direction) : Drive.Action ι π μ ω α Unit) where
  state s := by
    rw [outcome_turn]
    cases written : Vec.assign? s.driver.current.direction direction with
    | some d => exact Backdrop.turn s d (Vec.size_of_assign? written)
    | none => exact Backdrop.turn s s.driver.current.direction rfl
  fault s := by
    rw [outcome_turn]
    split
    · exact .ok _
    · exact .error (Fault.Broad.ordinary _ trivial)

end Drive

end Descent
