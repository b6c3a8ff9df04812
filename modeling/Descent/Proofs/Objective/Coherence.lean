/-
# Descent.Proofs.Objective.Coherence — the cache of the optimizer

For an objective of plain functions, with gradients of fixed extents, the optimizer
is sound for every kind of Hessian.  Where the gradient is not known it is taken by
central differences, which are as plain as the values: the same algorithm runs on
the function itself and on the actions that count its values.
-/
import Descent.Proofs.Iteration.Coherence
import Descent.Proofs.Objective.Frame

namespace Descent
set_option autoImplicit false

/-- An objective of plain functions; known gradients at points of one size have the same extents. -/
structure PureObjective (α : Type) where
  value : Vec α → Except (Fault α) α
  gradient : Option (Vec α → Except (Fault α) (Shaped α)) := none
  hessian : Option (Vec α → Except (Fault α) (Shaped α)) := none
  dim : Option Int := none
  fixed : ∀ g ∈ gradient, ∀ x x' y y', x'.size = x.size → g x = .ok y → g x' = .ok y' →
    y'.extents = y.extents

namespace PureObjective

section
variable {α : Type} (G : PureObjective α)

/-- The objective as an optimizer calls it. -/
def actions {δ ω : Type} : Objective δ ω α where
  value x := ofExcept (G.value x)
  gradient := G.gradient.map fun g x => ofExcept (g x)
  hessian := G.hessian.map fun H x => ofExcept (H x)
  dim := G.dim

/-- A function of the objective can raise the fault. -/
def Raises (e : Fault α) : Prop :=
  (∃ x, G.value x = .error e) ∨ (∃ g ∈ G.gradient, ∃ x, g x = .error e) ∨
    ∃ H ∈ G.hessian, ∃ x, H x = .error e

/-- The faults of an optimizer of the objective that are not its verdict. -/
abbrev Faults (e : Fault α) : Prop := e.Ordinary ∨ G.Raises e

/-- The gradient, known or by central differences. -/
def slope [Scalar α] (x : Vec α) : Except (Fault α) (Shaped α) :=
  match G.gradient with
  | some gradient => gradient x
  | none => return .ofVec (← Differences.gradient G.value x 1e-6).1

/-- A point with its value and gradient. -/
def pointAt [Scalar α] (x : Vec α) : Except (Fault α) (ObjectivePoint α) :=
  return ⟨x, ← G.value x, ← G.slope x⟩

variable {G}

theorem keeps {δ ω : Type} {R : Session δ ω α → Session δ ω α → Prop}
    [IsPreorder (Session δ ω α) R] {P : Fault α → Prop} (raised : ∀ e, G.Raises e → P e) :
    (G.actions : Objective δ ω α).Keeps R P where
  value x := .ofExcept fun e failed => raised e (.inl ⟨x, failed⟩)
  gradient := by
    intro g given x
    obtain ⟨g', known, rfl⟩ := Option.map_eq_some_iff.1 given
    exact .ofExcept fun e failed => raised e (.inr (.inl ⟨g', known, x, failed⟩))
  hessian := by
    intro H given x
    obtain ⟨H', known, rfl⟩ := Option.map_eq_some_iff.1 given
    exact .ofExcept fun e failed => raised e (.inr (.inr ⟨H', known, x, failed⟩))

theorem keeps_faults {δ ω : Type} {R : Session δ ω α → Session δ ω α → Prop}
    [IsPreorder (Session δ ω α) R] : (G.actions : Objective δ ω α).Keeps R G.Faults :=
  G.keeps fun _ => .inr

end

/-! ## Values and gradients -/

section
variable {α : Type} [Scalar α] {G : PureObjective α}

theorem size_of_gradient {f : Vec α → Except (Fault α) α} {x g : Vec α} {eps : α} {evaluations : Nat}
    (returned : Differences.gradient f x eps = .ok (g, evaluations)) : g.size = x.size := by
  obtain ⟨_, -, rest⟩ := bind_eq_ok.1 returned
  obtain ⟨slopes, -, rest⟩ := bind_eq_ok.1 rest
  cases rest
  exact slopes.size_toArray

/-- Gradients at points of one size have the same extents. -/
theorem extents_of_slope {x x' : Vec α} {g g' : Shaped α} (size : x'.size = x.size)
    (there : G.slope x = .ok g) (there' : G.slope x' = .ok g') : g'.extents = g.extents := by
  unfold slope at there there'
  cases known : G.gradient with
  | some gradient =>
    simp only [known] at there there'
    exact G.fixed gradient known x x' g g' size there there'
  | none =>
    simp only [known] at there there'
    obtain ⟨⟨d, _⟩, differences, returned⟩ := bind_eq_ok.1 there
    obtain ⟨⟨d', _⟩, differences', returned'⟩ := bind_eq_ok.1 there'
    cases returned
    cases returned'
    simp only [Shaped.ofVec, size_of_gradient differences, size_of_gradient differences', size]

section
variable {δ ω : Type} {I : Session δ ω α → Prop} (counted : ∀ s count, I s → I { s with count })
  (x : Vec α)
include counted

omit [Scalar α] in
theorem rel_valueAt : (Correspondence.within I).Rel (G.value x) (G.actions.valueAt x) :=
  (Correspondence.within I).bind (Correspondence.within_tally counted _) fun _ =>
    Correspondence.within_ofExcept (G.value x)

theorem rel_gradientAt : (Correspondence.within I).Rel (G.slope x) (G.actions.gradientAt x) := by
  unfold slope Objective.gradientAt Objective.gradientCost
  cases known : G.gradient with
  | some gradient =>
    have same := Correspondence.within_counted counted
      ((Correspondence.within I).bind (Correspondence.within_ofExcept (gradient x)) fun g =>
        (Correspondence.within I).pure (g, ({ first := 1 } : Evaluations)))
    simpa only [actions, known, Option.map_some, bind_assoc, pure_bind, bind_pure] using same
  | none =>
    have differences := (Correspondence.within I).gradient (fun _ _ => trivial)
      (fun x => Correspondence.within_ofExcept (G.value x)) x 1e-6
    have same := Correspondence.within_counted counted ((Correspondence.within I).bind differences
      fun p => (Correspondence.within I).pure (Shaped.ofVec p.1, ({ values := p.2 } : Evaluations)))
    simpa only [actions, known, Option.map_none, bind_assoc, pure_bind] using same

end

end

end PureObjective

variable {ω α : Type} [Extended α]

/-! ## Iterates -/

theorem ObjectivePoint.outcome_overwrite {old new : ObjectivePoint α}
    (size : new.x.size = old.x.size) (extents : new.g.extents = old.g.extents) :
    (Iterate.overwrite new : Edit α (ObjectivePoint α) Unit).outcome old = (.ok ⟨⟩, new) := by
  simp only [Iterate.overwrite, Edit.outcome_bind, Edit.outcome_get, Edit.andThen_ok,
    Vec.assign?_of_size_eq size, fit, Edit.outcome_pure, Edit.outcome_modify, ← extents,
    Shaped.assign?_extents]

theorem ObjectivePoint.ordinary_update (new old : ObjectivePoint α) (p : ObjectiveProgress α) :
    Fault.Only Fault.Ordinary
      ((Iterate.update new old : Edit α (ObjectiveProgress α) Unit).outcome p).1 := by
  have kept : Edit.Keeps (Edit.Unchanged fun _ => ()) Fault.Ordinary
      (Iterate.update new old : Edit α (ObjectiveProgress α) Unit) := by
    simp only [Iterate.update, ObjectiveProgress.update]
    refine .bind (.change fun _ => rfl) fun _ => .bind (.fit trivial) fun _ => ?_
    refine .bind (.change fun _ => rfl) fun _ => .bind (.fit trivial) fun _ => ?_
    exact .bind (.change fun _ => rfl) fun _ => .bind (.ofExcept (ordinary_inner _ _)) fun _ =>
      .change fun _ => rfl
  exact kept.fault p

namespace Optimizer

variable {F : Problem ω α} {P : Fault α → Prop} [Fault.Broad P] {c : Settings α}
  {s t : Drive.State (ObjectivePoint α) (ObjectiveProgress α) (Memory α) ω α}
  {cache : Cache (ObjectivePoint α) α} {z : Vec α}

theorem size_of_step (kept : F.Keeps Drive.SameIterates P) (here : s.driver.cache = some cache)
    (fits : cache.direction.size = cache.now.x.size)
    (stepped : (step F c).outcome s = (.ok z, t)) : z.size = cache.now.x.size := by
  simp only [step, Edit.outcome_bind_ok, Edit.outcome_fit_ok] at stepped
  obtain ⟨p, _, found, d, s', directed, d', s'', shortened, ⟨⟩, v, turned, ⟨⟩, _, -, alpha, _, -,
    added, -⟩ := stepped
  cases found
  have directs : Drive.SameIterates s s' := (keeps_direction kept _).related directed
  have shortens : Drive.SameIterates s' s'' := (Drive.keeps_shortenUndefined (fun x =>
    .bind (keeps_valueAt kept x) fun _ => .pure _) _ _ _ _ _).related shortened
  simp only [Drive.current, here, Option.getD_some] at added
  exact Method.size_of_moved here (trans_of Drive.SameIterates directs shortens) fits turned
    (by simp [Vec.scale]) added

/-- The optimizer of an objective is sound. -/
theorem sound (G : PureObjective α) (c : Settings α) :
    (method (ω := ω) G.actions c).Sound G.pointAt G.Faults where
  own := keeps_method (G.keeps fun _ _ => trivial) c
  keeps := keeps_method G.keeps_faults c
  evaluates x s := by
    let C := Correspondence.within (α := α) fun _ : Drive.State (ObjectivePoint α)
      (ObjectiveProgress α) (Memory α) ω α => True
    exact (C.bind (G.rel_valueAt (fun _ _ => id) x) (fun f =>
      C.bind (G.rel_gradientAt (fun _ _ => id) x) fun g => C.pure (⟨x, f, g⟩ : ObjectivePoint α))
        s trivial).1
  point x p value := by
    obtain ⟨f, -, rest⟩ := bind_eq_ok.1 value
    obtain ⟨g, -, returned⟩ := bind_eq_ok.1 rest
    cases returned
    rfl
  overwrites x x' p p' size value value' := by
    obtain ⟨f, -, rest⟩ := bind_eq_ok.1 value
    obtain ⟨g, there, returned⟩ := bind_eq_ok.1 rest
    obtain ⟨f', -, rest'⟩ := bind_eq_ok.1 value'
    obtain ⟨g', there', returned'⟩ := bind_eq_ok.1 rest'
    cases returned
    cases returned'
    exact ObjectivePoint.outcome_overwrite size (G.extents_of_slope size there there')
  measures new old p := (ObjectivePoint.ordinary_update new old p).mono fun _ => .inl
  stays _ _ _ _ := size_of_step G.keeps_faults

end Optimizer

end Descent
