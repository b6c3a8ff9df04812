/-
# Descent.Proofs.Objective.Ray — rays of plain objectives

Along a line that stays where it is, the ray of an objective of plain functions is a plain
ray (`PureObjective.ray`).  Where an objective is real if it is defined
(`PureObjective.Bounded`), gradients by central differences are real or undefined as well.
-/
import Descent.Proofs.Equations.Bounded
import Descent.Proofs.Iteration.Aim
import Descent.Proofs.Objective.Coherence

namespace Descent
set_option autoImplicit false

namespace PureObjective

section
variable {α : Type} [Scalar α] {δ ω : Type} (G : PureObjective α) (x d : Vec α)

/-- The objective along a line. -/
def ray : Ray (Except (Fault α)) α where
  value alpha := G.value (linePoint x d alpha)
  slope alpha := do
    let g ← G.slope (linePoint x d alpha)
    g.inner (.ofVec d)

theorem rel_ray : (Correspondence.along (ω := ω) (δ := δ) x d).Rays (G.ray x d) G.actions.ray := by
  let C := Correspondence.along (ω := ω) (δ := δ) x d
  constructor
  · exact fun alpha => Correspondence.along_visit (G.rel_valueAt Session.Along.counted _)
  · intro alpha
    refine Correspondence.along_visit
      (C.bind (G.rel_gradientAt Session.Along.counted _) fun g => Correspondence.within_get ?_)
    rintro s ⟨-, rfl⟩
    exact Correspondence.within_ofExcept _

end

open Wide

/-- Values and known gradients have no infinite entries. -/
structure Bounded (G : PureObjective Wide) : Prop where
  value : ∀ x a, G.value x = .ok a → a.Bounded
  gradient : ∀ g x A, G.gradient = some g → g x = .ok A → ∀ a ∈ A.flat, a.Bounded

/-- The squared length, where it is real. -/
noncomputable def valley : PureObjective Wide where
  value x := .ok (finite x.normSq)
  gradient := some fun x => .ok (.ofVec (x.map fun a => finite (2.0 * a)))
  fixed := by
    rintro g ⟨⟩ x x' y y' size ⟨⟩ ⟨⟩
    simp only [Shaped.ofVec, Array.size_map, size]

theorem valley_bounded : valley.Bounded where
  value x a there := by
    cases there
    exact bounded_finite _
  gradient g x A known there := by
    cases known
    cases there
    simpa using fun a _ => bounded_finite _

/-- Gradients have no infinite entries. -/
theorem Bounded.slope {G : PureObjective Wide} (bounded : G.Bounded) {x : Vec Wide} {g : Shaped Wide}
    (taken : G.slope x = .ok g) : ∀ a ∈ g.flat, a.Bounded := by
  unfold PureObjective.slope at taken
  split at taken
  · exact bounded.gradient _ _ _ ‹_› taken
  · obtain ⟨⟨d, cost⟩, differences, returned⟩ := bind_eq_ok.1 taken
    cases returned
    obtain ⟨⟨⟩, -, differences⟩ := bind_eq_ok.1 differences
    obtain ⟨slopes, entries, returned⟩ := bind_eq_ok.1 differences
    cases returned
    rw [Shaped.flat_ofVec, forall_toArray]
    intro i
    obtain ⟨above, there, rest⟩ := bind_eq_ok.1 (ofFnM_eq_ok entries i)
    obtain ⟨below, there', divided⟩ := bind_eq_ok.1 rest
    rw [← Except.ok.inj divided, ofScientific_eq, ofScientific_eq, real_mul]
    exact ((bounded.value _ _ there).sub (bounded.value _ _ there')).div_real (by norm_num)

end PureObjective

end Descent
