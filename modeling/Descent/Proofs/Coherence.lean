/-
# Descent.Proofs.Coherence — the caches of all drivers

Whatever the system or the objective, the line search, the options and the start: the
cache of a driver holds the last two iterates with their values, at the head of every
iteration, when a run returns and when it fails.  A verdict of divergence tells the
last iterate that was moved to.
-/
import Descent.Proofs.Equations.Coherence
import Descent.Proofs.Finish
import Descent.Proofs.Objective.Coherence

namespace Descent
set_option autoImplicit false

/-- Every driver keeps its cache coherent. -/
theorem caches_coherent {ω α : Type} [Extended α] (o : Options α) (x : Vec α) :
    (∀ G : PureEquations α,
      (∀ (c : Newton.Settings α) s, o.check = .ok c.options → s.driver.running = false →
        (Newton.method (ω := ω) G.actions c).Faithful G.pointAt G.Faults x s) ∧
      (∀ (c : FixedPoint.Settings α) s, o.check = .ok c.options → s.driver.running = false →
        (FixedPoint.method (ω := ω) G.actions c).Faithful G.pointAt G.Faults x s) ∧
      ∀ (options : Options α) (c : Dogleg.Settings α) s, o.check = .ok options →
        s.driver.running = false →
        (Dogleg.method (ω := ω) G.actions options c).Faithful G.pointAt G.Faults x s) ∧
    ∀ (G : PureObjective α) (c : Optimizer.Settings α) s, o.check = .ok c.options →
      s.driver.running = false →
      (Optimizer.method (ω := ω) G.actions c).Faithful G.pointAt G.Faults x s := by
  refine ⟨fun G => ⟨?newton, ?fixedPoint, ?dogleg⟩, ?optimizer⟩
  case newton =>
    intro c s admitted idle
    exact (Newton.sound G c).faithful (Options.one_le_of_check admitted) idle
  case fixedPoint =>
    intro c s admitted idle
    exact (FixedPoint.sound G c).faithful (Options.one_le_of_check admitted) idle
  case dogleg =>
    intro options c s admitted idle
    exact (Dogleg.sound G options c).faithful (Options.one_le_of_check admitted) idle
  case optimizer =>
    intro G c s admitted idle
    exact (Optimizer.sound G c).faithful (Options.one_le_of_check admitted) idle

/-- The system `x = 0`. -/
def PureEquations.identity : PureEquations Float where
  residual x := .ok (.ofVec x)
  fixed x x' y y' size there there' := by
    cases there
    cases there'
    simp only [Shaped.ofVec, size]

/-- The squared length; its gradient is taken by differences. -/
def PureObjective.bowl : PureObjective Float where
  value x := .ok x.normSq
  fixed _ given := by cases given

theorem caches_coherent_identity :
    (Newton.method PureEquations.identity.actions ⟨.strict, .standard, 0, .every 5⟩).Faithful
      PureEquations.identity.pointAt PureEquations.identity.Faults #[1]
      ⟨Drive.idle (Newton.blank ⟨.strict, .standard, 0, .every 5⟩), (), {}, {}, #[]⟩ ∧
    (FixedPoint.method PureEquations.identity.actions ⟨.strict, .standard⟩).Faithful
      PureEquations.identity.pointAt PureEquations.identity.Faults #[1]
      ⟨Drive.idle (), (), {}, {}, #[]⟩ ∧
    (Dogleg.method PureEquations.identity.actions .strict .standard).Faithful
      PureEquations.identity.pointAt PureEquations.identity.Faults #[1]
      ⟨Drive.idle (Dogleg.blank .standard), (), {}, {}, #[]⟩ ∧
    (Optimizer.method PureObjective.bowl.actions ⟨.bfgs, .standard, .strict⟩).Faithful
      PureObjective.bowl.pointAt PureObjective.bowl.Faults #[1]
      ⟨Drive.idle none, (), {}, {}, #[]⟩ := by
  obtain ⟨systems, objectives⟩ := caches_coherent (ω := Unit) Options.strict #[(1 : Float)]
  obtain ⟨newton, fixedPoint, dogleg⟩ := systems PureEquations.identity
  exact ⟨newton _ _ Options.strict_check rfl, fixedPoint _ _ Options.strict_check rfl,
    dogleg _ _ _ Options.strict_check rfl, objectives _ _ _ Options.strict_check rfl⟩

end Descent
