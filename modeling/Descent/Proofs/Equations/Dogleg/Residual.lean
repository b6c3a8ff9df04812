/-
# Descent.Proofs.Equations.Dogleg.Residual — the residual never grows

A trial is accepted only if the ratio of actual to predicted decrease is positive, and
over numbers without rounding that takes a residual that is defined and shorter than
the one before (`falls_of_accepted`).  Where no trial is accepted the point stays.  So
from a start with a defined residual no iteration makes the residual longer, and it
makes no difference to a run whether it may.
-/
import Descent.Proofs.Equations.Bounded
import Descent.Proofs.Equations.Dogleg.Trials
import Descent.Proofs.Iteration.Alike

namespace Descent.Dogleg
set_option autoImplicit false

open Wide

/-! ## One iteration -/

/-- A trial that is accepted leads to a shorter residual. -/
theorem falls_of_accepted {y z : Vec Wide} {J : Dense Wide} {p : Vec Wide} {least ratio : Wide}
    (nonneg : 0 ≤ least) (computed : decreaseRatio y z J p = .ok ratio) (accepted : least < ratio) :
    z.hasNaN = false ∧ z.norm < y.norm := by
  have positive : 0 < ratio := pos_of_lt nonneg accepted
  cases defined : z.hasNaN with
  | true =>
    simp only [decreaseRatio, defined, if_true] at computed
    cases computed
    exact absurd positive id
  | false =>
    simp only [decreaseRatio, defined, Bool.false_eq_true, if_false] at computed
    obtain ⟨Jp, -, rest⟩ := bind_eq_ok.1 computed
    obtain ⟨linearized, -, rest⟩ := bind_eq_ok.1 rest
    split at rest
    · cases rest
      exact absurd positive (lt_irrefl (0 : ℝ))
    · rename_i predicted
      cases rest
      have shorter := lt_of_half_lt (lt_of_sub_pos (pos_of_div_pos positive predicted))
      exact ⟨rfl, sqrt_lt_sqrt (normSq_nonneg defined) shorter⟩

section
variable {ω : Type} {G : PureEquations Wide} {c : Settings Wide} {s t : State ω Wide} {z : Vec Wide}
  {w w' : Shaped Wide}

/-- How the residual changes in an iteration from session `s` to session `t` that returns `z`, with
the trials that were made in it. -/
structure Falls (G : PureEquations Wide) (s t : State ω Wide) (z : Vec Wide) (w w' : Shaped Wide) :
    Prop where
  value : G.residual z = .ok w'
  defined : w'.hasNaN = false
  le : w'.norm ≤ w.norm
  trials : ∃ new, t.driver.memory.trials = s.driver.memory.trials ++ new ∧
    ((∃ q ∈ new, q.accepted = true) → w'.norm < w.norm) ∧
    ((∀ q ∈ new, q.accepted = false) → z = s.point)

theorem falls_of_step (nonneg : 0 ≤ c.acceptance) (here : G.residual s.point = .ok w)
    (now : s.driver.current.now.y = w) (defined : w.hasNaN = false)
    (stepped : (step G.actions c).outcome s = (.ok z, t)) : ∃ w', Falls G s t z w w' := by
  obtain ⟨count, -, l, trials, -, returns⟩ := attempts_step G c s
  rw [stepped] at trials returns
  obtain ⟨leads, -⟩ := returns z rfl
  have made := trials.trials_eq
  obtain ⟨b, mem, accepts, rfl⟩ | ⟨rejects, rfl⟩ := leads
  · obtain ⟨m, model, probe⟩ := trials.valid_of_mem mem
    obtain ⟨w', value, vector⟩ := probe.value
    obtain ⟨defined', shorter⟩ := falls_of_accepted nonneg probe.ratio accepts
    have shorter' : w'.norm < w.norm := by
      rw [Shaped.eq_ofVec vector, ← now, Shaped.eq_ofVec model.residual, Shaped.norm_ofVec,
        Shaped.norm_ofVec]
      exact shorter
    refine ⟨w', value, ?_, le_of_lt shorter', _, made, fun _ => shorter', fun none => ?_⟩
    · rw [Shaped.eq_ofVec vector, Shaped.hasNaN_ofVec]
      exact defined'
    · have rejected := none (b.trial c) (List.mem_map_of_mem mem)
      exact absurd accepts (of_decide_eq_false rejected)
  · refine ⟨w, here, defined, le_self (norm_ne_undefined defined), _, made, ?_, fun _ => rfl⟩
    rintro ⟨q, mem, accepted⟩
    obtain ⟨b, made, rfl⟩ := List.mem_map.1 mem
    exact absurd (of_decide_eq_true accepted) (rejects b made)

end

/-! ## Measures -/

section
variable {α : Type} [Extended α] {new old : SystemPoint α} {p q : ResidualProgress α}

/-- A move is measured by the residuals at its ends. -/
theorem residuals_of_updated
    (updated : (Iterate.update new old : Edit α (ResidualProgress α) Unit).outcome q = (.ok ⟨⟩, p)) :
    p.lastResidual = old.y.norm ∧ p.residual = new.y.norm := by
  simp only [Iterate.update, ResidualProgress.update, Edit.outcome_bind_ok,
    Edit.outcome_fit_ok] at updated
  obtain ⟨⟨⟩, _, ⟨⟩, _, _, ⟨-, rfl⟩, ⟨⟩, _, ⟨⟩, _, _, ⟨-, rfl⟩, ⟨⟩⟩ := updated
  exact ⟨rfl, rfl⟩

end

theorem not_increased {new old : SystemPoint Wide} {p q : ResidualProgress Wide} (o : Options Wide)
    (le : new.y.norm ≤ old.y.norm)
    (updated : (Iterate.update new old : Edit Wide (ResidualProgress Wide) Unit).outcome q =
      (.ok ⟨⟩, p)) : (p.assess o).residualIncreased = false := by
  obtain ⟨last, present⟩ := residuals_of_updated updated
  change decide (p.lastResidual < p.residual) = false
  rw [last, present]
  exact decide_eq_false (not_lt_of_le le)

/-! ## Runs -/

section
variable {ω : Type} {G : PureEquations Wide} {o : Options Wide} {c : Settings Wide} {x z : Vec Wide}
  {s h t u v : State ω Wide} {trace : List (Vec Wide)} {k : ℕ} {phase : Phase} {new : SystemPoint Wide}
  (nonneg : 0 ≤ c.acceptance) (start : ∀ w, G.residual x = .ok w → w.hasNaN = false)
  (entered : ((method G.actions o c).enter x).outcome s = (.ok trace, h))
include nonneg start entered

/-- Every iterate of a run has a defined residual. -/
theorem defined_at_head (after : (method G.actions o c).After h k phase t) :
    G.residual t.point = .ok t.driver.current.now.y ∧ t.driver.current.now.y.hasNaN = false := by
  have present {k : ℕ} {phase : Phase} {t : State ω Wide}
      (after : (method G.actions o c).After h k phase t) :=
    (after.coherent (sound G o c) entered).present
  induction after with
  | none =>
    obtain ⟨visited, value, -⟩ := present .none
    have value := G.residual_of_pointAt value
    cases visited with
    | start _ => exact ⟨value, start _ value⟩
  | @one k s' t' phase before advanced ih =>
    obtain ⟨visited, value, -⟩ := present (before.one advanced)
    have value := G.residual_of_pointAt value
    obtain ⟨new, u, proposed, valid, -⟩ := Method.advance_ok.1 advanced
    obtain ⟨z, v, stepped, -⟩ := (sound G o c).proposed proposed
    obtain ⟨w', falls⟩ := falls_of_step nonneg ih.1 rfl ih.2 stepped
    obtain rfl := visited.unique (.next entered before stepped proposed valid)
    rw [falls.value] at value
    cases value
    exact ⟨falls.value, falls.defined⟩

theorem falls_at_head (before : (method G.actions o c).After h k .running t)
    (stepped : (method G.actions o c).step.outcome t = (.ok z, u)) :
    ∃ w', Falls G t u z t.driver.current.now.y w' := by
  obtain ⟨value, defined⟩ := defined_at_head nonneg start entered before
  exact falls_of_step nonneg value rfl defined stepped

/-- What is judged is no longer than what it is compared with. -/
theorem le_at_judge (before : (method G.actions o c).After h k .running t)
    (stepped : (method G.actions o c).step.outcome t = (.ok z, u))
    (evaluated : (Method.evaluate (method G.actions o c) z).outcome u = (.ok new, v)) :
    new.y.norm ≤ v.driver.current.now.y.norm := by
  obtain ⟨w', falls⟩ := falls_at_head nonneg start entered before stepped
  have value : G.pointAt z = .ok new := by
    rw [← (sound G o c).evaluates z u, evaluated]
  have keeps : (method (ω := ω) G.actions o c).Keeps Drive.sameNow fun _ => True :=
    keeps_method (G.keeps fun _ _ => trivial) o c
  have now := (keeps.evaluate z).preserves evaluated |>.trans (keeps.step.preserves stepped)
  have same := falls.value.symm.trans (G.residual_of_pointAt value)
  rw [now, ← Except.ok.inj same]
  exact falls.le

/-- No iteration is measured to have increased the residual. -/
theorem unraised {p : ResidualProgress Wide} (measured : (method G.actions o c).Measures h k p) :
    p.residualIncreased = false := by
  cases measured with
  | @judged k t u new phase before proposed =>
    simp only [Method.propose, Edit.outcome_bind_ok] at proposed
    obtain ⟨z, _, stepped, _, _, evaluated, _, _, judged, returned⟩ := proposed
    cases returned
    obtain ⟨p, updated, assessed, -⟩ := Method.judge_ok judged
    rw [assessed]
    exact not_increased o (le_at_judge nonneg start entered before stepped evaluated) updated

/-- An iteration does not depend on whether it may increase the residual. -/
theorem advance_allowing (allowIncrease : Bool)
    (before : (method G.actions o c).After h k .running t) :
    (method G.actions { o with allowIncrease } c).advance.outcome t =
      (method G.actions o c).advance.outcome t := by
  refine Method.advance_congr rfl rfl rfl rfl fun z u new v stepped evaluated =>
    Method.judge_congr fun p updated => ⟨rfl, ?_⟩
  have le := le_at_judge nonneg start entered before stepped evaluated
  change (p.assess o).verdict { o with allowIncrease } = (p.assess o).verdict o
  simp only [ResidualProgress.verdict, ResidualProgress.isDiverged, not_increased o le updated,
    Bool.false_and]
  rfl

end

/-- What the residuals in the runs from `x` in session `s` are like. -/
structure Falling {ω : Type} (G : PureEquations Wide) (o : Options Wide) (c : Settings Wide)
    (x : Vec Wide) (s : State ω Wide) : Prop where
  /-- An iteration that returns does not make the residual longer. It makes it shorter if a trial was
  accepted in it, and does not move if none was. -/
  steps : ∀ trace h k t z u,
    ((method G.actions o c).enter x).outcome (Method.marked true s) = (.ok trace, h) →
    (method G.actions o c).After h k .running t →
    (method G.actions o c).step.outcome t = (.ok z, u) →
    ∃ w w' new, G.residual t.point = .ok w ∧ G.residual z = .ok w' ∧ w'.norm ≤ w.norm ∧
      u.driver.memory.trials = t.driver.memory.trials ++ new ∧
      ((∃ q ∈ new, q.accepted = true) → w'.norm < w.norm) ∧
      ((∀ q ∈ new, q.accepted = false) → z = t.point)
  /-- From one iterate to the next the residual does not get longer. -/
  iterates : ∀ k z z', (method G.actions o c).Visits x (Method.marked true s) k z →
    (method G.actions o c).Visits x (Method.marked true s) (k + 1) z' →
    ∃ w w', G.residual z = .ok w ∧ G.residual z' = .ok w' ∧ w'.norm ≤ w.norm
  /-- The residual is never measured to have increased. -/
  unraised : ∀ trace h k p,
    ((method G.actions o c).enter x).outcome (Method.marked true s) = (.ok trace, h) →
    (method G.actions o c).Measures h k p → p.residualIncreased = false
  /-- It makes no difference whether the residual may increase. -/
  allowing : ∀ allowIncrease,
    ((method G.actions { o with allowIncrease } c).solve x).outcome s =
      ((method G.actions o c).solve x).outcome s

/-- With admitted settings and from a start with a defined residual, the residual never grows. -/
theorem residual_never_grows {ω : Type} (G : PureEquations Wide) (o : Options Wide)
    (c₀ c : Settings Wide) (x : Vec Wide) (s : State ω Wide) (admitted : c₀.check = .ok c)
    (start : ∀ w, G.residual x = .ok w → w.hasNaN = false) (idle : s.driver.running = false) :
    Falling G o c x s := by
  have nonneg : 0 ≤ c.acceptance := by
    obtain ⟨rfl, -, ⟨nonneg, -⟩, -⟩ := Settings.check_ok admitted
    exact nonneg
  refine
    { steps := fun trace h k t z u entered before stepped => ?_
      iterates := fun k z z' visited visited' => ?_
      unraised := fun trace h k p entered measured => unraised nonneg start entered measured
      allowing := fun allowIncrease => ?_ }
  · obtain ⟨value, -⟩ := defined_at_head nonneg start entered before
    obtain ⟨w', falls⟩ := falls_at_head nonneg start entered before stepped
    obtain ⟨new, made, shorter, stays⟩ := falls.trials
    exact ⟨_, w', new, value, falls.value, falls.le, made, shorter, stays⟩
  · cases visited' with
    | next entered before stepped proposed valid =>
      obtain ⟨value, -⟩ := defined_at_head nonneg start entered before
      obtain ⟨w', falls⟩ := falls_at_head nonneg start entered before stepped
      obtain rfl := visited.unique (before.coherent (sound G o c) entered).present.1
      exact ⟨_, w', value, falls.value, falls.le⟩
  · refine Method.Alike.outcome_solve ⟨rfl, rfl, rfl, rfl, rfl, ?_⟩ idle
    exact fun trace h k t entered before =>
      advance_allowing nonneg start entered allowIncrease before

open PureEquations in
/-- From the usual start the full step is within the first radius, but it overshoots, and is not taken. -/
theorem residual_never_grows_rosenbrock :
    let c : Settings Wide := { Settings.standard with radius := 10.0 }
    let M : Solver (Region Wide) Unit Wide := method rosenbrock.actions .standard c
    let x := (reals rosenbrockStart).toArray
    let s : State Unit Wide := ⟨Drive.idle (blank c), (), {}, {}, #[]⟩
    (∃ trace h, (M.enter x).outcome (Method.marked true s) = (.ok trace, h)) ∧
      Falling rosenbrock .standard c x s ∧
      ∀ z, M.Visits x (Method.marked true s) 1 z →
        z ≠ (reals (rosenbrockStart + ![11/5, -121/25])).toArray := by
  intro c M x s
  have admitted : c.check = .ok c := by
    simp only [c, Settings.check, Settings.standard, zero_eq, one_eq, ofScientific_eq, real_lt,
      real_le]
    norm_num
  obtain ⟨trace, h, entered⟩ := (sound rosenbrock .standard c).reaches_head rfl
    (pointAt_rosenbrock rosenbrockStart) (fun u => rfl) (Method.marked true s)
  have falling : Falling rosenbrock .standard c x s :=
    residual_never_grows _ _ _ _ _ _ admitted (fun w there => by
      cases (residual_of_pointAt (pointAt_rosenbrock rosenbrockStart)).symm.trans there
      exact (Shaped.hasNaN_ofVec _).trans (hasNaN_reals _)) rfl
  refine ⟨⟨trace, h, entered⟩, falling, fun z visited full => ?_⟩
  obtain ⟨_, _, placing, -⟩ := Method.enter_ok.1 entered
  obtain ⟨w, w', here, there, le⟩ := falling.iterates 0 x z (.start placing) visited
  rw [full] at there
  cases (residual_of_pointAt (pointAt_rosenbrock rosenbrockStart)).symm.trans here
  cases (residual_of_pointAt (pointAt_rosenbrock _)).symm.trans there
  rw [Shaped.norm_ofVec, Shaped.norm_ofVec, norm_toArray_reals, norm_toArray_reals, real_le] at le
  have longer := rosenbrock_overshoots.2
  exact longer.not_ge ((Real.sqrt_le_sqrt_iff (Wide.dotProduct_self_nonneg _)).1 le)

end Descent.Dogleg
