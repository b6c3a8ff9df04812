/-
# Descent.Proofs.Objective.Secant — every lesson of a run satisfies the secant equation

An optimizer corrects its estimate of the inverse Hessian once in every iteration, after
it has moved on: by the difference of the last two iterates and that of their gradients.
The estimate of a run has real entries throughout (`remembers_of_after`), as it starts from
the identity, is reset to it, and is only ever corrected by real vectors.  So every lesson
leaves it as it was, or makes it take the change of the gradient to the step
(`lesson_of_accept`).

From a start on a quadratic objective a run with steps of constant length first goes down
the gradient (`step_constant`), and gets to its first lesson (`propose_constant`).
-/
import Descent.Proofs.InverseHessian.Secant
import Descent.Proofs.Objective.Coherence
import Descent.Proofs.Objective.Memory
import Descent.Proofs.Objective.Quadratic

namespace Descent
set_option autoImplicit false

open Matrix Wide

namespace Optimizer

/-- The memory holds an estimate of an extent with real entries. -/
def Remembers (n : ℕ) (m : Memory Wide) : Prop := ∃ h, m = some h ∧ h.OfReals n

/-- What the lesson of an iteration from one iterate to another makes of the memory: it holds the same
estimate, where the lesson corrects nothing, or the corrected one, which takes the change of the
gradient to the step. -/
def Lesson (old new : ObjectivePoint Wide) (m m' : Memory Wide) : Prop :=
  ∃ e e', m = some e ∧ m' = some e' ∧
    (e' = e ∧ (∀ A, ¬ Teaches old new e A) ∨
      Teaches old new e e'.matrix ∧ ∃ dx dg, Vec.sub? new.x old.x = some dx ∧
        new.g.sub? old.g = some dg ∧ e'.Secant (.ofVec dx) dg)

variable {ω : Type} {G : PureObjective Wide} {c : Settings Wide} {x z : Vec Wide}
  {s h t u v : State ω Wide} {trace : List (Vec Wide)} {n k : ℕ} {phase : Phase}
  {new : ObjectivePoint Wide} {r : Except (Fault Wide) Unit}

theorem remembers_of_step (remembers : Remembers n t.driver.memory)
    (stepped : (step G.actions c).outcome t = (.ok z, u)) : Remembers n u.driver.memory := by
  obtain ⟨e, here, ofReals⟩ := remembers
  obtain same | reset := memory_of_step (G.keeps fun _ _ => trivial) here stepped
  · exact ⟨e, same, ofReals⟩
  · exact ⟨e.reset, reset, InverseHessian.ofReals_reset ofReals⟩

/-- A lesson keeps the entries real. -/
theorem lesson_of_learn (remembers : Remembers n t.driver.memory)
    (learned : (learn : Action ω Wide Unit).outcome t = (r, u)) :
    Remembers n u.driver.memory ∧
      Lesson t.driver.current.before t.driver.current.now t.driver.memory u.driver.memory := by
  obtain ⟨e, here, ofReals⟩ := remembers
  obtain ⟨same, none⟩ | ⟨A, teaches, corrected⟩ := memory_of_learn here learned
  · exact ⟨⟨e, same, ofReals⟩, e, e, here, same, .inl ⟨rfl, none⟩⟩
  · obtain ⟨dx, dg, step, change, updated⟩ := teaches
    obtain ⟨ofReals', secant⟩ := InverseHessian.secant_of_update? ofReals updated
    exact ⟨⟨_, corrected, ofReals'⟩, e, _, here, corrected,
      .inr ⟨⟨dx, dg, step, change, updated⟩, dx, dg, step, change, secant⟩⟩

section
variable (approximated : c.hessian ≠ .exact)
  (entered : ((method G.actions c).enter x).outcome s = (.ok trace, h))
include approximated entered

/-- At the head of every iteration the estimate has real entries. -/
theorem remembers_of_after (after : (method G.actions c).After h k phase t) :
    Remembers x.size t.driver.memory := by
  have start : Remembers x.size h.driver.memory := by
    obtain ⟨u, v, placed, prepared, rfl, -⟩ := Method.enter_ok.1 entered
    have size : u.driver.current.now.x.size = x.size :=
      ((sound (ω := ω) G c).coherent_of_placed placed).present.2.2
    obtain ⟨rule, rfl⟩ := memory_of_prepare approximated prepared
    refine ⟨.start rule x.size, ?_, InverseHessian.ofReals_start rule _⟩
    exact congrArg (fun k => some (InverseHessian.start rule k)) size
  exact after.upheld (R := Drive.Upholds (Remembers x.size))
    (keeps_evaluate (G.keeps fun _ _ => trivial))
    (fun _ _ _ _ _ stepped remembers => remembers_of_step remembers stepped)
    (fun _ _ learned remembers => (lesson_of_learn remembers learned).1) start

/-- To accept a proposal is to write it, and to learn from the step to it. -/
theorem lesson_of_accept (before : (method G.actions c).After h k .running t)
    (proposed : (method G.actions c).propose.outcome t = (.ok (new, phase), u))
    (accepted : ((method G.actions c).accept new).outcome u = (r, v)) :
    v.driver.current.now = new ∧ v.driver.current.before = t.driver.current.now ∧
      Lesson t.driver.current.now new u.driver.memory v.driver.memory := by
  have sound := sound (ω := ω) G c
  have remembers : Remembers x.size u.driver.memory :=
    Method.propose_related (R := Drive.Upholds (Remembers x.size))
      (keeps_evaluate (G.keeps fun _ _ => trivial))
      (fun _ _ stepped remembers => remembers_of_step remembers stepped) proposed
      (remembers_of_after approximated entered before)
  obtain ⟨direction, -, written⟩ := sound.commit_ok (before.coherent sound entered) proposed
  rw [Method.accept, Edit.outcome_bind, written, Edit.andThen_ok] at accepted
  obtain ⟨d, there, now, before, -⟩ := sound.keeps.learn.related accepted _ rfl
  have current : v.driver.current = d := by rw [Drive.current, there, Option.getD_some]
  rw [current]
  have lesson := lesson_of_learn
    (t := { u with driver := u.driver.setCache ⟨new, t.driver.current.now, direction⟩ })
    remembers accepted
  exact ⟨now, before, lesson.2⟩

end

/-! ## First steps of constant length -/

/-- Steepest descent never leads uphill. -/
theorem isUphill_steepest (g : Fin n → ℝ) :
    isUphill (real (-g ⬝ᵥ g)) (.ofVec (reals g).toArray) = false := by
  rw [isUphill, Bool.and_eq_false_iff]
  by_cases zero : g = 0
  · right
    subst zero
    rw [Shaped.flat_ofVec, Array.any_eq_false']
    exact forall_toArray.2 fun i => by simp [zero_eq]
  · left
    have square : 0 < g ⬝ᵥ g :=
      (dotProduct_self_nonneg g).lt_of_ne fun none => zero (dotProduct_self_eq_zero.1 none.symm)
    simpa [zero_eq] using square

/-- The direction at the start is steepest descent. -/
theorem direction_start {y g : Fin n → ℝ} {f : ℝ} {rule : UpdateRule}
    (memory : t.driver.memory = some (.start rule n)) :
    (direction (G.actions : Problem ω Wide) (.reals y f g)).outcome t =
      (.ok (reals (-g)).toArray, t) := by
  have steepest : (InverseHessian.start rule n).direction (.ofVec (reals g).toArray) =
      .ok (.ofVec (reals (-g)).toArray) := InverseHessian.direction_reset (h := .start rule n) rfl g
  have product : (Shaped.ofVec (reals (-g)).toArray).inner (.ofVec (reals g).toArray) =
      .ok (real (-g ⬝ᵥ g)) := by rw [Shaped.inner_toArray, embeds.dot]
  have estimates : (estimated (.start rule n) (.ofVec (reals g).toArray) : Action ω Wide _).outcome t =
      (.ok (reals (-g)).toArray, t) := by
    refine Edit.outcome_bind_ok.2 ⟨_, t, by rw [steepest, Edit.outcome_ofExcept], ?_⟩
    refine Edit.outcome_bind_ok.2 ⟨_, t, by rw [product, Edit.outcome_ofExcept], ?_⟩
    rw [isUphill_steepest, if_neg Bool.false_ne_true, Shaped.flat_ofVec, Edit.outcome_pure]
  refine Edit.outcome_bind_ok.2 ⟨t.driver, t, rfl, ?_⟩
  rw [memory]
  refine Edit.outcome_bind_ok.2 ⟨_, _, estimates, ?_⟩
  dsimp only
  rw [hasNaN_reals]
  rfl

section
variable {A : Matrix (Fin n) (Fin n) ℝ} {b y z : Fin n → ℝ} {o : Options Wide}
  {search : LineSearch ℝ} {kind : HessianKind}

section
variable (quadratic : G.Quadratic A b)
include quadratic

/-- The start of a run with an estimate. -/
theorem fresh_of_entered (approximated : kind ≠ .exact)
    (entered : ((method G.actions (.exact kind search o)).enter (reals y).toArray).outcome s =
      (.ok trace, h)) :
    ∃ rule, Method.Fresh (some (.start rule n)) (.reals y (quadraticForm A b y) (A *ᵥ y - b)) h := by
  have sound := sound (ω := ω) G (.exact kind search o)
  obtain ⟨u, v, placing, prepared, rfl, -⟩ := Method.enter_ok.1 entered
  obtain ⟨-, first, w, evaluated, rfl⟩ := Method.place_ok.1 placing
  obtain rfl : first = .reals y (quadraticForm A b y) (A *ᵥ y - b) := by
    have value := sound.evaluates (reals y).toArray { s with count := {} }
    rw [evaluated, quadratic.pointAt] at value
    exact Except.ok.inj value
  obtain ⟨rule, rfl⟩ := memory_of_prepare approximated prepared
  refine ⟨rule, ?_, rfl, rfl, ?_⟩
  · simp [Method.placed, Drive.current, Cache.start]
  · constructor <;>
      simp [Method.placed, Drive.current, Cache.start, Iterate.point, Track.zeros, Vec.zeros]

variable (constant : search.kind = .static) (tries : 0 ≤ search.nanMaxIterations)
  (lands : z = y - search.alpha • (A *ᵥ y - b))
include constant tries lands

/-- The first step goes down the gradient. -/
theorem step_constant (kind : HessianKind) (o : Options Wide) {rule : UpdateRule}
    (fresh : Method.Fresh (some (.start rule n))
      (.reals y (quadraticForm A b y) (A *ᵥ y - b)) t) :
    ∃ u, (step G.actions (.exact kind search o)).outcome t = (.ok (reals z).toArray, u) := by
  have sized : Drive.Sized n t := (reals y).size_toArray ▸ fresh.sized
  obtain ⟨v, aimed, -, -⟩ := aim_directed kind o quadratic tries fresh.now sized
    (direction_start fresh.memory)
  have searched : search.wide.search (G.actions.ray : Ray (Action ω Wide) Wide) 1 =
      pure (real search.alpha) := by
    rw [LineSearch.search, show search.wide.kind = .static from constant]
    rfl
  refine ⟨v, ?_⟩
  rw [step_eq, lands, sub_eq_add_neg, ← smul_neg]
  refine Edit.outcome_bind_ok.2 ⟨_, v, aimed, ?_⟩
  rw [searched, pure_bind, add?_scale (by simp), linePoint_reals]
  rfl

/-- The first step of an estimate is proposed. -/
theorem propose_constant (approximated : kind ≠ .exact)
    (entered : ((method G.actions (.exact kind search o)).enter (reals y).toArray).outcome s =
      (.ok trace, h)) :
    ∃ phase u, (method G.actions (.exact kind search o)).propose.outcome h =
      (.ok (.reals z (quadraticForm A b z) (A *ᵥ z - b), phase), u) := by
  have sound := sound (ω := ω) G (.exact kind search o)
  obtain ⟨_, _, _, here, -⟩ := sound.coherent_of_entered entered
  obtain ⟨rule, fresh⟩ := fresh_of_entered quadratic approximated entered
  obtain ⟨w, stepped⟩ := step_constant quadratic constant tries lands kind o fresh
  obtain ⟨w', evaluated, -, same⟩ := sound.evaluates_step here stepped (quadratic.pointAt z)
  obtain ⟨p, measured⟩ := ObjectivePoint.measured y z (quadraticForm A b y)
    (quadraticForm A b z) (A *ᵥ y - b) (A *ᵥ z - b) w'.driver.progress
  obtain ⟨phase, u, judged⟩ : ∃ phase u, ((method G.actions (.exact kind search o)).judge
      (.reals z (quadraticForm A b z) (A *ᵥ z - b))).outcome w' = (.ok phase, u) := by
    rw [Method.outcome_judge, same, fresh.now, measured]
    exact ⟨_, _, rfl⟩
  refine ⟨phase, u, Edit.outcome_bind_ok.2 ⟨_, w, stepped, ?_⟩⟩
  refine Edit.outcome_bind_ok.2 ⟨_, w', evaluated, ?_⟩
  exact Edit.outcome_bind_ok.2 ⟨_, _, judged, rfl⟩

end

end

/-! ## Runs -/

/-- Every correction of a real matrix, symmetric or not, satisfies the secant equation unless it is
skipped.  In every run with an estimate of the inverse Hessian, once an iteration has moved on, the
cache holds the new iterate and the one before; the estimate is then the same as before, or takes the
change of the gradient between them to the step. -/
theorem secant_equations :
    (∀ (n : ℕ) (rule : UpdateRule) (Q : Matrix (Fin n) (Fin n) ℝ) (dx dg : Fin n → ℝ),
      rule.Corrects Q dx dg) ∧
    ∀ {ω : Type} (G : PureObjective Wide) (c : Settings Wide) (x : Vec Wide) (s : State ω Wide)
      (trace : List (Vec Wide)) (h t u v : State ω Wide) (k : ℕ) (new : ObjectivePoint Wide)
      (phase : Phase) (r : Except (Fault Wide) Unit),
      c.hessian ≠ .exact → ((method G.actions c).enter x).outcome s = (.ok trace, h) →
      (method G.actions c).After h k .running t →
      (method G.actions c).propose.outcome t = (.ok (new, phase), u) →
      ((method G.actions c).accept new).outcome u = (r, v) →
      v.driver.current.now = new ∧ v.driver.current.before = t.driver.current.now ∧
        Lesson t.driver.current.now new u.driver.memory v.driver.memory :=
  ⟨fun _ => UpdateRule.corrects, fun _ _ _ _ _ _ _ _ _ _ _ _ _ approximated entered before proposed
    accepted => lesson_of_accept approximated entered before proposed accepted⟩

/-- A matrix that is not symmetric, and the first step down a quadratic function with mixed second
derivatives. -/
theorem secant_equations_mixed :
    (∃ Q', UpdateRule.bfgs.update (storedMat !![1, 2; 0, 1]) (stored ![3, 4]) (stored ![4, 3]) =
        .ok (some (storedMat Q')) ∧ Q' *ᵥ ![4, 3] = ![(3 : ℝ), 4]) ∧
    ∃ (c : Settings Wide) (trace : List (Vec Wide)) (h u v : State Unit Wide)
      (new : ObjectivePoint Wide) (phase : Phase) (r : Except (Fault Wide) Unit),
      c.hessian = .bfgs ∧
      ((method (PureObjective.ofForm !![2, 1; 1, 2] ![3, 0]).actions c).enter
        (reals ![5, 7]).toArray).outcome ⟨Drive.idle none, (), {}, {}, #[]⟩ = (.ok trace, h) ∧
      (method (PureObjective.ofForm !![2, 1; 1, 2] ![3, 0]).actions c).propose.outcome h =
        (.ok (new, phase), u) ∧
      ((method (PureObjective.ofForm !![2, 1; 1, 2] ![3, 0]).actions c).accept new).outcome u =
        (r, v) ∧
      v.driver.current.now = new ∧ v.driver.current.before = h.driver.current.now ∧
      Lesson h.driver.current.now new u.driver.memory v.driver.memory := by
  refine ⟨(secant_equations.1 2 .bfgs !![1, 2; 0, 1] ![3, 4] ![4, 3]).secant ?_, ?_⟩
  · have lengths : length ![(3 : ℝ), 4] * length ![(4 : ℝ), 3] = 25 := by
      rw [length, length, ← Real.sqrt_mul (dotProduct_self_nonneg _), Real.sqrt_eq_iff_mul_self_eq]
        <;> norm_num
    rw [Ne, (secant_equations.1 2 .bfgs !![1, 2; 0, 1] ![3, 4] ![4, 3]).skipped]
    rintro (small | ⟨other, -⟩)
    · rw [lengths] at small
      norm_num at small
    · cases other
  · let c : Settings Wide := .exact .bfgs { LineSearch.standard with kind := .static } .usual
    obtain ⟨trace, h, entered⟩ : ∃ trace h,
        ((method (PureObjective.ofForm !![2, 1; 1, 2] ![3, 0]).actions c).enter
          (reals ![5, 7]).toArray).outcome ⟨Drive.idle none, (), {}, {}, #[]⟩ = (.ok trace, h) :=
      ⟨_, _, rfl⟩
    obtain ⟨phase, u, proposed⟩ := propose_constant (PureObjective.ofForm_quadratic _ _) rfl
      (by decide) rfl (by decide) entered
    exact ⟨c, trace, h, u, _, _, phase, _, rfl, entered, proposed, rfl,
      secant_equations.2 _ c _ _ trace h h u _ 0 _ phase _ (by decide) entered .none proposed rfl⟩

end Optimizer

end Descent
