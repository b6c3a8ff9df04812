/-
# Descent.Proofs.Equations.Picard — whole steps repeat the map

For `F(x) = x - g(x)` the direction `-F(x)` leads from `x` to `g(x)`.  A fixed-point iterator
whose steps are all of length one (`LineSearch.Whole`) therefore applies `g` once in each
iteration (`FixedPoint.step_whole`): the residual that it steps with is the one at the present
iterate, no earlier one, as the cache is coherent.

So whatever the options say, iterate `k` of a run is `g` applied `k` times to the start
(`FixedPoint.point_of_visits`), wherever the run ends; and as there is always a next iterate, no
run fails but by the verdict that it diverges (`FixedPoint.solve_repeats`).  If `g` is a
contraction, the distance from its fixed point shrinks with every iteration.
-/
import Descent.Proofs.Equations.Dogleg.Progress
import Descent.Proofs.Equations.Evaluation
import Descent.Proofs.Iteration.Alike
import Descent.Proofs.Iteration.Memory
import Descent.Proofs.Iteration.Single
import Descent.Proofs.LineSearch.Line
import Descent.Proofs.Stopping
import Mathlib.Analysis.Seminorm

namespace Descent
set_option autoImplicit false

open Wide

variable {n : ℕ}

/-! ## Maps, steps and iterates -/

/-- At points of real numbers the residual is `x - g(x)`. -/
structure PureEquations.FixedPoints (G : PureEquations Wide) (g : (Fin n → ℝ) → Fin n → ℝ) :
    Prop where
  dim : ∀ k ∈ G.dim, k = n
  residual : ∀ x : Fin n → ℝ, G.residual (reals x).toArray = .ok (.ofVec (reals (x - g x)).toArray)

theorem PureEquations.FixedPoints.pointAt {G : PureEquations Wide} {g : (Fin n → ℝ) → Fin n → ℝ}
    (fixed : G.FixedPoints g) (x : Fin n → ℝ) :
    G.pointAt (reals x).toArray = .ok (.reals x (x - g x)) := by
  rw [PureEquations.pointAt, fixed.residual]
  rfl

theorem PureEquations.fixedPoints_ofReal (g : (Fin n → ℝ) → Fin n → ℝ)
    (J : (Fin n → ℝ) → Matrix (Fin n) (Fin n) ℝ) :
    (PureEquations.ofReal (fun z => z - g z) J).FixedPoints g where
  dim _ known := nomatch known
  residual := residual_ofReal _ J

/-- All steps have the length one, whatever the ray is. -/
structure LineSearch.Whole (c : LineSearch Wide) : Prop where
  constant : c.kind = .static
  unit : c.alpha = 1
  tries : 0 ≤ c.nanMaxIterations

theorem LineSearch.Whole.search_eq {m : Type → Type} [Monad m] [MonadExcept (Fault Wide) m]
    [Reports Wide m] {c : LineSearch Wide} (whole : c.Whole) (ray : Ray m Wide) (alpha₀ : Wide) :
    c.search ray alpha₀ = pure 1 := by
  rw [search, whole.constant, whole.unit]

/-- With every application of a contraction a point comes nearer to the fixed point. -/
theorem iterate_sub_le (N : Seminorm ℝ (Fin n → ℝ)) {g : (Fin n → ℝ) → Fin n → ℝ} {q : ℝ}
    {z : Fin n → ℝ} (nonneg : 0 ≤ q) (contracts : ∀ a b, N (g a - g b) ≤ q * N (a - b))
    (stays : g z = z) (x : Fin n → ℝ) (k : ℕ) : N (g^[k] x - z) ≤ q ^ k * N (x - z) := by
  induction k with
  | zero => simp
  | succ k ih =>
    calc N (g^[k + 1] x - z) = N (g (g^[k] x) - g z) := by rw [Function.iterate_succ_apply', stays]
      _ ≤ q * N (g^[k] x - z) := contracts _ _
      _ ≤ q * (q ^ k * N (x - z)) := mul_le_mul_of_nonneg_left ih nonneg
      _ = q ^ (k + 1) * N (x - z) := by rw [pow_succ', mul_assoc]

/-- The progress from one point of real numbers to another can be measured. -/
theorem SystemPoint.measured {m : ℕ} (x x' : Fin n → ℝ) (y y' : Fin m → ℝ)
    (p : ResidualProgress Wide) :
    ∃ q, (Iterate.update (reals x' y') (reals x y)).outcome p = (.ok ⟨⟩, q) := by
  simp only [Iterate.update, ResidualProgress.update, Edit.outcome_bind, Edit.outcome_modify,
    Edit.andThen_ok, sub?_reals, fit, Edit.outcome_pure]
  exact ⟨_, rfl⟩

/-- Where the points of a run are known, so is its trace. -/
theorem Method.Traced.eq_map {ι π μ ω α : Type} [Extended α] [Iterate ι π α]
    {M : Method ι π μ ω α} {h t : Drive.State ι π μ ω α} {k : ℕ} {phase : Phase}
    {points : List (Vec α)} {f : ℕ → Vec α} (traced : M.Traced h k points)
    (after : M.After h k phase t)
    (point : ∀ j phase s, M.After h j phase s → s.point = f j) :
    points = if M.options.keepTrace then (List.range (k + 1)).map f else [] := by
  by_cases kept : M.options.keepTrace = true
  case neg => simpa only [Traced, if_neg kept] using traced
  simp only [Traced, if_pos kept] at traced
  obtain ⟨count, entries⟩ := traced
  rw [if_pos kept]
  refine List.ext_getElem? fun j => ?_
  by_cases within : j ≤ k
  · obtain ⟨phase', s, before⟩ : ∃ phase s, M.After h j phase s := by
      rcases Nat.lt_or_eq_of_le within with less | rfl
      · exact ⟨_, after.before less⟩
      · exact ⟨_, _, after⟩
    rw [entries j phase' s before within, point j phase' s before]
    simp [Nat.lt_succ_iff.2 within]
  · rw [List.getElem?_eq_none (by omega), List.getElem?_eq_none (by simp; omega)]

namespace FixedPoint

/-- The session of a fixed-point iterator. -/
abbrev State (ω α : Type) := Drive.State (SystemPoint α) (ResidualProgress α) Unit ω α

/-! ## One iteration -/

theorem step_eq {ω α : Type} [Extended α] (F : Solver.Problem Unit ω α) (c : Settings α) :
    (method F c).step = (do
      let d ← Solver.defined (← Drive.now).y.neg.flat
      let x := (← Drive.now).x
      let d ← Drive.aim F.residualAt c.search c.options.verbosity x d
      let alpha ← c.search.search (F.ray none) 1
      fit (Vec.add? x (Vec.scale alpha d))) := by
  simp only [method, Solver.lineStep, Drive.aim, bind_assoc, pure_bind]

/-- As many equations as unknowns are admitted. -/
theorem outcome_square {ω : Type} (x y : Fin n → ℝ) (s : State ω Wide) :
    square.outcome (Method.placed (.reals x y) (reals x).toArray s) =
      (.ok ⟨⟩, Method.placed (.reals x y) (reals x).toArray s) := by
  have extents : (Shaped.ofVec (reals y).toArray).extents = [(reals x).toArray.size] := by
    simp [Shaped.ofVec]
  refine Edit.outcome_bind_ok.2 ⟨.reals x y, _, rfl, ?_⟩
  simp only [SystemPoint.reals, extents, ne_eq, not_true_eq_false, if_false, Edit.outcome_pure]

section
variable {ω : Type} {G : PureEquations Wide} {g : (Fin n → ℝ) → Fin n → ℝ} {c : Settings Wide}
  {x z : Fin n → ℝ} {s h t : State ω Wide} {trace : List (Vec Wide)} {k : ℕ} {phase : Phase}
  (fixed : G.FixedPoints g) (whole : c.search.Whole)

include fixed whole in
/-- A step applies the map. -/
theorem step_whole (now : t.driver.current.now = .reals z (z - g z)) (sized : Drive.Sized n t) :
    ∃ u, (method G.actions c).step.outcome t = (.ok (reals (g z)).toArray, u) := by
  have kept : (G.actions : Solver.Problem Unit ω Wide).Keeps Drive.SameSizes fun _ => True :=
    G.keeps fun _ _ => trivial
  have read : (Drive.now : Solver.Action Unit ω Wide _).outcome t =
      (.ok (.reals z (z - g z)), t) := by
    rw [← now]
    rfl
  have defined : (Solver.defined (SystemPoint.reals z (z - g z)).y.neg.flat :
      Solver.Action Unit ω Wide _).outcome t = (.ok (reals (g z - z)).toArray, t) := by
    rw [neg_reals, Shaped.flat_ofVec, neg_sub, Solver.defined, hasNaN_reals]
    rfl
  have arrives : Vec.add? (reals z).toArray (reals (g z - z)).toArray =
      some (reals (g z)).toArray := by rw [add?_reals, add_sub_cancel]
  have leads : Leads G.residual (reals z).toArray false (reals (g z - z)).toArray :=
    ⟨_, _, arrives, fixed.residual (g z), (Shaped.hasNaN_ofVec _).trans (hasNaN_reals _)⟩
  obtain ⟨u, aimed⟩ : ∃ u, (Drive.aim (G.actions : Solver.Problem Unit ω Wide).residualAt c.search
      c.options.verbosity (reals z).toArray (reals (g z - z)).toArray).outcome t =
        (.ok (reals (g z - z)).toArray, u) :=
    (Drive.outcome_aim (fun w => G.rel_residualAt w fun _ _ => id) (Solver.keeps_residualAt kept)
      ((reals z).size_toArray.symm ▸ sized) (by simp) leads whole.tries).imp fun _ => And.left
  refine ⟨u, ?_⟩
  rw [step_eq]
  refine Edit.outcome_bind_ok.2 ⟨_, t, read, ?_⟩
  refine Edit.outcome_bind_ok.2 ⟨_, t, defined, ?_⟩
  refine Edit.outcome_bind_ok.2 ⟨_, t, read, ?_⟩
  refine Edit.outcome_bind_ok.2 ⟨_, u, aimed, ?_⟩
  rw [whole.search_eq, pure_bind, add?_unit]
  rfl

/-! ## Runs -/

/-- At the heads of iterations all sizes are those of the start. -/
theorem sized_at_head
    (entered : ((method G.actions c).enter (reals x).toArray).outcome s = (.ok trace, h))
    (after : (method G.actions c).After h k phase t) : Drive.Sized n t := by
  have keeps : (method (ω := ω) G.actions c).Keeps Drive.sameTrack fun _ => True :=
    keeps_method (G.keeps fun _ _ => trivial) c
  have start : (reals x).toArray.size = n := (reals x).size_toArray
  obtain ⟨base, line⟩ := keeps.track entered after
  obtain ⟨_, _, cache, here, holds⟩ := after.coherent (sound G c) entered
  refine ⟨?_, base.trans start, line.trans start⟩
  rw [Drive.current, here, Option.getD_some]
  exact holds.direction.trans start

include fixed in
/-- The residual in the cache is that at the present iterate. -/
theorem now_of_point
    (entered : ((method G.actions c).enter (reals x).toArray).outcome s = (.ok trace, h))
    (after : (method G.actions c).After h k phase t) (point : t.point = (reals z).toArray) :
    t.driver.current.now = .reals z (z - g z) := by
  obtain ⟨-, value, -⟩ := (after.coherent (sound G c) entered).present
  rw [point, fixed.pointAt] at value
  exact (Except.ok.inj value).symm

include fixed in
/-- A run gets to its first iteration. -/
theorem enters (x : Fin n → ℝ) (s : State ω Wide) :
    ∃ trace h, ((method G.actions c).enter (reals x).toArray).outcome s = (.ok trace, h) := by
  have admitted : (method (ω := ω) G.actions c).checkStart (reals x).toArray = .ok ⟨⟩ :=
    Method.checkStart_ok fun k known => by
      rw [fixed.dim k known]
      exact congrArg Nat.cast (reals x).size_toArray.symm
  exact (sound G c).reaches_head admitted (fixed.pointAt x)
    (fun u => congrArg Prod.fst (outcome_square x (x - g x) u)) s

include fixed whole

/-- Iterate `k` is the map applied `k` times. -/
theorem point_of_visits {y : Vec Wide}
    (visited : (method G.actions c).Visits (reals x).toArray s k y) :
    y = (reals (g^[k] x)).toArray := by
  induction k generalizing y with
  | zero =>
    cases visited
    rfl
  | succ k ih =>
    cases visited with
    | next entered before stepped proposed valid =>
      have point := ih (before.coherent (sound G c) entered).present.1
      obtain ⟨u, stepped'⟩ := step_whole fixed whole (now_of_point fixed entered before point)
        (sized_at_head entered before)
      rw [stepped] at stepped'
      cases stepped'
      rw [Function.iterate_succ_apply']

theorem point_of_after
    (entered : ((method G.actions c).enter (reals x).toArray).outcome s = (.ok trace, h))
    (after : (method G.actions c).After h k phase t) : t.point = (reals (g^[k] x)).toArray :=
  point_of_visits fixed whole (after.coherent (sound G c) entered).present.1

/-- There is a next iterate to every one. -/
theorem proposes
    (entered : ((method G.actions c).enter (reals x).toArray).outcome s = (.ok trace, h))
    (before : (method G.actions c).After h k .running t) :
    ∃ new phase u, (method G.actions c).propose.outcome t = (.ok (new, phase), u) := by
  have now := now_of_point fixed entered before (point_of_after fixed whole entered before)
  obtain ⟨u, stepped⟩ := step_whole fixed whole now (sized_at_head entered before)
  obtain ⟨_, _, cache, here, -⟩ := before.coherent (sound G c) entered
  obtain ⟨v, evaluated, -, same⟩ :=
    (sound G c).evaluates_step here stepped (fixed.pointAt (g (g^[k] x)))
  obtain ⟨q, measured⟩ := SystemPoint.measured (g^[k] x) (g (g^[k] x)) (g^[k] x - g (g^[k] x))
    (g (g^[k] x) - g (g (g^[k] x))) v.driver.progress
  obtain ⟨phase, w, judged⟩ : ∃ phase w, ((method G.actions c).judge
      (.reals (g (g^[k] x)) (g (g^[k] x) - g (g (g^[k] x))))).outcome v = (.ok phase, w) := by
    rw [Method.outcome_judge, same, now, measured]
    exact ⟨_, _, rfl⟩
  refine ⟨.reals (g (g^[k] x)) (g (g^[k] x) - g (g (g^[k] x))), phase, w, ?_⟩
  refine Edit.outcome_bind_ok.2 ⟨_, u, stepped, ?_⟩
  refine Edit.outcome_bind_ok.2 ⟨_, v, evaluated, ?_⟩
  exact Edit.outcome_bind_ok.2 ⟨_, w, judged, rfl⟩

/-- So an iteration that fails has diverged, and left the present iterate in the cache. -/
theorem diverged_of_failed {e : Fault Wide} {u : State ω Wide}
    (entered : ((method G.actions c).enter (reals x).toArray).outcome s = (.ok trace, h))
    (before : (method G.actions c).After h k .running t)
    (failed : (method G.actions c).advance.outcome t = (.error e, u)) :
    u.point = (reals (g^[k] x)).toArray ∧
      ∃ p, e = .diverged "fixed-point iterator" p (reals (g^[k] x)).toArray := by
  have coherent := before.coherent (sound G c) entered
  obtain ⟨new, phase, v, proposed⟩ := proposes fixed whole entered before
  have point : v.point = (reals (g^[k] x)).toArray := by
    have same := coherent.of_sameIterates ((sound G c).keeps_propose.related proposed)
    exact point_of_visits fixed whole same.present.1
  obtain proposing | ⟨new', proposed', rfl⟩ | ⟨new', phase', v', proposed', valid, accepting⟩ :=
    Method.advance_error failed
  · rw [proposed] at proposing
    cases proposing
  · rw [proposed] at proposed'
    cases proposed'
    exact ⟨point, _, by rw [point]; rfl⟩
  · obtain ⟨w, moved, -⟩ := (sound G c).commits entered before coherent proposed' valid
    rw [Method.accept, Edit.outcome_bind, moved] at accepting
    cases accepting

/-! ## The whole run -/

theorem run_returns {out : Outcome (SystemPoint Wide) Wide} {u : State ω Wide}
    (ran : ((method G.actions c).run (reals x).toArray).outcome s = (.ok out, u)) :
    out.last.x = (reals (g^[out.iterations] x)).toArray ∧
      out.trace = if c.options.keepTrace then
        (List.range (out.iterations + 1)).map fun k => (reals (g^[k] x)).toArray else [] := by
  obtain ⟨trace, h, k, phase, t, entered, after, traced, -, -, last, count, -, -⟩ :=
    Method.run_returned ran
  obtain rfl : out.iterations = k :=
    count.trans (after.judged (sound G c).own (Method.enter_counts (sound G c).own entered)).1
  refine ⟨?_, traced.eq_map after fun j phase v => point_of_after fixed whole entered⟩
  rw [last]
  exact point_of_after fixed whole entered after

theorem run_fails {e : Fault Wide} {u : State ω Wide}
    (ran : ((method G.actions c).run (reals x).toArray).outcome s = (.error e, u)) :
    ∃ k p, u.point = (reals (g^[k] x)).toArray ∧
      e = .diverged "fixed-point iterator" p (reals (g^[k] x)).toArray := by
  obtain entering | ⟨trace, h, k, t, entered, before, failed⟩ := Method.run_failed ran
  · obtain ⟨trace, h, entered⟩ := enters fixed x s
    rw [entered] at entering
    cases entering
  · obtain ⟨point, p, diverged⟩ := diverged_of_failed fixed whole entered before failed
    exact ⟨k, p, point, diverged⟩

end

/-- What a run from `x` does with a map: it applies it. -/
structure Repeats {ω : Type} (G : PureEquations Wide) (c : Settings Wide)
    (g : (Fin n → ℝ) → Fin n → ℝ) (x : Fin n → ℝ) (s : State ω Wide) : Prop where
  /-- Iterate `k` is the map applied `k` times. -/
  committed : ∀ trace h k phase t,
    ((method G.actions c).enter (reals x).toArray).outcome (Method.marked true s) = (.ok trace, h) →
    (method G.actions c).After h k phase t → t.point = (reals (g^[k] x)).toArray
  returned : ∀ out t, ((method G.actions c).solve (reals x).toArray).outcome s = (.ok out, t) →
    out.last.x = (reals (g^[out.iterations] x)).toArray ∧
      out.trace = if c.options.keepTrace then
        (List.range (out.iterations + 1)).map fun k => (reals (g^[k] x)).toArray else []
  /-- A run that does not return has diverged. -/
  failed : ∀ e t, ((method G.actions c).solve (reals x).toArray).outcome s = (.error e, t) →
    ∃ k p, t.point = (reals (g^[k] x)).toArray ∧
      e = .diverged "fixed-point iterator" p (reals (g^[k] x)).toArray
  /-- A contraction is followed to its fixed point. -/
  approaches : ∀ (N : Seminorm ℝ (Fin n → ℝ)) (q : ℝ) (z : Fin n → ℝ), 0 ≤ q →
    (∀ a b, N (g a - g b) ≤ q * N (a - b)) → g z = z → ∀ out t,
      ((method G.actions c).solve (reals x).toArray).outcome s = (.ok out, t) →
      ∃ y, out.last.x = (reals y).toArray ∧ N (y - z) ≤ q ^ out.iterations * N (x - z)

/-- **A fixed-point iterator whose steps have the length one applies the map again and again.** -/
theorem solve_repeats {ω : Type} {G : PureEquations Wide} {c : Settings Wide}
    {g : (Fin n → ℝ) → Fin n → ℝ} {s : State ω Wide} (fixed : G.FixedPoints g)
    (whole : c.search.Whole) (idle : s.driver.running = false) (x : Fin n → ℝ) :
    Repeats G c g x s := by
  have solves := (method G.actions c).outcome_solve (reals x).toArray idle
  rcases ran : ((method G.actions c).run (reals x).toArray).outcome (Method.marked true s) with
    ⟨result, u⟩
  have returned (out t)
      (ended : ((method G.actions c).solve (reals x).toArray).outcome s = (.ok out, t)) :
      out.last.x = (reals (g^[out.iterations] x)).toArray ∧
        out.trace = if c.options.keepTrace then
          (List.range (out.iterations + 1)).map fun k => (reals (g^[k] x)).toArray else [] := by
    rw [solves, ran] at ended
    cases ended
    exact run_returns fixed whole ran
  refine ⟨fun _ _ _ _ _ => point_of_after fixed whole, returned, fun e t ended => ?_, ?_⟩
  · rw [solves, ran] at ended
    cases ended
    obtain ⟨k, p, point, diverged⟩ := run_fails fixed whole ran
    exact ⟨k, p, point, diverged⟩
  · intro N q z nonneg contracts stays out t ended
    exact ⟨_, (returned out t ended).1, iterate_sub_le N nonneg contracts stays x _⟩

/-- Halves, from one and three on, with all points kept. -/
theorem solve_repeats_half :
    Repeats
      (PureEquations.ofReal (fun z : Fin 2 → ℝ => z - (1 / 2 : ℝ) • z) fun _ => (1 / 2 : ℝ) • 1)
      ⟨{ Options.usual with keepTrace := true }, { LineSearch.standard with kind := .static }⟩
      (fun z => (1 / 2 : ℝ) • z) ![1, 3] ⟨Drive.idle (), (), {}, {}, #[]⟩ :=
  solve_repeats (PureEquations.fixedPoints_ofReal _ _) ⟨rfl, rfl, by decide⟩ rfl _

end FixedPoint

end Descent
