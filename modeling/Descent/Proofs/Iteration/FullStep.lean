/-
# Descent.Proofs.Iteration.FullStep — a search can start with the full step

The point that a shortened direction leads to was tried before the direction is taken, and the
values there are defined.  Without rounding it is the point of the line at step length one, also
where a single entry stands for a whole direction (`linePoint_one`).  So whatever iteration of
whatever run a search begins in, the ray that it is handed has a defined value at the full step
(`FullStep`, `Method.HandsFullStep`): for Newton's method and its thrifty variant, for fixed-point
iteration and for the optimizer with every Hessian.

A ray of a system squares residuals, and only vectors have squares.  Newton's method finds no
direction for anything else, and fixed-point iteration admits no start with anything else.
-/
import Descent.Proofs.Equations.Newton.Descent
import Descent.Proofs.Equations.Picard
import Descent.Proofs.LineSearch.Shortened
import Descent.Proofs.Objective.Descent

namespace Descent
set_option autoImplicit false

open Wide

/-! ## The point of a line at step length one -/

/-- A vector that is written over another one counts for as many entries in a sum as well. -/
theorem Vec.combine?_of_assign? {α : Type} {f : α → α → α} {x d w : Vec α}
    (written : assign? x d = some w) : combine? f x d = combine? f x w := by
  have size := size_of_assign? written
  unfold assign? at written
  split at written
  · cases written
    rfl
  · split at written
    · rename_i differ single
      cases written
      have several : x.size ≠ 1 := fun one => differ (single.trans one.symm)
      rw [combine?_of_size_eq f size.symm, combine?, if_neg (Ne.symm differ), dif_neg several,
        dif_pos single]
      congr 1
      ext i hi hi'
      · simp
      · simp
    · cases written

theorem Wide.one_mul_wide (a : Wide) : 1 * a = a := by
  rw [one_eq]
  cases a with
  | real x => simp
  | posInf => exact real_mul_posInf one_pos
  | negInf => exact real_mul_negInf one_pos
  | undefined => exact mul_undefined _

/-- The full step along a line leads to where its direction does. -/
theorem linePoint_one {x d w : Vec Wide} (written : Vec.assign? x d = some w) :
    Vec.add? x d = some (linePoint x w 1) := by
  have whole : Vec.scale 1 w = w := by
    simp only [Vec.scale, Wide.one_mul_wide, Array.map_id']
  have added := add?_scale (Vec.size_of_assign? written) 1
  rwa [whole, Vec.add?, ← Vec.combine?_of_assign? written] at added

/-! ## Defined values -/

/-- A vector without undefined entries has a square that is not undefined. -/
theorem inner_self {y : Shaped Wide} {n : ℕ} (vector : y.extents = [n]) (defined : y.hasNaN = false) :
    ∃ a, y.inner y = .ok a ∧ a ≠ undefined := by
  obtain ⟨v, rfl⟩ := Shaped.exists_ofVec vector
  rw [Shaped.hasNaN_ofVec] at defined
  refine ⟨v.normSq, ?_, fun undef => not_le_undefined 0 (undef ▸ normSq_nonneg defined)⟩
  rw [Shaped.inner_ofVec, Vec.dot?, dif_pos rfl]
  rfl

theorem ne_undefined_of_number {a : Wide} (defined : (Shaped.ofNumber a).hasNaN = false) :
    a ≠ undefined :=
  defined_iff.1 defined a (by simp [Shaped.ofNumber, Shaped.flat, Tensor.entries])

/-! ## A ray that is handed over -/

/-- The ray of session `u` goes along the direction from `x` that is left of `full` after reductions.
At the full step the values `V` are defined, and so is what the ray makes of them. -/
structure FullStep {δ ω : Type} (V : Vec Wide → Except (Fault Wide) (Shaped Wide))
    (search : LineSearch Wide) (ray : Ray (Act δ ω Wide) Wide) (x full d : Vec Wide)
    (u : Session δ ω Wide) : Prop where
  shortened : ∃ j : ℕ, (j : ℤ) ≤ search.nanMaxIterations ∧ Shortened V x full search.nanFactor j d
  arrives : Vec.add? x d = some (u.track.point 1)
  defined : ∃ y, V (u.track.point 1) = .ok y ∧ y.hasNaN = false
  evaluated : ∃ a, ((ray.value 1).outcome u).1 = .ok a ∧ a ≠ undefined

section
variable {ι π μ ω : Type} [Iterate ι π Wide]

/-- A step of the method takes aim, hands the ray of its line to the search and goes as far as that
says. At every head that a run comes to, the full step is one to defined values. -/
structure Method.HandsFullStep {L : Type} (M : Method ι π μ ω Wide)
    (V : Vec Wide → Except (Fault Wide) (Shaped Wide)) (search : LineSearch Wide)
    (aim : Drive.Action ι π μ ω Wide L) (ray : L → Ray (Drive.Action ι π μ ω Wide) Wide)
    (start full direction : L → Vec Wide) : Prop where
  step : M.step = (do
    let l ← aim
    let alpha ← search.search (ray l) 1
    fit (Vec.add? (start l) (Vec.scale alpha (direction l))))
  heads : ∀ {x s trace h k phase t l u}, (M.enter x).outcome s = (.ok trace, h) →
    M.After h k phase t → aim.outcome t = (.ok l, u) →
      start l = t.point ∧ FullStep V search (ray l) t.point (full l) (direction l) u

/-- Where a step has taken aim, the point at step length one is the one that was tried last. -/
theorem Drive.fullStep_of_aim {V : Vec Wide → Except (Fault Wide) (Shaped Wide)}
    {evaluate : Vec Wide → Action ι π μ ω Wide (Shaped Wide)} {c : LineSearch Wide}
    {verbosity : Int} {x full d : Vec Wide} {t u : State ι π μ ω Wide}
    {ray : Ray (Action ι π μ ω Wide) Wide} {plainRay : Vec Wide → Ray (Except (Fault Wide)) Wide}
    (plain : ∀ z, (Correspondence.within fun _ => True).Rel (V z) (evaluate z))
    (kept : ∀ z, Edit.Keeps sameTrack (fun _ => True) (evaluate z))
    (rays : ∀ w, (Correspondence.within (Session.Along x w)).Rays (plainRay w) ray)
    (evaluates : ∀ w y, w.size = x.size → V (linePoint x w 1) = .ok y → y.hasNaN = false →
      ∃ a, (plainRay w).value 1 = .ok a ∧ a ≠ undefined)
    (base : t.track.base.size = x.size) (direction : t.track.direction.size = x.size)
    (aimed : (aim evaluate c verbosity x full).outcome t = (.ok d, u)) :
    FullStep V c ray x full d u := by
  obtain ⟨⟨j, reductions, shortened⟩, w, written, along⟩ :=
    aim_ok plain kept base direction aimed
  obtain ⟨z, y, added, there, defined⟩ := shortened.defined
  obtain rfl : linePoint x w 1 = z := Option.some.inj ((linePoint_one written).symm.trans added)
  obtain ⟨a, value, number⟩ := evaluates w y (Vec.size_of_assign? written) there defined
  have point : u.track.point 1 = linePoint x w 1 := by
    obtain ⟨rfl, rfl⟩ := along
    rfl
  refine ⟨⟨j, reductions, shortened⟩, ?_, ⟨y, ?_, defined⟩, a, ?_, number⟩
  · rw [point]
    exact added
  · rw [point]
    exact there
  · exact ((rays w).value 1 u along).1.trans value

/-- At the heads of iterations the line has the size of the point. -/
theorem Method.sized_at_head {M : Method ι π μ ω Wide} {V : Vec Wide → Except (Fault Wide) ι}
    {P : Fault Wide → Prop} {x : Vec Wide} {s h t : Drive.State ι π μ ω Wide}
    {trace : List (Vec Wide)} {k : ℕ} {phase : Phase} (sound : M.Sound V P)
    (keeps : M.Keeps Drive.sameTrack fun _ => True)
    (entered : (M.enter x).outcome s = (.ok trace, h)) (after : M.After h k phase t) :
    t.track.base.size = t.point.size ∧ t.track.direction.size = t.point.size := by
  obtain ⟨-, -, size⟩ := (after.coherent sound entered).present
  obtain ⟨base, direction⟩ := keeps.track entered after
  exact ⟨base.trans size.symm, direction.trans size.symm⟩

end

/-! ## Systems -/

section
variable {μ ω : Type} {G : PureEquations Wide} {M : Solver μ ω Wide} {P : Fault Wide → Prop}
  {c : LineSearch Wide} {verbosity : Int} {x full d : Vec Wide}
  {s h t t' u : Drive.State (SystemPoint Wide) (ResidualProgress Wide) μ ω Wide}
  {trace : List (Vec Wide)} {k n : ℕ} {phase : Phase}

/-- At a head where the residual is a vector it is one at the full step too, so it has a square
there. -/
theorem PureEquations.fullStep_at_head (sound : M.Sound G.pointAt P)
    (keeps : M.Keeps Drive.sameTrack fun _ => True) (frozen : Option (Shaped Wide))
    (entered : (M.enter x).outcome s = (.ok trace, h)) (after : M.After h k phase t)
    (vector : t.driver.current.now.y.extents = [n]) (alike : t.track.Alike t'.track)
    (aimed : (Drive.aim (G.actions : Solver.Problem μ ω Wide).residualAt c verbosity t.point
      full).outcome t' = (.ok d, u)) :
    FullStep G.residual c (G.actions.ray frozen) t.point full d u := by
  have kept : (G.actions : Solver.Problem μ ω Wide).Keeps Drive.sameTrack fun _ => True :=
    G.keeps fun _ _ => trivial
  obtain ⟨base, direction⟩ := Method.sized_at_head sound keeps entered after
  obtain ⟨-, value, -⟩ := (after.coherent sound entered).present
  refine Drive.fullStep_of_aim (fun z => G.rel_residualAt z fun _ _ => id)
    (Solver.keeps_residualAt kept) (fun w => G.rel_ray t.point w frozen)
    (fun w y fits there defined => ?_) (alike.1.trans base) (alike.2.trans direction) aimed
  have size : (linePoint t.point w 1).size = t.point.size := by simp [linePoint, Track.point, fits]
  have extents : y.extents = [n] :=
    (G.fixed _ _ _ _ size (G.residual_of_pointAt value) there).trans vector
  obtain ⟨a, square, number⟩ := inner_self extents defined
  refine ⟨a, ?_, number⟩
  change (G.residual (linePoint t.point w 1) >>= fun y => y.inner y) = _
  rw [there, ok_bind, square]

end

namespace Newton

variable {ω : Type} {schedule : Schedule} {t u : State ω Wide} {d : Vec Wide}

/-- A direction is found for a residual that is a vector only. -/
theorem extents_of_direction {F : Solver.Problem (Memory Wide) ω Wide}
    (kept : F.Keeps Drive.sameNow fun _ => True)
    (directed : (direction F schedule).outcome t = (.ok d, u)) :
    ∃ n, t.driver.current.now.y.extents = [n] := by
  have solves {s : State ω Wide} (solved : solution.outcome s = (.ok d, u)) :
      ∃ n, s.driver.current.now.y.extents = [n] := by
    obtain ⟨found, -, -⟩ := solution_ok solved
    obtain ⟨n, _, c, -, side, -⟩ := LinearSolver.solve_ok found
    exact ⟨_, congrArg Shaped.extents side⟩
  rw [direction_eq] at directed
  obtain ⟨_, _, ⟨⟩, directed⟩ := Edit.outcome_bind_ok.1 directed
  dsimp only at directed
  split at directed
  · obtain ⟨⟨⟩, s, refreshed, solved⟩ := Edit.outcome_bind_ok.1 directed
    have now : s.driver.current.now = t.driver.current.now :=
      (keeps_refresh kept).preserves refreshed
    exact now ▸ solves solved
  · exact solves directed

theorem handsFullStep (G : PureEquations Wide) (c : Settings Wide) :
    (method (ω := ω) G.actions c).HandsFullStep G.residual c.search (aim G.actions c)
      (fun l => G.actions.ray l.frozen) (·.x) (·.full) (·.direction) where
  step := step_eq G.actions c
  heads := by
    intro x s trace h k phase t l u entered after aimed
    have track : (G.actions : Solver.Problem (Memory Wide) ω Wide).Keeps Drive.sameTrack
        fun _ => True := G.keeps fun _ _ => trivial
    have iterate : (G.actions : Solver.Problem (Memory Wide) ω Wide).Keeps Drive.sameNow
        fun _ => True := G.keeps fun _ _ => trivial
    obtain ⟨full, t', directed, aimed⟩ := Edit.outcome_bind_ok.1 aimed
    obtain ⟨p, _, ⟨⟩, aimed⟩ := Edit.outcome_bind_ok.1 aimed
    obtain ⟨d, u', laid, aimed⟩ := Edit.outcome_bind_ok.1 aimed
    obtain ⟨frozen, _, read, returned⟩ := Edit.outcome_bind_ok.1 aimed
    cases returned
    -- the Jacobian that is handed over is read from the memory, if it is
    obtain rfl : u = u' := by
      cases schedule : c.schedule <;> rw [schedule] at read <;> cases read <;> rfl
    have now : t'.driver.current.now = t.driver.current.now :=
      (keeps_direction iterate c.schedule).preserves directed
    have alike : t.track.Alike t'.track := (keeps_direction track c.schedule).related directed
    obtain ⟨n, vector⟩ := extents_of_direction iterate directed
    rw [now] at laid ⊢
    exact ⟨rfl, G.fullStep_at_head (sound G c) (keeps_method track c) frozen entered after vector
      alike laid⟩

end Newton

namespace FixedPoint

section
variable {ω α : Type} [Extended α]

/-- The part of an iteration that comes before the search. No Jacobian is handed over. -/
def aim (F : Solver.Problem Unit ω α) (c : Settings α) : Solver.Action Unit ω α (Newton.Line α) := do
  let full ← Solver.defined (← Drive.now).y.neg.flat
  let x := (← Drive.now).x
  let direction ← Drive.aim F.residualAt c.search c.options.verbosity x full
  return ⟨x, full, direction, none⟩

/-- An iteration takes aim, searches along the line and goes as far as the search says. -/
theorem step_eq_aim (F : Solver.Problem Unit ω α) (c : Settings α) : (method F c).step = (do
    let l ← aim F c
    let alpha ← c.search.search (F.ray l.frozen) 1
    fit (Vec.add? l.x (Vec.scale alpha l.direction))) := by
  rw [step_eq]
  simp only [aim, bind_assoc, pure_bind]

end

variable {ω : Type} {G : PureEquations Wide} {c : Settings Wide} {x : Vec Wide}
  {s h t : State ω Wide} {trace : List (Vec Wide)} {k : ℕ} {phase : Phase}

/-- Only a start where the residual is a vector is admitted, so it is one at every head. -/
theorem extents_at_head (entered : ((method G.actions c).enter x).outcome s = (.ok trace, h))
    (after : (method G.actions c).After h k phase t) :
    t.driver.current.now.y.extents = [x.size] := by
  obtain ⟨t₀, u₀, placing, prepared, -, -⟩ := Method.enter_ok.1 entered
  obtain ⟨-, value₀, size₀⟩ := ((sound G c).coherent_of_placed placing).present
  obtain ⟨-, value, size⟩ := (after.coherent (sound G c) entered).present
  obtain ⟨p, _, ⟨⟩, admitted⟩ := Edit.outcome_bind_ok.1 prepared
  dsimp only at admitted
  split at admitted
  · cases admitted
  · rename_i square
    rw [G.fixed _ _ _ _ (size.trans size₀.symm) (G.residual_of_pointAt value₀)
      (G.residual_of_pointAt value), not_not.1 square]
    exact congrArg (fun n => [n]) size₀

theorem handsFullStep (G : PureEquations Wide) (c : Settings Wide) :
    (method (ω := ω) G.actions c).HandsFullStep G.residual c.search (aim G.actions c)
      (fun l => G.actions.ray l.frozen) (·.x) (·.full) (·.direction) where
  step := step_eq_aim G.actions c
  heads := by
    intro x s trace h k phase t l u entered after aimed
    have track : (G.actions : Solver.Problem Unit ω Wide).Keeps Drive.sameTrack
        fun _ => True := G.keeps fun _ _ => trivial
    obtain ⟨p, _, ⟨⟩, aimed⟩ := Edit.outcome_bind_ok.1 aimed
    obtain ⟨full, t', defined, aimed⟩ := Edit.outcome_bind_ok.1 aimed
    obtain ⟨p', _, ⟨⟩, aimed⟩ := Edit.outcome_bind_ok.1 aimed
    obtain ⟨d, u', laid, returned⟩ := Edit.outcome_bind_ok.1 aimed
    cases returned
    obtain ⟨-, rfl, rfl⟩ := Solver.defined_ok.1 defined
    exact ⟨rfl, G.fullStep_at_head (sound G c) (keeps_method track c) none entered after
      (extents_at_head entered after) ⟨rfl, rfl⟩ laid⟩

end FixedPoint

/-! ## Objectives -/

theorem Optimizer.handsFullStep {ω : Type} (G : PureObjective Wide) (c : Settings Wide) :
    (method (ω := ω) G.actions c).HandsFullStep G.shown c.search (aim G.actions c)
      (fun _ => G.actions.ray) (·.start.x) (·.full) (·.direction) where
  step := step_eq G.actions c
  heads := by
    intro x s trace h k phase t l u entered after aimed
    have kept : (G.actions : Problem ω Wide).Keeps Drive.sameTrack fun _ => True :=
      G.keeps fun _ _ => trivial
    obtain ⟨base, direction⟩ := Method.sized_at_head (sound G c) (keeps_method kept c) entered after
    obtain ⟨p, _, ⟨⟩, aimed⟩ := Edit.outcome_bind_ok.1 aimed
    obtain ⟨full, t', directed, aimed⟩ := Edit.outcome_bind_ok.1 aimed
    obtain ⟨d, u', laid, returned⟩ := Edit.outcome_bind_ok.1 aimed
    cases returned
    have alike : t.track.Alike t'.track := (keeps_direction kept _).related directed
    refine ⟨rfl, Drive.fullStep_of_aim (fun z => ?plain) (keeps_shown kept)
      (fun w => G.rel_ray t.point w) (fun w y _ there defined => ?evaluates)
      (alike.1.trans base) (alike.2.trans direction) laid⟩
    case plain =>
      exact (Correspondence.within _).bind (G.rel_valueAt (fun _ _ => id) z) fun _ =>
        (Correspondence.within _).pure _
    case evaluates =>
      obtain ⟨f, value, shown⟩ := bind_eq_ok.1 there
      cases shown
      exact ⟨f, value, ne_undefined_of_number defined⟩

/-! ## Shortened directions -/

/-- **The direction that is taken is the first admissible one.** Its trials are those of the directions
before it and its own, in order and each made once; the search gives up only after the trial that
follows the last reduction.  So whenever a method with a line search hands a ray over, without
rounding the full step along it leads to defined values. -/
theorem first_admissible_direction :
    (∀ {α δ : Type} [Scalar α] (x d : Shaped α), (x.add? d).isSome = true →
      ∀ (V : Shaped α → Except (Fault α) (Shaped α)) (factor : α) (reductions verbosity : Int),
        ∃ points : ℕ → Shaped α, (∀ k, x.add? ((·.map (· * factor))^[k] d) = some (points k)) ∧
          FirstTrial V points ((·.map (· * factor))^[·] d) factor reductions verbosity
            (shortenUndefinedShaped (m := Act δ (List (Shaped α)) α) (listing V) x d factor
              reductions verbosity)) ∧
    (∀ {α δ : Type} [Scalar α] (x d : Vec α), (Vec.add? x d).isSome = true →
      ∀ (V : Vec α → Except (Fault α) (Shaped α)) (factor : α) (reductions verbosity : Int),
        ∃ points : ℕ → Vec α, (∀ k, Vec.add? x ((·.scaled factor)^[k] d) = some (points k)) ∧
          FirstTrial V points ((·.scaled factor)^[·] d) factor reductions verbosity
            (shortenUndefined (m := Act δ (List (Vec α)) α) (listing V) x d factor
              reductions verbosity)) ∧
    (∀ {ω : Type} (G : PureEquations Wide) (c : Newton.Settings Wide),
      (Newton.method (ω := ω) G.actions c).HandsFullStep G.residual c.search (Newton.aim G.actions c)
        (fun l => G.actions.ray l.frozen) (·.x) (·.full) (·.direction)) ∧
    (∀ {ω : Type} (G : PureEquations Wide) (c : FixedPoint.Settings Wide),
      (FixedPoint.method (ω := ω) G.actions c).HandsFullStep G.residual c.search
        (FixedPoint.aim G.actions c) (fun l => G.actions.ray l.frozen) (·.x) (·.full) (·.direction)) ∧
    ∀ {ω : Type} (G : PureObjective Wide) (c : Optimizer.Settings Wide),
      (Optimizer.method (ω := ω) G.actions c).HandsFullStep G.shown c.search
        (Optimizer.aim G.actions c) (fun _ => G.actions.ray) (·.start.x) (·.full) (·.direction) :=
  ⟨fun _ _ fits => firstTrial_shaped fits, fun _ _ fits => firstTrial_vec fits,
    Newton.handsFullStep, FixedPoint.handsFullStep, Optimizer.handsFullStep⟩

/-- The square root of every entry. It is undefined where an entry is negative. -/
noncomputable def roots (z : Vec Wide) : Except (Fault Wide) (Shaped Wide) :=
  .ok (.ofVec (z.map Scalar.sqrt))

theorem roots_of_neg {a : ℝ} (negative : a < 0) :
    ∃ y, roots #[real a] = .ok y ∧ y.hasNaN = true := by
  refine ⟨.ofVec #[undefined], ?_, ?_⟩
  · simp [roots, sqrt_of_neg negative]
  · simp [Shaped.hasNaN_ofVec, Vec.hasNaN]

theorem roots_zero : roots #[real 0] = .ok (.ofVec #[real 0]) := by
  simp [roots, sqrt_real le_rfl]

/-- From one along minus four there are roots after two reductions; and the search of an iterator that
goes to the origin is handed a full step. -/
theorem first_admissible_direction_halved :
    (shortenUndefined (m := Act Unit (List (Vec Wide)) Wide) (listing roots) #[real 1] #[real (-4)]
      (real (1 / 2)) 5 0).outcome ⟨(), [], {}, {}, #[]⟩ =
        (.ok #[real (-1)], ⟨(), [#[real (-3)], #[real (-1)], #[real 0]], {}, {}, #[]⟩) ∧
    let G : PureEquations Wide := .ofReal (fun z : Fin 2 → ℝ => z - 0) fun _ => 1
    let c : FixedPoint.Settings Wide :=
      ⟨Options.usual, { LineSearch.standard with kind := .static }⟩
    ∃ (h u : FixedPoint.State Unit Wide) (trace : List (Vec Wide)) (l : Newton.Line Wide),
      ((FixedPoint.method G.actions c).enter (reals ![1, 3]).toArray).outcome
          ⟨Drive.idle (), (), {}, {}, #[]⟩ = (.ok trace, h) ∧
        (FixedPoint.aim G.actions c).outcome h = (.ok l, u) ∧ l.x = h.point ∧
        FullStep G.residual c.search (G.actions.ray l.frozen) h.point l.full l.direction u := by
  constructor
  · obtain ⟨points, there, trials⟩ :=
      first_admissible_direction.2.1 (δ := Unit) #[real 1] #[real (-4)] rfl roots (real (1 / 2)) 5 0
    have reached (k : ℕ) (a : ℝ) (sum : Vec.add? #[real 1] ((·.scaled (real (1 / 2)))^[k] #[real (-4)]) =
        some #[real a]) : points k = #[real a] :=
      Option.some.inj ((there k).symm.trans sum)
    have first : points 0 = #[real (-3)] := reached 0 (-3) (by
      norm_num [Vec.add?, Vec.combine?])
    have second : points 1 = #[real (-1)] := reached 1 (-1) (by
      norm_num [Vec.add?, Vec.combine?, Vec.scaled])
    have third : points 2 = #[real 0] := reached 2 0 (by
      norm_num [Vec.add?, Vec.combine?, Vec.scaled])
    have before : ∀ i < 2, ∃ y, roots (points i) = .ok y ∧ y.hasNaN = true := by
      intro i less
      interval_cases i
      · exact first ▸ roots_of_neg (by norm_num)
      · exact second ▸ roots_of_neg (by norm_num)
    rw [trials.found 2 (.ofVec #[real 0]) (by decide) before (third ▸ roots_zero)
      (by simp [Shaped.hasNaN_ofVec, Vec.hasNaN])]
    congr 1
    · norm_num [Vec.scaled]
    · simp [Session.tried, remarks, List.range_succ, first, second, third]
  · intro G c
    have fixed : G.FixedPoints fun _ : Fin 2 → ℝ => 0 := PureEquations.fixedPoints_ofReal _ _
    have whole : c.search.Whole := ⟨rfl, rfl, by decide⟩
    obtain ⟨trace, h, entered⟩ := FixedPoint.enters (ω := Unit) (c := c) fixed ![1, 3]
      ⟨Drive.idle (), (), {}, {}, #[]⟩
    have now := FixedPoint.now_of_point fixed entered .none
      (FixedPoint.point_of_after fixed whole entered .none)
    obtain ⟨v, stepped⟩ :=
      FixedPoint.step_whole fixed whole now (FixedPoint.sized_at_head entered .none)
    rw [FixedPoint.step_eq_aim] at stepped
    obtain ⟨l, u, aimed, -⟩ := Edit.outcome_bind_ok.1 stepped
    exact ⟨h, u, trace, l, entered, aimed,
      (first_admissible_direction.2.2.2.1 G c).heads entered .none aimed⟩

end Descent
