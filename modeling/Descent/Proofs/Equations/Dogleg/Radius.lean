/-
# Descent.Proofs.Equations.Dogleg.Radius — the radius and the history of a run

Over real numbers, where residuals may be undefined, every trial that is taken down keeps
to the rules (`Trial.Follows`): its length is within its radius, its ratio of decrease is a
number or negative infinity, and it leaves the radius that the rules ask for.  So the
history of a run is a chain from the first radius to the present one (`Ledger`).

What carries the proof is that a step without undefined entries vouches for the model that
it was made from: the ratio of a trial is never undefined.
-/
import Descent.Proofs.Equations.Bounded
import Descent.Proofs.Equations.Dogleg.Step
import Descent.Proofs.Equations.Dogleg.Trials
import Descent.Proofs.Iteration.Memory

namespace Descent.Dogleg
set_option autoImplicit false

open Wide

/-! ## The rules -/

/-- The settings with other numbers in place of theirs. -/
def Settings.map {α β : Type} (f : α → β) (c : Settings α) : Settings β :=
  { radius := f c.radius
    maxRadius := f c.maxRadius
    acceptance := f c.acceptance
    reduction := f c.reduction
    growth := f c.growth
    regularization := f c.regularization
    maxTrials := c.maxTrials }

/-- Real settings as a run has them. -/
noncomputable abbrev Settings.wide (c : Settings ℝ) : Settings Wide := c.map real

/-- A radius within its bounds. -/
def Settings.Admits (c : Settings ℝ) (ρ : ℝ) : Prop := 0 < ρ ∧ ρ ≤ c.maxRadius

/-- A trial within radius `ρ` that leaves radius `ρ'`, by the rules. -/
structure Trial.Follows (c : Settings ℝ) (ρ : ℝ) (t : Trial Wide) (ρ' : ℝ) : Prop where
  radius : t.radius = real ρ
  length : ∃ l, t.length = real l ∧ 0 ≤ l ∧ l ≤ ρ
  ratio : t.ratio.IsReal ∨ t.ratio = negInf
  accepted : t.accepted = true ↔ real c.acceptance < t.ratio
  /-- After a poor prediction the radius shrinks. -/
  poor : t.ratio < real (1 / 4) → ρ' = ρ * c.reduction
  /-- After a good prediction of a step that the radius held back it grows. -/
  tight : real (3 / 4) < t.ratio → real (0.99 * ρ) ≤ t.length → ρ' = min (c.growth * ρ) c.maxRadius
  fair : ¬ t.ratio < real (1 / 4) → ¬ (real (3 / 4) < t.ratio ∧ real (0.99 * ρ) ≤ t.length) → ρ' = ρ
  rejected : t.accepted = false → ρ' < ρ

/-- A trial tells the length of a step from a point, and that a prediction is as poor as can be where
the step leads to an undefined residual. -/
def Trial.From (G : PureEquations Wide) (x : Vec Wide) (t : Trial Wide) : Prop :=
  ∃ p z w, Vec.add? x p = some z ∧ G.residual z = .ok w ∧ t.length = p.norm ∧
    (w.hasNaN = true → t.ratio = negInf)

/-- Trials that lead from one radius to another. -/
inductive Ledger (c : Settings ℝ) : ℝ → List (Trial Wide) → ℝ → Prop
  | none {ρ : ℝ} : c.Admits ρ → Ledger c ρ [] ρ
  | one {ρ ρ' ρ'' : ℝ} {t : Trial Wide} {l : List (Trial Wide)} : c.Admits ρ → t.Follows c ρ ρ' →
      Ledger c ρ' l ρ'' → Ledger c ρ (t :: l) ρ''

/-- The trials of a region lead from the first radius to the present one. -/
def Region.Kept (c : Settings ℝ) (r : Region Wide) : Prop :=
  ∃ ρ, r.radius = real ρ ∧ c.Admits ρ ∧ Ledger c c.radius r.trials ρ

theorem Ledger.append {c : Settings ℝ} {ρ ρ' ρ'' : ℝ} {l : List (Trial Wide)} {t : Trial Wide}
    (ledger : Ledger c ρ l ρ') (follows : t.Follows c ρ' ρ'') (admits : c.Admits ρ'') :
    Ledger c ρ (l ++ [t]) ρ'' := by
  induction ledger with
  | none start => exact .one start follows (.none admits)
  | one start first _ ih => exact .one start first (ih follows)

/-! ## One trial -/

section
variable {g y z p : Vec Wide} {B J : Dense Wide} {ρ : ℝ} {ratio : Wide}

theorem doglegStep?_spec (steep : (g.norm == 0) = false) (positive : 0 < ρ)
    (stepped : doglegStep? g B (real ρ) = .ok p) (defined : p.hasNaN = false) :
    p.norm ≤ real ρ ∧ ∀ a ∈ g, a ≠ undefined := by
  unfold doglegStep? at stepped
  rw [steep] at stepped
  simp only [Bool.false_eq_true, if_false] at stepped
  split at stepped
  · cases stepped
  · obtain ⟨v, within, returned⟩ := bind_eq_ok.1 stepped
    cases returned
    have entries := forall_toArray.1 (defined_iff.1 defined)
    refine ⟨?_, forall_entries.2 (gradient_defined within entries)⟩
    rw [Vec.norm_toArray]
    exact norm_doglegStep_le positive within entries

/-- A gradient that is defined vouches for the residual and the Jacobian that it is made of. -/
theorem defined_of_gradient (gradient : J.transposeMulVec? y = some g) (steep : (g.norm == 0) = false)
    (defined : ∀ a ∈ g, a ≠ undefined) :
    (∀ a ∈ y, a ≠ undefined) ∧
      ∀ (i : Fin J.rows) (j : Fin J.cols), (J.body.get i).get j ≠ undefined := by
  obtain ⟨size, rfl⟩ := mulVec?_eq_some.1 gradient
  have entries (j : Fin J.transpose.rows) : dot (J.transpose.body.get j) ⟨y, size⟩ ≠ undefined := by
    rw [← Mat.get_mulVec]
    exact forall_toArray.1 defined j
  have unknowns : 0 < J.cols := by
    refine Nat.pos_of_ne_zero fun none => ?_
    rw [Vec.norm_toArray] at steep
    have nothing (n : ℕ) (x : Vector Wide n) (none : n = 0) : (norm x == 0) = true := by
      subst none
      simp [norm, dot, total_zero, zero_eq, sqrt_real (le_refl (0 : ℝ))]
    exact Bool.false_ne_true (steep.symm.trans (nothing _ _ none))
  refine ⟨forall_entries.2 fun k undef => ?_, fun i j undef => ?_⟩
  · refine entries ⟨0, unknowns⟩ (dot_undefined_right (i := k.cast size) ?_)
    exact undef
  · refine entries j (dot_undefined_left (i := i) ?_)
    exact (Mat.get_transpose J.body j i).trans undef

theorem ratio_of_undefined (computed : decreaseRatio y z J p = .ok ratio) (undef : z.hasNaN = true) :
    ratio = negInf := by
  rw [decreaseRatio, if_pos undef] at computed
  cases computed
  rfl

theorem isReal_ratio (computed : decreaseRatio y z J p = .ok ratio) (hy : ∀ a ∈ y, a.IsReal)
    (hJ : ∀ (i : Fin J.rows) (j : Fin J.cols), ((J.body.get i).get j).IsReal) (hp : ∀ a ∈ p, a.IsReal)
    (hz : ∀ a ∈ z, a.Bounded) : ratio.IsReal ∨ ratio = negInf := by
  unfold decreaseRatio at computed
  split at computed
  · cases computed
    exact .inr rfl
  · rename_i defined
    have half {a : Wide} (h : a.IsReal) : (0.5 * a).IsReal := IsReal.mul (isReal_real _) h
    obtain ⟨Jp, product, rest⟩ := bind_eq_ok.1 computed
    obtain ⟨linearized, added, judged⟩ := bind_eq_ok.1 rest
    rw [fit_eq_ok] at product added
    obtain ⟨size, rfl⟩ := mulVec?_eq_some.1 product
    have moved : ∀ a ∈ (J.body.mulVec ⟨p, size⟩).toArray, a.IsReal := forall_toArray.2 fun i => by
      rw [Mat.get_mulVec]
      exact .dot (hJ i) fun j => forall_entries.1 hp (j.cast size.symm)
    have predicted : (0.5 * y.normSq - 0.5 * linearized.normSq).IsReal :=
      (half (.normSq hy)).sub
        (half (.normSq (forall_of_combine? (fun _ _ => IsReal.add) hy moved added)))
    have actual : (0.5 * y.normSq - 0.5 * z.normSq).IsReal :=
      (half (.normSq hy)).sub
        (half (.normSq (isReal_of_bounded hz (Bool.eq_false_iff.2 defined))))
    obtain ⟨d, value⟩ := predicted
    obtain ⟨a, value'⟩ := actual
    dsimp only at judged
    rw [value, value'] at judged
    split at judged
    · cases judged
      exact .inl (isReal_real 0)
    · rename_i positive
      cases judged
      rw [zero_eq, real_le, not_le] at positive
      rw [real_div a positive.ne']
      exact .inl (isReal_real _)

end

open Classical in
/-- The radius after a trial, in real numbers. -/
noncomputable def radiusAfter (c : Settings ℝ) (ρ l : ℝ) (ratio : Wide) : ℝ :=
  if ratio < real 0.25 then ρ * c.reduction
  else if real 0.75 < ratio ∧ 0.99 * ρ ≤ l then min (c.growth * ρ) c.maxRadius
  else ρ

theorem nextRadius_real (c : Settings ℝ) (ρ l : ℝ) (ratio : Wide) :
    Region.nextRadius c.wide (real ρ) (real l) ratio = real (radiusAfter c ρ l ratio) := by
  simp only [Region.nextRadius, Region.isPoor, Region.isTight, ofScientific_eq, Settings.wide,
    Settings.map, real_mul, real_le, minFirst_real, Bool.and_eq_true, decide_eq_true_eq, radiusAfter]
  split
  · rfl
  · split <;> rfl

theorem quarter_eq : (0.25 : ℝ) = 1 / 4 := by norm_num

theorem threeQuarters_eq : (0.75 : ℝ) = 3 / 4 := by norm_num

section
variable {c : Settings ℝ} {ρ l : ℝ} {ratio : Wide}

theorem radiusAfter_of_poor (poor : ratio < real (1 / 4)) :
    radiusAfter c ρ l ratio = ρ * c.reduction := by
  rw [radiusAfter, quarter_eq, if_pos poor]

theorem radiusAfter_of_tight (fair : ¬ ratio < real (1 / 4))
    (tight : real (3 / 4) < ratio ∧ 0.99 * ρ ≤ l) :
    radiusAfter c ρ l ratio = min (c.growth * ρ) c.maxRadius := by
  rw [radiusAfter, quarter_eq, threeQuarters_eq, if_neg fair, if_pos tight]

theorem radiusAfter_of_loose (fair : ¬ ratio < real (1 / 4))
    (loose : ¬ (real (3 / 4) < ratio ∧ 0.99 * ρ ≤ l)) : radiusAfter c ρ l ratio = ρ := by
  rw [radiusAfter, quarter_eq, threeQuarters_eq, if_neg fair, if_neg loose]

variable (rules : c.check = .ok c) (positive : 0 < ρ)
include rules positive

theorem radiusAfter_pos : 0 < radiusAfter c ρ l ratio := by
  obtain ⟨-, ⟨first, small⟩, -, ⟨reduces, -⟩, grows, -⟩ := Settings.check_ok rules
  unfold radiusAfter
  split
  · exact mul_pos positive reduces
  · split
    · exact lt_min (mul_pos (one_pos.trans (not_le.1 grows)) positive) (first.trans_le small)
    · exact positive

theorem radiusAfter_le (within : ρ ≤ c.maxRadius) : radiusAfter c ρ l ratio ≤ c.maxRadius := by
  obtain ⟨-, -, -, ⟨-, proper⟩, -⟩ := Settings.check_ok rules
  unfold radiusAfter
  split
  · exact (mul_lt_of_lt_one_right positive proper).le.trans within
  · split
    · exact min_le_right _ _
    · exact within

end

/-- A trial is rejected only after a poor prediction. -/
theorem poor_of_rejected {least : ℝ} {ratio : Wide} (small : least < 0.25)
    (number : ratio.IsReal ∨ ratio = negInf) (rejects : ¬ real least < ratio) :
    ratio < real (1 / 4) := by
  obtain ⟨κ, rfl⟩ | rfl := number
  · rw [real_lt, not_lt] at rejects
    rw [real_lt]
    exact rejects.trans_lt (small.trans_eq (by norm_num))
  · exact negInf_lt_real _

section
variable {G : PureEquations Wide} {c : Settings ℝ} {q : SystemPoint Wide} {b : Probe Wide} {ρ : ℝ}
  (rules : c.check = .ok c) (bounded : G.Bounded)

include bounded in
/-- The ratio of a trial that is taken down is a number or negative infinity. -/
theorem ratio_of_probe (value : G.residual q.x = .ok q.y) (valid : b.At G q) (positive : 0 < ρ)
    (within : b.radius = real ρ) :
    b.p.norm ≤ real ρ ∧ (b.ratio.IsReal ∨ b.ratio = negInf) := by
  obtain ⟨m, model, probe⟩ := valid
  obtain ⟨le, gradient⟩ := doglegStep?_spec model.steep positive (within ▸ probe.step) probe.defined
  obtain ⟨A, taken, matrix⟩ := model.jacobian
  obtain ⟨w, there, vector⟩ := probe.value
  obtain ⟨defined, definedJ⟩ := defined_of_gradient model.gradient model.steep gradient
  have entries (x : Vec Wide) {w : Shaped Wide} {y : Vec Wide} (there : G.residual x = .ok w)
      (vector : w.vec? = some y) : ∀ a ∈ y, a.Bounded := by
    have all := bounded.residual x w there
    rwa [Shaped.eq_ofVec vector, Shaped.flat_ofVec] at all
  refine ⟨le, isReal_ratio probe.ratio
    (fun a mem => entries q.x value model.residual a mem (defined a mem))
    (fun i j => bounded.derivative value model.residual taken matrix i j (definedJ i j))
    (forall_entries.2 (isReal_of_norm (isReal_of_norm_le le))) (entries b.x' there vector)⟩

include rules bounded in
/-- A trial that is taken down keeps to the rules. -/
theorem follows_of_probe (value : G.residual q.x = .ok q.y) (valid : b.At G q) (admits : c.Admits ρ)
    (within : b.radius = real ρ) : ∃ ρ', Region.nextRadius c.wide b.radius b.p.norm b.ratio = real ρ' ∧
      c.Admits ρ' ∧ (b.trial c.wide).Follows c ρ ρ' := by
  obtain ⟨-, -, ⟨-, small⟩, ⟨-, proper⟩, -⟩ := Settings.check_ok rules
  obtain ⟨positive, most⟩ := admits
  obtain ⟨le, ratio⟩ := ratio_of_probe bounded value valid positive within
  obtain ⟨v, step⟩ := exists_reals_of_norm_le le
  have length : b.p.norm = real √(v ⬝ᵥ v) := by
    rw [Vec.norm, step, norm_reals]
  rw [length, real_le] at le
  rw [within, length, nextRadius_real]
  refine ⟨_, rfl, ⟨radiusAfter_pos rules positive, radiusAfter_le rules positive most⟩, ?_⟩
  refine
    { radius := within
      length := ⟨_, length, Real.sqrt_nonneg _, le⟩
      ratio
      accepted := decide_eq_true_iff
      poor := radiusAfter_of_poor
      tight := fun good long => ?_
      fair := fun fair loose => ?_
      rejected := fun rejected => ?_ }
  · change real (3 / 4) < b.ratio at good
    change real (0.99 * ρ) ≤ b.p.norm at long
    rw [length, real_le] at long
    have fair : ¬ b.ratio < real (1 / 4) := by
      obtain ⟨κ, value⟩ | value := ratio
      · rw [value, real_lt] at good ⊢
        linarith
      · exact absurd (value ▸ good) (not_lt_negInf _)
    exact radiusAfter_of_tight fair ⟨good, long⟩
  · change ¬ b.ratio < real (1 / 4) at fair
    change ¬ (real (3 / 4) < b.ratio ∧ real (0.99 * ρ) ≤ b.p.norm) at loose
    rw [length, real_le] at loose
    exact radiusAfter_of_loose fair loose
  · rw [radiusAfter_of_poor (poor_of_rejected small ratio (of_decide_eq_false rejected))]
    exact mul_lt_of_lt_one_right positive proper

end

/-! ## Runs -/

section
variable {ω : Type} {G : PureEquations Wide} {o : Options Wide} {c : Settings ℝ} {x : Vec Wide}
  {s h t u : State ω Wide} {trace : List (Vec Wide)} {k : ℕ} {phase : Phase}

theorem kept_of_trials {q : SystemPoint Wide} {r r' : Region Wide} {l : List (Probe Wide)}
    (rules : c.check = .ok c) (bounded : G.Bounded) (value : G.residual q.x = .ok q.y)
    (kept : r.Kept c) (trials : Trials c.wide (Probe.At G q) r l r') : r'.Kept c := by
  refine trials.keeps (Region.Kept c) (fun r b kept valid same => ?_) kept
  obtain ⟨ρ, present, admits, ledger⟩ := kept
  obtain ⟨ρ', next, admits', follows⟩ :=
    follows_of_probe rules bounded value valid admits (same.trans present)
  refine ⟨ρ', ?_, admits', ?_⟩
  · rw [← next, same]
    rfl
  · have taken : (r.note c.wide b).trials = r.trials ++ [b.trial c.wide] := by
      simp [Region.note, Region.record, Probe.trial, same]
    rw [taken]
    exact ledger.append follows admits'

section
variable (rules : c.check = .ok c) (bounded : G.Bounded)
  (entered : ((method G.actions o c.wide).enter x).outcome s = (.ok trace, h))
include rules bounded entered

/-- What an iteration adds to the history. -/
theorem kept_of_step (before : (method G.actions o c.wide).After h k .running t)
    (kept : t.driver.memory.Kept c) :
    let u := ((step G.actions c.wide).outcome t).2
    u.driver.memory.Kept c ∧ ∃ new, u.driver.memory.trials = t.driver.memory.trials ++ new ∧
      new.length ≤ c.maxTrials.toNat ∧ (∀ q ∈ new.dropLast, q.accepted = false) ∧
      ∀ q ∈ new, q.From G t.point := by
  obtain ⟨-, value, -⟩ := (before.coherent (sound G o c.wide) entered).present
  obtain ⟨count, -, l, trials, few, -⟩ := attempts_step G c.wide t
  have now := G.residual_of_pointAt value
  refine ⟨kept_of_trials rules bounded now kept trials, _, trials.trials_eq,
    (List.length_map _).trans_le few, ?_, fun q mem => ?_⟩
  · rw [← List.map_dropLast]
    rintro q mem
    obtain ⟨b, before, rfl⟩ := List.mem_map.1 mem
    exact decide_eq_false (trials.rejected_of_mem_dropLast before)
  · obtain ⟨b, made, rfl⟩ := List.mem_map.1 mem
    obtain ⟨m, -, probe⟩ := trials.valid_of_mem made
    obtain ⟨w, there, vector⟩ := probe.value
    refine ⟨b.p, b.x', w, probe.leads, there, rfl, fun undef => ?_⟩
    rw [Shaped.eq_ofVec vector, Shaped.hasNaN_ofVec] at undef
    exact ratio_of_undefined probe.ratio undef

theorem stays_kept : (method G.actions o c.wide).Stays (Drive.Upholds (Region.Kept c)) h where
  evaluate := Solver.keeps_evaluate (G.keeps fun _ _ => trivial)
  step _ _ before kept := (kept_of_step rules bounded entered before kept).1
  learn := .pure _

omit bounded in
theorem kept_of_entered : h.driver.memory.Kept c := by
  obtain ⟨-, within, -⟩ := Settings.check_ok rules
  obtain ⟨t, u, -, prepared, rfl, -⟩ := Method.enter_ok.1 entered
  cases prepared
  exact ⟨c.radius, rfl, within, .none within⟩

end

/-- The evaluations that iterations with a known Jacobian have cost. -/
theorem count_at_head {J : Vec Wide → Except (Fault Wide) (Shaped Wide)} (known : G.jacobian = some J)
    (entered : ((method G.actions o c.wide).enter x).outcome s = (.ok trace, h))
    (after : (method G.actions o c.wide).After h k phase t) :
    t.count = { values := 1 + k + t.driver.memory.trials.length, first := k } := by
  induction after with
  | none =>
    obtain ⟨t, u, placed, prepared, rfl, -⟩ := Method.enter_ok.1 entered
    obtain ⟨-, first, v, evaluated, rfl⟩ := Method.place_ok.1 placed
    cases prepared
    obtain rfl := PureEquations.after_evaluated evaluated
    rfl
  | @one k t u phase before advanced ih =>
    obtain ⟨new, w, proposed, -, accepted⟩ := Method.advance_ok.1 advanced
    simp only [Method.propose, Edit.outcome_bind_ok] at proposed
    obtain ⟨z, v, stepped, _, w', evaluated, _, _, judged, returned⟩ := proposed
    cases returned
    obtain ⟨cache, learned⟩ := Method.accept_ok accepted
    cases learned
    obtain ⟨d, rfl, same⟩ := Method.judge_leaves judged
    obtain rfl := PureEquations.after_evaluated evaluated
    obtain ⟨count, costs, l, trials, -, returns⟩ := attempts_step G c.wide t
    change (step G.actions c.wide).outcome t = (.ok z, v) at stepped
    rw [stepped] at trials returns
    obtain ⟨-, counted⟩ := returns z rfl
    change v.count + { values := 1 } = { values := 1 + (k + 1) + d.memory.trials.length, first := k + 1 }
    rw [same, trials.trials_eq, counted, costs J known, ih, List.length_append, List.length_map]
    refine (Evaluations.mk.injEq ..).mpr ⟨?_, rfl, rfl⟩
    change 1 + k + t.driver.memory.trials.length + 0 + l.length + 1 = _
    omega

end

/-- What the radius and the history are like in the runs from `x` in session `s`. -/
structure Books {ω : Type} (G : PureEquations Wide) (o : Options Wide) (c : Settings ℝ) (x : Vec Wide)
    (s : State ω Wide) : Prop where
  /-- At the head of every iteration the radius is within its bounds, and the trials taken down so far
  lead to it from the first radius. -/
  heads : ∀ trace h k phase t,
    ((method G.actions o c.wide).enter x).outcome (Method.marked true s) = (.ok trace, h) →
    (method G.actions o c.wide).After h k phase t → t.driver.memory.Kept c
  /-- So it is after every iteration, whether it returns or fails. An iteration adds trials within the
  limit, all but the last one of them rejected. -/
  steps : ∀ trace h k t result u,
    ((method G.actions o c.wide).enter x).outcome (Method.marked true s) = (.ok trace, h) →
    (method G.actions o c.wide).After h k .running t →
    (method G.actions o c.wide).step.outcome t = (result, u) →
    u.driver.memory.Kept c ∧ ∃ new, u.driver.memory.trials = t.driver.memory.trials ++ new ∧
      new.length ≤ c.maxTrials.toNat ∧ (∀ q ∈ new.dropLast, q.accepted = false) ∧
      ∀ q ∈ new, q.From G t.point
  /-- So it is when a run has ended. -/
  ends : ∀ trace h,
    ((method G.actions o c.wide).enter x).outcome (Method.marked true s) = (.ok trace, h) →
    (((method G.actions o c.wide).solve x).outcome s).2.driver.memory.Kept c
  /-- With a known Jacobian a run that returns has cost one residual for the start, for every iteration
  and for every trial, and one Jacobian for every iteration. -/
  counts : ∀ J out u, G.jacobian = some J →
    ((method G.actions o c.wide).solve x).outcome s = (Except.ok out, u) →
    out.count.values = 1 + out.iterations + u.driver.memory.trials.length ∧
      out.count.first = out.iterations

/-- With admitted settings the radius and the history are kept by the rules. -/
theorem radius_follows_rules {ω : Type} (G : PureEquations Wide) (o : Options Wide) (c : Settings ℝ)
    (x : Vec Wide) (s : State ω Wide) (rules : c.check = .ok c) (bounded : G.Bounded)
    (idle : s.driver.running = false) : Books G o c x s := by
  refine
    { heads := fun trace h k phase t entered after => ?_
      steps := fun trace h k t result u entered before stepped => ?_
      ends := fun trace h entered => ?_
      counts := fun J out u known returned => ?_ }
  · exact after.related (stays_kept rules bounded entered) (kept_of_entered rules entered)
  · have kept := before.related (stays_kept rules bounded entered) (kept_of_entered rules entered)
    have added := kept_of_step rules bounded entered before kept
    change (step G.actions c.wide).outcome t = (result, u) at stepped
    rwa [stepped] at added
  · exact (stays_kept rules bounded entered).solve idle entered (kept_of_entered rules entered)
  · rw [Method.outcome_solve x idle] at returned
    obtain ⟨ran, rfl⟩ := Prod.mk.inj returned
    obtain ⟨trace, h, k, phase, t, entered, after, -, -, -, -, iterations, count, same⟩ :=
      Method.run_returned (Prod.ext ran rfl)
    have own := (sound (ω := ω) G o c.wide).own
    have made : out.iterations = k :=
      iterations.trans (after.judged own (Method.enter_counts own entered)).1
    change out.count.values = 1 + out.iterations +
      (((method G.actions o c.wide).run x).outcome (Method.marked true s)).2.driver.memory.trials.length ∧ _
    rw [same, count, made, count_at_head known entered after]
    exact ⟨rfl, rfl⟩

theorem standard_rules : (Settings.standard : Settings ℝ).check = .ok .standard := by
  simp only [Settings.check, Settings.standard]
  norm_num

open PureEquations in
/-- From the usual start the full step is within the first radius, but it overshoots. -/
theorem radius_follows_rules_rosenbrock :
    let c : Settings ℝ := { Settings.standard with radius := 10 }
    let x := (reals rosenbrockStart).toArray
    let s : State Unit Wide := ⟨Drive.idle (blank c.wide), (), {}, {}, #[]⟩
    (∃ trace h, ((method rosenbrock.actions .standard c.wide).enter x).outcome
      (Method.marked true s) = (.ok trace, h)) ∧ Books rosenbrock .standard c x s := by
  intro c x s
  have rules : c.check = .ok c := by
    simp only [c, Settings.check, Settings.standard]
    norm_num
  exact ⟨(sound rosenbrock .standard c.wide).reaches_head rfl
      (pointAt_rosenbrock rosenbrockStart) (fun u => rfl) _,
    radius_follows_rules _ _ _ _ _ rules (bounded_ofReal _ _) rfl⟩

end Descent.Dogleg
