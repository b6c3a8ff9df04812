/-
# Descent.Proofs.Equations.Dogleg.Prediction — every trial is predicted to lead down

At a point of real numbers, with a real residual and a real Jacobian, an iteration of the
trust-region solver makes its trials for the model of least squares (`Model.leastSquares`).  A
trial within a radius is a step on the path of that model, and its ratio is a proper quotient:
what it is divided by is positive, because the model falls on the path and the linearized
residual falls at least as far (`Probe.Of.stands`).
-/
import Descent.Proofs.Equations.Dogleg.Decrease
import Descent.Proofs.Equations.Dogleg.Radius

namespace Descent.Dogleg
set_option autoImplicit false

open Wide Matrix

variable {m n : ℕ}

/-! ## Arrays of real numbers -/

theorem shifted_embed {α : Type} [Extended α] {φ : ℝ → α} (e : Embeds φ)
    (A : Matrix (Fin n) (Fin n) ℝ) (a : ℝ) :
    shifted (embedMat φ A) (φ a) = embedMat φ (A + a • 1) := by
  refine eq_embedMat fun i j => ?_
  rw [shifted, Mat.get_ofFn, e.unit, get_embedMat, get_embed, e.mul, e.add]
  rfl

theorem doglegStep?_toArray {α : Type} [Scalar α] (g : Vector α n) (B : Mat n n α) (radius : α)
    (steep : (norm g == 0) = false) :
    doglegStep? g.toArray (.ofMat B) radius = (doglegStep g B radius).map Vector.toArray := by
  obtain ⟨x, rfl⟩ := g
  have steep : (Vec.norm x == 0) = false := steep
  rw [doglegStep?, steep, if_neg Bool.false_ne_true, Dense.square?_ofMat]
  change (do return (← doglegStep x.toVector B radius).toArray) =
    (doglegStep x.toVector B radius).map Vector.toArray
  cases doglegStep x.toVector B radius <;> rfl

/-- A real matrix with its extents. -/
abbrev denseReals (J : Matrix (Fin m) (Fin n) ℝ) : Dense Wide := ⟨m, n, embedMat real J⟩

section
variable (J : Matrix (Fin m) (Fin n) ℝ) (y : Fin m → ℝ) (p : Fin n → ℝ)

theorem isReal_denseReals (i : Fin m) (j : Fin n) : (((denseReals J).body.get i).get j).IsReal :=
  ⟨J i j, by rw [get_embedMat, get_embed]⟩

theorem mulVec?_reals : (denseReals J).mulVec? (reals p).toArray = some (reals (J *ᵥ p)).toArray :=
  mulVec?_eq_some.2 ⟨by simp, congrArg Vector.toArray (embeds.mulVec J p)⟩

theorem transposeMulVec?_reals :
    (denseReals J).transposeMulVec? (reals y).toArray = some (reals (Jᵀ *ᵥ y)).toArray := by
  rw [Dense.transposeMulVec?, Dense.transpose, transpose_embedMat]
  exact mulVec?_reals Jᵀ y

theorem model?_reals (a : ℝ) : model? (denseReals J) n (real a) =
    some (.ofMat (embedMat real (Jᵀ * J + a • 1))) := by
  rw [model?, if_pos rfl]
  simp only [embeds.gram, shifted_embed embeds]

theorem norm_gradient_eq {g : Fin n → ℝ} (steep : g ≠ 0) :
    (Vec.norm (reals g).toArray == 0) = false := by
  rw [Vec.norm_toArray]
  exact norm_beq_zero embedsReals steep

theorem half_normSq_reals {k : ℕ} (v : Fin k → ℝ) :
    (0.5 : Wide) * Vec.normSq (reals v).toArray = real (v ⬝ᵥ v / 2) := by
  rw [Vec.normSq_toArray, embeds.dot, ofScientific_eq, real_mul]
  exact congrArg real (half_mul _)

open Classical in
theorem decreaseRatio_reals (z : Vec Wide) (positive : 0 < predicted y J p) :
    decreaseRatio (reals y).toArray z (denseReals J) (reals p).toArray =
      .ok (if z.hasNaN then negInf
        else (real (y ⬝ᵥ y / 2) - 0.5 * z.normSq) / real (predicted y J p)) := by
  unfold decreaseRatio
  split
  · rfl
  · rw [mulVec?_reals]
    simp only [fit, pure_bind, add?_reals, half_normSq_reals, real_sub]
    have falls : ¬ real (predicted y J p) ≤ 0 := by
      rw [zero_eq, real_le, not_le]
      exact positive
    rw [← predicted_eq_half, if_neg falls]
    rfl

end

/-! ## One trial -/

/-- The model of least squares for a residual and a Jacobian of real numbers. -/
noncomputable def Model.leastSquares (y : Fin m → ℝ) (J : Matrix (Fin m) (Fin n) ℝ) (a : ℝ) :
    Model Wide :=
  { y := (reals y).toArray
    J := denseReals J
    g := (reals (Jᵀ *ᵥ y)).toArray
    B := .ofMat (embedMat real (Jᵀ * J + a • 1)) }

open Classical in
/-- The probe stands on the path of the model, and its ratio is a proper quotient. -/
structure Probe.Stands (x : Fin n → ℝ) (y : Fin m → ℝ) (J : Matrix (Fin m) (Fin n) ℝ) (a ρ : ℝ)
    (p : Fin n → ℝ) (b : Probe Wide) : Prop where
  path : Path (Jᵀ *ᵥ y) (Jᵀ * J + a • 1) ρ p
  computed : doglegStep (reals (Jᵀ *ᵥ y)) (embedMat real (Jᵀ * J + a • 1)) (real ρ) = .ok (reals p)
  step : b.p = (reals p).toArray
  leads : b.x' = (reals (x + p)).toArray
  falls : 0 < predicted y J p
  ratio : b.ratio = if b.z.hasNaN then negInf
    else (real (y ⬝ᵥ y / 2) - 0.5 * b.z.normSq) / real (predicted y J p)

section
variable {G : PureEquations Wide} {x : Fin n → ℝ} {y : Fin m → ℝ} {J : Matrix (Fin m) (Fin n) ℝ}
  {a ρ : ℝ} {b : Probe Wide} {p : Fin n → ℝ}

theorem doglegStep?_reals (steep : Jᵀ *ᵥ y ≠ 0) {radius : Wide}
    (computed : doglegStep (reals (Jᵀ *ᵥ y)) (embedMat real (Jᵀ * J + a • 1)) radius = .ok (reals p)) :
    doglegStep? (Model.leastSquares y J a).g (Model.leastSquares y J a).B radius =
      .ok (reals p).toArray := by
  rw [Model.leastSquares, doglegStep?_toArray _ _ _ (norm_beq_zero embedsReals steep), computed]
  rfl

theorem Probe.Of.stands (probe : b.Of G (reals x).toArray (.leastSquares y J a))
    (steep : Jᵀ *ᵥ y ≠ 0) (nonneg : 0 ≤ a) (positive : 0 < ρ) (within : b.radius = real ρ) :
    ∃ p, b.Stands x y J a ρ p := by
  obtain ⟨p, computed, path⟩ := doglegStep_embed embedsReals steep positive (Jᵀ * J + a • 1)
  have step : b.p = (reals p).toArray :=
    Except.ok.inj (probe.step.symm.trans (within ▸ doglegStep?_reals steep computed))
  have falls := path.predicted_pos nonneg steep positive
  refine ⟨p, path, computed, step, ?_, falls, ?_⟩
  · exact Option.some.inj (probe.leads.symm.trans (step ▸ add?_reals x p))
  · exact Except.ok.inj (probe.ratio.symm.trans (step ▸ decreaseRatio_reals J y p b.z falls))

/-- A step has a real length. -/
theorem Probe.Stands.norm_eq (stands : b.Stands x y J a ρ p) : b.p.norm = real (length p) := by
  rw [stands.step, Vec.norm_toArray, embedsReals.norm]

end

/-! ## One iteration -/

section
variable {ω : Type} {G : PureEquations Wide} {c : Settings ℝ} {x : Fin n → ℝ} {y : Fin m → ℝ}
  {J : Matrix (Fin m) (Fin n) ℝ} {t : State ω Wide} {ρ : ℝ}

/-- An iteration at a point of real numbers makes its trials for the model of least squares. -/
theorem outcome_step_reals (now : t.driver.current.now = .reals x y)
    (jacobian : G.derivative (reals x).toArray = .ok (.ofDense (denseReals J)))
    (steep : Jᵀ *ᵥ y ≠ 0) :
    let M := Model.leastSquares y J c.regularization
    ∃ count, (step G.actions c.wide).outcome t =
      (tries G.actions c.wide M.y M.J M.g M.B c.maxTrials.toNat false).outcome
        { t with count := count } := by
  obtain ⟨cost, -, plain⟩ := G.plain_jacobianAt (reals x).toArray
  refine ⟨t.count + cost, ?_⟩
  have size : (reals x).toArray.size = n := by simp
  rw [step_eq, Edit.outcome_bind]
  change Edit.outcome (G.actions.jacobianAt t.driver.current.now.x >>=
    stepWith G.actions c.wide t.driver.current.now) t = _
  rw [now, Edit.outcome_bind, plain _ ω, jacobian, Edit.andThen_ok]
  simp only [stepWith, Shaped.vec?_ofVec, Shaped.dense?_ofDense, transposeMulVec?_reals, fit,
    pure_bind, norm_gradient_eq steep, Bool.false_eq_true, if_false, size]
  have matrix : model? (denseReals J) n c.wide.regularization = some _ := model?_reals J _
  rw [matrix]
  simp only [pure_bind, hasNaN_reals]
  rfl

/-- The trials of such an iteration, and where they lead. -/
theorem trials_of_step (now : t.driver.current.now = .reals x y)
    (jacobian : G.derivative (reals x).toArray = .ok (.ofDense (denseReals J)))
    (steep : Jᵀ *ᵥ y ≠ 0) :
    ∃ l, Trials c.wide (Probe.Of G (reals x).toArray (.leastSquares y J c.regularization))
        t.driver.memory l ((step G.actions c.wide).outcome t).2.driver.memory ∧
      ∀ z, ((step G.actions c.wide).outcome t).1 = .ok z → Leads c.wide (reals x).toArray l z := by
  obtain ⟨count, same⟩ := outcome_step_reals (c := c) now jacobian steep
  obtain ⟨l, trials, -, returns⟩ := attempts_tries (G := G) (c := c.wide)
    (.leastSquares y J c.regularization) c.maxTrials.toNat false { t with count := count }
  have here : Session.point { t with count := count } = (reals x).toArray :=
    congrArg SystemPoint.x now
  rw [here] at trials returns
  rw [same]
  exact ⟨l, trials, fun z returned => (returns z returned).1⟩

/-- A region with a real radius. -/
def Region.Real (r : Region Wide) : Prop := ∃ ρ : ℝ, 0 < ρ ∧ r.radius = real ρ

theorem real_note (rules : c.check = .ok c) {r : Region Wide} {b : Probe Wide} {a : ℝ}
    {p : Fin n → ℝ} (stands : b.Stands x y J a ρ p) (real : r.Real) : (r.note c.wide b).Real := by
  obtain ⟨ρ', positive, radius⟩ := real
  have next := nextRadius_real c ρ' (length p) b.ratio
  rw [← radius, ← stands.norm_eq] at next
  exact ⟨_, radiusAfter_pos rules positive, next⟩

/-- Every trial that is taken down stands on the path, within a real radius. -/
theorem stands_of_mem (rules : c.check = .ok c) (steep : Jᵀ *ᵥ y ≠ 0) {r r' : Region Wide}
    {l : List (Probe Wide)} (start : r.Real) {b : Probe Wide} (mem : b ∈ l)
    (trials : Trials c.wide (Probe.Of G (reals x).toArray (.leastSquares y J c.regularization))
      r l r') :
    ∃ ρ p, 0 < ρ ∧ b.radius = real ρ ∧ b.Stands x y J c.regularization ρ p := by
  obtain ⟨-, -, -, -, -, regular, -⟩ := Settings.check_ok rules
  have stands {r : Region Wide} {b : Probe Wide} (kept : r.Real) (within : b.radius = r.radius)
      (probe : b.Of G (reals x).toArray (.leastSquares y J c.regularization)) :
      ∃ ρ p, 0 < ρ ∧ b.radius = real ρ ∧ b.Stands x y J c.regularization ρ p := by
    obtain ⟨ρ, positive, present⟩ := kept
    obtain ⟨p, stands⟩ := probe.stands steep (not_lt.1 regular) positive (within.trans present)
    exact ⟨ρ, p, positive, within.trans present, stands⟩
  -- a trial within a real radius stands, and one that stands leaves a real radius to the next
  obtain ⟨r₀, kept, within⟩ := trials.within_of_mem Region.Real (fun r b kept probe same => by
    obtain ⟨ρ, p, -, -, standing⟩ := stands kept same probe
    exact real_note rules standing kept) start mem
  exact stands kept within (trials.valid_of_mem mem)

end

/-! ## The decrease -/

/-- A step that is as low as any admitted point along `-g`. -/
structure Decreases (g : Fin n → ℝ) (B : Matrix (Fin n) (Fin n) ℝ) (r : ℝ) (p : Fin n → ℝ) :
    Prop where
  cauchy : ∀ t : ℝ, 0 ≤ t → length (t • g) ≤ r → modelAt g B p ≤ modelAt g B (-(t • g))
  falls : modelAt g B p < 0
  slope : g ⬝ᵥ p < 0

open Classical in
/-- A trial with the step `p` to the residual `z`, whose ratio is the quotient of the decrease there and
a predicted decrease that is positive. -/
structure Trial.Predicts (G : PureEquations Wide) (x : Fin n → ℝ) (y : Fin m → ℝ)
    (J : Matrix (Fin m) (Fin n) ℝ) (a : ℝ) (q : Trial Wide) (p : Fin n → ℝ) (z : Vec Wide) : Prop where
  step : doglegStep (reals (Jᵀ *ᵥ y)) (embedMat real (Jᵀ * J + a • 1)) q.radius = .ok (reals p)
  length : q.length = real (Descent.length p)
  residual : G.residual (reals (x + p)).toArray = .ok (.ofVec z)
  falls : 0 < predicted y J p
  /-- A residual with undefined entries counts as the worst. -/
  ratio : q.ratio = if z.hasNaN then negInf
    else (real (y ⬝ᵥ y / 2) - 0.5 * z.normSq) / real (predicted y J p)

theorem Probe.Stands.predicts {G : PureEquations Wide} {c : Settings ℝ} {x : Fin n → ℝ}
    {y : Fin m → ℝ} {J : Matrix (Fin m) (Fin n) ℝ} {a ρ : ℝ} {p : Fin n → ℝ} {b : Probe Wide}
    (stands : b.Stands x y J a ρ p) (probe : b.Of G (reals x).toArray (.leastSquares y J a))
    (within : b.radius = real ρ) : (b.trial c.wide).Predicts G x y J a p b.z := by
  obtain ⟨w, value, vector⟩ := probe.value
  rw [Shaped.eq_ofVec vector, stands.leads] at value
  exact
    { step := (congrArg (doglegStep _ _) within).trans stands.computed
      length := stands.norm_eq
      residual := value
      falls := stands.falls
      ratio := stands.ratio }

/-- **A step is as low on a positive semidefinite model as any point along the gradient that the radius
admits.**  So every trial that the solver takes down, from a point with a real residual and a real
Jacobian, is predicted to lead down. -/
theorem doglegStep_decreases :
    (∀ (n : ℕ) (g : Fin n → ℝ) (B : Matrix (Fin n) (Fin n) ℝ) (r : ℝ), B.PosSemidef → g ≠ 0 →
      0 < r → ∃ p, doglegStep (stored g) (storedMat B) r = .ok (stored p) ∧ Decreases g B r p) ∧
    ∀ (ω : Type) (m n : ℕ) (G : PureEquations Wide) (c : Settings ℝ) (t : State ω Wide)
      (x : Fin n → ℝ) (y : Fin m → ℝ) (J : Matrix (Fin m) (Fin n) ℝ), c.check = .ok c →
      t.driver.current.now = .reals x y →
      G.derivative (reals x).toArray = .ok (.ofDense (denseReals J)) → Jᵀ *ᵥ y ≠ 0 →
      t.driver.memory.Real →
      ∃ new, ((step G.actions c.wide).outcome t).2.driver.memory.trials =
          t.driver.memory.trials ++ new ∧
        ∀ q ∈ new, ∃ p z, q.Predicts G x y J c.regularization p z := by
  refine ⟨fun n g B r psd nonzero positive => ?_,
    fun ω m n G c t x y J rules now jacobian steep radius => ?_⟩
  · obtain ⟨p, stepped, path⟩ := doglegStep_embed .refl nonzero positive B
    refine ⟨p, stepped, fun t nonneg admitted => ?_, path.modelAt_neg psd nonzero positive,
      path.slope_neg psd nonzero positive⟩
    rw [length_smul, abs_of_nonneg nonneg] at admitted
    exact path.modelAt_le psd nonzero positive admitted
  · obtain ⟨l, trials, -⟩ := trials_of_step now jacobian steep
    refine ⟨_, trials.trials_eq, fun q mem => ?_⟩
    obtain ⟨b, made, rfl⟩ := List.mem_map.1 mem
    obtain ⟨ρ, p, -, within, stands⟩ := stands_of_mem rules steep radius made trials
    exact ⟨p, b.z, stands.predicts (trials.valid_of_mem made) within⟩

/-- A session that stands at a point, before its first iteration. -/
def standing {α : Type} [Extended α] (c : Settings α) (p : SystemPoint α) : State Unit α :=
  let idle : Drive (SystemPoint α) (ResidualProgress α) (Region α) α := Drive.idle (blank c)
  { driver := idle.setCache (Cache.start p), env := () }

/-- A singular model, and a session of the solver for `x = 0` that stands at one. -/
theorem doglegStep_decreases_origin :
    (∃ p, doglegStep (stored ![1, 1]) (storedMat (diagonal ![1, 0])) 1 = .ok (stored p) ∧
      Decreases ![1, 1] (diagonal ![1, 0]) 1 p) ∧
    ∃ new, ((step PureEquations.origin.actions (Settings.wide .standard)).outcome
        (standing (Settings.wide .standard) (.reals ![1] ![1]))).2.driver.memory.trials = [] ++ new ∧
      ∀ q ∈ new, ∃ p z, q.Predicts .origin ![1] ![1] 1 0 p z := by
  have psd : (diagonal ![1, 0] : Matrix (Fin 2) (Fin 2) ℝ).PosSemidef := by
    refine PosSemidef.diagonal fun i => ?_
    fin_cases i <;> simp
  have nonzero : (![1, 1] : Fin 2 → ℝ) ≠ 0 := fun zero => one_ne_zero (congrFun zero 0)
  have steep : (1 : Matrix (Fin 1) (Fin 1) ℝ)ᵀ *ᵥ ![1] ≠ 0 := by
    rw [transpose_one, one_mulVec]
    exact fun zero => one_ne_zero (congrFun zero 0)
  have jacobian : PureEquations.origin.derivative (reals ![1]).toArray =
      .ok (.ofDense (denseReals (1 : Matrix (Fin 1) (Fin 1) ℝ))) := by
    have size : (reals ![1]).toArray.size = 1 := by simp
    change Except.ok (Shaped.ofMat (Mat.identity (reals ![1]).toArray.size)) = _
    rw [size, embeds.identity]
    rfl
  exact ⟨doglegStep_decreases.1 2 _ _ 1 psd nonzero one_pos,
    doglegStep_decreases.2 Unit 1 1 _ .standard (standing _ _) _ _ 1 standard_rules rfl jacobian steep
      ⟨1, one_pos, rfl⟩⟩

end Descent.Dogleg
