/-
# Descent.Proofs.Equations.Dogleg.Trials — what an iteration does to the region

An iteration of the trust-region solver is a sequence of trial steps.  A trial first
looks where a step within the radius leads (`Probe`), which does not touch the
region, and then takes down what it saw, which cannot fail.  `Trials` is such a
sequence: every trial but the last one is rejected.

An iteration makes trials for the model at its point and changes the region in no
other way (`step_tries`), whether it returns or fails.  If it returns, it returns the
point of the trial that was accepted, or the point where it stands if none was.
-/
import Descent.Proofs.Equations.Evaluation

namespace Descent
set_option autoImplicit false

variable {μ ω α : Type} [Extended α]

theorem Solver.defined_ok {direction d : Vec α}
    {s t : Drive.State (SystemPoint α) (ResidualProgress α) μ ω α} :
    (defined direction : Action μ ω α (Vec α)).outcome s = (.ok d, t) ↔
      direction.hasNaN = false ∧ direction = d ∧ s = t := by
  unfold defined
  cases direction.hasNaN <;> simp

theorem Drive.turn_ok {ι π : Type} [Iterate ι π α] {direction : Vec α}
    {s t : Drive.State ι π μ ω α}
    (turned : (Drive.onCache (Cache.turn direction)).outcome s = (.ok ⟨⟩, t)) :
    ∃ c, t = { s with driver := s.driver.setCache c } := by
  rw [Drive.outcome_turn] at turned
  split at turned
  · exact ⟨_, (Prod.mk.inj turned).2.symm⟩
  · cases turned

namespace Dogleg

variable {G : PureEquations α} {c : Settings α}

/-- Settings that are admitted are taken over as they are. -/
theorem Settings.check_ok {α : Type} [Scalar α] {c c' : Settings α} (admitted : c.check = .ok c') :
    c' = c ∧ (0 < c.radius ∧ c.radius ≤ c.maxRadius) ∧ (0 ≤ c.acceptance ∧ c.acceptance < 0.25) ∧
      (0 < c.reduction ∧ c.reduction < 1) ∧ ¬ c.growth ≤ 1 ∧ ¬ c.regularization < 0 ∧
      ¬ c.maxTrials < 1 := by
  simp only [check] at admitted
  iterate 6
    split at admitted
    · cases admitted
  cases admitted
  simp_all

/-- A session of the solver. -/
abbrev State (ω α : Type) : Type := Drive.State (SystemPoint α) (ResidualProgress α) (Region α) ω α

/-! ## Trials -/

/-- Residual and Jacobian at a point, and the gradient and the matrix of the model there. -/
structure Model (α : Type) where
  y : Vec α
  J : Dense α
  g : Vec α
  B : Dense α

/-- A step within a radius, where it leads, the residual there and how well it was predicted. -/
structure Probe (α : Type) where
  radius : α
  p : Vec α
  x' : Vec α
  z : Vec α
  ratio : α

/-- The probe was made from a point with the model there. -/
structure Probe.Of (G : PureEquations α) (x : Vec α) (m : Model α) (b : Probe α) : Prop where
  step : doglegStep? m.g m.B b.radius = .ok b.p
  defined : b.p.hasNaN = false
  leads : Vec.add? x b.p = some b.x'
  value : ∃ w, G.residual b.x' = .ok w ∧ w.vec? = some b.z
  ratio : decreaseRatio m.y b.z m.J b.p = .ok b.ratio

/-- The probe as a trial. -/
def Probe.trial (c : Settings α) (b : Probe α) : Trial α :=
  { radius := b.radius, length := b.p.norm, ratio := b.ratio,
    accepted := decide (c.acceptance < b.ratio) }

/-- The region once a probe is taken down. -/
def Region.note (c : Settings α) (r : Region α) (b : Probe α) : Region α :=
  r.record c b.p.norm b.ratio (decide (c.acceptance < b.ratio))

/-- Trials lead from one region to another. The last of them may be accepted. -/
inductive Trials (c : Settings α) (V : Probe α → Prop) : Region α → List (Probe α) → Region α → Prop
  | none {r : Region α} : Trials c V r [] r
  | accepted {r : Region α} {b : Probe α} : V b → b.radius = r.radius → c.acceptance < b.ratio →
      Trials c V r [b] (r.note c b)
  | rejected {r r' : Region α} {b : Probe α} {l : List (Probe α)} : V b → b.radius = r.radius →
      ¬ c.acceptance < b.ratio → Trials c V (r.note c b) l r' → Trials c V r (b :: l) r'

namespace Trials

variable {V V' : Probe α → Prop} {r r' : Region α} {l : List (Probe α)}

theorem mono (weaker : ∀ b, V b → V' b) (h : Trials c V r l r') : Trials c V' r l r' := by
  induction h with
  | none => exact .none
  | accepted valid within accepts => exact .accepted (weaker _ valid) within accepts
  | rejected valid within rejects _ ih => exact .rejected (weaker _ valid) within rejects ih

/-- All trials are taken down. -/
theorem trials_eq (h : Trials c V r l r') : r'.trials = r.trials ++ l.map (Probe.trial c) := by
  induction h with
  | none => simp
  | accepted _ within _ => simp [Region.note, Region.record, Probe.trial, within]
  | rejected _ within _ _ ih => rw [ih]; simp [Region.note, Region.record, Probe.trial, within]

theorem valid_of_mem (h : Trials c V r l r') {b : Probe α} (mem : b ∈ l) : V b := by
  induction h with
  | none => cases mem
  | accepted valid => exact List.mem_singleton.1 mem ▸ valid
  | rejected valid _ _ _ ih =>
    rcases List.mem_cons.1 mem with rfl | mem
    · exact valid
    · exact ih mem

/-- Every trial but the last one is rejected. -/
theorem rejected_of_mem_dropLast (h : Trials c V r l r') {b : Probe α} (mem : b ∈ l.dropLast) :
    ¬ c.acceptance < b.ratio := by
  induction h with
  | none => simp at mem
  | accepted => simp at mem
  | @rejected r r' b' l _ _ rejects rest ih =>
    cases l with
    | nil => simp at mem
    | cons b'' l =>
      rw [List.dropLast_cons_of_ne_nil (List.cons_ne_nil _ _), List.mem_cons] at mem
      rcases mem with rfl | mem
      · exact rejects
      · exact ih mem

/-- So a trial that is accepted is the last one. -/
theorem eq_append_of_accepted (h : Trials c V r l r') {b : Probe α} (mem : b ∈ l)
    (accepts : c.acceptance < b.ratio) : l = l.dropLast ++ [b] := by
  induction h with
  | none => cases mem
  | accepted => rw [List.mem_singleton.1 mem]; rfl
  | @rejected r r' b' l _ _ rejects _ ih =>
    rcases List.mem_cons.1 mem with rfl | mem
    · exact absurd accepts rejects
    · rw [List.dropLast_cons_of_ne_nil (List.ne_nil_of_mem mem), List.cons_append, ← ih mem]

/-- What holds of a region and is kept by every trial holds in the end. -/
theorem keeps (h : Trials c V r l r') (I : Region α → Prop)
    (kept : ∀ r b, I r → V b → b.radius = r.radius → I (r.note c b)) (start : I r) : I r' := by
  induction h with
  | none => exact start
  | accepted valid within _ => exact kept _ _ start valid within
  | rejected valid within _ _ ih => exact ih (kept _ _ start valid within)

/-- So every trial is within the radius of a region of which it holds. -/
theorem within_of_mem (h : Trials c V r l r') (I : Region α → Prop)
    (kept : ∀ r b, I r → V b → b.radius = r.radius → I (r.note c b)) (start : I r) {b : Probe α}
    (mem : b ∈ l) : ∃ r, I r ∧ b.radius = r.radius := by
  induction h with
  | none => cases mem
  | accepted _ within _ => exact List.mem_singleton.1 mem ▸ ⟨_, start, within⟩
  | rejected valid within _ _ ih =>
    rcases List.mem_cons.1 mem with rfl | mem
    · exact ⟨_, start, within⟩
    · exact ih (kept _ _ start valid within) mem

end Trials

/-- The point that trials from a point lead to. -/
def Leads (c : Settings α) (x : Vec α) (l : List (Probe α)) (z : Vec α) : Prop :=
  (∃ b ∈ l, c.acceptance < b.ratio ∧ z = b.x') ∨ (∀ b ∈ l, ¬ c.acceptance < b.ratio) ∧ z = x

theorem Leads.cons {x z : Vec α} {l : List (Probe α)} {b : Probe α} (h : Leads c x l z)
    (rejects : ¬ c.acceptance < b.ratio) : Leads c x (b :: l) z := by
  obtain ⟨b', mem, accepts, rfl⟩ | ⟨none, rfl⟩ := h
  · exact .inl ⟨b', List.mem_cons_of_mem b mem, accepts, rfl⟩
  · exact .inr ⟨List.forall_mem_cons.2 ⟨rejects, none⟩, rfl⟩

/-! ## One trial -/

section
variable {x y g z : Vec α} {J B : Dense α} {m : Model α} {s t : State ω α} {b : Probe α}

/-- The part of a trial that does not change the region. -/
def probe (F : Solver.Problem (Region α) ω α) (m : Model α) : Action ω α (Probe α) := do
  let x := (← Drive.now).x
  let radius := (← region).radius
  let p ← Solver.defined (← ofExcept (doglegStep? m.g m.B radius))
  Drive.onCache (Cache.turn p)
  let x' ← fit (Vec.add? x p)
  let z ← fit (← F.residualAt x').vec?
  let ratio ← ofExcept (decreaseRatio m.y z m.J p)
  return { radius, p, x', z, ratio }

/-- The part of a trial that does not fail. -/
def takeDown (c : Settings α) (b : Probe α) : Action ω α (Bool × Vec α × Bool) := do
  let accepted := decide (c.acceptance < b.ratio)
  (Region.remarks c b.radius b.p.norm b.ratio).forM Reports.report
  Act.changeDriver fun d => { d with memory := d.memory.record c b.p.norm b.ratio accepted }
  return (accepted, b.x', b.z.hasNaN)

theorem trial_eq (F : Solver.Problem (Region α) ω α) :
    trial F c m.y m.J m.g m.B = probe F m >>= takeDown c := by
  simp only [trial, probe, takeDown, bind_assoc, pure_bind]

theorem outcome_takeDown : (takeDown c b : Action ω α _).outcome s =
    (.ok (decide (c.acceptance < b.ratio), b.x', b.z.hasNaN), { s with
      driver := { s.driver with memory := s.driver.memory.note c b }
      log := s.log ++ (Region.remarks c b.radius b.p.norm b.ratio).toArray }) := by
  rw [takeDown, Edit.outcome_bind, Act.outcome_reports]
  rfl

theorem keeps_probe {R : State ω α → State ω α → Prop} [Drive.Backdrop R] {P : Fault α → Prop}
    [Fault.Broad P] {F : Solver.Problem (Region α) ω α} (kept : F.Keeps R P) :
    Edit.Keeps R P (probe F m) := by
  have reads : Edit.Keeps R P (region : Action ω α (Region α)) :=
    .bind Drive.keeps_driver fun _ => .pure _
  refine .bind Drive.keeps_now fun p => .bind reads fun r => ?_
  refine .bind (Drive.keeps_ofExcept (ordinary_doglegStep? _ _ _)) fun _ => ?_
  refine .bind (Solver.keeps_defined _) fun p => .bind (Drive.keeps_turn _) fun _ => ?_
  refine .bind (Drive.keeps_fit _) fun x' => .bind (Solver.keeps_residualAt kept _) fun w => ?_
  refine .bind (Drive.keeps_fit _) fun z => ?_
  exact .bind (Drive.keeps_ofExcept (ordinary_decreaseRatio _ _ _ _)) fun _ => .pure _

theorem probe_ok (probed : (probe G.actions m).outcome s = (.ok b, t)) :
    b.Of G s.point m ∧ b.radius = s.driver.memory.radius ∧
      t.count = s.count + { values := 1 } := by
  simp only [probe, Edit.outcome_bind_ok, Edit.outcome_fit_ok, Edit.outcome_ofExcept,
    Solver.defined_ok] at probed
  obtain ⟨now, _, found, r, _, read, p, _, solved, p', _, ⟨defined, rfl, rfl⟩, ⟨⟩, _, turned, x', _,
    ⟨leads, rfl⟩, w, _, evaluated, z, _, ⟨vector, rfl⟩, ratio, _, predicted, returned⟩ := probed
  cases found
  cases read
  obtain ⟨step, rfl⟩ := Prod.mk.inj solved
  obtain ⟨ratio, rfl⟩ := Prod.mk.inj predicted
  obtain ⟨cache, rfl⟩ := Drive.turn_ok turned
  rw [G.outcome_residualAt] at evaluated
  obtain ⟨value, after⟩ := Prod.mk.inj evaluated
  rw [value] at after
  cases returned
  exact ⟨⟨step, defined, leads, ⟨w, value, vector⟩, ratio⟩, rfl, after ▸ rfl⟩

/-- A trial that fails has not been taken down, and one that returns has. -/
theorem outcome_trial :
    (∃ e t, (trial G.actions c m.y m.J m.g m.B).outcome s = (.error e, t) ∧
      t.driver.memory = s.driver.memory) ∨
    ∃ b t, (trial G.actions c m.y m.J m.g m.B).outcome s =
        (.ok (decide (c.acceptance < b.ratio), b.x', b.z.hasNaN), t) ∧
      b.Of G s.point m ∧ b.radius = s.driver.memory.radius ∧
      t.driver.memory = s.driver.memory.note c b ∧ t.count = s.count + { values := 1 } := by
  have kept : Edit.Keeps (Edit.Unchanged fun s : State ω α => s.driver.memory) (fun _ => True)
      (probe G.actions m) := keeps_probe (G.keeps fun _ _ => trivial)
  rw [trial_eq, Edit.outcome_bind]
  rcases probed : (probe G.actions m).outcome s with ⟨e | b, t⟩
  · exact .inl ⟨e, t, rfl, kept.preserves probed⟩
  · obtain ⟨valid, within, counted⟩ := probe_ok probed
    rw [Edit.andThen_ok, outcome_takeDown]
    exact .inr ⟨b, _, rfl, valid, within, by rw [← kept.preserves probed], counted⟩

/-! ## One iteration -/

/-- From a point, a region and a number of evaluations an action has made trials that satisfy `V`,
within a number of them. If it returned, it evaluated one residual for each trial, and returned the
point that they lead to. -/
def Attempts (c : Settings α) (V : Probe α → Prop) (n : Nat) (x : Vec α) (r : Region α)
    (count : Evaluations) (done : Except (Fault α) (Vec α) × State ω α) : Prop :=
  ∃ l, Trials c V r l done.2.driver.memory ∧ l.length ≤ n ∧
    ∀ z, done.1 = .ok z → Leads c x l z ∧ done.2.count = count + { values := l.length }

theorem attempts_of_unchanged {V : Probe α → Prop} {n : Nat} {r : Region α} {count : Evaluations}
    {result : Except (Fault α) (Vec α)} (same : t.driver.memory = r)
    (stays : ∀ z, result = .ok z → z = x ∧ t.count = count) :
    Attempts c V n x r count (result, t) := by
  refine ⟨[], same ▸ .none, Nat.zero_le n, fun z returned => ?_⟩
  obtain ⟨rfl, counted⟩ := stays z returned
  exact ⟨.inr ⟨nofun, rfl⟩, counted⟩

section
variable {V : Probe α → Prop} {n : Nat} {r : Region α} {count : Evaluations} (valid : V b)
  (within : b.radius = r.radius)
include valid within

theorem attempts_of_accepted (accepts : c.acceptance < b.ratio) (noted : t.driver.memory = r.note c b)
    (counted : t.count = count + { values := 1 }) : Attempts c V (n + 1) x r count (.ok b.x', t) := by
  refine ⟨[b], ?_, Nat.le_add_left 1 n, fun z returned => ?_⟩
  · change Trials c V r [b] t.driver.memory
    rw [noted]
    exact .accepted valid within accepts
  · cases returned
    exact ⟨.inl ⟨b, List.mem_singleton_self b, accepts, rfl⟩, counted⟩

theorem attempts_of_rejected (rejects : ¬ c.acceptance < b.ratio)
    {done : Except (Fault α) (Vec α) × State ω α}
    (others : Attempts c V n x (r.note c b) (count + { values := 1 }) done) :
    Attempts c V (n + 1) x r count done := by
  obtain ⟨l, trials, few, returns⟩ := others
  refine ⟨b :: l, .rejected valid within rejects trials, Nat.succ_le_succ few,
    fun z returned => ?_⟩
  obtain ⟨leads, counts⟩ := returns z returned
  exact ⟨leads.cons rejects, by rw [counts, Evaluations.add_assoc, Evaluations.add_values,
    Nat.add_comm 1, List.length_cons]⟩

end

theorem attempts_tries (m : Model α) (n : Nat) (undefinedBefore : Bool) (s : State ω α) :
    Attempts c (Probe.Of G s.point m) n s.point s.driver.memory s.count
      ((tries G.actions c m.y m.J m.g m.B n undefinedBefore).outcome s) := by
  induction n generalizing s undefinedBefore with
  | zero =>
    cases undefinedBefore with
    | true =>
      refine attempts_of_unchanged (t := s) rfl ?_
      rintro z ⟨⟩
    | false =>
      refine attempts_of_unchanged (t := { s with log := _ }) rfl fun z returned => ?_
      cases returned
      exact ⟨rfl, rfl⟩
  | succ n ih =>
    rw [tries, Edit.outcome_bind]
    rcases outcome_trial (G := G) (c := c) (m := m) (s := s) with
      ⟨e, t, failed, same⟩ | ⟨b, t, tried, valid, within, noted, counted⟩
    · rw [failed]
      refine attempts_of_unchanged same ?_
      rintro z ⟨⟩
    · rw [tried, Edit.andThen_ok]
      have there : t.point = s.point := by
        have kept : Edit.Keeps (Edit.Unchanged Session.point) (fun _ => True)
            (trial (ω := ω) G.actions c m.y m.J m.g m.B) :=
          keeps_trial (G.keeps fun _ _ => trivial) c m.y m.J m.g m.B
        exact kept.preserves tried
      by_cases accepts : c.acceptance < b.ratio
      · simp only [accepts, decide_true, if_true]
        exact attempts_of_accepted valid within accepts noted counted
      · simp only [accepts, decide_false, Bool.false_eq_true, if_false]
        have others := ih b.z.hasNaN t
        rw [there, noted, counted] at others
        exact attempts_of_rejected valid within accepts others

/-- The model at a point whose gradient does not vanish. -/
structure Model.At (G : PureEquations α) (p : SystemPoint α) (m : Model α) : Prop where
  residual : p.y.vec? = some m.y
  jacobian : ∃ A, G.derivative p.x = .ok A ∧ A.dense? = some m.J
  gradient : m.J.transposeMulVec? m.y = some m.g
  steep : (m.g.norm == 0) = false

/-- The probe was made from a point. -/
def Probe.At (G : PureEquations α) (p : SystemPoint α) (b : Probe α) : Prop :=
  ∃ m, m.At G p ∧ b.Of G p.x m

/-- The part of an iteration that comes after the Jacobian. -/
def stepWith (F : Solver.Problem (Region α) ω α) (c : Settings α) (p : SystemPoint α)
    (A : Shaped α) : Action ω α (Vec α) :=
  match p.y.vec?, A.dense? with
  | some y, some J => do
    let g ← fit (J.transposeMulVec? y)
    if g.norm == 0 then return p.x
    let B ← fit (model? J p.x.size c.regularization)
    tries F c y J g B c.maxTrials.toNat y.hasNaN
  | _, _ => ofExcept (unmoved p.x p.y A c)

theorem step_eq (F : Solver.Problem (Region α) ω α) : step F c = (do
    let p ← Drive.now
    let A ← F.jacobianAt p.x
    stepWith F c p A) := rfl

theorem attempts_stepWith {p : SystemPoint α} {A : Shaped α} (value : G.derivative p.x = .ok A)
    (here : s.point = p.x) :
    Attempts c (Probe.At G p) c.maxTrials.toNat p.x s.driver.memory s.count
      ((stepWith G.actions c p A).outcome s) := by
  unfold stepWith
  split
  case h_2 =>
    rw [Edit.outcome_ofExcept]
    exact attempts_of_unchanged rfl fun z returned => ⟨result_of_unmoved returned, rfl⟩
  case h_1 y J vector matrix =>
    cases gradient : J.transposeMulVec? y with
    | none => exact attempts_of_unchanged (t := s) rfl nofun
    | some g =>
      change Attempts _ _ _ _ _ _ (Edit.outcome (if g.norm == 0 then _ else _) s)
      split
      · refine attempts_of_unchanged (t := s) rfl fun z returned => ?_
        cases returned
        exact ⟨rfl, rfl⟩
      · rename_i steep
        cases model? J p.x.size c.regularization with
        | none => exact attempts_of_unchanged (t := s) rfl nofun
        | some B =>
          obtain ⟨l, trials, rest⟩ := attempts_tries (G := G) (c := c) ⟨y, J, g, B⟩
            c.maxTrials.toNat y.hasNaN s
          rw [here] at trials rest
          refine ⟨l, trials.mono fun b valid => ⟨⟨y, J, g, B⟩, ?_, valid⟩, rest⟩
          exact ⟨vector, ⟨A, value, matrix⟩, gradient, Bool.eq_false_iff.2 steep⟩

/-- An iteration makes trials for the model at its point. A known Jacobian is evaluated once. -/
theorem attempts_step (G : PureEquations α) (c : Settings α) (s : State ω α) :
    ∃ count, (∀ J, G.jacobian = some J → count = s.count + { first := 1 }) ∧
      Attempts c (Probe.At G s.driver.current.now) c.maxTrials.toNat s.point s.driver.memory count
        ((step G.actions c).outcome s) := by
  have keeps {R : State ω α → State ω α → Prop} [Drive.Backdrop R] :
      Edit.Keeps R (fun _ => True) (G.actions.jacobianAt s.point) :=
    Solver.keeps_jacobianAt (G.keeps fun _ _ => trivial) _
  have value := G.result_of_jacobianAt s.point s
  rw [step_eq, Edit.outcome_bind]
  change ∃ count, _ ∧ Attempts _ _ _ _ _ _ (Edit.outcome (G.actions.jacobianAt s.point >>= _) s)
  rw [Edit.outcome_bind]
  rcases evaluated : (G.actions.jacobianAt s.point).outcome s with ⟨e | A, t⟩
  all_goals
    have same := keeps (R := Edit.Unchanged fun s => s.driver.memory) |>.preserves evaluated
  · exact ⟨_, fun _ _ => rfl, attempts_of_unchanged same nofun⟩
  · refine ⟨t.count, fun J known => G.count_of_jacobianAt _ known evaluated, ?_⟩
    rw [evaluated] at value
    have there : t.point = s.point :=
      keeps (R := Edit.Unchanged Session.point) |>.preserves evaluated
    exact same ▸ attempts_stepWith value.symm there

end

end Dogleg

end Descent
