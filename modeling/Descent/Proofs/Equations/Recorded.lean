/-
# Descent.Proofs.Equations.Recorded — systems that record their calls

A system of plain functions can write down in a state of its own how often it is called, and
how many of the residuals among these calls ended in a bracketing fault
(`PureEquations.recorded`).  A driver does with it what it does with the plain system.

Along a line its values and slopes are the plain ones as well, and what they leave behind is
known: a residual that ends in a bracketing fault is one more that was missed
(`PureEquations.yields_value`).  A march along the line takes such a fault for one of its own,
so the search may go on from there (`LineSearch.yields_bisectSlope`).
-/
import Descent.Proofs.Equations.Ray

namespace Descent
set_option autoImplicit false

variable {δ α β : Type}

/-- A call that ends in a bracketing fault of its own, which a march takes for one of the march. -/
def Equations.misses : Except (Fault α) β → ℕ
  | .ok _ => 0
  | .error e => if e.isBracketing then 1 else 0

/-! ## Functions that record their calls -/

/-- The calls that were made, and how many values among them were missed. -/
structure Calls where
  made : Evaluations := {}
  missed : ℕ := 0

instance : Add Calls := ⟨fun a b => ⟨a.made + b.made, a.missed + b.missed⟩⟩

/-- A plain function that adds the cost of its calls to the state. -/
def Act.recorded {ω : Type} [Add ω] (cost : ω) (r : Except (Fault α) β) : Act δ ω α β := do
  modify fun s => { s with env := s.env + cost }
  ofExcept r

theorem Act.outcome_recorded {ω : Type} [Add ω] (cost : ω) (r : Except (Fault α) β)
    (s : Session δ ω α) : (Act.recorded cost r).outcome s = (r, { s with env := s.env + cost }) := by
  rw [recorded, Edit.outcome_bind, Edit.outcome_modify, Edit.andThen_ok, Edit.outcome_ofExcept]

namespace PureEquations

variable (G : PureEquations α)

/-- A system of plain functions that record their calls. -/
def recorded : Equations δ Calls α where
  residual x := Act.recorded ⟨{ values := 1 }, Equations.misses (G.residual x)⟩ (G.residual x)
  jacobian := G.jacobian.map fun J x => Act.recorded ⟨{ first := 1 }, 0⟩ (J x)
  dim := G.dim

theorem result_of_recorded (x : Vec α) (s : Session δ Calls α) :
    ((G.recorded.residual x).outcome s).1 = G.residual x :=
  congrArg Prod.fst (Act.outcome_recorded _ _ s)

variable {G}

/-- It keeps what does not depend on the record. -/
theorem keeps_recorded {R : Session δ Calls α → Session δ Calls α → Prop}
    [IsPreorder (Session δ Calls α) R] {P : Fault α → Prop}
    (aside : ∀ (s : Session δ Calls α) (env : Calls), R s { s with env })
    (raised : ∀ e, G.Raises e → P e) : (G.recorded : Equations δ Calls α).Keeps R P where
  residual x :=
    .bind (.change fun s => aside s _) fun _ => .ofExcept fun e failed => raised e (.inl ⟨x, failed⟩)
  jacobian := by
    intro J given x
    obtain ⟨K, known, rfl⟩ := Option.map_eq_some_iff.1 given
    exact .bind (.change fun s => aside s _) fun _ =>
      .ofExcept fun e failed => raised e (.inr ⟨K, known, x, failed⟩)

end PureEquations

/-- A fixed-point iterator is as sound with a system that records its calls. -/
theorem FixedPoint.sound_recorded [Extended α] (G : PureEquations α) (c : Settings α) :
    (method G.recorded c).Sound G.pointAt G.Faults := by
  have kept {P : Fault α → Prop} (raised : ∀ e, G.Raises e → P e) :
      (G.recorded : Solver.Problem Unit Calls α).Keeps Drive.SameIterates P :=
    PureEquations.keeps_recorded (fun _ _ => .of_cache rfl) raised
  have own : (method G.recorded c).Private :=
    keeps_method (PureEquations.keeps_recorded (fun _ _ => rfl) fun _ _ => trivial) c
  exact G.sound G.result_of_recorded rfl own (keeps_method (kept fun _ => Or.inr) c)
    fun _ _ _ _ => size_of_step (P := G.Faults) (kept fun _ => Or.inr)

/-! ## Along a line -/

/-- The line starts at a point and leads in a direction, and so many values were missed. -/
def Session.Missing (x d : Vec α) (n : ℕ) (s : Session δ Calls α) : Prop :=
  s.Along x d ∧ s.env.missed = n

namespace Session.Missing

variable {x d : Vec α} {n : ℕ}

theorem yields_report (r : Log.Record α) : Edit.Yields (Missing x d n) (.ok ⟨⟩) (Missing x d n)
    (Reports.report r : Act δ Calls α Unit) := fun _ missing => ⟨rfl, missing⟩

theorem yields_visit [Scalar α] (alpha : α) : Edit.Yields (Missing x d n)
    (.ok (linePoint x d alpha)) (Missing x d n)
    (Act.onTrack (Track.visit alpha) : Act δ Calls α (Vec α)) := by
  rintro s ⟨⟨rfl, rfl⟩, missed⟩
  exact ⟨rfl, ⟨rfl, rfl⟩, missed⟩

end Session.Missing

namespace PureEquations

open Session (Missing)

variable (G : PureEquations α) (x d : Vec α) (n : ℕ)

/-- A residual that ends in a bracketing fault is missed. -/
theorem yields_residualAt (z : Vec α) : Edit.Yields (Missing x d n) (G.residual z)
    (Missing x d (n + Equations.misses (G.residual z)))
    (G.recorded.residualAt z : Act δ Calls α (Shaped α)) := by
  rintro s ⟨along, rfl⟩
  rw [Equations.residualAt, Edit.outcome_bind, recorded, Act.outcome_recorded]
  cases G.residual z <;> exact ⟨rfl, along, rfl⟩

variable [Scalar α]

/-- So is a value of a ray. -/
theorem yields_value (alpha : α) :
    Edit.Yields (Missing x d n) ((G.ray x d none).value alpha)
      (Missing x d (n + Equations.misses (G.residual (linePoint x d alpha))))
      ((G.recorded.ray none).value alpha : Act δ Calls α α) := by
  refine (Missing.yields_visit alpha).bind ?_
  have residual := G.yields_residualAt (δ := δ) x d n (linePoint x d alpha)
  simp only [ray]
  cases value : G.residual (linePoint x d alpha) with
  | error e =>
    rw [value] at residual
    exact residual.bind_error
  | ok y =>
    rw [value] at residual
    exact residual.bind (Correspondence.within_ofExcept (y.inner y))

/-- A known Jacobian is not missed. -/
theorem yields_jacobianAt {J : Vec α → Except (Fault α) (Shaped α)} (known : G.jacobian = some J)
    (z : Vec α) : Edit.Yields (Missing x d n) (J z) (Missing x d n)
      (G.recorded.jacobianAt z : Act δ Calls α (Shaped α)) := by
  rintro s ⟨along, missed⟩
  simp only [Equations.jacobianAt, Equations.jacobianCost, recorded, known, Option.map_some,
    Act.counted, bind_assoc, Edit.outcome_bind, Act.outcome_recorded]
  cases J z <;> exact ⟨rfl, along, missed⟩

/-- Where the residual is there, a slope misses nothing if the Jacobian is known. -/
theorem yields_slope {J : Vec α → Except (Fault α) (Shaped α)} (known : G.jacobian = some J)
    {alpha : α} {y : Shaped α} (value : G.residual (linePoint x d alpha) = .ok y) :
    Edit.Yields (Missing x d n) ((G.ray x d none).slope alpha) (Missing x d n)
      ((G.recorded.ray none).slope alpha : Act δ Calls α α) := by
  let C := Correspondence.within (α := α) (Missing (δ := δ) x d n)
  have residual := G.yields_residualAt (δ := δ) x d n (linePoint x d alpha)
  rw [value] at residual
  have jacobian : C.Rel (G.derivative (linePoint x d alpha))
      (G.recorded.jacobianAt (linePoint x d alpha)) := by
    rw [derivative, known]
    exact G.yields_jacobianAt x d n known _
  refine (Missing.yields_visit alpha).bind ?_
  simp only [ray, value, ok_bind]
  refine residual.bind (C.bind jacobian fun A => ?_)
  refine Correspondence.within_get ?_
  rintro s ⟨⟨-, rfl⟩, -⟩
  exact C.bind (C.fit trivial) fun r => C.bind (Correspondence.within_ofExcept _) fun a =>
    C.pure (2.0 * a)

end PureEquations

/-! ## Searches whose march is lost -/

namespace LineSearch

variable {σ : Type} [Scalar α] {I J K : σ → Prop} {e : Fault α}

theorem yields_bracketMinimum {f : α → Edit α σ α} {x fx : α} {march : March α}
    (checked : march.check = .ok ⟨⟩) (start : Edit.Yields I (.ok fx) I (f x))
    (lost : Edit.Yields I (.error e) J (f (x + march.step))) :
    Edit.Yields I (.error e) J (bracketMinimum f x march) := by
  have admitted : Edit.Yields I (.ok ⟨⟩) I (ofExcept march.check : Edit α σ Unit) :=
    checked ▸ Correspondence.within_ofExcept march.check
  exact admitted.bind (start.bind lost.bind_error)

variable [Reports α (Edit α σ)] {ray : Ray (Edit α σ) α} {c : LineSearch α} {alpha₀ d₀ d₁ f₀ f₁ : α}
  {r : Except (Fault α) α}

/-- Backtracking takes its first trial if the value there has fallen enough. -/
theorem yields_backtrack (value : Edit.Yields I (.ok f₀) I (ray.value 0))
    (slope : Edit.Yields I (.ok d₀) I (ray.slope 0)) (steep : isFlat d₀ c.tol = false)
    (trials : 1 ≤ c.maxIterations) (plain : c.curvature = false)
    (first : Edit.Yields I (.ok f₁) I (ray.value alpha₀))
    (falls : sufficientDecrease f₁ f₀ d₀ alpha₀ c.c1 = true) :
    Edit.Yields I (.ok alpha₀) I (backtrack ray alpha₀ c) := by
  let C := Correspondence.within (α := α) I
  obtain ⟨k, count⟩ : ∃ k, c.maxIterations.toNat = k + 1 := ⟨c.maxIterations.toNat - 1, by omega⟩
  have accepted : Edit.Yields I (.ok true) I (accepts ray c f₀ d₀ alpha₀) := by
    refine first.bind ?_
    simp only [falls, plain, if_true, Bool.false_eq_true, if_false]
    exact C.pure true
  refine value.bind (slope.bind ?_)
  simp only [steep, Bool.false_eq_true, if_false, count, shorten]
  exact accepted.bind (C.pure alpha₀)

/-- A bisection whose march is lost to a bracketing fault, wherever that comes from, goes on by
backtracking. -/
theorem yields_bisectSlope (slope : Edit.Yields I (.ok d₀) I (ray.slope 0))
    (steep : isFlat d₀ c.tol = false) (slope' : Edit.Yields I (.ok d₁) I (ray.slope alpha₀))
    (steep' : isFlat d₁ c.tol = false)
    (lost : Edit.Yields I (.error e) J (bracketMinimum ray.value 0 (.doubling c.s)))
    (bracketing : e.isBracketing = true)
    (told : ∀ r, Edit.Yields J (.ok ⟨⟩) J (Reports.report r : Edit α σ Unit))
    (backtracks : Edit.Yields J r K (backtrack ray alpha₀ c)) :
    Edit.Yields I r K (bisectSlope ray alpha₀ c) := by
  refine slope.bind ?_
  simp only [steep, Bool.false_eq_true, if_false]
  refine slope'.bind ?_
  simp only [steep', Bool.false_eq_true, if_false]
  refine lost.attempt ?_
  simp only [bracketing, if_true]
  exact (told _).bind backtracks

end LineSearch

end Descent
