/-
# Descent.Proofs.LineSearch.Backtracking — how backtracking ends

Backtracking takes the first step length as it is where the slope is flat.  Elsewhere it
returns the first of the step lengths `alpha`, `alpha p`, … that it accepts, or the last of
them if it accepts none: then the search is exhausted (`backtrack_ok`).  With real
parameters a step length that is accepted is a power of `p`, and the value has fallen by the
part `c1` of what the slope promised (`decrease_of_backtrack`).  Without the curvature
condition the one slope that it asks for is the one at the start (`OneSlope.search`).
-/
import Descent.Proofs.Correspondence.Algorithms
import Descent.Proofs.LineSearch.Admitted
import Descent.Proofs.Wide

namespace Descent
set_option autoImplicit false

open Wide

namespace LineSearch

/-! ## Parameters -/

/-- The search with other numbers in place of its own. -/
def map {α β : Type} (f : α → β) (c : LineSearch α) : LineSearch β :=
  { kind := c.kind
    alpha := f c.alpha
    c1 := f c.c1
    c2 := f c.c2
    p := f c.p
    curvature := c.curvature
    strong := c.strong
    sigma0 := f c.sigma0
    sigma1 := f c.sigma1
    s := f c.s
    tol := f c.tol
    maxIterations := c.maxIterations
    nanFactor := f c.nanFactor
    nanMaxIterations := c.nanMaxIterations }

/-- Real parameters as a run has them. -/
noncomputable abbrev wide (c : LineSearch ℝ) : LineSearch Wide := c.map real

/-- The parameters of a search that a descent rests on. -/
structure Proper (c : LineSearch ℝ) : Prop where
  decrease : 0 < c.c1
  shortens : 0 < c.p
  tol : 0 < c.tol
  reduces : 0 < c.nanFactor

theorem proper_of_check {c : LineSearch ℝ} (admitted : c.check = .ok c) : c.Proper :=
  have given := check_ok_iff.1 admitted
  ⟨given.decrease, given.shortens, given.tol, given.reduces⟩

/-- A steep slope is not zero. -/
theorem Proper.ne_zero {c : LineSearch ℝ} (proper : c.Proper) {d : ℝ} (steep : c.tol ≤ |d|) :
    d ≠ 0 := abs_pos.1 (proper.tol.trans_le steep)

/-! ## The ends of a search -/

section
variable {α : Type} [Scalar α] {ray : Ray (Except (Fault α)) α} {c : LineSearch α}
  {f₀ d₀ alpha₀ alpha last : α}

theorem accepts_ok (accepted : accepts ray c f₀ d₀ alpha = .ok true) :
    ∃ f, ray.value alpha = .ok f ∧ f ≤ f₀ + c.c1 * alpha * d₀ := by
  obtain ⟨f, there, rest⟩ := bind_eq_ok.1 accepted
  refine ⟨f, there, ?_⟩
  split at rest
  · exact of_decide_eq_true ‹_›
  · cases rest

/-- The step length that is returned is the first one that is accepted, or none is. -/
theorem shorten_ok {trials : ℕ} (returned : shorten ray c f₀ d₀ trials alpha last = .ok alpha₀) :
    (∃ i < trials, alpha₀ = (· * c.p)^[i] alpha ∧ accepts ray c f₀ d₀ alpha₀ = .ok true) ∨
      ∀ i < trials, accepts ray c f₀ d₀ ((· * c.p)^[i] alpha) = .ok false := by
  induction trials generalizing alpha last with
  | zero => exact .inr fun i less => absurd less (Nat.not_lt_zero i)
  | succ trials ih =>
    obtain ⟨accepted, judged, rest⟩ := bind_eq_ok.1 returned
    cases accepted with
    | true =>
      cases rest
      exact .inl ⟨0, Nat.succ_pos trials, rfl, judged⟩
    | false =>
      obtain ⟨i, less, shorter, later⟩ | none := ih rest
      · exact .inl ⟨i + 1, Nat.succ_lt_succ less, shorter, later⟩
      · refine .inr fun i less => ?_
        cases i with
        | zero => exact judged
        | succ i => exact none i (Nat.lt_of_succ_lt_succ less)

/-- Backtracking ends at a flat slope, with a step length that is accepted, or exhausted. -/
theorem backtrack_ok (returned : backtrack ray alpha₀ c = .ok alpha) :
    ∃ f₀ d₀, ray.value 0 = .ok f₀ ∧ ray.slope 0 = .ok d₀ ∧
      (isFlat d₀ c.tol = true ∨
        (∃ i < c.maxIterations.toNat, alpha = (· * c.p)^[i] alpha₀ ∧
          accepts ray c f₀ d₀ alpha = .ok true) ∨
        ∀ i < c.maxIterations.toNat, accepts ray c f₀ d₀ ((· * c.p)^[i] alpha₀) = .ok false) := by
  obtain ⟨f₀, value, returned⟩ := bind_eq_ok.1 returned
  obtain ⟨d₀, slope, returned⟩ := bind_eq_ok.1 returned
  refine ⟨f₀, d₀, value, slope, ?_⟩
  split at returned
  · exact .inl ‹_›
  · exact .inr (shorten_ok returned)

end

/-! ## Real parameters -/

/-- The step lengths that backtracking tries are powers. -/
theorem iterate_mul_real (p : ℝ) (i : ℕ) : (· * real p)^[i] 1 = real (p ^ i) := by
  induction i with
  | zero => exact congrArg real (pow_zero p).symm
  | succ i ih => rw [Function.iterate_succ_apply', ih, real_mul, pow_succ]

/-- A search that is neither at a flat slope nor exhausted decreases the value. -/
theorem decrease_of_backtrack {ray : Ray (Except (Fault Wide)) Wide} {c : LineSearch ℝ} {f₀ : Wide}
    {d₀ : ℝ} {alpha : Wide} (value : ray.value 0 = .ok f₀) (slope : ray.slope 0 = .ok (real d₀))
    (steep : c.tol ≤ |d₀|) (returned : backtrack ray 1 c.wide = .ok alpha)
    (unexhausted : ¬ ∀ i < c.maxIterations.toNat,
      accepts ray c.wide f₀ (real d₀) (real (c.p ^ i)) = .ok false) :
    ∃ i < c.maxIterations.toNat, alpha = real (c.p ^ i) ∧
      ∃ f, ray.value alpha = .ok f ∧ f ≤ f₀ + real (c.c1 * c.p ^ i * d₀) := by
  obtain ⟨_, _, value', slope', ends⟩ := backtrack_ok returned
  cases value.symm.trans value'
  cases slope.symm.trans slope'
  have powers (i : ℕ) : (· * c.wide.p)^[i] 1 = real (c.p ^ i) := iterate_mul_real c.p i
  obtain flat | ⟨i, less, power, accepted⟩ | none := ends
  · have small : |d₀| < c.tol := of_decide_eq_true flat
    exact absurd small (not_lt.2 steep)
  · rw [powers] at power
    obtain ⟨f, there, le⟩ := accepts_ok accepted
    refine ⟨i, less, power, f, there, ?_⟩
    rw [power] at le
    simpa only [wide, map, real_mul] using le
  · refine absurd (fun i less => ?_) unexhausted
    rw [← powers]
    exact none i less

/-! ## Searches of a session -/

section
variable {δ ω : Type} {I : Session δ ω Wide → Prop} {plain : Ray (Except (Fault Wide)) Wide}
  {ray : Ray (Act δ ω Wide) Wide} {c : LineSearch ℝ} {s t : Session δ ω Wide} {alpha : Wide}

/-- Backtracking from a session accepts none of the step lengths that it may try. -/
def Exhausted (ray : Ray (Act δ ω Wide) Wide) (c : LineSearch ℝ) (f₀ d₀ : Wide)
    (s : Session δ ω Wide) : Prop :=
  ∀ i < c.maxIterations.toNat,
    ((accepts ray c.wide f₀ d₀ (real (c.p ^ i))).outcome s).1 = .ok false

variable (same : (Correspondence.within I).Rays plain ray) (holds : I s)
include same holds

theorem exhausted_iff (f₀ d₀ : Wide) : Exhausted ray c f₀ d₀ s ↔ ∀ i < c.maxIterations.toNat,
    accepts plain c.wide f₀ d₀ (real (c.p ^ i)) = .ok false := by
  have judged (i : ℕ) := (same.accepts c.wide f₀ d₀ (real (c.p ^ i)) s holds).1
  simp only [Exhausted, judged]

theorem backtrack_of_search (told : ∀ r : Log.Record Wide, (Correspondence.within I).Rel
      (Reports.report r : Except (Fault Wide) Unit) (Reports.report r : Act δ ω Wide Unit))
    (kind : c.kind = .backtracking) (found : (c.wide.search ray 1).outcome s = (.ok alpha, t)) :
    backtrack plain 1 c.wide = .ok alpha := by
  have backtracks : c.wide.search ray 1 = backtrack ray 1 c.wide := by
    have kind' : c.wide.kind = .backtracking := kind
    rw [search, kind']
  rw [← (same.backtrack told 1 c.wide s holds).1, ← backtracks, found]

end

/-! ## Searches that ask for one slope -/

/-- A policy that asks for no slope but the one at the start of the line. -/
def OneSlope {α : Type} (c : LineSearch α) : Prop :=
  c.kind = .static ∨ c.kind = .backtracking ∧ c.curvature = false

section
variable {α : Type} [Scalar α] {m n : Type → Type} [Monad m] [MonadExcept (Fault α) m]
  [Reports α m] [Monad n] [MonadExcept (Fault α) n] [Reports α n] {c : LineSearch α}

omit [MonadExcept (Fault α) m] in
/-- Without the curvature condition the slopes on the way do not matter. -/
theorem shorten_of_values (curvature : c.curvature = false) (ray : Ray m α) (slope : α → m α)
    (f₀ d₀ : α) (trials : Nat) (alpha last : α) :
    shorten ray c f₀ d₀ trials alpha last =
      shorten ⟨ray.value, slope⟩ c f₀ d₀ trials alpha last := by
  have accepts_of_value (alpha : α) :
      accepts ray c f₀ d₀ alpha = accepts ⟨ray.value, slope⟩ c f₀ d₀ alpha := by
    simp only [accepts, curvature, Bool.false_eq_true, if_false]
  induction trials generalizing alpha last with
  | zero => rfl
  | succ trials ih => simp only [shorten, accepts_of_value, ih]

/-- Such a policy does the same along rays with the same values, and the same slope at the start. -/
theorem OneSlope.search (one : c.OneSlope) {C : Correspondence α m n} {ray : Ray m α}
    {ray' : Ray n α} (values : ∀ t, C.Rel (ray.value t) (ray'.value t))
    (start : C.Rel (ray.slope 0) (ray'.slope 0))
    (told : ∀ r, C.Rel (Reports.report r : m Unit) (Reports.report r : n Unit)) (alpha₀ : α) :
    C.Rel (c.search ray alpha₀) (c.search ray' alpha₀) := by
  unfold LineSearch.search
  obtain kind | ⟨kind, curvature⟩ := one <;> rw [kind]
  · exact C.pure _
  · refine C.bind (values 0) fun f₀ => C.bind start fun d₀ => C.ite (C.pure _) ?_
    have rays : C.Rays ⟨ray.value, ray.value⟩ ⟨ray'.value, ray'.value⟩ := ⟨values, values⟩
    rw [shorten_of_values curvature ray ray.value, shorten_of_values curvature ray' ray'.value]
    exact rays.shorten told ..

end

end LineSearch

end Descent
