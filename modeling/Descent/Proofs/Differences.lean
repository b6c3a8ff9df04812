/-
# Descent.Proofs.Differences — what derivatives by differences cost

`Edit.Spends calls n` says of an action that it raises a count by `n` whenever it
returns.  The counts of the parts of an action add up, so that derivatives by central
differences of a function that spends one call spend as many as they report
(`Edit.Bills`): two for each axis (`Differences.gradient_bills`,
`Differences.jacobian_bills`), and one more than two for each pair of axes for a Hessian
(`Differences.hessian_bills`), where the calls for the entries on and above the diagonal
are counted by pairing each entry with the one across the diagonal.
-/
import Descent.Differences
import Descent.Proofs.Effects
import Mathlib.Algebra.BigOperators.Fin
import Mathlib.Algebra.Order.BigOperators.Group.Finset
import Mathlib.Tactic.Ring

namespace Descent
set_option autoImplicit false

variable {α σ β γ : Type}

/-- The action raises a count by a number if it returns. -/
def Edit.Spends (calls : σ → ℕ) (n : ℕ) (act : Edit α σ β) : Prop :=
  ∀ s b t, act.outcome s = (.ok b, t) → calls t = calls s + n

/-- An action that returns reports a number, by which it has raised a count. -/
def Edit.Bills (calls : σ → ℕ) (n : ℕ) (act : Edit α σ (β × ℕ)) : Prop :=
  ∀ s b m t, act.outcome s = (.ok (b, m), t) → m = n ∧ calls t = calls s + n

namespace Edit.Spends

variable {calls : σ → ℕ} {m n : ℕ}

/-- What leaves the count alone is free. -/
theorem free {P : Fault α → Prop} {act : Edit α σ β} (kept : Edit.Keeps (Unchanged calls) P act) :
    Spends calls 0 act := fun _ _ _ ran => kept.related ran

theorem bind {act : Edit α σ β} {k : β → Edit α σ γ} (first : Spends calls m act)
    (next : ∀ b, Spends calls n (k b)) : Spends calls (m + n) (act >>= k) := by
  intro s c t ran
  obtain ⟨b, u, before, after⟩ := outcome_bind_ok.1 ran
  rw [next b u c t after, first s b u before, Nat.add_assoc]

theorem pure (b : β) : Spends calls 0 (Pure.pure b : Edit α σ β) :=
  free (P := fun _ => True) (.pure b)

theorem ofExcept (r : Except (Fault α) β) :
    Spends calls 0 (MonadExcept.ofExcept r : Edit α σ β) :=
  free (P := fun _ => True) (.ofExcept fun _ _ => trivial)

theorem fit (b : Option β) : Spends calls 0 (Descent.fit b : Edit α σ β) :=
  free (P := fun _ => True) (.fit trivial)

/-- Actions for the entries of a vector spend what they spend together. -/
theorem ofFnM {k : ℕ} {f : Fin k → Edit α σ β} {cost : Fin k → ℕ}
    (entries : ∀ i, Spends calls (cost i) (f i)) :
    Spends calls (∑ i, cost i) (Vector.ofFnM f) := by
  induction k with
  | zero =>
    rw [Vector.ofFnM_zero]
    exact pure _
  | succ k ih =>
    rw [Vector.ofFnM_succ, Fin.sum_univ_castSucc]
    exact bind (ih fun i => entries i.castSucc) fun _ => bind (entries (Fin.last k)) fun _ => pure _

end Edit.Spends

namespace Differences

open Edit

variable [Scalar α] {calls : σ → ℕ} {f : Vec α → Edit α σ α} {F : Vec α → Edit α σ (Shaped α)}

section
variable (one : ∀ x, Spends calls 1 (f x)) (x : Vec α) (eps : α)
include one

/-- A gradient costs two calls for each axis. -/
theorem gradient_bills : Bills calls (2 * x.size) (gradient f x eps) := by
  intro s g m t returned
  have spends : Spends calls (0 + (∑ _ : Fin x.size, (1 + (1 + 0)) + 0)) (gradient f x eps) :=
    (Spends.ofExcept _).bind fun _ => (Spends.ofFnM fun _ => (one _).bind fun _ =>
      (one _).bind fun _ => .pure _).bind fun _ => .pure _
  have reported : m = 2 * x.size := by
    obtain ⟨⟨⟩, _, -, rest⟩ := outcome_bind_ok.1 returned
    obtain ⟨slopes, _, -, returned⟩ := outcome_bind_ok.1 rest
    cases returned
    rfl
  refine ⟨reported, ?_⟩
  rw [spends s _ t returned]
  simp [Nat.mul_comm]

end

/-- What a call spends, a Jacobian that returns has spent twice for each axis. -/
theorem jacobian_spends {cost : ℕ} (each : ∀ x, Spends calls cost (F x)) (x : Vec α) (eps : α) :
    Spends calls (2 * x.size * cost) (jacobian F x eps) := by
  have spends : Spends calls (0 + (∑ _ : Fin x.size, (cost + (cost + (0 + 0))) + (0 + 0)))
      (jacobian F x eps) :=
    (Spends.ofExcept _).bind fun _ => (Spends.ofFnM fun _ => (each _).bind fun _ =>
      (each _).bind fun _ => (Spends.fit _).bind fun _ => .pure _).bind fun _ =>
        (Spends.fit _).bind fun _ => .pure _
  have total : 0 + (∑ _ : Fin x.size, (cost + (cost + (0 + 0))) + (0 + 0)) = 2 * x.size * cost := by
    rw [Finset.sum_const, Finset.card_univ, Fintype.card_fin, smul_eq_mul]
    ring
  rwa [total] at spends

section
variable (one : ∀ x, Spends calls 1 (F x)) (eps : α)
include one

/-- A Jacobian costs two calls for each axis as well. -/
theorem jacobian_bills (x : Vec α) : Bills calls (2 * x.size) (jacobian F x eps) := by
  intro s J m t returned
  have reported : m = 2 * x.size := by
    obtain ⟨⟨⟩, _, -, rest⟩ := outcome_bind_ok.1 returned
    obtain ⟨columns, _, -, rest⟩ := outcome_bind_ok.1 rest
    obtain ⟨J, _, -, returned⟩ := outcome_bind_ok.1 rest
    cases returned
    rfl
  refine ⟨reported, ?_⟩
  rw [jacobian_spends one x eps s _ t returned, Nat.mul_one]

/-- So does the gradient of a function whose values are arrays. -/
theorem gradientOfArray_bills (x : Shaped α) :
    Bills calls (2 * x.flat.size) (gradientOfArray F x eps) := by
  intro s g m t returned
  obtain ⟨⟨⟩, u, checked, rest⟩ := outcome_bind_ok.1 returned
  obtain ⟨slopes, v, sloped, rest⟩ := outcome_bind_ok.1 rest
  have before : calls u = calls s := Spends.ofExcept _ _ _ _ checked
  have after : calls v = calls u + ∑ _ : Fin x.flat.size, (1 + (1 + (0 + 0))) :=
    Spends.ofFnM (fun _ => (one _).bind fun _ => (one _).bind fun _ =>
      (Spends.fit _).bind fun _ => .pure _) _ _ _ sloped
  have same : m = 2 * x.flat.size ∧ t = v := by
    dsimp only at rest
    split at rest
    · cases rest
    rename_i fits
    split at rest
    · rename_i slope single
      cases rest
      have size := congrArg List.length single
      simp only [Array.length_toList, List.length_singleton] at size
      exact ⟨by omega, rfl⟩
    · cases rest
      exact ⟨rfl, rfl⟩
  refine ⟨same.1, ?_⟩
  rw [same.2, after, before]
  simp [Nat.mul_comm]

end

/-- The calls for an entry of a Hessian: none below the diagonal, two on it, four above it. -/
def callsAt {n : ℕ} (i j : Fin n) : ℕ := if j < i then 0 else if j = i then 2 else 4

/-- An entry and the one across the diagonal take four calls together. -/
theorem callsAt_add {n : ℕ} (i j : Fin n) : callsAt i j + callsAt j i = 4 := by
  unfold callsAt
  rcases lt_trichotomy i j with less | rfl | greater
  · simp [less, less.not_gt, less.ne']
  · simp
  · simp [greater, greater.not_gt, greater.ne']

theorem sum_callsAt (n : ℕ) : ∑ i : Fin n, ∑ j : Fin n, callsAt i j = 2 * n * n := by
  have twice : ∑ i : Fin n, ∑ j : Fin n, callsAt i j + ∑ i : Fin n, ∑ j : Fin n, callsAt i j =
      4 * n * n := by
    calc ∑ i : Fin n, ∑ j : Fin n, callsAt i j + ∑ i : Fin n, ∑ j : Fin n, callsAt i j
        = ∑ i : Fin n, ∑ j : Fin n, callsAt i j + ∑ i : Fin n, ∑ j : Fin n, callsAt j i := by
          rw [Finset.sum_comm (f := fun i j => callsAt j i)]
      _ = ∑ i : Fin n, ∑ j : Fin n, (callsAt i j + callsAt j i) := by
          simp only [Finset.sum_add_distrib]
      _ = 4 * n * n := by
          simp only [callsAt_add, Finset.sum_const, Finset.card_univ, Fintype.card_fin, smul_eq_mul]
          ring
  have halves : 4 * n * n = 2 * n * n + 2 * n * n := by ring
  omega

section
variable (one : ∀ x, Spends calls 1 (f x)) (x : Vec α) (eps : α)
include one

/-- A Hessian costs two calls for each pair of axes, and one for the point. -/
theorem hessian_bills : Bills calls (2 * x.size * x.size + 1) (hessian f x eps) := by
  intro s H m t returned
  have bends (fx : α) (e : Vec α) : Spends calls 2 (bend f x eps fx e) :=
    (one _).bind fun _ => ((one _).bind fun _ => (Spends.ofExcept _).bind fun _ => .ofExcept _)
  have twists (e e' : Vec α) : Spends calls 4 (twist f x eps e e') :=
    (one _).bind fun _ => (one _).bind fun _ => (one _).bind fun _ => (one _).bind fun _ =>
      (Spends.ofExcept _).bind fun _ => .ofExcept _
  have entry (fx : α) (i j : Fin x.size) : Spends calls (callsAt i j)
      (if j < i then pure 0 else if j = i then bend f x eps fx (axis x.size i eps)
        else twist f x eps (axis x.size i eps) (axis x.size j eps)) := by
    unfold callsAt
    split
    · exact .pure _
    · split
      · exact bends _ _
      · exact twists _ _
  have spends : Spends calls (0 + (1 + (∑ i : Fin x.size, ∑ j, callsAt i j + 0)))
      (hessian f x eps) :=
    (Spends.ofExcept _).bind fun _ => (one _).bind fun _ =>
      (Spends.ofFnM fun _ => Spends.ofFnM fun _ => entry _ _ _).bind fun _ => .pure _
  have reported : m = 2 * x.size * x.size + 1 := by
    obtain ⟨⟨⟩, _, -, rest⟩ := outcome_bind_ok.1 returned
    obtain ⟨fx, _, -, rest⟩ := outcome_bind_ok.1 rest
    obtain ⟨upper, _, -, returned⟩ := outcome_bind_ok.1 rest
    cases returned
    rfl
  refine ⟨reported, ?_⟩
  rw [spends s _ t returned, sum_callsAt]
  omega

end

/-- So does that of a function whose values are lists, which there is in no dimension but zero. -/
theorem hessianOfList_bills {f : Vec α → Edit α σ β} (one : ∀ x, Spends calls 1 (f x)) (x : Vec α)
    (eps : α) : Bills calls (2 * x.size * x.size + 1) (hessianOfList f x eps) := by
  intro s H m t returned
  obtain ⟨⟨⟩, u, checked, rest⟩ := outcome_bind_ok.1 returned
  obtain ⟨y, v, called, rest⟩ := outcome_bind_ok.1 rest
  have before : calls u = calls s := Spends.ofExcept _ _ _ _ checked
  have after : calls v = calls u + 1 := one x _ _ _ called
  dsimp only at rest
  split at rest
  · simp [outcome_bind_ok] at rest
  · cases rest
    have none : x.size = 0 := by omega
    rw [after, before, none]
    exact ⟨rfl, rfl⟩

end Differences

end Descent
