/-
# Descent.Proofs.Linear.Loops — loops over the indices of a vector

A loop over all indices keeps an invariant that may depend on how far it is
(`foldl_upTo`, `foldr_downTo`).  A loop that writes each entry once computes it from
a vector whose entries already written are final and whose others are still those it
started with (`foldl_writes`, `foldr_writes`).
-/
import Mathlib.Data.Nat.Init

namespace Descent
set_option autoImplicit false

variable {β : Type} {n : ℕ}

/-- A loop upwards keeps what each of its steps keeps. -/
theorem foldl_upTo (P : ℕ → β → Prop) {f : β → Fin n → β} {b : β} (start : P 0 b)
    (step : ∀ (i : Fin n) b, P i b → P (i + 1) (f b i)) : P n (Fin.foldl n f b) := by
  induction n with
  | zero => exact start
  | succ n ih =>
    rw [Fin.foldl_succ_last]
    exact step (Fin.last n) _ (ih fun i b => step i.castSucc b)

/-- A loop downwards keeps what each of its steps keeps. -/
theorem foldr_downTo (P : ℕ → β → Prop) {f : Fin n → β → β} {b : β} (start : P n b)
    (step : ∀ (i : Fin n) b, P (i + 1) b → P i (f i b)) : P 0 (Fin.foldr n f b) := by
  induction n generalizing b with
  | zero => exact start
  | succ n ih =>
    rw [Fin.foldr_succ_last]
    exact ih (step (Fin.last n) b start) fun i b => step i.castSucc b

/-- What each step of a loop upwards computes. -/
theorem foldl_writes (f : Vector β n → Fin n → β) (x₀ : Vector β n) (i : Fin n) :
    let x := Fin.foldl n (fun x i => x.set i (f x i) i.isLt) x₀
    ∃ y : Vector β n, x.get i = f y i ∧ (∀ j < i, y.get j = x.get j) ∧
      ∀ j, i ≤ j → y.get j = x₀.get j := by
  have loop := foldl_upTo (f := fun x i => x.set i (f x i) i.isLt) (b := x₀)
    (P := fun k x => (∀ j : Fin n, k ≤ j → x.get j = x₀.get j) ∧ ∀ i : Fin n, (i : ℕ) < k →
      ∃ y : Vector β n, x.get i = f y i ∧ (∀ j < i, y.get j = x.get j) ∧
        ∀ j, i ≤ j → y.get j = x₀.get j)
    ⟨fun _ _ => rfl, fun i less => absurd less (Nat.not_lt_zero i)⟩ ?_
  · exact loop.2 i i.isLt
  · rintro k x ⟨rest, written⟩
    have kept {j : Fin n} (other : j ≠ k) : (x.set k (f x k) k.isLt).get j = x.get j :=
      Vector.getElem_set_ne k.isLt j.isLt (Fin.val_ne_of_ne other.symm)
    refine ⟨fun j less => ?_, fun i less => ?_⟩
    · rw [kept (Fin.ne_of_gt (Nat.lt_of_succ_le less)), rest j (Nat.le_of_succ_le less)]
    · rcases Nat.lt_succ_iff_lt_or_eq.1 less with earlier | same
      · obtain ⟨y, value, before, after⟩ := written i earlier
        refine ⟨y, ?_, fun j less => ?_, after⟩
        · rw [kept (Fin.ne_of_lt earlier), value]
        · rw [kept (Fin.ne_of_lt (Nat.lt_trans less earlier)), before j less]
      · obtain rfl := Fin.ext same
        refine ⟨x, Vector.getElem_set_self _, fun j less => ?_, rest⟩
        rw [kept (Fin.ne_of_lt less)]

/-- What each step of a loop downwards computes. -/
theorem foldr_writes (f : Vector β n → Fin n → β) (x₀ : Vector β n) (i : Fin n) :
    let x := Fin.foldr n (fun i x => x.set i (f x i) i.isLt) x₀
    ∃ y : Vector β n, x.get i = f y i ∧ (∀ j, i < j → y.get j = x.get j) ∧
      ∀ j ≤ i, y.get j = x₀.get j := by
  have loop := foldr_downTo (f := fun i x => x.set i (f x i) i.isLt) (b := x₀)
    (P := fun k x => (∀ j : Fin n, (j : ℕ) < k → x.get j = x₀.get j) ∧ ∀ i : Fin n, k ≤ i →
      ∃ y : Vector β n, x.get i = f y i ∧ (∀ j, i < j → y.get j = x.get j) ∧
        ∀ j ≤ i, y.get j = x₀.get j)
    ⟨fun _ _ => rfl, fun i le => absurd i.isLt (Nat.not_lt.2 le)⟩ ?_
  · exact loop.2 i (Nat.zero_le i)
  · rintro k x ⟨rest, written⟩
    have kept {j : Fin n} (other : j ≠ k) : (x.set k (f x k) k.isLt).get j = x.get j :=
      Vector.getElem_set_ne k.isLt j.isLt (Fin.val_ne_of_ne other.symm)
    refine ⟨fun j less => ?_, fun i le => ?_⟩
    · rw [kept (Fin.ne_of_lt less), rest j (Nat.lt_succ_of_lt less)]
    · rcases Nat.lt_or_eq_of_le le with later | same
      · obtain ⟨y, value, after, before⟩ := written i later
        refine ⟨y, ?_, fun j less => ?_, before⟩
        · rw [kept (Fin.ne_of_gt later), value]
        · rw [kept (Fin.ne_of_gt (Nat.lt_trans later less)), after j less]
      · obtain rfl := Fin.ext same
        refine ⟨x, Vector.getElem_set_self _, fun j less => ?_, fun j le => rest j (Nat.lt_succ_of_le le)⟩
        rw [kept (Fin.ne_of_gt less)]

end Descent
