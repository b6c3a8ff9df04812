/-
# Descent.Proofs.Settlement — relations that hold once an action is over

What an action counts may be behind what it has called while it goes on; the two agree
when it returns.  `Edit.Settles R E` says that the states before and after an action are
related if it returns, or if it fails with a fault of kind `E`.  Composed actions settle
a relation that is reflexive and transitive if their parts do.

An action that looks at the outcome of another one does not: it may return where the
other one failed.  A line search does this in one place only, where a bracketing fault
makes it start over by backtracking (`Edit.Settles.onBracket`), so along its brackets the
values have to settle for bracketing faults as well.  Everywhere else the algorithms let
faults pass: `Correspondence.settling` is about actions in which none is ever caught.
-/
import Descent.Proofs.Correspondence.Algorithms

namespace Descent
set_option autoImplicit false

variable {α σ β γ : Type}

/-- The states before and after an action are related if it returns, or fails with a fault of one
kind. -/
def Edit.Settles (R : σ → σ → Prop) (E : Fault α → Prop) (act : Edit α σ β) : Prop :=
  ∀ s, Fault.Only E (act.outcome s).1 → R s (act.outcome s).2

namespace Edit.Settles

variable {R : σ → σ → Prop} {E : Fault α → Prop}

theorem of_keeps {P : Fault α → Prop} {act : Edit α σ β} (kept : Edit.Keeps R P act) :
    Settles R E act := fun s _ => kept.state s

theorem returned {act : Edit α σ β} {b : β} {s t : σ} (settles : Settles R E act)
    (ran : act.outcome s = (.ok b, t)) : R s t := by
  have related := settles s
  rw [ran] at related
  exact related (.ok b)

theorem mono {E' : Fault α → Prop} {act : Edit α σ β} (settles : Settles R E act)
    (fewer : ∀ e, E' e → E e) : Settles R E' act :=
  fun s only => settles s (only.mono fewer)

variable [IsPreorder σ R]

theorem pure (b : β) : Settles R E (Pure.pure b : Edit α σ β) :=
  of_keeps (P := fun _ => True) (.pure b)

theorem throw (e : Fault α) : Settles R E (MonadExcept.throw e : Edit α σ β) :=
  of_keeps (P := fun _ => True) (.throw trivial)

theorem ofExcept (r : Except (Fault α) β) :
    Settles R E (MonadExcept.ofExcept r : Edit α σ β) :=
  of_keeps (P := fun _ => True) (.ofExcept fun _ _ => trivial)

theorem fit (b : Option β) : Settles R E (Descent.fit b : Edit α σ β) :=
  of_keeps (P := fun _ => True) (.fit trivial)

theorem get : Settles R E (MonadState.get : Edit α σ σ) :=
  of_keeps (P := fun _ => True) .get

theorem bind {act : Edit α σ β} {k : β → Edit α σ γ} (first : Settles R E act)
    (next : ∀ b, Settles R E (k b)) : Settles R E (act >>= k) := by
  intro s only
  have before := first s
  rw [outcome_bind] at only ⊢
  rcases ran : act.outcome s with ⟨e | b, t⟩ <;> rw [ran] at before only
  · exact before (.error (only e rfl))
  · exact trans_of R (before (.ok b)) (next b t only)

/-- An action that looks at the outcome of one that keeps the relation. -/
theorem recover {P : Fault α → Prop} {act : Edit α σ β} {k : Except (Fault α) β → Edit α σ γ}
    (first : Edit.Keeps R P act) (next : ∀ r, Settles R E (k r)) :
    Settles R E (attempt act >>= k) := by
  intro s only
  rw [outcome_bind, outcome_attempt, andThen_ok] at only ⊢
  exact trans_of R (first.state s) (next _ _ only)

end Edit.Settles

/-! ## Actions in which no fault is caught -/

/-- Actions that let every fault pass. -/
def Uncaught (α σ : Type) : Type → Type := Edit α σ

instance : Monad (Uncaught α σ) := inferInstanceAs (Monad (Edit α σ))

instance : LawfulMonad (Uncaught α σ) := inferInstanceAs (LawfulMonad (Edit α σ))

instance : MonadExcept (Fault α) (Uncaught α σ) where
  throw e := (throw e : Edit α σ _)
  tryCatch act _ := act

instance [Reports α (Edit α σ)] : Reports α (Uncaught α σ) where
  report r := (Reports.report r : Edit α σ Unit)

/-- Actions that settle a relation, as long as no fault is caught. -/
def Correspondence.settling (R : σ → σ → Prop) [IsPreorder σ R] (E : Fault α → Prop) :
    Correspondence α (Uncaught α σ) (Uncaught α σ) where
  Rel x _ := Edit.Settles R E x
  Admits _ := True
  pure := .pure
  bind := .bind
  throw _ := .throw _
  abort _ := .of_keeps (P := fun _ => True) (.abort trivial)
  attempt {_ _ x _ k _} first returned _ := by
    have passes : Descent.attempt x >>= k = x >>= fun b => k (.ok b) := bind_map_left .ok x k
    rw [passes]
    exact .bind first returned

/-! ## Algorithms -/

namespace Edit.Settles

variable [Scalar α] {R : σ → σ → Prop} [IsPreorder σ R] {E : Fault α → Prop}

section
variable {f : α → Edit α σ α} (settles : ∀ x, Settles R E (f x))
include settles

theorem bracketMinimum (x : α) (march : March α) :
    Settles R E (Descent.bracketMinimum f x march) :=
  (Correspondence.settling R E).bracketMinimum (f := f) (g := f) settles (fun _ _ => trivial) trivial

theorem bracketMinimumFrom (x : α) (march : March α) :
    Settles R E (Descent.bracketMinimumFrom f x march) :=
  (Correspondence.settling R E).bracketMinimumFrom (f := f) (g := f) settles (fun _ _ => trivial)
    trivial

theorem bracketTriple (x δ : α) (moves : Nat) : Settles R E (Descent.bracketTriple f x δ moves) :=
  (Correspondence.settling R E).bracketTriple (f := f) (g := f) settles x δ moves (fun _ => trivial)
    (fun _ _ _ => trivial) trivial

theorem bisect (a b xTol fTol : α) (halvings : Nat) :
    Settles R E (Descent.bisect f a b xTol fTol halvings) :=
  (Correspondence.settling R E).bisect (f := f) (g := f) settles fun _ _ => trivial

theorem searchTriple (t : Triple α) (eps : α) (steps : Nat) :
    Settles R E (Triple.search f t eps steps) := by
  have iterates (values : Triple α) : Settles R E (Triple.iterate f eps steps t values) := by
    induction steps generalizing t values with
    | zero => exact .pure _
    | succ steps ih =>
      have steps : Settles R E (Triple.step f t values eps) :=
        (Correspondence.settling R E).step (f := f) (g := f) settles fun _ _ => trivial
      refine .bind steps fun next => ?_
      dsimp only
      split
      · exact .pure _
      · exact ih _ _
  exact .bind ((Correspondence.settling R E).valuesOf (f := f) (g := f) settles t) fun _ =>
    .bind (iterates _) fun _ => .pure _

end

/-! ## Line searches -/

section
variable [Reports α (Edit α σ)] {ray : Ray (Edit α σ) α} {c : LineSearch α}
  (value : ∀ t, Settles R E (ray.value t)) (slope : ∀ t, Settles R E (ray.slope t))
  (told : ∀ r, Settles R E (Reports.report r : Edit α σ Unit))
include value slope told

theorem backtrack (alpha₀ : α) : Settles R E (LineSearch.backtrack ray alpha₀ c) := by
  have rays : (Correspondence.settling R E).Rays (⟨ray.value, ray.slope⟩ : Ray (Uncaught α σ) α)
      ⟨ray.value, ray.slope⟩ := ⟨value, slope⟩
  exact rays.backtrack told alpha₀ c

theorem interpolate (trials : Nat) (b : LineSearch.Bracket α) :
    Settles R E (LineSearch.interpolate ray c trials b) := by
  induction trials generalizing b with
  | zero => exact .bind (told _) fun _ => .pure _
  | succ trials ih =>
    rw [LineSearch.interpolate]
    refine .bind (.ofExcept _) fun alpha => .bind (value _) fun fAlpha => .bind (slope _) fun _ => ?_
    dsimp only
    split
    · exact .pure _
    · exact ih _

end

section
variable [Reports α (Edit α σ)] {ray : Ray (Edit α σ) α} {c : LineSearch α}
  (value : ∀ t, Settles R (fun e => e.isBracketing = true) (ray.value t))
  (slope : ∀ t, Settles R (fun _ => False) (ray.slope t))
  (told : ∀ r, Settles R (fun _ => False) (Reports.report r : Edit α σ Unit))
include value slope told

/-- Where there is no bracket the search starts over by backtracking, and what was done to find one
is not undone; other faults pass. -/
theorem onBracket {bracket : Edit α σ β} {search : β → Edit α σ α}
    (brackets : Settles R (fun e => e.isBracketing = true) bracket)
    (searches : ∀ b, Settles R (fun _ => False) (search b)) (alpha₀ : α) :
    Settles R (fun _ => False) (LineSearch.onBracket bracket ray alpha₀ c search) := by
  have backtracks := backtrack (c := c) (fun t => (value t).mono nofun) slope told alpha₀
  intro s only
  rw [LineSearch.onBracket, outcome_bind, outcome_attempt, andThen_ok] at only ⊢
  have before := brackets s
  rcases ran : bracket.outcome s with ⟨e | b, t⟩ <;> rw [ran] at before only
  · dsimp only at only ⊢
    split at only
    case isTrue bracketing =>
      rw [if_pos bracketing]
      exact trans_of R (before (.error bracketing)) ((bind (told _) fun _ => backtracks) t only)
    case isFalse => exact (only e rfl).elim
  · exact trans_of R (before (.ok b)) (searches b t only)

theorem search (alpha₀ : α) : Settles R (fun _ => False) (c.search ray alpha₀) := by
  have values (t : α) : Settles R (fun _ => False) (ray.value t) := (value t).mono nofun
  have unlessFlat {k : α → Edit α σ α} (d : α) (rest : Settles R (fun _ => False) (k d)) :
      Settles R (fun _ => False) (if LineSearch.isFlat d c.tol then Pure.pure alpha₀ else k d) := by
    split
    · exact pure _
    · exact rest
  have steep {k : α → Edit α σ α} (rest : ∀ d, Settles R (fun _ => False) (k d)) :
      Settles R (fun _ => False) (do
        let d₀ ← ray.slope 0
        if LineSearch.isFlat d₀ c.tol then return alpha₀
        else
          let d₁ ← ray.slope alpha₀
          if LineSearch.isFlat d₁ c.tol then return alpha₀ else k d₀) :=
    bind (slope _) fun d₀ => unlessFlat (k := fun _ => _) d₀ (bind (slope _) fun d₁ =>
      unlessFlat (k := fun _ => k d₀) d₁ (rest d₀))
  unfold LineSearch.search
  cases c.kind with
  | static => exact pure _
  | backtracking => exact backtrack values slope told alpha₀
  | bisection =>
    exact steep fun _ => onBracket value slope told (bracketMinimum value _ _)
      (fun _ => bisect slope _ _ _ _ _) alpha₀
  | quadratic =>
    exact bind (values _) fun f₀ => steep fun d₀ => onBracket value slope told
      (bracketMinimumFrom value _ _) (fun _ => bind (values _) fun _ =>
        interpolate values slope told _ _) alpha₀
  | threePoint =>
    exact steep fun _ => onBracket value slope told (bracketTriple value _ _ _)
      (fun _ => searchTriple values _ _ _) alpha₀

end

theorem shortenUndefined [Reports α (Edit α σ)] {f : Vec α → Edit α σ (Shaped α)}
    (settles : ∀ x, Settles R E (f x))
    (told : ∀ r, Settles R E (Reports.report r : Edit α σ Unit)) (x direction : Vec α) (factor : α)
    (reductions verbosity : Int) :
    Settles R E (Descent.shortenUndefined f x direction factor reductions verbosity) :=
  (Correspondence.settling R E).shortenUndefined (f := f) (g := f) settles told
    (fun _ _ => trivial) x direction factor reductions verbosity

end Edit.Settles

end Descent
