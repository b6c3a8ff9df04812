/-
# Descent.Proofs.Correspondence — one algorithm in two monads

The algorithms are written for every monad that can fail, so they cannot tell such
monads apart.  A `Correspondence` is a relation between the computations of two
monads that is kept by whatever an algorithm can do: to return, to go on, to raise
a fault that the relation admits, and to look at the outcome of a part.  An
algorithm that is given corresponding functions then corresponds to itself; this is
proved once for each algorithm in `Descent.Proofs.Correspondence.Algorithms`.

A property of computations in one monad is the case where the second one is not
looked at: `plain` is about the faults of plain computations, `keeping` about what
actions on a state keep.  `within` relates plain computations to actions, `between`
actions that are carried out in two states.
-/
import Descent.Proofs.Effects

namespace Descent
set_option autoImplicit false

/-- A relation of computations that the algorithms keep. -/
structure Correspondence (α : Type) (m n : Type → Type) [Monad m] [MonadExcept (Fault α) m]
    [Monad n] [MonadExcept (Fault α) n] where
  Rel : {β : Type} → m β → n β → Prop
  /-- The faults that corresponding computations can raise. -/
  Admits : Fault α → Prop
  pure {β : Type} (b : β) : Rel (Pure.pure b : m β) (Pure.pure b)
  bind {β γ : Type} {x : m β} {y : n β} {k : β → m γ} {l : β → n γ} :
    Rel x y → (∀ b, Rel (k b) (l b)) → Rel (x >>= k) (y >>= l)
  throw {β : Type} {e : Fault α} : Admits e → Rel (MonadExcept.throw e : m β) (MonadExcept.throw e)
  /-- What would come after a fault does not matter. -/
  abort {β γ : Type} {e : Fault α} {k : β → m γ} {l : β → n γ} :
    Admits e → Rel (MonadExcept.throw e >>= k) (MonadExcept.throw e >>= l)
  attempt {β γ : Type} {x : m β} {y : n β} {k : Except (Fault α) β → m γ}
    {l : Except (Fault α) β → n γ} :
    Rel x y → (∀ b, Rel (k (.ok b)) (l (.ok b))) →
      (∀ e, Admits e → Rel (k (.error e)) (l (.error e))) →
      Rel (Descent.attempt x >>= k) (Descent.attempt y >>= l)

namespace Correspondence

section
variable {α : Type} {m n : Type → Type} [Monad m] [MonadExcept (Fault α) m] [Monad n]
  [MonadExcept (Fault α) n] (C : Correspondence α m n)

theorem ite {β : Type} {c : Prop} [Decidable c] {x x' : m β} {y y' : n β} (holds : C.Rel x y)
    (fails : C.Rel x' y') : C.Rel (if c then x else x') (if c then y else y') := by
  split
  · exact holds
  · exact fails

/-- A refusal before the rest of a computation. -/
theorem guard {β : Type} {c : Prop} [Decidable c] {e : Fault α} {k : PUnit → m β} {l : PUnit → n β}
    (refused : c → C.Admits e) (next : ∀ u, C.Rel (k u) (l u)) :
    C.Rel (if c then MonadExcept.throw e >>= k else k ⟨⟩)
      (if c then MonadExcept.throw e >>= l else l ⟨⟩) := by
  split
  · exact C.abort (refused ‹c›)
  · exact next _

theorem ofExcept {β : Type} {r : Except (Fault α) β} (admitted : Fault.Only C.Admits r) :
    C.Rel (MonadExcept.ofExcept r : m β) (MonadExcept.ofExcept r) := by
  cases r with
  | ok b => exact C.pure b
  | error e => exact C.throw (admitted e rfl)

/-- What comes after a plain computation may rely on its result. -/
theorem result [LawfulMonad m] [LawfulMonad n] {β γ : Type} {r : Except (Fault α) β}
    {k : β → m γ} {l : β → n γ} (admitted : Fault.Only C.Admits r)
    (next : ∀ b, r = .ok b → C.Rel (k b) (l b)) :
    C.Rel (MonadExcept.ofExcept r >>= k) (MonadExcept.ofExcept r >>= l) := by
  cases r with
  | error e => exact C.abort (admitted e rfl)
  | ok b =>
    have start (p : Type → Type) [Monad p] [MonadExcept (Fault α) p] :
        (MonadExcept.ofExcept (.ok b : Except (Fault α) β) : p β) = Pure.pure b := rfl
    rw [start m, start n, pure_bind, pure_bind]
    exact next b rfl

theorem fit {β : Type} {b : Option β} (admitted : C.Admits .shapeMismatch) :
    C.Rel (Descent.fit b : m β) (Descent.fit b) := by
  cases b with
  | some b => exact C.pure b
  | none => exact C.throw admitted

theorem ofFnM [LawfulMonad m] [LawfulMonad n] {β : Type} {k : Nat} {f : Fin k → m β}
    {g : Fin k → n β} (entries : ∀ i, C.Rel (f i) (g i)) :
    C.Rel (Vector.ofFnM f) (Vector.ofFnM g) := by
  induction k with
  | zero =>
    rw [Vector.ofFnM_zero, Vector.ofFnM_zero]
    exact C.pure _
  | succ k ih =>
    rw [Vector.ofFnM_succ, Vector.ofFnM_succ]
    exact C.bind (ih fun i => entries _) fun _ => C.bind (entries _) fun _ => C.pure _

end

section
variable {α : Type}

/-- Computations that raise no faults but those of a kind. -/
def plain (P : Fault α → Prop) :
    Correspondence α (Except (Fault α)) (Except (Fault α)) where
  Rel x _ := Fault.Only P x
  Admits := P
  pure := .ok
  bind first next := first.bind fun b _ => next b
  throw := .error
  abort := .error
  attempt {_ _ x _ _ _} first returned failed := by
    rw [attempt_plain, ok_bind]
    cases x with
    | ok b => exact returned b
    | error e => exact failed e (first e rfl)

/-- Actions that stay within a relation of states, with faults of one kind. -/
def keeping {σ : Type} (R : σ → σ → Prop) [IsPreorder σ R] (P : Fault α → Prop) :
    Correspondence α (Edit α σ) (Edit α σ) where
  Rel x _ := Edit.Keeps R P x
  Admits := P
  pure := .pure
  bind := .bind
  throw := .throw
  abort := .abort
  attempt := .recover

/-- Actions with the result of a plain computation in the states with a property, which they keep. -/
def within {σ : Type} (I : σ → Prop) : Correspondence α (Except (Fault α)) (Edit α σ) where
  Rel x y := ∀ s, I s → (y.outcome s).1 = x ∧ I (y.outcome s).2
  Admits _ := True
  pure _ _ holds := ⟨rfl, holds⟩
  bind {_ _ x y k l} first next s holds := by
    rw [Edit.outcome_bind]
    obtain ⟨same, still⟩ := first s holds
    rcases ran : y.outcome s with ⟨e | b, t⟩ <;> rw [ran] at same still <;> cases same
    · exact ⟨rfl, still⟩
    · exact next b t still
  throw _ _ holds := ⟨rfl, holds⟩
  abort _ _ holds := by
    rw [Edit.outcome_bind, Edit.outcome_throw, Edit.andThen_error]
    exact ⟨rfl, holds⟩
  attempt {_ _ x y k l} first returned failed s holds := by
    obtain ⟨same, still⟩ := first s holds
    rw [Edit.outcome_bind, Edit.outcome_attempt, Edit.andThen_ok, attempt_plain, ok_bind, same]
    cases x with
    | ok b => exact returned b _ still
    | error e => exact failed e trivial _ still

/-- Actions with the same result in states that are related, and stay so. -/
def between {σ τ : Type} (R : σ → τ → Prop) : Correspondence α (Edit α σ) (Edit α τ) where
  Rel x y := ∀ s t, R s t →
    (x.outcome s).1 = (y.outcome t).1 ∧ R (x.outcome s).2 (y.outcome t).2
  Admits _ := True
  pure _ _ _ related := ⟨rfl, related⟩
  bind {_ _ x y k l} first next s t related := by
    rw [Edit.outcome_bind, Edit.outcome_bind]
    obtain ⟨same, still⟩ := first s t related
    rcases left : x.outcome s with ⟨e | b, s'⟩ <;> rcases right : y.outcome t with ⟨e' | b', t'⟩ <;>
      rw [left, right] at same still <;> cases same
    · exact ⟨rfl, still⟩
    · exact next b s' t' still
  throw _ _ _ related := ⟨rfl, related⟩
  abort _ _ _ related := by
    rw [Edit.outcome_bind, Edit.outcome_bind]
    exact ⟨rfl, related⟩
  attempt {_ _ x y k l} first returned failed s t related := by
    rw [Edit.outcome_bind, Edit.outcome_bind, Edit.outcome_attempt, Edit.outcome_attempt,
      Edit.andThen_ok, Edit.andThen_ok]
    obtain ⟨same, still⟩ := first s t related
    rw [← same]
    cases (x.outcome s).1 with
    | ok b => exact returned b _ _ still
    | error e => exact failed e trivial _ _ still

section
variable {σ τ : Type} {R : σ → τ → Prop} {β : Type}

theorem between_ofExcept (r : Except (Fault α) β) :
    (between R).Rel (MonadExcept.ofExcept r) (MonadExcept.ofExcept r) := by
  intro s t related
  rw [Edit.outcome_ofExcept, Edit.outcome_ofExcept]
  exact ⟨rfl, related⟩

end

/-- Plain actions with one result do the same in states that may be counted in. -/
theorem between_plain {δ δ' ω ω' β : Type} {R : Session δ ω α → Session δ' ω' α → Prop}
    {act : Act δ ω α β} {act' : Act δ' ω' α β} {r : Except (Fault α) β} {cost cost' : Evaluations}
    (plain : act.Plain r cost) (plain' : act'.Plain r cost')
    (counts : ∀ s t, R s t →
      R { s with count := s.count + cost } { t with count := t.count + cost' }) :
    (between R).Rel act act' := by
  intro s t related
  rw [plain, plain']
  exact ⟨rfl, counts s t related⟩

section
variable {σ : Type} {I : σ → Prop} {β γ : Type}

theorem within_ofExcept (r : Except (Fault α) β) : (within I).Rel r (MonadExcept.ofExcept r) := by
  intro s holds
  rw [Edit.outcome_ofExcept]
  exact ⟨rfl, holds⟩

/-- An action that only changes the state is nothing to the plain computation. -/
theorem within_modify {f : σ → σ} (keeps : ∀ s, I s → I (f s)) :
    (within I).Rel (Pure.pure ⟨⟩ : Except (Fault α) PUnit) (modify f) :=
  fun s holds => ⟨rfl, keeps s holds⟩

/-- What an action reads from the state may rely on the property. -/
theorem within_get {x : Except (Fault α) γ} {k : σ → Edit α σ γ}
    (same : ∀ s, I s → (within I).Rel x (k s)) : (within I).Rel x (MonadState.get >>= k) := by
  intro s holds
  rw [Edit.outcome_bind, Edit.outcome_get, Edit.andThen_ok]
  exact same s holds s holds

end

section
variable {δ ω β : Type} {I : Session δ ω α → Prop} (counted : ∀ s count, I s → I { s with count })
include counted

theorem within_tally (cost : Evaluations) :
    (within I).Rel (Pure.pure ⟨⟩ : Except (Fault α) PUnit) (Act.tally cost) :=
  within_modify fun s => counted s (s.count + cost)

theorem within_plain {r : Except (Fault α) β} {act : Act δ ω α β} {cost : Evaluations}
    (plain : act.Plain r cost) : (within I).Rel r act := by
  intro s holds
  rw [plain]
  exact ⟨rfl, counted s _ holds⟩

theorem within_counted {r : Except (Fault α) (β × Evaluations)} {act : Act δ ω α (β × Evaluations)}
    (same : (within I).Rel r act) :
    (within I).Rel (r >>= fun p => Pure.pure p.1) (Act.counted act) :=
  (within I).bind same fun p => (within I).bind (within_tally counted p.2) fun _ =>
    (within I).pure p.1

end

end

end Correspondence

end Descent
