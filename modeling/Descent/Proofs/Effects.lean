/-
# Descent.Proofs.Effects — what an action returns and what it leaves behind

A plain computation is a result or a fault, and the rules below compute it.  An
`Edit` also has a state: `Edit.outcome` is its result, or its fault, together with
the state it leaves behind.  `Edit.Keeps R P` says that an action stays within a
relation of states and that its faults are of one kind; both are kept by composed
actions when `R` is reflexive and transitive.
-/
import Descent.Linear.Vec
import Mathlib.Order.Defs.Unbundled

namespace Descent
set_option autoImplicit false

/-! ## Plain computations -/

section
variable {α ε β γ : Type}

@[simp] theorem ok_bind (b : β) (k : β → Except ε γ) : (Except.ok b >>= k) = k b := rfl

@[simp] theorem error_bind (e : ε) (k : β → Except ε γ) : (Except.error e >>= k) = .error e := rfl

theorem pure_ok (b : β) : (pure b : Except ε β) = .ok b := rfl

theorem throw_error (e : ε) : (throw e : Except ε β) = .error e := rfl

@[simp] theorem ofExcept_plain (r : Except ε β) : (ofExcept r : Except ε β) = r := by
  cases r <;> rfl

@[simp] theorem attempt_plain (r : Except (Fault α) β) : attempt r = .ok r := by
  cases r <;> rfl

theorem bind_eq_ok {r : Except ε β} {k : β → Except ε γ} {c : γ} :
    (r >>= k) = .ok c ↔ ∃ b, r = .ok b ∧ k b = .ok c := by
  cases r <;> simp

theorem fit_eq_ok {b : Option β} {c : β} : (fit b : Except (Fault α) β) = .ok c ↔ b = some c := by
  cases b with
  | none => simp [fit, throw_error]
  | some b => simp [fit, pure_ok]

end

/-- A computation raises no faults but those of a kind. -/
def Fault.Only {α β : Type} (P : Fault α → Prop) (r : Except (Fault α) β) : Prop :=
  ∀ e, r = .error e → P e

namespace Fault.Only

variable {α β γ : Type} {P : Fault α → Prop}

theorem ok (b : β) : Fault.Only P (.ok b) := nofun

theorem error {e : Fault α} (h : P e) : Fault.Only P (.error e : Except (Fault α) β) := by
  rintro _ ⟨⟩
  exact h

theorem bind {r : Except (Fault α) β} {k : β → Except (Fault α) γ} (first : Fault.Only P r)
    (next : ∀ b, r = .ok b → Fault.Only P (k b)) : Fault.Only P (r >>= k) := by
  cases r with
  | ok b => exact next b rfl
  | error e => exact error (first e rfl)

theorem ite {c : Prop} [Decidable c] {r r' : Except (Fault α) β} (holds : Fault.Only P r)
    (fails : Fault.Only P r') : Fault.Only P (if c then r else r') := by
  split
  · exact holds
  · exact fails

theorem mono {Q : Fault α → Prop} {r : Except (Fault α) β} (h : Fault.Only P r)
    (weaker : ∀ e, P e → Q e) : Fault.Only Q r := fun e failed => weaker e (h e failed)

/-- A computation that can raise no fault returns. -/
theorem returns {r : Except (Fault α) β} (h : Fault.Only (fun _ => False) r) : ∃ b, r = .ok b := by
  cases r with
  | ok b => exact ⟨b, rfl⟩
  | error e => exact (h e rfl).elim

end Fault.Only

/-! ## Actions on a state -/

namespace Edit

variable {α σ τ β γ : Type}

/-- The result or the fault of an action, and the state that it leaves behind. -/
def outcome (act : Edit α σ β) (s : σ) : Except (Fault α) β × σ := act.run.run s

/-- Goes on after an outcome, unless it is a fault. -/
def andThen (k : β → Edit α σ γ) : Except (Fault α) β × σ → Except (Fault α) γ × σ
  | (.ok b, s) => (k b).outcome s
  | (.error e, s) => (.error e, s)

@[simp] theorem andThen_ok (k : β → Edit α σ γ) (b : β) (s : σ) :
    andThen k (.ok b, s) = (k b).outcome s := rfl

@[simp] theorem andThen_error (k : β → Edit α σ γ) (e : Fault α) (s : σ) :
    andThen k (.error e, s) = (.error e, s) := rfl

@[simp] theorem outcome_pure (b : β) (s : σ) : (pure b : Edit α σ β).outcome s = (.ok b, s) := rfl

@[simp] theorem outcome_throw (e : Fault α) (s : σ) :
    (throw e : Edit α σ β).outcome s = (.error e, s) := rfl

theorem outcome_bind (act : Edit α σ β) (k : β → Edit α σ γ) (s : σ) :
    (act >>= k).outcome s = andThen k (act.outcome s) := by
  rw [outcome, ExceptT.run_bind, StateT.run_bind, outcome]
  rcases act.run.run s with ⟨_ | _, _⟩ <;> rfl

@[simp] theorem outcome_get (s : σ) : (get : Edit α σ σ).outcome s = (.ok s, s) := rfl

@[simp] theorem outcome_modify (f : σ → σ) (s : σ) :
    (modify f : Edit α σ PUnit).outcome s = (.ok ⟨⟩, f s) := rfl

@[simp] theorem outcome_ofExcept (r : Except (Fault α) β) (s : σ) :
    (ofExcept r : Edit α σ β).outcome s = (r, s) := by
  cases r <;> rfl

@[simp] theorem outcome_attempt (act : Edit α σ β) (s : σ) :
    (attempt act).outcome s = (.ok (act.outcome s).1, (act.outcome s).2) := by
  rw [attempt, outcome, ExceptT.run_tryCatch, StateT.run_bind, ExceptT.run_map, StateT.run_map,
    outcome]
  rcases act.run.run s with ⟨_ | _, _⟩ <;> rfl

@[simp] theorem outcome_focus (view : σ → τ) (put : τ → σ → σ) (act : Edit α τ β) (s : σ) :
    (focus view put act).outcome s =
      ((act.outcome (view s)).1, put (act.outcome (view s)).2 s) := rfl

theorem outcome_fit_ok {b : Option β} {c : β} {s t : σ} :
    (fit b : Edit α σ β).outcome s = (.ok c, t) ↔ b = some c ∧ s = t := by
  cases b with
  | none =>
    rw [fit, outcome_throw]
    simp
  | some b =>
    rw [fit, outcome_pure]
    simp

/-- A composed action returns if both of its parts do. -/
theorem outcome_bind_ok {act : Edit α σ β} {k : β → Edit α σ γ} {s t : σ} {c : γ} :
    (act >>= k).outcome s = (.ok c, t) ↔
      ∃ b s', act.outcome s = (.ok b, s') ∧ (k b).outcome s' = (.ok c, t) := by
  rw [outcome_bind]
  rcases act.outcome s with ⟨_ | _, _⟩ <;> simp [and_assoc]

/-- Composed actions that begin alike are alike if they go on alike. -/
theorem outcome_bind_congr {act : Edit α σ β} {k l : β → Edit α σ γ} {s : σ}
    (same : ∀ b t, act.outcome s = (.ok b, t) → (k b).outcome t = (l b).outcome t) :
    (act >>= k).outcome s = (act >>= l).outcome s := by
  rw [outcome_bind, outcome_bind]
  rcases ran : act.outcome s with ⟨e | b, t⟩
  · rfl
  · exact same b t ran

/-- A composed action fails if one of its parts does. -/
theorem outcome_bind_error {act : Edit α σ β} {k : β → Edit α σ γ} {s t : σ} {e : Fault α} :
    (act >>= k).outcome s = (.error e, t) ↔
      act.outcome s = (.error e, t) ∨
        ∃ b s', act.outcome s = (.ok b, s') ∧ (k b).outcome s' = (.error e, t) := by
  rw [outcome_bind]
  rcases act.outcome s with ⟨_ | _, _⟩ <;> simp [and_assoc]

/-- A part of the state is the same. -/
def Unchanged (part : σ → τ) (s t : σ) : Prop := part t = part s

instance (part : σ → τ) : IsPreorder σ (Unchanged part) where
  refl _ := rfl
  trans _ _ _ first next := next.trans first

/-- The state that an action leaves behind is related to the one before, and its faults are of one
kind. -/
structure Keeps (R : σ → σ → Prop) (P : Fault α → Prop) (act : Edit α σ β) : Prop where
  state : ∀ s, R s (act.outcome s).2
  fault : ∀ s, Fault.Only P (act.outcome s).1

namespace Keeps

variable {R : σ → σ → Prop} [IsPreorder σ R] {P : Fault α → Prop}

theorem of_result {act : Edit α σ β} {r : Except (Fault α) β}
    (unchanged : ∀ s, act.outcome s = (r, s)) (faults : Fault.Only P r) : Keeps R P act where
  state s := by
    rw [unchanged]
    exact refl_of R s
  fault s := by
    rw [unchanged]
    exact faults

theorem pure (b : β) : Keeps R P (Pure.pure b : Edit α σ β) := of_result (fun _ => rfl) (.ok b)

theorem throw {e : Fault α} (kind : P e) : Keeps R P (MonadExcept.throw e : Edit α σ β) :=
  of_result (fun _ => rfl) (.error kind)

theorem ofExcept {r : Except (Fault α) β} (faults : Fault.Only P r) :
    Keeps R P (MonadExcept.ofExcept r : Edit α σ β) :=
  of_result (outcome_ofExcept r) faults

theorem fit {b : Option β} (kind : P .shapeMismatch) : Keeps R P (Descent.fit b : Edit α σ β) := by
  cases b with
  | none => exact throw kind
  | some b => exact pure b

theorem get : Keeps R P (MonadState.get : Edit α σ σ) where
  state s := refl_of R s
  fault _ := .ok _

omit [IsPreorder σ R] in
theorem change {f : σ → σ} (related : ∀ s, R s (f s)) :
    Keeps R P (modify f : Edit α σ PUnit) where
  state := related
  fault _ := .ok _

theorem bind {act : Edit α σ β} {k : β → Edit α σ γ} (first : Keeps R P act)
    (next : ∀ b, Keeps R P (k b)) : Keeps R P (act >>= k) where
  state s := by
    have before := first.state s
    rw [outcome_bind]
    rcases ran : act.outcome s with ⟨e | b, t⟩ <;> rw [ran] at before
    · exact before
    · exact trans_of R before ((next b).state t)
  fault s := by
    have before := first.fault s
    rw [outcome_bind]
    rcases ran : act.outcome s with ⟨e | b, t⟩ <;> rw [ran] at before
    · exact .error (before e rfl)
    · exact (next b).fault t

/-- An action that is not always taken. -/
theorem optional {c : Prop} [Decidable c] {act : Edit α σ PUnit} {k : PUnit → Edit α σ β}
    (first : Keeps R P act) (next : ∀ u, Keeps R P (k u)) :
    Keeps R P (if c then act >>= k else k ⟨⟩) := by
  split
  · exact bind first next
  · exact next _

theorem abort {e : Fault α} {k : β → Edit α σ γ} (kind : P e) :
    Keeps R P (MonadExcept.throw e >>= k) :=
  of_result (fun s => by rw [outcome_bind, outcome_throw, andThen_error]) (.error kind)

/-- An action that looks at the outcome of another one. -/
theorem recover {act : Edit α σ β} {k : Except (Fault α) β → Edit α σ γ} (first : Keeps R P act)
    (returned : ∀ b, Keeps R P (k (.ok b))) (failed : ∀ e, P e → Keeps R P (k (.error e))) :
    Keeps R P (attempt act >>= k) := by
  have next (s : σ) : Keeps R P (k (act.outcome s).1) := by
    have kind := first.fault s
    rcases ran : (act.outcome s).1 with e | b
    · exact failed e (kind e ran)
    · exact returned b
  constructor
  · intro s
    rw [outcome_bind, outcome_attempt, andThen_ok]
    exact trans_of R (first.state s) ((next s).state _)
  · intro s
    rw [outcome_bind, outcome_attempt, andThen_ok]
    exact (next s).fault _

omit [IsPreorder σ R] in
theorem related {act : Edit α σ β} {r : Except (Fault α) β} {s t : σ} (keeps : Keeps R P act)
    (ran : act.outcome s = (r, t)) : R s t := by
  have same := keeps.state s
  rwa [ran] at same

omit [IsPreorder σ R] in
theorem kind {act : Edit α σ β} {e : Fault α} {s t : σ} (keeps : Keeps R P act)
    (failed : act.outcome s = (.error e, t)) : P e :=
  keeps.fault s e (congrArg Prod.fst failed)

/-- A part of the state that an action keeps is there when it returns. -/
theorem preserves {p : σ → τ} {act : Edit α σ β} {r : Except (Fault α) β} {s t : σ}
    (keeps : Keeps (Unchanged p) (fun _ => True) act) (ran : act.outcome s = (r, t)) : p t = p s :=
  keeps.related ran

theorem part {ρ : Type} {p : σ → τ} {act : Edit α σ β} (keeps : Keeps (Unchanged p) P act)
    (q : τ → ρ) : Keeps (Unchanged fun s => q (p s)) P act where
  state s := congrArg q (keeps.state s)
  fault := keeps.fault

end Keeps

/-- In the states with one property an action has one outcome, and it leads to states with another. -/
def Yields (I : σ → Prop) (r : Except (Fault α) β) (J : σ → Prop) (act : Edit α σ β) : Prop :=
  ∀ s, I s → (act.outcome s).1 = r ∧ J (act.outcome s).2

namespace Yields

variable {I J K : σ → Prop} {act : Edit α σ β} {k : β → Edit α σ γ} {b : β} {e : Fault α}
  {r : Except (Fault α) γ}

theorem bind (first : Yields I (.ok b) J act) (next : Yields J r K (k b)) :
    Yields I r K (act >>= k) := by
  intro s holds
  obtain ⟨returned, then'⟩ := first s holds
  rw [outcome_bind, ← Prod.eta (act.outcome s), returned, andThen_ok]
  exact next _ then'

theorem bind_error (first : Yields I (.error e) J act) : Yields I (.error e) J (act >>= k) := by
  intro s holds
  obtain ⟨failed, then'⟩ := first s holds
  rw [outcome_bind, ← Prod.eta (act.outcome s), failed, andThen_error]
  exact ⟨rfl, then'⟩

theorem attempt {x : Except (Fault α) β} {l : Except (Fault α) β → Edit α σ γ}
    (first : Yields I x J act) (next : Yields J r K (l x)) :
    Yields I r K (Descent.attempt act >>= l) := by
  intro s holds
  obtain ⟨same, then'⟩ := first s holds
  rw [outcome_bind, outcome_attempt, andThen_ok, same]
  exact next _ then'

end Yields

end Edit

/-! ## Actions of a session -/

namespace Act

variable {δ ω α β τ : Type} (s : Session δ ω α)

@[simp] theorem outcome_driver : (driver : Act δ ω α δ).outcome s = (.ok s.driver, s) := rfl

@[simp] theorem outcome_changeDriver (f : δ → δ) :
    (changeDriver f : Act δ ω α Unit).outcome s = (.ok ⟨⟩, { s with driver := f s.driver }) := rfl

@[simp] theorem outcome_edit (view : δ → τ) (put : τ → δ → δ) (act : Edit α τ β) :
    (edit view put act : Act δ ω α β).outcome s =
      ((act.outcome (view s.driver)).1,
        { s with driver := put (act.outcome (view s.driver)).2 s.driver }) := rfl

@[simp] theorem outcome_report (r : Log.Record α) :
    (Reports.report r : Act δ ω α Unit).outcome s = (.ok ⟨⟩, { s with log := s.log.push r }) := rfl

theorem outcome_reports (l : List (Log.Record α)) :
    (l.forM Reports.report : Act δ ω α PUnit).outcome s =
      (.ok ⟨⟩, { s with log := s.log ++ l.toArray }) := by
  induction l generalizing s with
  | nil => simp
  | cons r l ih =>
    change Edit.outcome (Reports.report r >>= fun _ => l.forM Reports.report) s = _
    rw [Edit.outcome_bind, outcome_report, Edit.andThen_ok, ih]
    simp

/-- An action that looks at nothing, changes nothing but the counts, and has one result. -/
def Plain (act : Act δ ω α β) (r : Except (Fault α) β) (cost : Evaluations) : Prop :=
  ∀ s, act.outcome s = (r, { s with count := s.count + cost })

theorem plain_pure (b : β) : (pure b : Act δ ω α β).Plain (.ok b) {} := fun _ => rfl

end Act

end Descent
