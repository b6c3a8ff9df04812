/-
# Descent.Proofs.LineSearch.Asked — the points that a search asks for

A function that lists its arguments shows at which points an algorithm has asked for
values.  `Edit.Asks` says what an action returns and which points it adds to the list,
whatever was listed before; the points of composed actions come one after the other.

The result is the one that the algorithm has on plain functions (`asking`), as the lists
make no difference to it.
-/
import Descent.Proofs.LineSearch.Stranded

namespace Descent
set_option autoImplicit false

/-- A function that answers at every point and lists the points. -/
def listed {α : Type} (f : α → α) : α → Edit α (List α) α := fun t => do
  modify (· ++ [t])
  return f t

/-- A ray that lists the points at which its value is asked for. -/
def Ray.listed {α : Type} (f d : α → α) : Ray (Edit α (List α)) α :=
  ⟨Descent.listed f, fun t => pure (d t)⟩

/-- Where points are listed nothing is kept of the log. -/
instance {α : Type} : Reports α (Edit α (List α)) := ⟨fun _ => pure ⟨⟩⟩

namespace Edit

variable {α β γ : Type} {l l' : List α}

/-- The result of an action, and the points that it adds to the list. -/
def Asks (act : Edit α (List α) β) (r : Except (Fault α) β) (points : List α) : Prop :=
  ∀ s, act.outcome s = (r, s ++ points)

theorem Asks.listed (f : α → α) (t : α) : Asks (Descent.listed f t) (.ok (f t)) [t] := fun _ => rfl

theorem Asks.pure (b : β) : Asks (Pure.pure b : Edit α (List α) β) (.ok b) [] := fun s => by
  rw [outcome_pure, List.append_nil]

theorem Asks.ofExcept (r : Except (Fault α) β) :
    Asks (MonadExcept.ofExcept r : Edit α (List α) β) r [] := fun s => by
  rw [outcome_ofExcept, List.append_nil]

theorem Asks.bind {act : Edit α (List α) β} {k : β → Edit α (List α) γ} {b : β}
    {r : Except (Fault α) γ} (first : Asks act (.ok b) l) (next : Asks (k b) r l') :
    Asks (act >>= k) r (l ++ l') := fun s => by
  rw [outcome_bind, first, andThen_ok, next, List.append_assoc]

/-- A point that is asked for first. -/
theorem Asks.ask {f : α → α} {t : α} {k : α → Edit α (List α) γ} {r : Except (Fault α) γ}
    (next : Asks (k (f t)) r l) : Asks (Descent.listed f t >>= k) r (t :: l) :=
  Asks.bind (.listed f t) next

/-- What comes last asks for no more points. -/
theorem Asks.finish {act : Edit α (List α) β} {k : β → Edit α (List α) γ} {b : β}
    {r : Except (Fault α) γ} (first : Asks act (.ok b) l) (last : Asks (k b) r []) :
    Asks (act >>= k) r l := by
  simpa only [List.append_nil] using first.bind last

theorem Asks.throw (e : Fault α) :
    Asks (MonadExcept.throw e : Edit α (List α) β) (.error e) [] := fun s => by
  rw [outcome_throw, List.append_nil]

theorem Asks.fault {act : Edit α (List α) β} {k : β → Edit α (List α) γ} {e : Fault α}
    (first : Asks act (.error e) l) : Asks (act >>= k) (.error e) l := fun s => by
  rw [outcome_bind, first, andThen_error]

theorem Asks.attempt {act : Edit α (List α) β} {r : Except (Fault α) β} (asks : Asks act r l) :
    Asks (Descent.attempt act) (.ok r) l := fun s => by
  rw [outcome_attempt, asks]

theorem Asks.result_eq {act : Edit α (List α) β} {r r' : Except (Fault α) β} (asks : Asks act r l)
    (asks' : Asks act r' l') : r = r' :=
  congrArg Prod.fst ((asks []).symm.trans (asks' []))

end Edit

/-- Actions with the result of a plain computation that ask for points. -/
def Correspondence.asking {α : Type} :
    Correspondence α (Except (Fault α)) (Edit α (List α)) where
  Rel x y := ∃ points, Edit.Asks y x points
  Admits _ := True
  pure b := ⟨_, .pure b⟩
  bind {_ _ x _ _ _} first next := by
    obtain ⟨points, asks⟩ := first
    cases x with
    | ok b => exact ⟨_, asks.bind (next b).choose_spec⟩
    | error e => exact ⟨_, asks.fault⟩
  throw _ := ⟨_, .throw _⟩
  abort _ := ⟨_, (Edit.Asks.throw _).fault⟩
  attempt {_ _ x _ _ _} first returned failed := by
    obtain ⟨points, asks⟩ := first
    rw [attempt_plain, ok_bind]
    cases x with
    | ok b => exact ⟨_, asks.attempt.bind (returned b).choose_spec⟩
    | error e => exact ⟨_, asks.attempt.bind (failed e trivial).choose_spec⟩

theorem asking_listed {α : Type} (f : α → α) (t : α) :
    Correspondence.asking.Rel (known f t) (listed f t) := ⟨_, .listed f t⟩

theorem Ray.asking_listed {α : Type} (f d : α → α) :
    Correspondence.asking.Rays (.known f d) (.listed f d) :=
  ⟨Descent.asking_listed f, fun t => ⟨_, .pure (d t)⟩⟩

namespace LineSearch

open Edit

/-- A search has the same result on a ray that lists the points. -/
theorem search_asks {α : Type} [Scalar α] (c : LineSearch α) (f d : α → α) (alpha₀ : α) :
    ∃ points, Asks (c.search (.listed f d) alpha₀) (c.search (.known f d) alpha₀) points :=
  (Ray.asking_listed f d).search (fun _ => ⟨_, .pure PUnit.unit⟩) (fun _ _ => trivial) c alpha₀

variable {K : Type} [Field K] [LinearOrder K] {f d : K → K} {c : LineSearch K} {alpha₀ : K}
  {r : Except (Fault K) K} {l l' : List K}

theorem search_of_outcome {s : List K}
    (returned : (c.search (.listed f d) alpha₀).outcome s = (r, l)) :
    c.search (.known f d) alpha₀ = r := by
  obtain ⟨points, asks⟩ := search_asks c f d alpha₀
  rw [asks] at returned
  exact congrArg Prod.fst returned

/-- A bracketing policy looks for an interval if neither slope is flat. -/
theorem asks_of_steep (steep : c.Steep d alpha₀) {rest : K → Edit K (List K) K}
    (asks : Asks (rest (d 0)) r l) :
    Asks (do
      let d₀ ← (Ray.listed f d).slope 0
      if isFlat d₀ c.tol then return alpha₀
      else
        let d₁ ← (Ray.listed f d).slope alpha₀
        if isFlat d₁ c.tol then return alpha₀ else rest d₀) r l := by
  obtain ⟨start, first⟩ := steep
  have start : ¬ isFlat (d 0) c.tol = true := by simp [isFlat, start]
  have first : ¬ isFlat (d alpha₀) c.tol = true := by simp [isFlat, first]
  simp only [Ray.listed, pure_bind, start, first]
  exact asks

/-- It goes on with the interval that it finds. -/
theorem asks_onBracket {β : Type} {bracket : Edit K (List K) β} {interval : β}
    {search : β → Edit K (List K) K} (found : Asks bracket (.ok interval) l)
    (searches : Asks (search interval) r l') (ray : Ray (Edit K (List K)) K) :
    Asks (onBracket bracket ray alpha₀ c search) r (l ++ l') :=
  found.attempt.bind searches

end LineSearch

end Descent
