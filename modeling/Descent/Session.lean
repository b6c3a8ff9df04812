/-
# Descent.Session — what a running method can change

User functions are arbitrary actions: they may fail, keep state of their own and
look at the driver that calls them.  Everything that can change while a method
runs is in one `Session`: the driver's own state, the state of the user's
functions, the number of evaluations, the point on which a line search works and
the log.  An `Act` may end in a fault; the session it leaves behind is the one
that the next action sees.

`Edit` is the same for any other state.  The algorithms that only need to call
functions and to report are written for every monad that can do so.
-/
import Descent.Fault
import Descent.Log.Record

namespace Descent
set_option autoImplicit false

/-- An action on a state that may end in a fault and keeps what it did before. -/
abbrev Edit (α σ : Type) : Type → Type := ExceptT (Fault α) (StateM σ)

namespace Edit

variable {α σ τ β : Type}

/-- Runs an action on a part of the state. -/
def focus (view : σ → τ) (put : τ → σ → σ) (act : Edit α τ β) : Edit α σ β :=
  ExceptT.mk do
    let s ← get
    let (result, part) := act.run.run (view s)
    set (put part s)
    return result

end Edit

/-- The outcome of an action as a value. -/
def attempt {m : Type → Type} {α β : Type} [Monad m] [MonadExcept (Fault α) m] (act : m β) :
    m (Except (Fault α) β) :=
  tryCatch (Except.ok <$> act) fun fault => pure (.error fault)

/-- A monad in which something can be put into the log. -/
class Reports (α : outParam Type) (m : Type → Type) where
  report : Log.Record α → m Unit

/-- Where only the result counts nothing is kept of the log. -/
instance {α : Type} : Reports α (Except (Fault α)) := ⟨fun _ => .ok ()⟩

/-- How often user functions were called: for values, first and second derivatives. -/
structure Evaluations where
  values : Nat := 0
  first : Nat := 0
  second : Nat := 0
  deriving DecidableEq

instance : Add Evaluations :=
  ⟨fun a b => ⟨a.values + b.values, a.first + b.first, a.second + b.second⟩⟩

/-- The points of a line: where it starts, where it leads and the point visited last. -/
structure Track (α : Type) where
  base : Array α := #[]
  direction : Array α := #[]
  trial : Array α := #[]

/-- What can change while a method runs: `δ` is the state of the driver, `ω` that of the user's
functions. -/
structure Session (δ ω α : Type) where
  driver : δ
  env : ω
  count : Evaluations := {}
  track : Track α := {}
  log : Array (Log.Record α) := #[]

/-- An action of a method or of a user function. -/
abbrev Act (δ ω α : Type) : Type → Type := Edit α (Session δ ω α)

namespace Act

variable {δ ω α β τ : Type}

instance : Reports α (Act δ ω α) := ⟨fun r => modify fun s => { s with log := s.log.push r }⟩

def driver : Act δ ω α δ := return (← get).driver

def setDriver (d : δ) : Act δ ω α Unit := modify fun s => { s with driver := d }

def changeDriver (f : δ → δ) : Act δ ω α Unit := modify fun s => { s with driver := f s.driver }

/-- Runs an action on a part of the driver's state. -/
def edit (view : δ → τ) (put : τ → δ → δ) (act : Edit α τ β) : Act δ ω α β :=
  Edit.focus (fun s => view s.driver) (fun t s => { s with driver := put t s.driver }) act

/-- Runs an action on the points of a line. -/
def onTrack (act : Edit α (Track α) β) : Act δ ω α β :=
  Edit.focus (fun s => s.track) (fun t s => { s with track := t }) act

/-- Adds to the number of evaluations. -/
def tally (cost : Evaluations) : Act δ ω α Unit :=
  modify fun s => { s with count := s.count + cost }

/-- The result of an action that tells its cost, with the cost added to the evaluations. -/
def counted (act : Act δ ω α (β × Evaluations)) : Act δ ω α β := do
  let (result, cost) ← act
  tally cost
  return result

end Act

end Descent
