/-
# Descent.Iteration.Loop — the run of a driver

A `Method` says how to evaluate a point, what to prepare before the first step,
how to step and what to learn from a step.  `Method.solve` runs it: it evaluates
the start, and then steps, evaluates, measures, judges and moves on until the
verdict is no longer to run.  A diverging step is a fault and is not moved to, so
the cache holds the last valid iterate however a run ends.

A driver that is running refuses to start again; it can start again after every
end of a run.
-/
import Descent.Iteration.Cache
import Descent.LineSearch.Track

namespace Descent
open Text
set_option autoImplicit false

/-- The state of a driver: `ι` are its iterates, `π` its measures, and `μ` is what its method
remembers. -/
structure Drive (ι π μ α : Type) where
  phase : Phase := .ready
  progress : π
  cache : Option (Cache ι α) := none
  running : Bool := false
  memory : μ

/-- What a run that ended by itself has to show. -/
structure Outcome (ι α : Type) where
  last : ι
  iterations : Nat
  phase : Phase
  count : Evaluations
  /-- All points that were visited, if they are kept. -/
  trace : List (Vec α)

/-- The run ended because a criterion of convergence held. -/
def Outcome.success {ι α : Type} (o : Outcome ι α) : Bool := o.phase = .converged

namespace Drive

variable {ι π μ ω α : Type}

/-- An action of a driver. -/
abbrev Action (ι π μ ω α : Type) : Type → Type := Act (Drive ι π μ α) ω α

/-- A driver that has not started. -/
def idle [Iterate ι π α] (memory : μ) : Drive ι π μ α :=
  { progress := Iterate.unmeasured ι, memory }

variable [Scalar α] [Iterate ι π α]

/-- The cache of a run. -/
def current (d : Drive ι π μ α) : Cache ι α := d.cache.getD (Cache.start (Iterate.blank : ι))

def setCache (cache : Cache ι α) (d : Drive ι π μ α) : Drive ι π μ α :=
  { d with cache := some cache }

/-- The iterate on which a step works. -/
def now : Action ι π μ ω α ι := return (← Act.driver).current.now

/-- Changes the cache. -/
def onCache {β : Type} (act : Edit α (Cache ι α) β) : Action ι π μ ω α β :=
  Act.edit current setCache act

end Drive

/-- A method as it is run: its action on the driver at each stage of an iteration. -/
structure Method (ι π μ ω α : Type) where
  /-- The name in reports. -/
  name : String
  /-- The name with which a running driver refuses to start again. -/
  kind : String
  options : Options α
  /-- The number of unknowns, where it is fixed. -/
  dim : Option Int
  evaluate : Vec α → Drive.Action ι π μ ω α ι
  /-- Prepares the memory, once the start is evaluated. -/
  prepare : Drive.Action ι π μ ω α Unit
  /-- The next point. -/
  step : Drive.Action ι π μ ω α (Vec α)
  /-- Draws a lesson from a step that was taken. -/
  learn : Drive.Action ι π μ ω α Unit := pure ()

namespace Method

variable {ι π μ ω α : Type} [Extended α] [Iterate ι π α]

/-- Measures the move to a new iterate and judges it. -/
def judge (M : Method ι π μ ω α) (new : ι) : Drive.Action ι π μ ω α Phase := do
  let old ← Drive.now
  Act.edit (·.progress) (fun progress d => { d with progress }) (Iterate.update new old)
  let progress := Iterate.assess (ι := ι) M.options (← Act.driver).progress
  let phase := Iterate.verdict (ι := ι) M.options progress
  Act.changeDriver fun d => { d with progress, phase }
  return phase

/-- Steps, evaluates and judges: a new iterate, and how the driver goes on with it. -/
def propose (M : Method ι π μ ω α) : Drive.Action ι π μ ω α (ι × Phase) := do
  let x ← M.step
  let new ← M.evaluate x
  return (new, ← M.judge new)

/-- Moves on to a new iterate, and draws a lesson from it. -/
def accept (M : Method ι π μ ω α) (new : ι) : Drive.Action ι π μ ω α Unit := do
  Drive.onCache (Cache.commit new)
  M.learn

/-- One iteration: moves on to the iterate that it proposes, unless that diverges. -/
def advance (M : Method ι π μ ω α) : Drive.Action ι π μ ω α Phase := do
  let (new, phase) ← M.propose
  if phase = .diverged then
    let d ← Act.driver
    throw (.diverged M.name (Iterate.progress (ι := ι) d.progress) (Iterate.point d.current.now))
  M.accept new
  return phase

/-- The trace with the present point at its end, if points are kept. -/
def extend (M : Method ι π μ ω α) (trace : List (Vec α)) :
    Drive.Action ι π μ ω α (List (Vec α)) := do
  if M.options.keepTrace then return trace ++ [Iterate.point (← Drive.now)] else return trace

/-- Iterates while the verdict is to run. -/
def loop (M : Method ι π μ ω α) :
    (iterations : Nat) → List (Vec α) → Drive.Action ι π μ ω α (Phase × List (Vec α))
  | 0, trace => pure (.exhausted, trace)
  | iterations + 1, trace => do
    let phase ← M.advance
    let trace ← M.extend trace
    if phase = .running then M.loop iterations trace else return (phase, trace)

/-- What is told of the end of a run. -/
def remarks (M : Method ι π μ ω α) (phase : Phase) (progress : Progress α) :
    List (Log.Record α) :=
  let warning (message : Message α) : Log.Record α := ⟨Log.warning, .status, message⟩
  let ending :=
    if M.options.verbosity < 1 then []
    else if phase = .exhausted then
      [warning ([.words (M.name ++ " stopped after max_iterations = "),
        .whole M.options.maxIterations, .words " without converging ("] ++ progress.describe
          ++ [.words ")."])]
    else match M.options.warnIterations with
      | none => []
      | some limit =>
        if limit != 0 && limit ≤ progress.iteration then
          [warning [.words (M.name ++ " needed "), .whole progress.iteration,
            .words " iterations."]]
        else []
  if 2 ≤ M.options.verbosity then ending ++ [⟨Log.info, .status, progress.describe⟩] else ending

/-- Refuses a start that has not as many entries as there are unknowns. -/
def checkStart (M : Method ι π μ ω α) (x : Vec α) : Except (Fault α) Unit :=
  match M.dim with
  | none => .ok ()
  | some dim => if dim = x.size then .ok () else .error (.invalid (.startSize x.size dim))

/-- Evaluates the start and makes it the first iterate. -/
def place (M : Method ι π μ ω α) (x : Vec α) : Drive.Action ι π μ ω α Unit := do
  ofExcept (M.checkStart x)
  modify fun s => { s with count := {} }
  let first ← M.evaluate x
  Act.changeDriver fun d => { d with
    cache := some (Cache.start first)
    progress := Iterate.start first
    phase := .ready }
  Act.onTrack (set (Track.zeros (α := α) x.size))

/-- What comes before the first iteration; the trace with the start. -/
def enter (M : Method ι π μ ω α) (x : Vec α) : Drive.Action ι π μ ω α (List (Vec α)) := do
  M.place x
  M.prepare
  let trace ← M.extend []
  Act.changeDriver fun d => { d with phase := .running }
  return trace

/-- Tells of the end of a run, and collects what it has to show. -/
def conclude (M : Method ι π μ ω α) (phase : Phase) (trace : List (Vec α)) :
    Drive.Action ι π μ ω α (Outcome ι α) := do
  let s ← get
  let progress := Iterate.progress (ι := ι) s.driver.progress
  (M.remarks phase progress).forM Reports.report
  return { last := s.driver.current.now, iterations := progress.iteration, phase,
           count := s.count, trace }

/-- A run from `x`. -/
def run (M : Method ι π μ ω α) (x : Vec α) : Drive.Action ι π μ ω α (Outcome ι α) := do
  let trace ← M.enter x
  let (phase, trace) ← M.loop M.options.maxIterations.toNat trace
  M.conclude phase trace

/-- A run from `x`, unless one is going on. -/
def solve (M : Method ι π μ ω α) (x : Vec α) : Drive.Action ι π μ ω α (Outcome ι α) := do
  if (← Act.driver).running then throw (.alreadySolving M.kind)
  Act.changeDriver fun d => { d with running := true }
  let result ← attempt (M.run x)
  Act.changeDriver fun d => { d with running := false }
  ofExcept result

end Method

end Descent
