/-
# Descent.Log.Registry — named loggers and where they write

All loggers live below the name of one package.  A logger is made when its name is
first asked for, at the level that is then the default, and writes to the error
stream in the standard layout.  Setting the level changes all loggers and the
default; configuring also replaces what the loggers write to, and how.
-/
import Descent.Session

namespace Descent.Log
open Text
set_option autoImplicit false

/-- Where lines go. -/
inductive Stream where
  | errors
  | other
  deriving DecidableEq

/-- A stream with the level from which records go to it, and their layout. -/
structure Handler where
  stream : Stream
  level : Level
  layout : Layout

structure Logger where
  name : String
  level : Level
  handlers : List Handler

/-- The loggers of a package, and the level of those to come. -/
structure Registry where
  package : String
  level : Level
  loggers : List Logger := []

/-- A logger that writes to one stream. -/
def Logger.writing (name : String) (stream : Stream) (level : Level) (layout : Layout) : Logger :=
  { name, level, handlers := [⟨stream, level, layout⟩] }

/-- The line that a handler writes for a text; there is none if the layout has places that cannot be
filled. -/
def Handler.line? (handler : Handler) (name : String) (level : Level) (text : String) :
    Option (Stream × String) :=
  if handler.level ≤ level then (handler.layout.line? level name text).map (handler.stream, ·)
  else none

namespace Registry

/-- The full name: names outside the package are put below it. -/
def fullName (r : Registry) : Option String → String
  | none => r.package
  | some name =>
    if name = r.package ∨ (r.package ++ ".").isPrefixOf name then name
    else r.package ++ "." ++ name

def find? (r : Registry) (name : String) : Option Logger := r.loggers.find? (·.name = name)

/-- The logger of that name, which is made if there is none, and the loggers with it. -/
def logger (r : Registry) (name : Option String) : Logger × Registry :=
  let name := r.fullName name
  match r.find? name with
  | some logger => (logger, r)
  | none =>
    let logger := Logger.writing name .errors r.level .standard
    (logger, { r with loggers := logger :: r.loggers })

/-- The level that counts for a logger: its own, unless that is zero; then that of the nearest logger
above it with another one, and that of a warning if there is none. -/
def effectiveLevel (r : Registry) (logger : Logger) : Level :=
  let isAbove (other : Logger) : Bool :=
    other.level != 0 && (other.name ++ ".").isPrefixOf logger.name
  if logger.level ≠ 0 then logger.level
  else match (r.loggers.filter isAbove).mergeSort (fun a b => b.name.length ≤ a.name.length) with
    | nearest :: _ => nearest.level
    | [] => warning

/-- What a logger writes for a text. -/
def lines (r : Registry) (logger : Logger) (level : Level) (text : String) :
    List (Stream × String) :=
  if 0 < level ∧ r.effectiveLevel logger ≤ level then
    logger.handlers.filterMap (·.line? logger.name level text)
  else []

/-- Sets the level of all loggers and of all that they write to. -/
def setLevel (r : Registry) (level : Level) : Registry :=
  { r with
    level
    loggers := r.loggers.map fun logger =>
      { logger with level, handlers := logger.handlers.map ({ · with level }) } }

/-- Makes all loggers write to one stream, from one level on and in one layout. -/
def redirect (r : Registry) (stream : Stream) (level : Level) (layout : Layout) : Registry :=
  { r with level, loggers := r.loggers.map fun logger => .writing logger.name stream level layout }

/-- The layout of a text; an empty one is the standard layout. A text that mentions no place to fill
is refused. -/
def layoutOf {α : Type} (format : String) : Except (Fault α) Layout :=
  if format.isEmpty then .ok .standard
  else if Layout.mentionsPlace format.toList then .ok (Layout.read format.toList)
  else .error .formatMismatch

/-- Makes all loggers write anew. The default level is set even if the format is refused. -/
def configure {α : Type} (level : Level) (format : String) (stream : Stream) :
    Edit α Registry Unit := do
  modify fun r => { r with level }
  let layout ← ofExcept (layoutOf format)
  modify fun r => r.redirect stream level layout

/-- The loggers of the library's own parts, all set to warnings. -/
def initial (package : String) : Registry :=
  { package
    level := warning
    loggers := Source.all.map fun source =>
      .writing (package ++ "." ++ source.path) .errors warning .standard }

end Registry

end Descent.Log
