/-
# Descent.Log.Level — how important a record is

Levels are whole numbers; five of them, and zero, have names.
-/
namespace Descent.Log
set_option autoImplicit false

/-- Importance of a record; greater is more important. -/
abbrev Level := Int

def debug : Level := 10
def info : Level := 20
def warning : Level := 30
def error : Level := 40
def critical : Level := 50

/-- A level's name; levels between the named ones show their number. -/
def levelName (level : Level) : String :=
  if level == debug then "DEBUG"
  else if level == info then "INFO"
  else if level == warning then "WARNING"
  else if level == error then "ERROR"
  else if level == critical then "CRITICAL"
  else if level == 0 then "NOTSET"
  else "Level " ++ toString level

/-- The capital letter of a letter of a level's name. The dotless i and the long s have the capitals of
i and s. -/
def capital (c : Char) : Char :=
  if c == 'ı' then 'I' else if c == 'ſ' then 'S' else c.toUpper

/-- The level of that name in any case of letters; a name that means none is that of a warning. -/
def levelNamed (name : String) : Level :=
  match name.map capital with
  | "DEBUG" => debug
  | "INFO" => info
  | "WARN" => warning
  | "WARNING" => warning
  | "ERROR" => error
  | "CRITICAL" => critical
  | "FATAL" => critical
  | "NOTSET" => 0
  | _ => warning

end Descent.Log
