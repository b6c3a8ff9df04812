/-
# Descent.Log.Record — what methods have to say

A `Record` says how important it is, which part of the library it comes from, and a
sentence.  Its line is that of the standard layout.
-/
import Descent.Log.Layout
import Descent.Text.Message

namespace Descent.Log
open Text
set_option autoImplicit false

/-- The parts of the library that have something to say. -/
inductive Source where
  | policies
  | trials
  | hessians
  | trustRegion
  | optimizer
  | status
  deriving DecidableEq

/-- The name of a source below the name of the package. -/
def Source.path : Source → String
  | .policies => "linesearch.policies"
  | .trials => "linesearch.problem"
  | .hessians => "hessians"
  | .trustRegion => "nonlinear.dogleg"
  | .optimizer => "optimization.optimizer"
  | .status => "status"

def Source.all : List Source :=
  [.policies, .trials, .hessians, .trustRegion, .optimizer, .status]

/-- Something a method has to say. -/
structure Record (α : Type) where
  level : Level
  source : Source
  message : Message α

/-- The line of a record in the standard layout, below a package. -/
def Record.line (package : String) (r : Record Float) : String :=
  Layout.standardLine r.level (package ++ "." ++ r.source.path) r.message.render

end Descent.Log
