/-
# Descent.LineSearch.Basic — how a line search is set up

A line search looks for a step length along a ray.  `Ray` is the ray, as the
value of the outer problem on it and its slope; `LineSearch` is the choice of a
policy with its parameters, and `LineSearch.check` says which choices are
admitted.  The two tests of a step length stand here as well.
-/
import Descent.Session

namespace Descent
open Text
set_option autoImplicit false

/-- A problem restricted to a ray: its value and its derivative at a step length. -/
structure Ray (m : Type → Type) (α : Type) where
  value : α → m α
  slope : α → m α

namespace LineSearch

/-- The policies. -/
inductive Kind where
  /-- A constant step length. -/
  | static
  | backtracking
  /-- Bisection of the slope. -/
  | bisection
  /-- Safeguarded quadratic interpolation. -/
  | quadratic
  /-- Quadratic interpolation through three points. -/
  | threePoint
  deriving DecidableEq, Repr

def Kind.all : List Kind := [.static, .backtracking, .bisection, .quadratic, .threePoint]

def Kind.name : Kind → String
  | .static => "static"
  | .backtracking => "backtracking"
  | .bisection => "bisection"
  | .quadratic => "quadratic"
  | .threePoint => "bierlaire_quadratic"

/-- The policy of that name. -/
def Kind.read {α : Type} (given : Literal) : Except (Fault α) Kind :=
  let found := match given with
    | .text s => Kind.all.find? (·.name == s)
    | _ => none
  match found with
  | some kind => .ok kind
  | none => .error (.invalid (.searchKind given))

end LineSearch

/-- A policy and its parameters. A policy ignores those that it has no use for. -/
structure LineSearch (α : Type) where
  kind : LineSearch.Kind
  /-- The constant step length, and the first one to try where none is given. -/
  alpha : α
  /-- Sufficient decrease. -/
  c1 : α
  /-- Curvature. -/
  c2 : α
  /-- Factor by which backtracking shortens the step. -/
  p : α
  /-- Backtracking also asks for the curvature condition. -/
  curvature : Bool
  /-- The curvature condition is the strong one. -/
  strong : Bool
  /-- Least part of the bracket at which interpolation tries a point. -/
  sigma0 : α
  /-- Greatest part of the bracket at which interpolation tries a point. -/
  sigma1 : α
  /-- First step of a bracketing march. -/
  s : α
  /-- Slopes below it are flat, intervals below it are narrow. -/
  tol : α
  maxIterations : Int
  /-- Factor by which a direction is shortened while the point it leads to is undefined. -/
  nanFactor : α
  nanMaxIterations : Int

namespace LineSearch

variable {α : Type} [Scalar α]

/-- Backtracking by halves. -/
def standard : LineSearch α :=
  { kind := .backtracking
    alpha := 1
    c1 := 1e-4
    c2 := 0.9
    p := 0.5
    curvature := false
    strong := false
    sigma0 := 0.1
    sigma1 := 0.5
    s := 1e-2
    tol := 1e-8
    maxIterations := 50
    nanFactor := 0.5
    nanMaxIterations := 10 }

/-- Strictly between zero and one. -/
def properFraction (x : α) : Bool := 0 < x && x < 1

/-- Admits the parameters for which the policies are defined; the first refusal counts. -/
def check (c : LineSearch α) : Except (Fault α) (LineSearch α) :=
  let refuse (why : Invalid) : Except (Fault α) (LineSearch α) := .error (.invalid why)
  if c.alpha ≤ 0 then refuse (.notPositive "alpha")
  else if !(0 < c.c1 && c.c1 < c.c2 && c.c2 < 1) then refuse .decreaseConstants
  else if !properFraction c.p then refuse (.notProperFraction "p")
  else if !(0 < c.sigma0 && c.sigma0 < c.sigma1 && c.sigma1 < 1) then refuse .safeguards
  else if c.s ≤ 0 then refuse (.notPositive "s")
  else if c.tol ≤ 0 then refuse (.notPositive "tol")
  else if c.maxIterations < 1 then refuse (.belowOne "max_iterations")
  else if !properFraction c.nanFactor then refuse (.notProperFraction "nan_factor")
  else if c.nanMaxIterations < 0 then refuse (.negative "nan_max_iterations")
  else .ok c

/-- A slope that counts as zero. -/
def isFlat (slope tol : α) : Bool := Scalar.abs slope < tol

/-- The value has fallen by at least the part `c1` of what the slope promised. -/
def sufficientDecrease (fAlpha f₀ d₀ alpha c1 : α) : Bool := fAlpha ≤ f₀ + c1 * alpha * d₀

/-- The slope has risen to the part `c2` of the first one; in the strong form its size has fallen
below that part. -/
def curvatureCondition (dAlpha d₀ c2 : α) (strong : Bool) : Bool :=
  if strong then Scalar.abs dAlpha < c2 * Scalar.abs d₀ else c2 * d₀ ≤ dAlpha

end LineSearch

end Descent
