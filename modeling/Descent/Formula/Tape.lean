/-
# Descent.Formula.Tape — a calculation as it was written down

A `Tape` lists the steps of a calculation, each with its value and with the places
of its operands further up.  `Tape.sweep` goes down a tape from its end and takes
down, for every place where a component of the point was used, the rate at which
the result changes with it.  The rates are steps of the same tape, so that a second
sweep gives the rates of the rates.

A step that does not depend on the point or on a leaf is passed over.  Where a rule
has a corner it is bent as follows: the absolute value has rate zero at zero, a
power with exponent zero does not depend on its base, and a power of zero with an
exponent that is not negative does not depend on its exponent.

The sign of a value has no rate anywhere.  That is more than a rate of zero: a rate
that vanished stays so when it is multiplied or divided, be it by an infinity, and
adds nothing to another one.  It becomes an ordinary zero when its own sign is
changed, or where a corner chooses between it and zero.
-/
import Descent.Formula.Basic

namespace Descent
set_option autoImplicit false

/-- What a step of a calculation does; operands are given by their places. -/
inductive Node (α : Type) where
  | const
  | var (i : Nat)
  | leaf
  | apply (f : Function α) (a : Nat)
  | combine (op : Operation) (a b : Nat)
  /-- A rate of nothing. -/
  | vanished

/-- A step with its value, and whether it depends on the point or on a leaf. -/
structure Entry (α : Type) where
  node : Node α
  value : α
  active : Bool

/-- The steps of a calculation. -/
abbrev Tape (α : Type) := Array (Entry α)

/-- A calculation that is written down. -/
abbrev Recording (α : Type) := StateM (Tape α)

/-- A rate that reached a component: the index of the component and the place of the rate. -/
abbrev Reached := List (Nat × Nat)

namespace Tape

section
variable {α : Type} [Elementary α]

/-- The value at a place. -/
def valueAt (t : Tape α) (k : Nat) : α := (t[k]?.map (·.value)).getD 0

def isActive (t : Tape α) (k : Nat) : Bool := (t[k]?.map (·.active)).getD false

/-- Writes a step and tells its place. -/
def write (entry : Entry α) : Recording α Nat := do
  let t ← get
  set (t.push entry)
  return t.size

def const (a : α) : Recording α Nat := write ⟨.const, a, false⟩

def apply (f : Function α) (a : Nat) : Recording α Nat := do
  let t ← get
  write ⟨.apply f a, f.value (t.valueAt a), t.isActive a⟩

/-- The rate that vanished. -/
def vanished : Recording α Nat := write ⟨.vanished, 0, false⟩

def hasVanished (t : Tape α) (k : Nat) : Bool :=
  match t[k]? with
  | some ⟨.vanished, _, _⟩ => true
  | _ => false

def combine (op : Operation) (a b : Nat) : Recording α Nat := do
  let t ← get
  write ⟨.combine op a b, op.value (t.valueAt a) (t.valueAt b), t.isActive a || t.isActive b⟩

/-- A rate multiplied or divided by a value. -/
def weigh (op : Operation) (r b : Nat) : Recording α Nat := do
  if (← get).hasVanished r then return r else combine op r b

/-- The sum of two rates. -/
def sum (r s : Nat) : Recording α Nat := do
  let t ← get
  if t.hasVanished r then return s else if t.hasVanished s then return r else combine .add r s

/-- Writes down the calculation of a formula that has a value at `x`. -/
def record (x : Vec α) : Formula α → Recording α Nat
  | .const a => const a
  | .var i => write ⟨.var i, x.getD i 0, true⟩
  | .leaf a => write ⟨.leaf, a, true⟩
  | .apply f a => do apply f (← record x a)
  | .combine op a b => do
    let a ← record x a
    let b ← record x b
    combine op a b

/-- The rate with respect to the operand `a` of step `k`, whose own rate is `r`. -/
def rateOfApply (f : Function α) (k a r : Nat) : Recording α Nat := do
  match f with
  | .neg => apply .neg r
  | .abs => weigh .mul r (← apply .sign a)
  | .sign => vanished
  | .exp => weigh .mul r k
  | .log => weigh .div r a
  | .sin => weigh .mul r (← apply .cos a)
  | .cos => weigh .mul r (← apply .neg (← apply .sin a))
  | .tan => weigh .mul r (← combine .add (← apply (.power 2.0) k) (← const 1))
  | .atan => weigh .div r (← combine .add (← combine .mul a a) (← const 1))
  | .sqrt => weigh .div r (← combine .mul (← const 2.0) k)
  | .power exponent =>
    if exponent == 0 then const 0
    else
      let lowered ← apply (.power (exponent - 1)) a
      weigh .mul r (← combine .mul (← const exponent) lowered)
  | .keep whole => if whole then pure r else const 0

/-- The rate with respect to the first operand of a step `k`. -/
def rateOfLeft (op : Operation) (a b r : Nat) : Recording α Nat := do
  match op with
  | .add | .sub => pure r
  | .mul => weigh .mul r b
  | .div => weigh .div r b
  | .pow =>
    let constant := (← get).valueAt b == 0
    let lowered ← combine .pow a (← combine .sub b (← const 1))
    apply (.keep !constant) (← weigh .mul r (← combine .mul b lowered))

/-- The rate with respect to the second operand of a step `k`. -/
def rateOfRight (op : Operation) (k a b r : Nat) : Recording α Nat := do
  match op with
  | .add => pure r
  | .sub => apply .neg r
  | .mul => weigh .mul r a
  | .div => weigh .mul (← apply .neg r) (← combine .div (← combine .div a b) b)
  | .pow =>
    let t ← get
    let constant := t.valueAt a == 0 && 0 ≤ t.valueAt b
    weigh .mul r (← apply (.keep !constant) (← combine .mul k (← apply .log a)))

/-- Adds a rate to the one that a place has already. -/
def gather (rates : Array (Option Nat)) (k r : Nat) : Recording α (Array (Option Nat)) := do
  match rates[k]?.getD none with
  | none => return rates.setIfInBounds k (some r)
  | some before => return rates.setIfInBounds k (some (← sum before r))

/-- Passes the rate `r` of step `k` on to its operands. -/
def passOn (rates : Array (Option Nat)) (k r : Nat) : Node α → Recording α (Array (Option Nat))
  | .const | .var _ | .leaf | .vanished => pure rates
  | .apply f a => do gather rates a (← rateOfApply f k a r)
  | .combine op a b => do
    let t ← get
    let rates ← if t.isActive a then gather rates a (← rateOfLeft op a b r) else pure rates
    if t.isActive b then gather rates b (← rateOfRight op k a b r) else pure rates

/-- Goes down the first `n` steps with the rates that are known, and collects those that reach a
component. -/
def sweepDown : (n : Nat) → Array (Option Nat) → Reached → Recording α Reached
  | 0, _, reached => pure reached
  | k + 1, rates, reached => do
    match rates[k]?.getD none, (← get)[k]? with
    | some r, some entry =>
      if !entry.active then sweepDown k rates reached
      else match entry.node with
        | .var i => sweepDown k rates (reached ++ [(i, r)])
        | node => sweepDown k (← passOn rates k r node) reached
    | _, _ => sweepDown k rates reached

/-- The rates that reach the components from some steps, each taken with a weight. -/
def sweep (weights : List (Nat × α)) : Recording α Reached := do
  let n := (← get).size
  let mut rates := Array.replicate n none
  for (k, weight) in weights do
    rates ← gather rates k (← const weight)
  sweepDown n rates []

/-- The sums of the rates that reached the first `n` components. -/
def totals (t : Tape α) (n : Nat) (reached : Reached) : Vec α :=
  Array.ofFn fun i : Fin n =>
    match reached.filter (·.1 == i.val) with
    | [] => 0
    | (_, r) :: rest => rest.foldl (fun sum p => sum + t.valueAt p.2) (t.valueAt r)

end

end Tape

end Descent
