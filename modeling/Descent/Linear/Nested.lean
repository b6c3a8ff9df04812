/-
# Descent.Linear.Nested — lists of lists

Vectors, matrices and arrays of more axes are written as nested lists.  A `Nested`
list has extents if the lists of each depth have one length; a single value has
none.
-/
import Descent.Linear.Dense

namespace Descent
set_option autoImplicit false

/-- A value, or a list of nested lists. -/
inductive Nested (α : Type) where
  | entry (a : α)
  | list (items : List (Nested α))

namespace Nested

section
variable {α β : Type}

mutual

/-- The entries from left to right. -/
def entries : Nested α → List α
  | .entry a => [a]
  | .list items => entriesOfAll items

def entriesOfAll : List (Nested α) → List α
  | [] => []
  | item :: rest => item.entries ++ entriesOfAll rest

end

mutual

/-- The extents, unless lists of one depth differ in length. -/
def shape? : Nested α → Option (List Nat)
  | .entry _ => some []
  | .list items => (sharedShape? items).map (items.length :: ·)

/-- The extents that all items have; those of no items are empty. -/
def sharedShape? : List (Nested α) → Option (List Nat)
  | [] => some []
  | [item] => item.shape?
  | item :: next :: rest =>
    match item.shape?, sharedShape? (next :: rest) with
    | some shape, some shared => if shape = shared then some shape else none
    | _, _ => none

end

mutual

/-- Replaces every entry by the result of an action, from left to right. -/
def mapM {m : Type → Type} [Monad m] (f : α → m β) : Nested α → m (Nested β)
  | .entry a => Nested.entry <$> f a
  | .list items => Nested.list <$> mapAllM f items

def mapAllM {m : Type → Type} [Monad m] (f : α → m β) : List (Nested α) → m (List (Nested β))
  | [] => pure []
  | item :: rest => do
    let item ← item.mapM f
    let rest ← mapAllM f rest
    return item :: rest

end

mutual

/-- The same, where each list is joined to an array as soon as its items are there: a list that has
no items, or items of different shapes, is refused. -/
def joinM {m : Type → Type} [Monad m] [MonadExcept (Fault α) m] {β γ : Type} (f : β → m γ) :
    Nested β → m (Nested γ)
  | .entry a => Nested.entry <$> f a
  | .list items => do
    let items ← joinAllM f items
    if items.isEmpty || (sharedShape? items).isNone then throw Fault.unevenLists
    return .list items

def joinAllM {m : Type → Type} [Monad m] [MonadExcept (Fault α) m] {β γ : Type} (f : β → m γ) :
    List (Nested β) → m (List (Nested γ))
  | [] => pure []
  | item :: rest => do
    let item ← item.joinM f
    let rest ← joinAllM f rest
    return item :: rest

end

/-- The items of a list; a value has none. -/
def items : Nested α → List (Nested α)
  | .entry _ => []
  | .list items => items

/-- Lists of rows side by side: the first rows one after the other, then the second ones, and so
on. -/
def beside : List (Nested α) → Nested α
  | [] => .list []
  | first :: rest =>
    let rowsOf (block : Nested α) := block.items.map items
    let rows := rest.foldl (fun rows block => List.zipWith (· ++ ·) rows (rowsOf block))
      (rowsOf first)
    .list (rows.map .list)

/-- Replaces every entry. -/
def map (f : α → β) (t : Nested α) : Nested β := t.mapM (m := Id) f

end

end Nested

end Descent
