/-
# Descent.Linear.Tensor — arrays of any number of axes

A `Tensor` of extents `[a, b, …]` is a vector of `a` tensors of extents `[b, …]`;
without extents it is a single entry.  So one extent makes a vector and two make a
matrix.

Extents are compared from their ends.  Two tensors meet if along each axis they
agree or one of them has a single item, which is then repeated, as is a tensor
along the axes that it lacks.  A product takes rows times columns along the last
axes and lets the axes before them meet.
-/
import Descent.Linear.Nested

namespace Descent
set_option autoImplicit false

/-- A value for each place within the extents. -/
@[reducible] def Tensor (α : Type) : List Nat → Type
  | [] => α
  | n :: rest => Vector (Tensor α rest) n

namespace Tensor

section
variable {α β γ : Type}

/-- Every entry by itself. -/
def map (f : α → β) : (e : List Nat) → Tensor α e → Tensor β e
  | [], a => f a
  | _ :: rest, items => Vector.map (map f rest) items

/-- The entries at the same places combined. -/
def zipWith (f : α → β → γ) : (e : List Nat) → Tensor α e → Tensor β e → Tensor γ e
  | [], a, b => f a b
  | _ :: rest, xs, ys => Vector.zipWith (zipWith f rest) xs ys

/-- The entries from the first place to the last. -/
def entries : (e : List Nat) → Tensor α e → List α
  | [], a => [a]
  | _ :: rest, items => (Vector.toList items).flatMap (entries rest)

/-- The lists that the tensor is written with. -/
def toNested : (e : List Nat) → Tensor α e → Nested α
  | [], a => .entry a
  | _ :: rest, items => .list ((Vector.toList items).map (toNested rest))

/-- Lists as a tensor, if they have these extents. -/
def ofNested? : (e : List Nat) → Nested α → Option (Tensor α e)
  | [], .entry a => some a
  | n :: rest, .list items => do
    let tensors ← items.mapM (ofNested? rest)
    if h : tensors.length = n then some ⟨tensors.toArray, h⟩ else none
  | _, _ => none

/-- The outermost axis as the innermost one. -/
def inward {n : Nat} : (e : List Nat) → Vector (Tensor α e) n → Tensor α (e ++ [n])
  | [], items => items
  | _ :: rest, items => Vector.ofFn fun i => inward rest (items.map (Vector.get · i))

/-- The extents of a transposed tensor. -/
def reversed : List Nat → List Nat
  | [] => []
  | n :: rest => reversed rest ++ [n]

/-- The tensor with its axes in reverse order. -/
def transpose : (e : List Nat) → Tensor α e → Tensor α (reversed e)
  | [], a => a
  | _ :: rest, items => inward (reversed rest) (Vector.map (transpose rest) items)

/-- How a tensor of extents `e` is repeated over extents `d`. -/
def spread? : (e d : List Nat) → Option (Tensor α e → Tensor α d)
  | [], [] => some id
  | [], n :: d => (spread? [] d).map fun f a => Vector.replicate n (f a)
  | _ :: _, [] => none
  | m :: e, n :: d =>
    if e.length < d.length then (spread? (m :: e) d).map fun f a => Vector.replicate n (f a)
    else do
      let f ← spread? e d
      if h : m = n then some fun items => (Vector.map f items).cast h
      else if h : m = 1 then some fun items => Vector.replicate n (f (Vector.get items ⟨0, by omega⟩))
      else none

theorem spread?_self (e : List Nat) : spread? (α := α) e e = some id := by
  induction e with
  | nil => rfl
  | cons n rest ih =>
    simp only [spread?, Nat.lt_irrefl, ↓reduceIte, ih, Option.bind_eq_bind, Option.bind_some,
      ↓reduceDIte]
    congr 1
    funext items
    simp

end

section
variable {α : Type} [Scalar α]

/-- Product of two matrices. -/
def mulMat {m k n : Nat} (A : Mat m k α) (B : Mat k n α) : Mat m n α :=
  let columns := B.transpose
  Mat.ofFn fun i j => dot (A.get i) (columns.get j)

/-- The extents of a product, and how it is formed. A vector counts as a row on the left and as a
column on the right; single entries have no products. -/
def product? : (e d : List Nat) →
    Option ((u : List Nat) × (Tensor α e → Tensor α d → Tensor α u))
  | [], _ => none
  | _, [] => none
  | [k], [l] =>
    if h : l = k then some ⟨[], fun x y => dot (α := α) x (Vector.cast h y)⟩ else none
  | [_, k], [l] =>
    if h : l = k then some ⟨[_], fun A y => Mat.mulVec A (Vector.cast h y)⟩ else none
  | [k], [l, _] =>
    if h : k = l then some ⟨[_], fun x B => Mat.mulVec (Mat.transpose B) (Vector.cast h x)⟩
    else none
  | [_, k], [l, _] =>
    if h : l = k then some ⟨[_, _], fun A B => mulMat A (Vector.cast h B)⟩ else none
  | a :: e, b :: d =>
    if d.length < e.length then do
      let ⟨u, f⟩ ← product? e (b :: d)
      some ⟨a :: u, fun A B => Vector.map (f · B) A⟩
    else if e.length < d.length then do
      let ⟨u, f⟩ ← product? (a :: e) d
      some ⟨b :: u, fun A B => Vector.map (f A) B⟩
    else do
      let ⟨u, f⟩ ← product? e d
      if h : b = a then some ⟨a :: u, fun A B => Vector.zipWith f A (Vector.cast h B)⟩
      else if h : b = 1 then
        some ⟨a :: u, fun A B => Vector.map (f · (Vector.get B ⟨0, by omega⟩)) A⟩
      else if h : a = 1 then
        some ⟨b :: u, fun A B => Vector.map (f (Vector.get A ⟨0, by omega⟩)) B⟩
      else none
termination_by e d => e.length + d.length

end

end Tensor

/-- The common extents of two tensors that meet, from the last axis to the first. -/
def meetFromEnd? : List Nat → List Nat → Option (List Nat)
  | [], d => some d
  | e, [] => some e
  | m :: e, n :: d => do
    let rest ← meetFromEnd? e d
    if m = n ∨ n = 1 then some (m :: rest) else if m = 1 then some (n :: rest) else none

/-- The common extents of two tensors that meet. -/
def meet? (e d : List Nat) : Option (List Nat) :=
  (meetFromEnd? e.reverse d.reverse).map List.reverse

end Descent
