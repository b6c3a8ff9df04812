/-
# Descent.Proofs.Correspondence.Algorithms — the algorithms keep every correspondence

One theorem for each algorithm that is written for any monad: bracketing, bisection,
the policies of a line search, the shortening of directions and central differences.
The faults that an algorithm raises itself have to be admitted; a loop may rely on an
invariant of what it carries along to show that it raises none.
-/
import Descent.Differences
import Descent.LineSearch.Policy
import Descent.LineSearch.Track
import Descent.Proofs.Correspondence
import Descent.Proofs.Faults

namespace Descent.Correspondence
set_option autoImplicit false

variable {α : Type} [Scalar α] {m n : Type → Type} [Monad m] [MonadExcept (Fault α) m] [Monad n]
  [MonadExcept (Fault α) n] (C : Correspondence α m n)

/-! ## Bracketing -/

section
variable {f : α → m α} {g : α → n α} (same : ∀ x, C.Rel (f x) (g x))
include same

theorem descend (growth : α) (moves : Nat) (a b fb step : α) :
    C.Rel (Descent.descend f growth moves a b fb step)
      (Descent.descend g growth moves a b fb step) := by
  induction moves generalizing a b fb step with
  | zero => exact C.pure _
  | succ moves ih => exact C.bind (same _) fun fc => C.ite (C.pure _) (ih ..)

theorem bracketMinimum {x : α} {march : March α} (checked : Fault.Only C.Admits march.check)
    (lost : C.Admits (.noMinimum x)) :
    C.Rel (Descent.bracketMinimum f x march) (Descent.bracketMinimum g x march) := by
  refine C.bind (C.ofExcept checked) fun _ => C.bind (same _) fun fx => C.bind (same _) fun fy => ?_
  refine C.ite (C.bind (C.descend same ..) fun found => ?_)
    (C.bind (C.descend same ..) fun found => ?_)
  all_goals
    cases found with
    | some interval => exact C.pure _
    | none => exact C.throw lost

theorem widen (x growth : α) (moves : Nat) (last width : α) :
    C.Rel (Descent.widen f x growth moves last width)
      (Descent.widen g x growth moves last width) := by
  induction moves generalizing last width with
  | zero => exact C.pure _
  | succ moves ih => exact C.bind (same _) fun fc => C.ite (C.pure _) (ih ..)

theorem bracketMinimumFrom {x : α} {march : March α} (checked : Fault.Only C.Admits march.check)
    (lost : C.Admits (.noMinimumToTheRight x)) :
    C.Rel (Descent.bracketMinimumFrom f x march) (Descent.bracketMinimumFrom g x march) := by
  refine C.bind (C.ofExcept checked) fun _ => C.bind (same _) fun fx =>
    C.bind (C.widen same ..) fun found => ?_
  cases found with
  | some c => exact C.pure _
  | none => exact C.throw lost

theorem firstDescent {x fx : α} (lost : ∀ y fy, C.Admits (.notDecreasing x y fy fx))
    (halvings : Nat) (δ : α) :
    C.Rel (Descent.firstDescent f x fx halvings δ) (Descent.firstDescent g x fx halvings δ) := by
  induction halvings generalizing δ with
  | zero =>
    rw [Descent.firstDescent, Descent.firstDescent]
    exact C.bind (same _) fun fy => C.ite (C.pure _) (C.throw (lost ..))
  | succ halvings ih =>
    rw [Descent.firstDescent, Descent.firstDescent]
    exact C.bind (same _) fun fy => C.ite (C.pure _) (ih _)

theorem ascend (moves : Nat) (a b fb increment : α) :
    C.Rel (Descent.ascend f moves a b fb increment) (Descent.ascend g moves a b fb increment) := by
  induction moves generalizing a b fb increment with
  | zero => exact C.pure _
  | succ moves ih => exact C.bind (same _) fun fc => C.ite (C.pure _) (ih ..)

theorem bracketTriple (x δ : α) (moves : Nat) (refused : δ ≤ 0 → C.Admits (.invalid .increment))
    (rising : ∀ y fy fx, C.Admits (.notDecreasing x y fy fx)) (lost : C.Admits (.noTriple x)) :
    C.Rel (Descent.bracketTriple f x δ moves) (Descent.bracketTriple g x δ moves) := by
  simp only [Descent.bracketTriple]
  refine C.guard refused fun _ => ?_
  refine C.bind (same _) fun fx =>
    C.bind (C.firstDescent same (fun _ _ => rising ..) ..) fun first => ?_
  obtain ⟨b, fb, increment⟩ := first
  refine C.bind (C.ascend same ..) fun found => ?_
  cases found with
  | some triple => exact C.pure _
  | none => exact C.throw lost

theorem halve (xTol fTol : α) (halvings : Nat) (low fLow high mid : α) :
    C.Rel (Descent.halve f xTol fTol halvings low fLow high mid)
      (Descent.halve g xTol fTol halvings low fLow high mid) := by
  induction halvings generalizing low fLow high mid with
  | zero => exact C.pure _
  | succ halvings ih =>
    exact C.bind (same _) fun fMid => C.ite (C.pure _) (C.ite (C.pure _) (ih ..))

theorem bisect {a b xTol fTol : α} {halvings : Nat}
    (lost : ∀ low high, C.Admits (.noSignChange low high)) :
    C.Rel (Descent.bisect f a b xTol fTol halvings) (Descent.bisect g a b xTol fTol halvings) :=
  C.bind (same _) fun _ => C.bind (same _) fun _ =>
    C.ite (C.pure _) (C.ite (C.pure _) (C.ite (C.throw (lost ..)) (C.halve same ..)))

/-! ## Three points -/

omit [Scalar α] in
theorem valuesOf (t : Triple α) : C.Rel (Triple.valuesOf f t) (Triple.valuesOf g t) :=
  C.bind (same _) fun _ => C.bind (same _) fun _ => C.bind (same _) fun _ => C.pure _

theorem step {t values : Triple α} {eps : α}
    (vertex : Fault.Only C.Admits (Triple.vertex t values eps)) :
    C.Rel (Triple.step f t values eps) (Triple.step g t values eps) :=
  C.bind (C.ofExcept vertex) fun _ => C.bind (same _) fun _ => C.pure _

theorem iterate {eps : α} (vertex : ∀ t values, Fault.Only C.Admits (Triple.vertex t values eps))
    (steps : Nat) (t values : Triple α) :
    C.Rel (Triple.iterate f eps steps t values) (Triple.iterate g eps steps t values) := by
  induction steps generalizing t values with
  | zero => exact C.pure _
  | succ steps ih =>
    refine C.bind (C.step same (vertex _ _)) fun next => ?_
    exact C.ite (C.pure _) (ih ..)

theorem searchTriple {eps : α}
    (vertex : ∀ t values, Fault.Only C.Admits (Triple.vertex t values eps)) (t : Triple α)
    (steps : Nat) :
    C.Rel (Triple.search f t eps steps) (Triple.search g t eps steps) :=
  C.bind (C.valuesOf same _) fun _ => C.bind (C.iterate same vertex ..) fun _ => C.pure _

end

/-! ## Line searches -/

/-- Rays with corresponding values and slopes. -/
structure Rays (ray : Ray m α) (ray' : Ray n α) : Prop where
  value : ∀ t, C.Rel (ray.value t) (ray'.value t)
  slope : ∀ t, C.Rel (ray.slope t) (ray'.slope t)

section
variable {C} [Reports α m] [Reports α n] {ray : Ray m α} {ray' : Ray n α}
  (same : C.Rays ray ray')
include same

omit [Reports α m] [Reports α n] in
theorem Rays.accepts (c : LineSearch α) (f₀ d₀ alpha : α) :
    C.Rel (LineSearch.accepts ray c f₀ d₀ alpha) (LineSearch.accepts ray' c f₀ d₀ alpha) :=
  C.bind (same.value _) fun _ =>
    C.ite (C.ite (C.bind (same.slope _) fun _ => C.pure _) (C.pure _)) (C.pure _)

variable (told : ∀ r, C.Rel (Reports.report r : m Unit) (Reports.report r : n Unit))
include told

theorem Rays.shorten (c : LineSearch α) (f₀ d₀ : α) (trials : Nat) (alpha last : α) :
    C.Rel (LineSearch.shorten ray c f₀ d₀ trials alpha last)
      (LineSearch.shorten ray' c f₀ d₀ trials alpha last) := by
  induction trials generalizing alpha last with
  | zero => exact C.bind (told _) fun _ => C.pure _
  | succ trials ih => exact C.bind (same.accepts ..) fun _ => C.ite (C.pure _) (ih ..)

theorem Rays.backtrack (alpha₀ : α) (c : LineSearch α) :
    C.Rel (LineSearch.backtrack ray alpha₀ c) (LineSearch.backtrack ray' alpha₀ c) :=
  C.bind (same.value _) fun _ => C.bind (same.slope _) fun _ =>
    C.ite (C.pure _) (same.shorten told ..)

theorem Rays.onBracket {β : Type} {bracket : m β} {bracket' : n β} {search : β → m α}
    {search' : β → n α} (brackets : C.Rel bracket bracket')
    (searches : ∀ b, C.Rel (search b) (search' b)) (alpha₀ : α) (c : LineSearch α) :
    C.Rel (LineSearch.onBracket bracket ray alpha₀ c search)
      (LineSearch.onBracket bracket' ray' alpha₀ c search') :=
  C.attempt brackets searches fun _ admitted =>
    C.ite (C.bind (told _) fun _ => same.backtrack told ..) (C.throw admitted)

/-- Interpolation, with an invariant of the bracket. -/
theorem Rays.interpolate [LawfulMonad m] [LawfulMonad n] {c : LineSearch α}
    (I : LineSearch.Bracket α → Prop)
    (trial : ∀ b, I b → Fault.Only C.Admits (b.trial c.sigma0 c.sigma1))
    (keeps : ∀ b alpha, I b → b.trial c.sigma0 c.sigma1 = .ok alpha →
      ∀ fAlpha dAlpha, I ((b.record alpha fAlpha).shrink alpha fAlpha dAlpha))
    (trials : Nat) {b : LineSearch.Bracket α} (holds : I b) :
    C.Rel (LineSearch.interpolate ray c trials b) (LineSearch.interpolate ray' c trials b) := by
  induction trials generalizing b with
  | zero => exact C.bind (told _) fun _ => C.pure _
  | succ trials ih =>
    rw [LineSearch.interpolate, LineSearch.interpolate]
    exact C.result (trial b holds) fun alpha found => C.bind (same.value _) fun fAlpha =>
      C.bind (same.slope _) fun dAlpha => C.ite (C.pure _) (ih (keeps b alpha holds found ..))

variable [LawfulMonad m] [LawfulMonad n] (ordinary : ∀ e : Fault α, e.Ordinary → C.Admits e)
include ordinary

theorem Rays.search (c : LineSearch α) (alpha₀ : α) :
    C.Rel (c.search ray alpha₀) (c.search ray' alpha₀) := by
  have checked (march : March α) : Fault.Only C.Admits march.check :=
    (ordinary_march march).mono ordinary
  have vertex (t values : Triple α) (eps : α) : Fault.Only C.Admits (t.vertex values eps) :=
    (ordinary_vertex t values eps).mono ordinary
  unfold LineSearch.search
  cases c.kind with
  | static => exact C.pure _
  | backtracking => exact same.backtrack told ..
  | bisection =>
    have marches := C.bracketMinimum same.value (checked (.doubling c.s))
      (ordinary (.noMinimum 0) trivial)
    exact C.bind (same.slope _) fun _ => C.ite (C.pure _) (C.bind (same.slope _) fun _ =>
      C.ite (C.pure _) (same.onBracket told marches
        (fun _ => C.bisect same.slope fun _ _ => ordinary _ trivial) ..))
  | quadratic =>
    have marches := C.bracketMinimumFrom same.value (checked (.doubling c.s))
      (ordinary (.noMinimumToTheRight 0) trivial)
    exact C.bind (same.value _) fun _ => C.bind (same.slope _) fun _ =>
      C.ite (C.pure _) (C.bind (same.slope _) fun _ => C.ite (C.pure _)
        (same.onBracket told marches (fun _ => C.bind (same.value _) fun _ =>
          same.interpolate told (fun _ => True) (fun b _ => (ordinary_trial b _ _).mono ordinary)
            (fun _ _ _ _ _ _ => trivial) _ trivial) ..))
  | threePoint =>
    have marches := C.bracketTriple same.value 0 c.s 100
      (fun _ => ordinary _ trivial) (fun _ _ _ => ordinary _ trivial) (ordinary _ trivial)
    exact C.bind (same.slope _) fun _ => C.ite (C.pure _) (C.bind (same.slope _) fun _ =>
      C.ite (C.pure _) (same.onBracket told marches
        (fun _ => C.searchTriple same.value (fun t values => vertex t values _) ..) ..))

end

/-! ## Shortened directions -/

section
variable {D : Type} {leadsAstray : D → m Bool} {leadsAstray' : D → n Bool}
  (same : ∀ d, C.Rel (leadsAstray d) (leadsAstray' d)) (shorter : D → D)
include same

omit [Scalar α] in
theorem shortenWithin {remark : m Unit} {remark' : n Unit} (told : C.Rel remark remark')
    (trials : Nat) (direction : D) :
    C.Rel (Descent.shortenWithin leadsAstray shorter remark trials direction)
      (Descent.shortenWithin leadsAstray' shorter remark' trials direction) := by
  induction trials generalizing direction with
  | zero => exact C.pure _
  | succ trials ih =>
    exact C.bind (same _) fun _ => C.ite (C.pure _)
      (C.ite (C.pure _) (C.bind told fun _ => ih _))

variable [Reports α m] [Reports α n]
  (told : ∀ r, C.Rel (Reports.report r : m Unit) (Reports.report r : n Unit))
include told

omit [Scalar α] in
theorem shorten {reductions : Int} (lost : C.Admits (.undefinedTrials reductions)) (direction : D)
    (factor : α) (verbosity : Int) :
    C.Rel (Descent.shorten leadsAstray shorter direction factor reductions verbosity)
      (Descent.shorten leadsAstray' shorter direction factor reductions verbosity) := by
  have remarks : C.Rel (shortening factor verbosity : m Unit) (shortening factor verbosity) :=
    C.ite (told _) (C.pure _)
  refine C.bind (C.shortenWithin same shorter remarks ..) fun found => ?_
  cases found with
  | none => exact C.throw lost
  | some d => exact C.pure _

end

theorem shortenUndefined [Reports α m] [Reports α n] {f : Vec α → m (Shaped α)}
    {g : Vec α → n (Shaped α)} (same : ∀ x, C.Rel (f x) (g x))
    (told : ∀ r, C.Rel (Reports.report r : m Unit) (Reports.report r : n Unit))
    (ordinary : ∀ e : Fault α, e.Ordinary → C.Admits e) (x direction : Vec α) (factor : α)
    (reductions verbosity : Int) :
    C.Rel (Descent.shortenUndefined f x direction factor reductions verbosity)
      (Descent.shortenUndefined g x direction factor reductions verbosity) :=
  C.shorten
    (fun _ => C.bind (C.fit (ordinary _ trivial)) fun _ => C.bind (same _) fun _ => C.pure _) _ told
    (ordinary _ trivial) _ _ _

/-! ## Central differences -/

section
variable [LawfulMonad m] [LawfulMonad n] (ordinary : ∀ e : Fault α, e.Ordinary → C.Admits e)
include ordinary

theorem gradient {f : Vec α → m α} {g : Vec α → n α} (same : ∀ x, C.Rel (f x) (g x)) (x : Vec α)
    (eps : α) : C.Rel (Differences.gradient f x eps) (Differences.gradient g x eps) :=
  C.bind (C.ofExcept ((ordinary_spacing eps).mono ordinary)) fun _ =>
    C.bind (C.ofFnM fun _ => C.bind (same _) fun _ => C.bind (same _) fun _ => C.pure _) fun _ =>
      C.pure _

theorem jacobian {f : Vec α → m (Shaped α)} {g : Vec α → n (Shaped α)}
    (same : ∀ x, C.Rel (f x) (g x)) (x : Vec α) (eps : α) :
    C.Rel (Differences.jacobian f x eps) (Differences.jacobian g x eps) := by
  have fits {β : Type} (b : Option β) : C.Rel (Descent.fit b : m β) (Descent.fit b) :=
    C.fit (ordinary _ trivial)
  exact C.bind (C.ofExcept ((ordinary_spacing eps).mono ordinary)) fun _ =>
    C.bind (C.ofFnM fun _ => C.bind (same _) fun _ => C.bind (same _) fun _ =>
      C.bind (fits _) fun _ => C.pure _) fun _ => C.bind (fits _) fun _ => C.pure _

theorem hessian {f : Vec α → m α} {g : Vec α → n α} (same : ∀ x, C.Rel (f x) (g x)) (x : Vec α)
    (eps : α) : C.Rel (Differences.hessian f x eps) (Differences.hessian g x eps) := by
  have plain {β : Type} {r : Except (Fault α) β} (only : Fault.Only Fault.Ordinary r) :
      C.Rel (MonadExcept.ofExcept r : m β) (MonadExcept.ofExcept r) :=
    C.ofExcept (only.mono ordinary)
  have bend (fx : α) (e : Vec α) :
      C.Rel (Differences.bend f x eps fx e) (Differences.bend g x eps fx e) :=
    C.bind (same _) fun _ => C.bind (same _) fun _ => C.bind (plain (ordinary_square _)) fun _ =>
      plain (ordinary_quotient _ _)
  have twist (e e' : Vec α) :
      C.Rel (Differences.twist f x eps e e') (Differences.twist g x eps e e') :=
    C.bind (same _) fun _ => C.bind (same _) fun _ => C.bind (same _) fun _ =>
      C.bind (same _) fun _ => C.bind (plain (ordinary_square _)) fun _ =>
        plain (ordinary_quotient _ _)
  exact C.bind (plain (ordinary_spacing eps)) fun _ => C.bind (same _) fun _ =>
    C.bind (C.ofFnM fun _ => C.ofFnM fun _ =>
      C.ite (C.pure _) (C.ite (bend _ _) (twist _ _))) fun _ => C.pure _

end

end Descent.Correspondence
