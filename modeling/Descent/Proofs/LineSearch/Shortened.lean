/-
# Descent.Proofs.LineSearch.Shortened — which direction is taken, and after how many trials

A direction is shortened until it leads to a point with defined values.  The trial points are
the start plus the direction, plus the direction times the factor, and so on, each evaluated
once and in this order.  The search stops at the first point that is not undefined, so a
direction that is taken after `k` reductions has cost `k + 1` evaluations; and it gives up
only after the evaluation that the last reduction was made for (`FirstTrial`).

This is so whatever the arithmetic is and whatever is evaluated.  Nothing else changes but
what is told of the reductions: the direction of the caller is not touched.
-/
import Descent.LineSearch.Track
import Descent.Proofs.Effects
import Mathlib.Logic.Function.Iterate

namespace Descent
set_option autoImplicit false

/-! ## Sessions after some trials -/

section
variable {α δ D P : Type}

/-- A function that lists the points at which it is asked. -/
def listing {β : Type} (V : P → Except (Fault α) β) (z : P) : Act δ (List P) α β := do
  modify fun s => { s with env := s.env ++ [z] }
  ofExcept (V z)

/-- What is told of some reductions. -/
def remarks (factor : α) (verbosity : Int) (k : ℕ) : Array (Log.Record α) :=
  if 2 ≤ verbosity then
    Array.replicate k ⟨Log.warning, .trials,
      [.words "NaN detected at trial point. Reducing length of direction vector by ",
        .general 6 factor, .words "."]⟩
  else #[]

/-- A session after the first of a series of trials, with what is told of reductions. -/
def Session.tried (s : Session δ (List P) α) (points : ℕ → P) (trials : ℕ)
    (told : Array (Log.Record α)) : Session δ (List P) α :=
  { s with env := s.env ++ (List.range trials).map points, log := s.log ++ told }

theorem remarks_zero (factor : α) (verbosity : Int) : remarks factor verbosity 0 = #[] := by
  unfold remarks
  split <;> rfl

theorem remarks_succ (factor : α) (verbosity : Int) (k : ℕ) :
    remarks factor verbosity 1 ++ remarks factor verbosity k = remarks factor verbosity (k + 1) := by
  unfold remarks
  split
  · rw [Array.replicate_append_replicate, Nat.add_comm]
  · rfl

/-- A trial, a reduction and the trials of the shorter directions. -/
theorem Session.tried_tried (s : Session δ (List P) α) (points : ℕ → P) (trials : ℕ)
    (told told' : Array (Log.Record α)) :
    ((s.tried points 1 told).tried (fun i => points (i + 1)) trials told') =
      s.tried points (trials + 1) (told ++ told') := by
  simp [tried, List.range_succ_eq_map, Function.comp_def]

theorem outcome_shortening (factor : α) (verbosity : Int) (s : Session δ (List P) α) :
    (shortening factor verbosity : Act δ (List P) α Unit).outcome s =
      (.ok ⟨⟩, { s with log := s.log ++ remarks factor verbosity 1 }) := by
  unfold shortening remarks
  split
  · rfl
  · rw [Array.append_empty]
    rfl

/-! ## The loop -/

section
variable {leadsAstray : D → Act δ (List P) α Bool} {shorter : D → D} {d : D} {points : ℕ → P}
  {astray : ℕ → Except (Fault α) Bool} {factor : α} {verbosity : Int} {k trials : ℕ}
  {s : Session δ (List P) α}

/-- The loop as it tells of its reductions. -/
abbrev shortenTelling (leadsAstray : D → Act δ (List P) α Bool) (shorter : D → D) (factor : α)
    (verbosity : Int) : (trials : ℕ) → (d : D) → Act δ (List P) α (Option D) :=
  shortenWithin leadsAstray shorter (shortening factor verbosity)

/-- After a trial that leads astray come those of the shorter direction, if there are any left. -/
theorem outcome_shortenWithin_succ
    (tries : (leadsAstray d).outcome s = (.ok true, { s with env := s.env ++ [points 0] })) :
    (shortenTelling leadsAstray shorter factor verbosity (trials + 1) d).outcome s =
      if trials = 0 then (.ok none, s.tried points 1 #[])
      else (shortenTelling leadsAstray shorter factor verbosity trials (shorter d)).outcome
        (s.tried points 1 (remarks factor verbosity 1)) := by
  rw [shortenTelling, shortenWithin, Edit.outcome_bind, tries, Edit.andThen_ok]
  simp only [Bool.not_true, Bool.false_eq_true, if_false]
  split
  · simp [Session.tried]
  · rw [Edit.outcome_bind, outcome_shortening, Edit.andThen_ok]
    rfl

/-- The first direction that does not lead astray is taken, unless its trial fails. -/
theorem outcome_shortenWithin_first
    (tries : ∀ i s, (leadsAstray (shorter^[i] d)).outcome s =
      (astray i, { s with env := s.env ++ [points i] }))
    (within : k < trials) (before : ∀ i < k, astray i = .ok true) (here : astray k ≠ .ok true) :
    (shortenTelling leadsAstray shorter factor verbosity trials d).outcome s =
      ((astray k).map fun _ => some (shorter^[k] d),
        s.tried points (k + 1) (remarks factor verbosity k)) := by
  induction k generalizing d points astray trials s with
  | zero =>
    obtain ⟨trials, rfl⟩ : ∃ n, trials = n + 1 := ⟨trials - 1, by omega⟩
    have first : (leadsAstray d).outcome s = (astray 0, _) := tries 0 s
    rw [shortenTelling, shortenWithin, Edit.outcome_bind, first, remarks_zero]
    rcases led : astray 0 with e | _ | _
    · simp [Session.tried, Except.map]
    · simp [Session.tried, Except.map]
    · exact absurd led here
  | succ k ih =>
    obtain ⟨trials, rfl⟩ : ∃ n, trials = n + 1 := ⟨trials - 1, by omega⟩
    have first : (leadsAstray d).outcome s = (astray 0, _) := tries 0 s
    rw [before 0 k.succ_pos] at first
    rw [outcome_shortenWithin_succ first, if_neg (by omega),
      ih (fun i => tries (i + 1)) (by omega) (fun i less => before (i + 1) (by omega)) here,
      Session.tried_tried, remarks_succ]
    rfl

/-- Where all directions lead astray, the last one is not shortened any more. -/
theorem outcome_shortenWithin_none
    (tries : ∀ i s, (leadsAstray (shorter^[i] d)).outcome s =
      (astray i, { s with env := s.env ++ [points i] }))
    (all : ∀ i < trials, astray i = .ok true) :
    (shortenTelling leadsAstray shorter factor verbosity trials d).outcome s =
      (.ok none, s.tried points trials (remarks factor verbosity (trials - 1))) := by
  induction trials generalizing d points astray s with
  | zero => simp [shortenTelling, shortenWithin, Session.tried, remarks_zero]
  | succ trials ih =>
    have first : (leadsAstray d).outcome s = (astray 0, _) := tries 0 s
    rw [all 0 trials.succ_pos] at first
    rw [outcome_shortenWithin_succ first]
    by_cases last : trials = 0
    · subst last
      rw [if_pos rfl, remarks_zero]
    · rw [if_neg last, ih (fun i => tries (i + 1)) (fun i less => all (i + 1) (by omega)),
        Session.tried_tried, remarks_succ]
      have count : trials - 1 + 1 = trials := by omega
      rw [count]
      rfl

end

/-! ## Trials of points -/

section
variable [Scalar α] {V : P → Except (Fault α) (Shaped α)} {points : ℕ → P} {directions : ℕ → D} {d : D}
  {factor : α} {reductions verbosity : Int}

/-- The search goes through the directions in order, with one evaluation for each, up to the first one
that leads to defined values.  It gives up when the last reduction has not led to any. -/
structure FirstTrial (V : P → Except (Fault α) (Shaped α)) (points : ℕ → P) (directions : ℕ → D)
    (factor : α) (reductions verbosity : Int) (search : Act δ (List P) α D) : Prop where
  found (k : ℕ) (y : Shaped α) : (k : Int) ≤ reductions →
    (∀ i < k, ∃ y, V (points i) = .ok y ∧ y.hasNaN = true) →
    V (points k) = .ok y → y.hasNaN = false →
    ∀ s, search.outcome s =
      (.ok (directions k), s.tried points (k + 1) (remarks factor verbosity k))
  failed (k : ℕ) (e : Fault α) : (k : Int) ≤ reductions →
    (∀ i < k, ∃ y, V (points i) = .ok y ∧ y.hasNaN = true) →
    V (points k) = .error e →
    ∀ s, search.outcome s = (.error e, s.tried points (k + 1) (remarks factor verbosity k))
  exhausted : (∀ k : ℕ, (k : Int) ≤ reductions → ∃ y, V (points k) = .ok y ∧ y.hasNaN = true) →
    ∀ s, search.outcome s = (.error (.undefinedTrials reductions),
      s.tried points (reductions + 1).toNat (remarks factor verbosity reductions.toNat))

theorem firstTrial_of_tries {leadsAstray : D → Act δ (List P) α Bool} {shorter : D → D}
    (tries : ∀ i s, (leadsAstray (shorter^[i] d)).outcome s =
      ((V (points i)).map Shaped.hasNaN, { s with env := s.env ++ [points i] })) :
    FirstTrial V points (shorter^[·] d) factor reductions verbosity
      (shorten leadsAstray shorter d factor reductions verbosity) := by
  have astray {i : ℕ} (undef : ∃ y, V (points i) = .ok y ∧ y.hasNaN = true) :
      (V (points i)).map Shaped.hasNaN = .ok true := by
    obtain ⟨y, there, undef⟩ := undef
    rw [there, Except.map, undef]
  constructor
  · intro k y within before there defined s
    have here : (V (points k)).map Shaped.hasNaN = .ok false := by rw [there, Except.map, defined]
    rw [shorten, Edit.outcome_bind, outcome_shortenWithin_first tries (by omega)
      (fun i less => astray (before i less)) (by rw [here]; simp), here]
    rfl
  · intro k e within before fails s
    have here : (V (points k)).map Shaped.hasNaN = .error e := by rw [fails, Except.map]
    rw [shorten, Edit.outcome_bind, outcome_shortenWithin_first tries (by omega)
      (fun i less => astray (before i less)) (by rw [here]; exact nofun), here]
    rfl
  · intro all s
    have count : (reductions + 1).toNat - 1 = reductions.toNat := by omega
    rw [shorten, Edit.outcome_bind,
      outcome_shortenWithin_none tries fun i less => astray (all i (by omega)), count]
    rfl

/-- The trial of a point that is there lists it. -/
theorem outcome_trial {sum : Option P} {z : P} (there : sum = some z) (s : Session δ (List P) α) :
    Edit.outcome (do return (← listing V (← fit sum)).hasNaN) s =
      ((V z).map Shaped.hasNaN, { s with env := s.env ++ [z] }) := by
  subst there
  rw [fit, pure_bind, Edit.outcome_bind, listing, Edit.outcome_bind, Edit.outcome_modify,
    Edit.andThen_ok, Edit.outcome_ofExcept]
  cases V z <;> rfl

end

end

/-! ## Vectors and arrays -/

section
variable {α δ : Type}

theorem exists_points {P : Type} {sum : ℕ → Option P} (fits : ∀ k, (sum k).isSome = true) :
    ∃ points : ℕ → P, ∀ k, sum k = some (points k) :=
  ⟨fun k => (sum k).get (fits k), fun k => (Option.some_get (fits k)).symm⟩

/-- Whether vectors fit together depends on their sizes only. -/
theorem Vec.isSome_combine?_congr {f : α → α → α} {x y y' : Vec α} (size : y.size = y'.size) :
    (combine? f x y).isSome = (combine? f x y').isSome := by
  have fits (y : Vec α) : (combine? f x y).isSome =
      (decide (x.size = y.size) || decide (x.size = 1) || decide (y.size = 1)) := by
    unfold combine?
    split
    · simp [*]
    · split
      · simp [*]
      · split <;> simp [*]
  rw [fits, fits, size]

/-- Whether arrays meet depends on their extents only. -/
theorem Shaped.isSome_combine?_congr {f : α → α → α} {A B B' : Shaped α}
    (extents : B.extents = B'.extents) :
    (A.combine? f B).isSome = (A.combine? f B').isSome := by
  obtain ⟨e, B⟩ := B
  obtain ⟨e', B'⟩ := B'
  obtain rfl : e = e' := extents
  simp only [combine?, Option.bind_eq_bind]
  cases meet? A.extents e with
  | none => rfl
  | some m =>
    simp only [Option.bind_some]
    cases (Tensor.spread? A.extents m : Option (Tensor α A.extents → Tensor α m)) with
    | none => rfl
    | some left =>
      simp only [Option.bind_some]
      cases (Tensor.spread? e m : Option (Tensor α e → Tensor α m)) <;> rfl

variable [Scalar α]

section
variable {x d : Vec α}

/-- The trials of a direction that fits the start. -/
theorem firstTrial_vec (fits : (Vec.add? x d).isSome = true) (V : Vec α → Except (Fault α) (Shaped α))
    (factor : α) (reductions verbosity : Int) :
    ∃ points : ℕ → Vec α, (∀ k, Vec.add? x ((·.scaled factor)^[k] d) = some (points k)) ∧
      FirstTrial V points ((·.scaled factor)^[·] d) factor reductions verbosity
        (shortenUndefined (m := Act δ (List (Vec α)) α) (listing V) x d factor reductions
          verbosity) := by
  have size (k : ℕ) : ((·.scaled factor)^[k] d).size = d.size := by
    induction k with
    | zero => rfl
    | succ k ih =>
      rw [Function.iterate_succ_apply']
      exact (Array.size_map ..).trans ih
  obtain ⟨points, there⟩ := exists_points fun k =>
    (Vec.isSome_combine?_congr (f := (· + ·)) (x := x) (size k)).trans fits
  exact ⟨points, there, firstTrial_of_tries fun i => outcome_trial (there i)⟩

end

variable {x d : Shaped α}

/-- The same for arrays of any extents. -/
theorem firstTrial_shaped (fits : (x.add? d).isSome = true)
    (V : Shaped α → Except (Fault α) (Shaped α)) (factor : α) (reductions verbosity : Int) :
    ∃ points : ℕ → Shaped α, (∀ k, x.add? ((·.map (· * factor))^[k] d) = some (points k)) ∧
      FirstTrial V points ((·.map (· * factor))^[·] d) factor reductions verbosity
        (shortenUndefinedShaped (m := Act δ (List (Shaped α)) α) (listing V) x d factor reductions
          verbosity) := by
  have extents (k : ℕ) : ((·.map (· * factor))^[k] d).extents = d.extents := by
    induction k with
    | zero => rfl
    | succ k ih =>
      rw [Function.iterate_succ_apply']
      exact ih
  obtain ⟨points, there⟩ := exists_points fun k =>
    (Shaped.isSome_combine?_congr (f := (· + ·)) (A := x) (extents k)).trans fits
  exact ⟨points, there, firstTrial_of_tries fun i => outcome_trial (there i)⟩

end

end Descent
