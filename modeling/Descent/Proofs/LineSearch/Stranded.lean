/-
# Descent.Proofs.LineSearch.Stranded — when a line search returns

Along a ray that is known everywhere, and without rounding, backtracking and the
two interpolating policies return a step length whatever the ray, and so does the
marching stage of a bracketing policy hand over to backtracking when it finds no
interval (`search_returns_iff`).

Bisection of the slope has one more stage.  The march looks at values only, so the
ends of its interval need not have slopes of opposite signs; the policy is then
`Stranded` on an interval that bisection refuses, and the search fails.
-/
import Descent.Proofs.Bracketing.Known
import Descent.Proofs.LineSearch.Admitted
import Mathlib.Analysis.Calculus.Deriv.Add
import Mathlib.Analysis.Calculus.Deriv.Mul
import Mathlib.Analysis.Calculus.Deriv.Pow
import Mathlib.Topology.Algebra.Module.ModuleTopology

namespace Descent
set_option autoImplicit false

/-- A ray whose value and slope are known everywhere. -/
def Ray.known {α : Type} (f d : α → α) : Ray (Except (Fault α)) α :=
  ⟨Descent.known f, Descent.known d⟩

section
variable {α : Type}

theorem Ray.known_only (P : Fault α → Prop) (f d : α → α) :
    (Correspondence.plain P).Rays (.known f d) (.known f d) :=
  ⟨Descent.known_only P f, Descent.known_only P d⟩

theorem report_only (P : Fault α → Prop) (r : Log.Record α) :
    Fault.Only P (Reports.report r : Except (Fault α) Unit) := .ok _

end

variable {K : Type} [Field K] [LinearOrder K] {f d : K → K}

/-! ## The searches in an interval -/

theorem vertex_only (P : Fault K → Prop) (t values : Triple K) (eps : K) :
    Fault.Only P (Triple.vertex t values eps) := by
  have placed : Fault.Only P (Triple.stationary t values) := by
    unfold Triple.stationary
    simp only [square_exact, ok_bind]
    split <;> exact .ok _
  refine placed.bind fun x _ => ?_
  cases x <;> exact .ok _

section
variable [IsStrictOrderedRing K]

/-- The safeguards keep a trial point between two parts of an interval. -/
theorem trial_between {c : LineSearch K} (order : c.sigma0 < c.sigma1) {b : LineSearch.Bracket K}
    (wide : b.left < b.right) :
    ∃ alpha, b.trial c.sigma0 c.sigma1 = .ok alpha ∧
      b.left + c.sigma0 * (b.right - b.left) ≤ alpha ∧
      alpha ≤ b.left + c.sigma1 * (b.right - b.left) := by
  have width : 0 < b.right - b.left := sub_pos.2 wide
  have middle : c.sigma0 * (b.right - b.left) < c.sigma1 * (b.right - b.left) :=
    mul_lt_mul_of_pos_right order width
  simp only [LineSearch.Bracket.trial, square_exact, ok_bind, maxFirst_exact, minFirst_exact,
    quotient_of_ne_zero _ (pow_ne_zero 2 width.ne')]
  refine ⟨_, rfl, ?_, ?_⟩
  · gcongr
    exact le_min (le_max_right ..) middle.le
  · gcongr
    exact min_le_right ..

/-- The safeguards place a trial point strictly inside an interval. -/
theorem trial_inside {c : LineSearch K} (least : 0 < c.sigma0) (order : c.sigma0 < c.sigma1)
    (greatest : c.sigma1 < 1) {b : LineSearch.Bracket K} (wide : b.left < b.right) :
    ∃ alpha, b.trial c.sigma0 c.sigma1 = .ok alpha ∧ b.left < alpha ∧ alpha < b.right := by
  obtain ⟨alpha, placed, left, right⟩ := trial_between order wide
  have width : 0 < b.right - b.left := sub_pos.2 wide
  have low : 0 < c.sigma0 * (b.right - b.left) := mul_pos least width
  have high : c.sigma1 * (b.right - b.left) < b.right - b.left :=
    mul_lt_of_lt_one_left width greatest
  exact ⟨alpha, placed, by linarith, by linarith⟩

theorem interpolate_returns {c : LineSearch K} (least : 0 < c.sigma0) (order : c.sigma0 < c.sigma1)
    (greatest : c.sigma1 < 1) (f d : K → K) (trials : ℕ) {b : LineSearch.Bracket K}
    (wide : b.left < b.right) :
    ∃ t, LineSearch.interpolate (.known f d) c trials b = .ok t := by
  have trial (b : LineSearch.Bracket K) (wide : b.left < b.right) :=
    trial_inside least order greatest wide
  refine Fault.Only.returns ((Ray.known_only _ f d).interpolate (report_only _)
    (fun b => b.left < b.right) ?_ ?_ trials wide)
  · intro b wide
    obtain ⟨alpha, found, -⟩ := trial b wide
    rw [found]
    exact .ok _
  · intro b alpha wide found fAlpha dAlpha
    obtain ⟨_, found', left, right⟩ := trial b wide
    obtain rfl := Except.ok.inj (found.symm.trans found')
    unfold LineSearch.Bracket.shrink LineSearch.Bracket.record
    grind

end

/-! ## The policies -/

namespace LineSearch

theorem backtrack_returns (f d : K → K) (alpha₀ : K) (c : LineSearch K) :
    ∃ t, backtrack (.known f d) alpha₀ c = .ok t :=
  ((Ray.known_only _ f d).backtrack (report_only _) alpha₀ c).returns

/-- Neither the slope at the start nor the one at the first step length is flat, so that a bracketing
policy looks for an interval. -/
def Steep (c : LineSearch K) (d : K → K) (alpha₀ : K) : Prop := c.tol ≤ |d 0| ∧ c.tol ≤ |d alpha₀|

/-- The marching stage of the policy finds no interval along the ray. -/
def FindsNone (c : LineSearch K) (f : K → K) : Prop :=
  match c.kind with
  | .bisection => ∃ e, bracketMinimum (known f) 0 (.doubling c.s) = .error e
  | .quadratic => ∃ e, bracketMinimumFrom (known f) 0 (.doubling c.s) = .error e
  | .threePoint => ∃ e, bracketTriple (known f) 0 c.s 100 = .error e
  | .static | .backtracking => False

/-- Bisection of the slope is given an interval at whose ends the slope has one sign. -/
structure Stranded (c : LineSearch K) (f d : K → K) (alpha₀ a b : K) : Prop where
  kind : c.kind = .bisection
  steep : c.Steep d alpha₀
  interval : bracketMinimum (known f) 0 (.doubling c.s) = .ok (a, b)
  same_sign : 0 < d a * d b

section
variable {β : Type} {bracket : Except (Fault K) β} (ray : Ray (Except (Fault K)) K) (alpha₀ : K)
  (c : LineSearch K) (search : β → Except (Fault K) K)

theorem onBracket_ok {interval : β} (found : bracket = .ok interval) :
    onBracket bracket ray alpha₀ c search = search interval := by
  rw [found]
  rfl

theorem onBracket_error {e : Fault K} (marching : Fault.Only (·.isBracketing) bracket)
    (lost : bracket = .error e) :
    onBracket bracket ray alpha₀ c search = backtrack ray alpha₀ c := by
  have caught : e.isBracketing = true := marching e lost
  rw [onBracket, lost, attempt_plain, ok_bind]
  simp only [caught]
  rfl

/-- The search in an interval, or backtracking, returns. -/
theorem onBracket_returns (f d : K → K) (marching : Fault.Only (·.isBracketing) bracket)
    (searches : ∀ interval, bracket = .ok interval → ∃ t, search interval = .ok t) :
    ∃ t, onBracket bracket (.known f d) alpha₀ c search = .ok t := by
  cases found : bracket with
  | ok interval =>
    rw [onBracket_ok _ _ _ _ rfl]
    exact searches interval found
  | error e =>
    rw [onBracket_error _ _ _ _ (found ▸ marching) rfl]
    exact backtrack_returns f d alpha₀ c

end

instance (c : LineSearch K) (d : K → K) (alpha₀ : K) : Decidable (c.Steep d alpha₀) :=
  inferInstanceAs (Decidable (_ ∧ _))

theorem flat_or_steep (c : LineSearch K) (d : K → K) (alpha₀ : K) (rest : Except (Fault K) K) :
    (if isFlat (d 0) c.tol then .ok alpha₀
      else if isFlat (d alpha₀) c.tol then .ok alpha₀ else rest) =
      if c.Steep d alpha₀ then rest else .ok alpha₀ := by
  simp only [isFlat, scalar_abs, decide_eq_true_eq, Steep]
  grind

theorem bisectSlope_known (f d : K → K) (alpha₀ : K) (c : LineSearch K) :
    bisectSlope (.known f d) alpha₀ c =
      if c.Steep d alpha₀ then
        onBracket (bracketMinimum (known f) 0 (.doubling c.s)) (.known f d) alpha₀ c fun (a, b) =>
          bisect (known d) a b c.tol c.tol c.maxIterations.toNat
      else .ok alpha₀ := flat_or_steep c d alpha₀ _

theorem interpolateSlope_known (f d : K → K) (alpha₀ : K) (c : LineSearch K) :
    interpolateSlope (.known f d) alpha₀ c =
      if c.Steep d alpha₀ then
        onBracket (bracketMinimumFrom (known f) 0 (.doubling c.s)) (.known f d) alpha₀ c
          fun (left, right) =>
            interpolate (.known f d) c c.maxIterations.toNat
              { left, fLeft := f 0, dLeft := d 0, right, fRight := f right, best := right,
                fBest := f right }
      else .ok alpha₀ := flat_or_steep c d alpha₀ _

theorem interpolateTriple_known (f d : K → K) (alpha₀ : K) (c : LineSearch K) :
    interpolateTriple (.known f d) alpha₀ c =
      if c.Steep d alpha₀ then
        onBracket (bracketTriple (known f) 0 c.s 100) (.known f d) alpha₀ c
          fun (left, mid, right) =>
            Triple.search (known f) ⟨left, mid, right⟩ c.tol c.maxIterations.toNat
      else .ok alpha₀ := flat_or_steep c d alpha₀ _

variable [IsStrictOrderedRing K]

/-- A march without an interval leaves the search to backtracking. -/
theorem search_of_findsNone {c : LineSearch K} (valid : c.check = .ok c) {alpha₀ : K}
    (steep : c.Steep d alpha₀) (none : c.FindsNone f) :
    c.search (.known f d) alpha₀ = backtrack (.known f d) alpha₀ c := by
  have moves := (check_ok_iff.1 valid).moves
  unfold FindsNone at none
  unfold search
  cases kind : c.kind <;> simp only [kind] at none
  case bisection =>
    obtain ⟨e, lost⟩ := none
    simp only [bisectSlope_known, if_pos steep]
    exact onBracket_error _ _ _ _ (bracketMinimum_only f 0 moves) lost
  case quadratic =>
    obtain ⟨e, lost⟩ := none
    simp only [interpolateSlope_known, if_pos steep]
    exact onBracket_error _ _ _ _ (bracketMinimumFrom_only f 0 moves) lost
  case threePoint =>
    obtain ⟨e, lost⟩ := none
    simp only [interpolateTriple_known, if_pos steep]
    exact onBracket_error _ _ _ _ (bracketTriple_only f 0 moves 100) lost

/-- An interval without a change of sign is not left to backtracking. -/
theorem search_of_stranded {c : LineSearch K} (valid : c.check = .ok c) {alpha₀ a b : K}
    (stranded : c.Stranded f d alpha₀ a b) :
    c.search (.known f d) alpha₀ = .error (.noSignChange a b) := by
  obtain ⟨kind, steep, interval, same_sign⟩ := stranded
  have moves := (check_ok_iff.1 valid).moves
  simp only [search, kind, bisectSlope_known, if_pos steep]
  rw [onBracket_ok _ _ _ _ interval]
  exact bisect_of_same_sign d (bracketMinimum_le f moves interval) same_sign _ _ _

theorem search_returns {c : LineSearch K} (valid : c.check = .ok c) {alpha₀ : K}
    (free : ¬ ∃ a b, c.Stranded f d alpha₀ a b) :
    ∃ t, c.search (.known f d) alpha₀ = .ok t := by
  have given := check_ok_iff.1 valid
  unfold search
  cases kind : c.kind with
  | static => exact ⟨c.alpha, rfl⟩
  | backtracking => exact backtrack_returns f d alpha₀ c
  | bisection =>
    simp only [bisectSlope_known]
    split
    · rename_i steep
      refine onBracket_returns _ _ _ f d (bracketMinimum_only f 0 given.moves) fun (a, b) interval => ?_
      exact bisect_returns d (bracketMinimum_le f given.moves interval)
        (fun same_sign => free ⟨a, b, kind, steep, interval, same_sign⟩) _ _ _
    · exact ⟨alpha₀, rfl⟩
  | quadratic =>
    simp only [interpolateSlope_known]
    split
    · refine onBracket_returns _ _ _ f d (bracketMinimumFrom_only f 0 given.moves) ?_
      intro (a, b) interval
      exact interpolate_returns given.least given.safeguards given.greatest f d _
        (bracketMinimumFrom_lt f given.moves interval)
    · exact ⟨alpha₀, rfl⟩
  | threePoint =>
    simp only [interpolateTriple_known]
    split
    · refine onBracket_returns _ _ _ f d (bracketTriple_only f 0 given.moves 100) fun (a, m, b) _ => ?_
      exact Fault.Only.returns ((Correspondence.plain _).searchTriple (g := known f) (known_only _ f)
        (fun _ _ => vertex_only _ _ _ _) _ _)
    · exact ⟨alpha₀, rfl⟩

/-- A line search along any ray returns a step length, unless it is stranded: then it fails with the
interval that bisection refuses.  Where the march itself finds no interval, the step length is that
of backtracking. -/
theorem search_returns_iff {c : LineSearch K} (valid : c.check = .ok c) (f d : K → K)
    (alpha₀ : K) :
    ((∃ t, c.search (.known f d) alpha₀ = .ok t) ↔ ¬ ∃ a b, c.Stranded f d alpha₀ a b) ∧
      (∀ a b, c.Stranded f d alpha₀ a b →
        c.search (.known f d) alpha₀ = .error (.noSignChange a b)) ∧
      (c.Steep d alpha₀ → c.FindsNone f →
        c.search (.known f d) alpha₀ = backtrack (.known f d) alpha₀ c ∧
          ∃ t, backtrack (.known f d) alpha₀ c = .ok t) := by
  refine ⟨⟨?_, search_returns valid⟩, fun a b => search_of_stranded valid, fun steep none =>
    ⟨search_of_findsNone valid steep none, backtrack_returns f d alpha₀ c⟩⟩
  rintro ⟨t, found⟩ ⟨a, b, stranded⟩
  rw [search_of_stranded valid stranded] at found
  cases found

/-- Bisection of the slope with marches of length one. -/
noncomputable def bisecting : LineSearch ℝ := { standard with kind := .bisection, s := 1 }

theorem check_bisecting : bisecting.check = .ok bisecting :=
  check_ok_iff.2 (by constructor <;> norm_num [bisecting, standard])

/-- A parabola with its minimum between two probes of the march. -/
noncomputable def bowl (t : ℝ) : ℝ := (t - 1.25) ^ 2

noncomputable def bowlSlope (t : ℝ) : ℝ := 2.0 * (t - 1.25)

/-- A parabola with its minimum before every probe of the march. -/
noncomputable def dip (t : ℝ) : ℝ := t ^ 2 - 0.01 * t

noncomputable def dipSlope (t : ℝ) : ℝ := 2.0 * t - 0.01

/-- Interpolation between three points with marches of length one. -/
noncomputable def tripling : LineSearch ℝ := { bisecting with kind := .threePoint }

theorem check_tripling : tripling.check = .ok tripling :=
  check_ok_iff.2 (by constructor <;> norm_num [tripling, bisecting, standard])

theorem interval_of_bowl :
    bracketMinimum (known bowl) 0 (.doubling bisecting.s) = .ok (0, 2) := by
  have moves : 0 < bisecting.s := by norm_num [bisecting]
  rw [bracketMinimum_of_rise moves] <;> norm_num [bisecting, bowl, ordered]

/-- No probe of the march is below the start. -/
theorem findsNone_dip : tripling.FindsNone dip := by
  obtain ⟨e, lost⟩ : ∃ e, firstDescent (known dip) 0 (dip 0) 5 tripling.s = .error e := by
    norm_num [firstDescent_step, dip, tripling, bisecting]
  have forward : ¬ tripling.s ≤ 0 := by norm_num [tripling, bisecting]
  refine ⟨e, ?_⟩
  simp only [bracketTriple, if_neg forward, known, ok_bind, lost]
  rfl

/-- Bisection where the march finds an interval whose ends have slopes of both signs, and a policy
whose march finds none and that falls back to backtracking. -/
theorem search_returns_bowl_dip :
    (bisecting.Steep bowlSlope 1 ∧
      bracketMinimum (known bowl) 0 (.doubling bisecting.s) = .ok (0, 2) ∧
      ∃ t, bisecting.search (.known bowl bowlSlope) 1 = .ok t) ∧
    tripling.Steep dipSlope 1 ∧ tripling.FindsNone dip ∧
      tripling.search (.known dip dipSlope) 1 = backtrack (.known dip dipSlope) 1 tripling ∧
      ∃ t, backtrack (.known dip dipSlope) 1 tripling = .ok t := by
  have steep : tripling.Steep dipSlope 1 := by
    norm_num [Steep, tripling, bisecting, standard, dipSlope, abs_of_pos]
  refine ⟨⟨?_, interval_of_bowl, ?_⟩, steep, findsNone_dip,
    (search_returns_iff check_tripling _ _ _).2.2 steep findsNone_dip⟩
  · norm_num [Steep, bisecting, standard, bowlSlope, abs_of_pos]
  · refine (search_returns_iff check_bisecting _ _ _).1.2 ?_
    rintro ⟨a, b, -, -, interval, same_sign⟩
    cases interval_of_bowl.symm.trans interval
    norm_num [bowlSlope] at same_sign

/-- A function that falls, rises over a ridge, and falls on the other side. -/
def ridge (t : ℝ) : ℝ := -20 * t + 19 * t ^ 2 - 5 * t ^ 3

def ridgeSlope (t : ℝ) : ℝ := -20 + 38 * t - 15 * t ^ 2

theorem hasDerivAt_ridge (t : ℝ) : HasDerivAt ridge (ridgeSlope t) t := by
  have line := (hasDerivAt_id t).const_mul (-20)
  have square := (hasDerivAt_pow 2 t).const_mul 19
  have cube := (hasDerivAt_pow 3 t).const_mul 5
  have same : -20 * 1 + 19 * (((2 : ℕ) : ℝ) * t ^ (2 - 1)) - 5 * (((3 : ℕ) : ℝ) * t ^ (3 - 1)) =
      ridgeSlope t := by
    norm_num [ridgeSlope]
    ring
  exact ((line.add square).sub cube).congr_deriv same

/-- The march finds the ridge between `0` and `2`, where the slope is negative at both ends. -/
theorem stranded_on_ridge : bisecting.Stranded ridge ridgeSlope 1 0 2 where
  kind := rfl
  steep := by norm_num [Steep, bisecting, standard, ridgeSlope]
  interval := by
    have moves : 0 < bisecting.s := by norm_num [bisecting]
    rw [bracketMinimum_of_rise moves] <;> norm_num [bisecting, ridge, ordered]
  same_sign := by norm_num [ridgeSlope]

theorem search_fails_on_ridge :
    (∀ t, HasDerivAt ridge (ridgeSlope t) t) ∧ bisecting.check = .ok bisecting ∧
      bisecting.search (.known ridge ridgeSlope) 1 = .error (.noSignChange 0 2) :=
  ⟨hasDerivAt_ridge, check_bisecting, search_of_stranded check_bisecting stranded_on_ridge⟩

end LineSearch

end Descent
