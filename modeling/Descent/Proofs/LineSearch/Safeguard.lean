/-
# Descent.Proofs.LineSearch.Safeguard — the bracket of the quadratic policy shrinks

A pass of the interpolation places a trial point between the safeguards and replaces one
end of the bracket by it.  `Bracket.next` is the bracket of the next pass, as long as the
slope at the trial point is not flat.  The parabola may have no minimum, or one far
outside: whatever it suggests, the safeguards cut off a part of the bracket on either
side, and so every pass narrows it by the same factor (`Safe.pass`).

`Safe` is what all passes have in common: the slope falls steeply at the left end, it
rises steeply at the right end once that has moved, and the values that are carried along
are those at the ends.  `quadratic_shrinks` puts the passes together, from the interval of
the march to the step length that is returned.
-/
import Descent.Proofs.LineSearch.Asked
import Descent.Proofs.LineSearch.Forward

namespace Descent.LineSearch
set_option autoImplicit false

/-! ## Passes -/

namespace Bracket

section
variable {α : Type} [Scalar α]

/-- The bracket on `[0, R]` with which interpolation starts. -/
def first (f d : α → α) (R : α) : Bracket α :=
  { left := 0, fLeft := f 0, dLeft := d 0, right := R, fRight := f R, best := R, fBest := f R }

/-- The trial point of a pass; the left end if there is none. -/
def point (c : LineSearch α) (b : Bracket α) : α :=
  match b.trial c.sigma0 c.sigma1 with
  | .ok t => t
  | .error _ => b.left

/-- The bracket after a pass that goes on. -/
def next (c : LineSearch α) (f d : α → α) (b : Bracket α) : Bracket α :=
  (b.record (b.point c) (f (b.point c))).shrink (b.point c) (f (b.point c)) (d (b.point c))

/-- The bracket after a number of passes on `[0, R]`. -/
def after (c : LineSearch α) (f d : α → α) (R : α) (passes : ℕ) : Bracket α :=
  (next c f d)^[passes] (first f d R)

theorem after_succ (c : LineSearch α) (f d : α → α) (R : α) (k : ℕ) :
    after c f d R (k + 1) = (after c f d R k).next c f d :=
  Function.iterate_succ_apply' ..

/-- The trial points of a number of passes. -/
def points (c : LineSearch α) (f d : α → α) (passes : ℕ) (b : Bracket α) : List α :=
  (List.range passes).map fun i => ((next c f d)^[i] b).point c

theorem points_succ (c : LineSearch α) (f d : α → α) (k : ℕ) (b : Bracket α) :
    points c f d (k + 1) b = points c f d k b ++ [((next c f d)^[k] b).point c] := by
  simp [points, List.range_succ]

/-- Only the best point changes. -/
theorem record_eq (b : Bracket α) (t ft : α) :
    b.record t ft = { b with
      best := (b.record t ft).best
      fBest := (b.record t ft).fBest } := by
  unfold record
  split <;> rfl

end

variable {K : Type} [Field K] [LinearOrder K] {f d : K → K} {c : LineSearch K} {R : K}
  {b : Bracket K} {tried : List K}

def width (b : Bracket K) : K := b.right - b.left

theorem width_first (f d : K → K) (R : K) : (first f d R).width = R := sub_zero R

/-- The best point is one of those tried, and none of them is lower. -/
structure Best (f : K → K) (tried : List K) (b : Bracket K) : Prop where
  value : b.fBest = f b.best
  member : b.best ∈ tried
  least : ∀ t ∈ tried, f b.best ≤ f t

/-- The slope falls at the left end and rises at the right one, if that is not still the end of the
march; the values carried along are those at the ends. -/
structure Safe (c : LineSearch K) (f d : K → K) (R : K) (b : Bracket K) : Prop where
  start : 0 ≤ b.left
  wide : b.left < b.right
  stop : b.right ≤ R
  falls : d b.left ≤ -c.tol
  rises : b.right = R ∨ c.tol ≤ d b.right
  carried : b.fLeft = f b.left ∧ b.dLeft = d b.left ∧ b.fRight = f b.right

theorem safe_first (descends : d 0 ≤ -c.tol) (wide : 0 < R) : Safe c f d R (first f d R) where
  start := le_rfl
  wide := wide
  stop := le_rfl
  falls := descends
  rises := .inl rfl
  carried := ⟨rfl, rfl, rfl⟩

/-- The trial point lies between the safeguards. -/
structure Placed (c : LineSearch K) (b : Bracket K) : Prop where
  trial : b.trial c.sigma0 c.sigma1 = .ok (b.point c)
  least : b.left + c.sigma0 * b.width ≤ b.point c
  greatest : b.point c ≤ b.left + c.sigma1 * b.width

/-- The most that a pass leaves of the width of a bracket. -/
def keeps (c : LineSearch K) : K := max (1 - c.sigma0) c.sigma1

/-- A bracket inside another one, and narrower by the safeguards. -/
structure Narrower (c : LineSearch K) (b b' : Bracket K) : Prop where
  left : b.left ≤ b'.left
  right : b'.right ≤ b.right
  width : b'.width ≤ keeps c * b.width

theorem best_first (f d : K → K) (R : K) : Best f [R] (first f d R) where
  value := rfl
  member := List.mem_singleton_self R
  least _ same := (congrArg f (List.mem_singleton.1 same)).ge

theorem Best.record (best : Best f tried b) (t : K) : Best f (tried ++ [t]) (b.record t (f t)) := by
  obtain ⟨value, member, least⟩ := best
  unfold Bracket.record
  split
  · rename_i lower
    refine ⟨rfl, by simp, fun u among => ?_⟩
    rcases List.mem_append.1 among with before | new
    · exact (value ▸ lower).le.trans (least u before)
    · rw [List.mem_singleton.1 new]
  · rename_i above
    refine ⟨value, by simp [member], fun u among => ?_⟩
    rcases List.mem_append.1 among with before | new
    · exact least u before
    · rw [List.mem_singleton.1 new]
      exact not_lt.1 (value ▸ above)

theorem Best.shrink (best : Best f tried b) (t ft dt : K) : Best f tried (b.shrink t ft dt) := by
  unfold Bracket.shrink
  split <;> exact ⟨best.value, best.member, best.least⟩

theorem Best.iterate (best : Best f tried b) (k : ℕ) :
    Best f (tried ++ points c f d k b) ((next c f d)^[k] b) := by
  induction k with
  | zero => simpa [points] using best
  | succ k ih =>
    rw [points_succ, ← List.append_assoc, Function.iterate_succ_apply']
    exact (ih.record _).shrink ..

section
variable [IsStrictOrderedRing K] (valid : c.check = .ok c)
include valid

theorem Safe.placed (safe : Safe c f d R b) : Placed c b := by
  have order := (check_ok_iff.1 valid).safeguards
  obtain ⟨t, placed, least, greatest⟩ := trial_between order safe.wide
  have same : b.point c = t := by rw [point, placed]
  exact ⟨same ▸ placed, same ▸ least, same ▸ greatest⟩

theorem Safe.inside (safe : Safe c f d R b) : b.left < b.point c ∧ b.point c < b.right := by
  have given := check_ok_iff.1 valid
  obtain ⟨t, placed, left, right⟩ :=
    trial_inside given.least given.safeguards given.greatest safe.wide
  rw [point, placed]
  exact ⟨left, right⟩

/-- A pass that goes on has a steep slope at its trial point, and keeps the side on which the slope
changes sign. -/
theorem Safe.pass (safe : Safe c f d R b) (steep : c.tol ≤ |d (b.point c)|) :
    Safe c f d R (b.next c f d) ∧ Narrower c b (b.next c f d) := by
  obtain ⟨left, right⟩ := safe.inside valid
  obtain ⟨-, least, greatest⟩ := safe.placed valid
  obtain ⟨start, wide, stop, falls, rises, carriedLeft, carriedSlope, carriedRight⟩ := safe
  have positive : 0 ≤ b.width := (sub_pos.2 wide).le
  by_cases falling : d (b.point c) < 0
  · rw [abs_of_neg falling] at steep
    rw [Bracket.next, shrink, if_pos falling, record_eq]
    refine ⟨⟨start.trans left.le, right, stop, le_neg_of_le_neg steep, rises, rfl, rfl,
      carriedRight⟩, left.le, le_rfl, ?_⟩
    calc b.right - b.point c
        ≤ b.right - (b.left + c.sigma0 * b.width) := sub_le_sub_left least _
      _ = (1 - c.sigma0) * b.width := by
        unfold width
        ring
      _ ≤ keeps c * b.width := mul_le_mul_of_nonneg_right (le_max_left ..) positive
  · rw [abs_of_nonneg (not_lt.1 falling)] at steep
    rw [Bracket.next, shrink, if_neg falling, record_eq]
    refine ⟨⟨start, left, right.le.trans stop, falls, .inr steep, carriedLeft, carriedSlope, rfl⟩,
      le_rfl, right.le, ?_⟩
    calc b.point c - b.left
        ≤ c.sigma1 * b.width := sub_le_iff_le_add'.2 greatest
      _ ≤ keeps c * b.width := mul_le_mul_of_nonneg_right (le_max_right ..) positive

/-- As long as no trial point is flat, the brackets are safe and shrink geometrically. -/
theorem Safe.passes (safe : Safe c f d R b) (k : ℕ)
    (steep : ∀ i < k, c.tol ≤ |d (((next c f d)^[i] b).point c)|) :
    Safe c f d R ((next c f d)^[k] b) ∧ ((next c f d)^[k] b).width ≤ keeps c ^ k * b.width := by
  induction k with
  | zero => exact ⟨safe, by rw [pow_zero, one_mul, Function.iterate_zero_apply]⟩
  | succ k ih =>
    obtain ⟨still, width⟩ := ih fun i before => steep i (by omega)
    obtain ⟨safe', narrower⟩ := still.pass valid (steep k k.lt_succ_self)
    have nonneg : 0 ≤ keeps c := by
      have given := check_ok_iff.1 valid
      exact (given.least.trans given.safeguards).le.trans (le_max_right ..)
    rw [Function.iterate_succ_apply']
    refine ⟨safe', ?_⟩
    calc (((next c f d)^[k] b).next c f d).width
        ≤ keeps c * ((next c f d)^[k] b).width := narrower.width
      _ ≤ keeps c * (keeps c ^ k * b.width) := mul_le_mul_of_nonneg_left width nonneg
      _ = keeps c ^ (k + 1) * b.width := by rw [pow_succ', mul_assoc]

end

/-! ## Runs -/

open Edit

/-- The passes go on until the first flat slope, or until there are none left. -/
theorem exists_last (c : LineSearch K) (f d : K → K) (b : Bracket K) (n : ℕ) :
    ∃ k ≤ n, (∀ i < k, c.tol ≤ |d (((next c f d)^[i] b).point c)|) ∧
      (k < n → |d (((next c f d)^[k] b).point c)| < c.tol) := by
  induction n generalizing b with
  | zero => exact ⟨0, le_rfl, by simp, by simp⟩
  | succ n ih =>
    by_cases flat : |d (b.point c)| < c.tol
    · exact ⟨0, n.succ.zero_le, by simp, fun _ => flat⟩
    · obtain ⟨k, within, steep, last⟩ := ih (b.next c f d)
      refine ⟨k + 1, by omega, ?_, fun before => last (by omega)⟩
      rintro (_ | i) before
      · exact not_lt.1 flat
      · exact steep i (by omega)

/-- What a run on `[0, R]` with `n` passes ends with when `k` of them have gone on: a trial point with
a flat slope, or the lowest point of all when no passes are left. -/
def Ends (c : LineSearch K) (f d : K → K) (R : K) (n k : ℕ) (alpha : K) : Prop :=
  k < n ∧ alpha = (after c f d R k).point c ∧ |d alpha| < c.tol ∨
    k = n ∧ alpha ∈ R :: points c f d n (first f d R) ∧
      ∀ t ∈ R :: points c f d n (first f d R), f alpha ≤ f t

/-- A pass asks for its trial point, and returns it if the slope there is flat. -/
theorem outcome_interpolate_succ (placed : Placed c b) (n : ℕ) (s : List K) :
    (interpolate (.listed f d) c (n + 1) b).outcome s =
      if |d (b.point c)| < c.tol then (.ok (b.point c), s ++ [b.point c])
      else (interpolate (.listed f d) c n (b.next c f d)).outcome (s ++ [b.point c]) := by
  have trial : b.trial c.sigma0 c.sigma1 = .ok (b.point c) := placed.trial
  have flat : isFlat (d (b.point c)) c.tol = true ↔ |d (b.point c)| < c.tol := by simp [isFlat]
  rw [interpolate, trial]
  change (if isFlat (d (b.point c)) c.tol then pure (b.point c)
    else interpolate (.listed f d) c n (b.next c f d)).outcome (s ++ [b.point c]) = _
  simp only [flat]
  split <;> rfl

variable [IsStrictOrderedRing K]

/-- A run that has not met a flat slope has asked for the trial points so far, and goes on with the
bracket that they have left. -/
theorem outcome_interpolate (valid : c.check = .ok c) (safe : Safe c f d R b) {n k : ℕ}
    (within : k ≤ n) (steep : ∀ i < k, c.tol ≤ |d (((next c f d)^[i] b).point c)|) (s : List K) :
    (interpolate (.listed f d) c n b).outcome s =
      (interpolate (.listed f d) c (n - k) ((next c f d)^[k] b)).outcome
        (s ++ points c f d k b) := by
  induction k with
  | zero => simp [points]
  | succ k ih =>
    have steep' (i : ℕ) (before : i < k) := steep i (by omega)
    have placed := (safe.passes valid k steep').1.placed valid
    have left : n - k = n - (k + 1) + 1 := by omega
    rw [ih (by omega) steep', left, outcome_interpolate_succ placed,
      if_neg (steep k k.lt_succ_self).not_gt, points_succ, List.append_assoc,
      Function.iterate_succ_apply']

/-- The trial points lie inside the first bracket. -/
theorem Safe.ahead (valid : c.check = .ok c) (safe : Safe c f d R b) {k : ℕ}
    (steep : ∀ i < k, c.tol ≤ |d (((next c f d)^[i] b).point c)|) :
    ∀ t ∈ points c f d k b, 0 < t ∧ t ≤ R := by
  intro t tried
  obtain ⟨i, before, rfl⟩ := List.mem_map.1 tried
  rw [List.mem_range] at before
  obtain ⟨still, -⟩ := safe.passes valid i fun j earlier => steep j (by omega)
  obtain ⟨left, right⟩ := still.inside valid
  exact ⟨still.start.trans_lt left, right.le.trans still.stop⟩

theorem exists_end (valid : c.check = .ok c) (descends : d 0 ≤ -c.tol) (wide : 0 < R) {n k : ℕ}
    (within : k ≤ n) (steep : ∀ i < k, c.tol ≤ |d ((after c f d R i).point c)|)
    (last : k < n → |d ((after c f d R k).point c)| < c.tol) (s : List K) :
    ∃ alpha asked, (interpolate (.listed f d) c (n - k) (after c f d R k)).outcome s =
        (.ok alpha, asked) ∧ Ends c f d R n k alpha ∧ 0 < alpha ∧ alpha ≤ R := by
  have start := safe_first (f := f) descends wide
  obtain before | rfl := within.lt_or_eq
  · have safe : Safe c f d R (after c f d R k) := (start.passes valid k steep).1
    obtain ⟨left, right⟩ := safe.inside valid
    have remain : n - k = n - (k + 1) + 1 := by omega
    refine ⟨(after c f d R k).point c, s ++ [(after c f d R k).point c], ?_,
      .inl ⟨before, rfl, last before⟩, safe.start.trans_lt left, right.le.trans safe.stop⟩
    rw [remain, outcome_interpolate_succ (safe.placed valid), if_pos (last before)]
  · have best := (best_first f d R).iterate (c := c) (d := d) k
    have ahead := start.ahead valid steep
    have inside : ∀ t ∈ R :: points c f d k (first f d R), 0 < t ∧ t ≤ R :=
      List.forall_mem_cons.2 ⟨⟨wide, le_rfl⟩, ahead⟩
    refine ⟨(after c f d R k).best, s, ?_, .inr ⟨rfl, best.member, best.least⟩,
      inside _ best.member⟩
    rw [Nat.sub_self]
    rfl

end Bracket

section
variable {K : Type} [Field K] [LinearOrder K] {f d : K → K} {c : LineSearch K} {alpha₀ R : K}

/-- On an interval the policy interpolates, from the value and the slope at its start. -/
theorem outcome_quadratic (kind : c.kind = .quadratic) (steep : c.Steep d alpha₀)
    (interval : bracketMinimumFrom (known f) 0 (.doubling c.s) = .ok (0, R)) :
    ∃ march, (c.search (.listed f d) alpha₀).outcome [] =
      (interpolate (.listed f d) c c.maxIterations.toNat (.first f d R)).outcome
        (0 :: march ++ [R]) := by
  have checked : Fault.Only Correspondence.asking.Admits (March.doubling c.s).check :=
    fun _ _ => trivial
  obtain ⟨march, marched⟩ :=
    Correspondence.asking.bracketMinimumFrom (asking_listed f) (x := 0) checked trivial
  rw [interval] at marched
  obtain ⟨tried, asked⟩ := (Ray.asking_listed f d).interpolate (fun _ => ⟨_, .pure PUnit.unit⟩)
    (fun _ => True) (fun _ _ _ _ => trivial) (fun _ _ _ _ _ _ => trivial)
    c.maxIterations.toNat (b := .first f d R) trivial
  have policy : Edit.Asks (c.search (.listed f d) alpha₀)
      (interpolate (.known f d) c c.maxIterations.toNat (.first f d R))
      (0 :: (march ++ R :: tried)) := by
    rw [search, kind]
    exact .ask (asks_of_steep steep (asks_onBracket marched (.ask asked) _))
  refine ⟨march, ?_⟩
  rw [policy, asked]
  simp

/-- A run of the quadratic policy on the interval `[0, R]` of its march: how many passes have gone on,
and the step length returned. -/
structure Shrinks (c : LineSearch K) (f d : K → K) (alpha₀ R : K) (march : List K) (passes : ℕ)
    (alpha : K) : Prop where
  within : passes ≤ c.maxIterations.toNat
  /-- After `k` passes the policy has asked at zero, at the points of the march, at `R` and at `k`
  trial points, and goes on with the bracket `after c f d R k`. -/
  run : ∀ k ≤ passes, (c.search (.listed f d) alpha₀).outcome [] =
    (interpolate (.listed f d) c (c.maxIterations.toNat - k) (.after c f d R k)).outcome
      (0 :: march ++ [R] ++ Bracket.points c f d k (.first f d R))
  safe : ∀ k ≤ passes, Bracket.Safe c f d R (.after c f d R k)
  placed : ∀ k ≤ passes, Bracket.Placed c (.after c f d R k)
  width : ∀ k ≤ passes,
    (Bracket.after c f d R k).width ≤ max (1 - c.sigma0) c.sigma1 ^ k * R
  nested : ∀ k < passes, Bracket.Narrower c (.after c f d R k) (.after c f d R (k + 1))
  returned : c.search (.known f d) alpha₀ = .ok alpha
  ends : Bracket.Ends c f d R c.maxIterations.toNat passes alpha
  ahead : 0 < alpha
  stop : alpha ≤ R

variable [IsStrictOrderedRing K]

/-- The quadratic policy, where it does not stop at a flat slope and its march ends at `R`, keeps a
bracket with a steep descent at the left end, and shrinks it geometrically whatever the parabolas
suggest. -/
theorem quadratic_shrinks (valid : c.check = .ok c) (kind : c.kind = .quadratic)
    (steep : c.Steep d alpha₀) (descends : d 0 ≤ -c.tol)
    (interval : bracketMinimumFrom (known f) 0 (.doubling c.s) = .ok (0, R)) :
    ∃ march passes alpha, c.Shrinks f d alpha₀ R march passes alpha := by
  have moves := (check_ok_iff.1 valid).moves
  have wide : 0 < R := bracketMinimumFrom_lt f moves interval
  have safe := Bracket.safe_first (f := f) descends wide
  obtain ⟨march, policy⟩ := outcome_quadratic kind steep interval
  obtain ⟨passes, within, onward, last⟩ :=
    Bracket.exists_last c f d (.first f d R) c.maxIterations.toNat
  have steep (k : ℕ) (before : k ≤ passes) (i : ℕ) (earlier : i < k) := onward i (by omega)
  have shrunk (k : ℕ) (before : k ≤ passes) :
      Bracket.Safe c f d R (.after c f d R k) ∧
        (Bracket.after c f d R k).width ≤ Bracket.keeps c ^ k * (Bracket.first f d R).width :=
    safe.passes valid k (steep k before)
  have run (k : ℕ) (before : k ≤ passes) := policy.trans
    (Bracket.outcome_interpolate valid safe (before.trans within) (steep k before) _)
  obtain ⟨alpha, asked, ended, ends, ahead, stop⟩ :=
    Bracket.exists_end valid descends wide within onward last
      (0 :: march ++ [R] ++ Bracket.points c f d passes (.first f d R))
  refine ⟨march, passes, alpha, within, run, fun k before => (shrunk k before).1,
    fun k before => (shrunk k before).1.placed valid, fun k before => ?_, fun k before => ?_,
    search_of_outcome ((run passes le_rfl).trans ended), ends, ahead, stop⟩
  · have narrow := (shrunk k before).2
    rwa [Bracket.width_first] at narrow
  · rw [Bracket.after_succ]
    exact ((shrunk k before.le).1.pass valid (onward k before)).2

/-- Towards a kink at `1`, where no slope is flat: the march ends at `2`. -/
theorem quadratic_shrinks_kink :
    ∃ march passes alpha, ({ standard with kind := .quadratic, s := 1 } : LineSearch ℚ).Shrinks
      (fun t => |t - 1|) (fun t => if t < 1 then -1 else 1) 3 2 march passes alpha := by
  have settings : ({ standard with kind := .quadratic, s := 1 } : LineSearch ℚ).check =
      .ok { standard with kind := .quadratic, s := 1 } :=
    check_ok_iff.2 (by constructor <;> norm_num [standard])
  have interval : bracketMinimumFrom (known fun t : ℚ => |t - 1|) 0 (.doubling 1) = .ok (0, 2) := by
    have hundred : (March.doubling (1 : ℚ)).moves = 98 + 1 + 1 := rfl
    simp only [bracketMinimumFrom, check_doubling one_pos, ofExcept_plain, ok_bind, known, hundred,
      widen_succ]
    norm_num [March.doubling]
    rfl
  exact quadratic_shrinks settings rfl (by norm_num [Steep, standard]) (by norm_num [standard])
    interval

end

end Descent.LineSearch
