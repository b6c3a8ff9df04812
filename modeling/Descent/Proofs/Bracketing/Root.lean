/-
# Descent.Proofs.Bracketing.Root — which roots a march reaches

`bracketRoot` chooses its side once, by comparing `|f|` at the start and at its
first probe.  For a strictly monotone function with a root `r` this choice is right
unless the probe jumps over `r` and lands where `|f|` is greater (`Overshot`): then
the march turns away from the root although the probe had seen the sign change.
Otherwise every root within `|s| k ^ (n - 1)` of the start is enclosed
(`bracketRoot_encloses_iff`).
-/
import Descent.Proofs.Bracketing.Known

namespace Descent
set_option autoImplicit false

variable {K : Type} [Field K] [LinearOrder K] [IsStrictOrderedRing K] {f : K → K} {r x : K}

/-! ## Signs and sizes of a strictly monotone function -/

theorem mul_nonpos_iff_of_root (monotone : StrictMono f ∨ StrictAnti f) (root : f r = 0) (x y : K) :
    f x * f y ≤ 0 ↔ (x - r) * (y - r) ≤ 0 := by
  have above (z : K) : (StrictMono f → (0 < f z ↔ r < z)) ∧ (StrictAnti f → (0 < f z ↔ z < r)) :=
    ⟨fun m => root ▸ m.lt_iff_lt, fun m => root ▸ m.lt_iff_gt⟩
  have below (z : K) : (StrictMono f → (f z < 0 ↔ z < r)) ∧ (StrictAnti f → (f z < 0 ↔ r < z)) :=
    ⟨fun m => root ▸ m.lt_iff_lt, fun m => root ▸ m.lt_iff_gt⟩
  rw [← not_lt, ← not_lt, mul_pos_iff, mul_pos_iff, sub_pos, sub_pos, sub_neg, sub_neg]
  rcases monotone with m | m
  · rw [(above x).1 m, (above y).1 m, (below x).1 m, (below y).1 m]
  · rw [(above x).2 m, (above y).2 m, (below x).2 m, (below y).2 m]
    exact not_congr or_comm

/-- The size of the function grows with the distance from the root on its right. -/
theorem abs_lt_abs_right (monotone : StrictMono f ∨ StrictAnti f) (root : f r = 0) {y : K}
    (right : r ≤ x) (farther : x < y) : |f x| < |f y| := by
  rcases monotone with m | m
  · have start : 0 ≤ f x := root ▸ m.monotone right
    rw [abs_of_nonneg start]
    exact (m farther).trans_le (le_abs_self _)
  · have start : f x ≤ 0 := root ▸ m.antitone right
    rw [abs_of_nonpos start]
    exact (neg_lt_neg (m farther)).trans_le (neg_le_abs _)

/-- The size of the function grows with the distance from the root on its left. -/
theorem abs_lt_abs_left (monotone : StrictMono f ∨ StrictAnti f) (root : f r = 0) {y : K}
    (left : x ≤ r) (farther : y < x) : |f x| < |f y| := by
  rcases monotone with m | m
  · have start : f x ≤ 0 := root ▸ m.monotone left
    rw [abs_of_nonpos start]
    exact (neg_lt_neg (m farther)).trans_le (neg_le_abs _)
  · have start : 0 ≤ f x := root ▸ m.antitone left
    rw [abs_of_nonneg start]
    exact (m farther).trans_le (le_abs_self _)

/-! ## The march -/

/-- A probe towards the root lies beyond it if it is longer than the distance. -/
theorem beyond_iff {w : K} (towards : 0 < (r - x) * w) :
    (x - r) * (x + w - r) ≤ 0 ↔ |r - x| ≤ |w| := by
  rcases pos_and_pos_or_neg_and_neg_of_mul_pos towards with ⟨rx, pos⟩ | ⟨rx, neg⟩
  · rw [abs_of_pos rx, abs_of_pos pos]
    constructor <;> intro h <;> nlinarith
  · rw [abs_of_neg rx, abs_of_neg neg]
    constructor <;> intro h <;> nlinarith

theorem mem_ordered {c : K} (between : (x - r) * (c - r) ≤ 0) :
    (ordered x c).1 ≤ r ∧ r ≤ (ordered x c).2 := by
  unfold ordered
  rcases mul_nonpos_iff.1 between with ⟨hx, hc⟩ | ⟨hx, hc⟩ <;> split <;> constructor <;>
    linarith

/-- A march towards the root encloses it once its last probe is long enough. -/
theorem reach_towards (monotone : StrictMono f ∨ StrictAnti f) (root : f r = 0) {g : K}
    (grows : 1 < g) (n : ℕ) {w : K} (towards : 0 < (r - x) * w) (near : |r - x| ≤ |w| * g ^ n) :
    ∃ a c, reach (known f) x (f x) g (n + 1) w = .ok (some (a, c)) ∧ a ≤ r ∧ r ≤ c := by
  have positive : 0 < g := zero_lt_one.trans grows
  induction n generalizing w with
  | zero =>
    have beyond : (x - r) * (x + w - r) ≤ 0 := (beyond_iff towards).2 (by simpa using near)
    rw [reach_succ, if_pos ((mul_nonpos_iff_of_root monotone root _ _).2 beyond)]
    exact ⟨_, _, rfl, mem_ordered beyond⟩
  | succ n ih =>
    rw [reach_succ]
    split
    · rename_i changes
      exact ⟨_, _, rfl, mem_ordered ((mul_nonpos_iff_of_root monotone root _ _).1 changes)⟩
    · apply ih
      · rw [← mul_assoc]
        exact mul_pos towards positive
      · rwa [abs_mul, abs_of_pos positive, mul_assoc, ← pow_succ']

/-- A march away from the root finds nothing. -/
theorem reach_away (monotone : StrictMono f ∨ StrictAnti f) (root : f r = 0) {g : K}
    (grows : 1 < g) (n : ℕ) {w : K} (away : (r - x) * w < 0) :
    reach (known f) x (f x) g n w = .ok none := by
  induction n generalizing w with
  | zero => rfl
  | succ n ih =>
    have same_side : 0 < (x - r) * (x + w - r) := by
      have : 0 ≤ (x - r) * (x - r) := mul_self_nonneg _
      nlinarith
    rw [reach_succ, if_neg ((mul_nonpos_iff_of_root monotone root _ _).not.2 same_side.not_ge)]
    apply ih
    rw [← mul_assoc]
    exact mul_neg_of_neg_of_pos away (zero_lt_one.trans grows)

/-! ## The choice of the side -/

/-- The first probe jumps over the root, and lands where the function is larger in size. -/
def Overshot (f : K → K) (r x step : K) : Prop :=
  (x < r ∧ r < x + step ∨ x + step < r ∧ r < x) ∧ |f x| < |f (x + step)|

/-- The distance at which the march makes its first move. -/
def heading (f : K → K) (x step : K) : K := if |f x| < |f (x + step)| then -step else step

/-- The function is larger at the first probe if that leads away from the root or jumps over it. -/
theorem larger_iff (monotone : StrictMono f ∨ StrictAnti f) (root : f r = 0) (away : x ≠ r)
    {step : K} (moves : step ≠ 0) :
    |f x| < |f (x + step)| ↔ (r - x) * step < 0 ∨ Overshot f r x step := by
  constructor
  · intro larger
    by_contra! h
    obtain ⟨towards, short⟩ := h
    rcases lt_or_gt_of_ne away with left | right
    · have ahead : 0 < step := by
        rcases lt_or_gt_of_ne moves with back | ahead
        · nlinarith
        · exact ahead
      have before : x + step ≤ r := by
        by_contra! jumped
        exact short ⟨.inl ⟨left, jumped⟩, larger⟩
      exact larger.asymm (abs_lt_abs_left monotone root before (by linarith))
    · have back : step < 0 := by
        rcases lt_or_gt_of_ne moves with back | ahead
        · exact back
        · nlinarith
      have before : r ≤ x + step := by
        by_contra! jumped
        exact short ⟨.inr ⟨jumped, right⟩, larger⟩
      exact larger.asymm (abs_lt_abs_right monotone root before (by linarith))
  · rintro (leaving | ⟨-, larger⟩)
    · rcases mul_neg_iff.1 leaving with ⟨left, back⟩ | ⟨right, ahead⟩
      · exact abs_lt_abs_left monotone root (by linarith) (by linarith)
      · exact abs_lt_abs_right monotone root (by linarith) (by linarith)
    · exact larger

/-- A first probe that does not overshoot tells the side of the root. -/
theorem heading_towards (monotone : StrictMono f ∨ StrictAnti f) (root : f r = 0) (away : x ≠ r)
    {step : K} (moves : step ≠ 0) (short : ¬ Overshot f r x step) :
    0 < (r - x) * heading f x step := by
  have apart : (r - x) * step ≠ 0 := mul_ne_zero (sub_ne_zero.2 away.symm) moves
  rw [heading]
  split
  · rename_i larger
    have leaving := ((larger_iff monotone root away moves).1 larger).resolve_right short
    linarith
  · rename_i smaller
    rw [larger_iff monotone root away moves] at smaller
    exact lt_of_le_of_ne (not_lt.1 fun leaving => smaller (.inl leaving)) apart.symm

omit [IsStrictOrderedRing K] in
theorem abs_heading [IsOrderedRing K] (f : K → K) (x step : K) : |heading f x step| = |step| := by
  rw [heading]
  split
  · exact abs_neg step
  · rfl

/-- A first probe that overshoots turns the march away from the root. -/
theorem heading_away {step : K} (jumped : Overshot f r x step) :
    (r - x) * heading f x step < 0 := by
  obtain ⟨sides, larger⟩ := jumped
  rw [heading, if_pos larger]
  rcases sides with ⟨left, far⟩ | ⟨far, right⟩ <;> nlinarith

/-! ## The whole search -/

omit [IsStrictOrderedRing K] in
theorem bracketRoot_of_eq (root : f x = 0) {march : March K} (admitted : march.check = .ok ()) :
    bracketRoot (known f) x march = .ok (x, x) := by
  have zero : (f x == 0) = true := beq_iff_eq.2 root
  simp only [bracketRoot, admitted, ofExcept_plain, ok_bind, known, zero]
  rfl

omit [IsStrictOrderedRing K] in
theorem bracketRoot_of_ne (away : f x ≠ 0) {march : March K} (admitted : march.check = .ok ()) :
    bracketRoot (known f) x march =
      (reach (known f) x (f x) march.growth march.moves (heading f x march.step) >>= fun
        | some interval => .ok interval
        | none => .error (.noRoot x)) := by
  have nonzero : (f x == 0) = false := beq_eq_false_iff_ne.2 away
  simp only [bracketRoot, admitted, ofExcept_plain, ok_bind, known, nonzero]
  rfl

omit [IsStrictOrderedRing K] in
theorem eq_zero_iff_of_root (monotone : StrictMono f ∨ StrictAnti f) (root : f r = 0) (z : K) :
    f z = 0 ↔ z = r := by
  rw [← root]
  exact monotone.elim (fun m => m.injective.eq_iff) fun m => m.injective.eq_iff

theorem bracketRoot_of_overshot (monotone : StrictMono f ∨ StrictAnti f) (root : f r = 0)
    {march : March K} (admitted : march.check = .ok ()) (grows : 1 < march.growth)
    (jumped : Overshot f r x march.step) :
    bracketRoot (known f) x march = .error (.noRoot x) := by
  have away : f x ≠ 0 := by
    rw [Ne, eq_zero_iff_of_root monotone root]
    rcases jumped.1 with ⟨left, -⟩ | ⟨-, right⟩
    · exact left.ne
    · exact right.ne'
  rw [bracketRoot_of_ne away admitted, reach_away monotone root grows _ (heading_away jumped)]
  rfl

/-- Every root within reach of the march is enclosed, unless the first probe overshoots it: then the
march fails although the probe had seen the change of sign. -/
theorem bracketRoot_encloses_iff (monotone : StrictMono f ∨ StrictAnti f) (root : f r = 0)
    {march : March K} (moves : march.step ≠ 0) (grows : 1 < march.growth)
    (some_moves : 1 ≤ march.moves)
    (near : |r - x| ≤ |march.step| * march.growth ^ (march.moves - 1)) :
    ((∃ a c, bracketRoot (known f) x march = .ok (a, c) ∧ a ≤ r ∧ r ≤ c) ↔
        ¬ Overshot f r x march.step) ∧
      (Overshot f r x march.step → bracketRoot (known f) x march = .error (.noRoot x)) := by
  have admitted := check_march moves grows some_moves
  have fails := bracketRoot_of_overshot (x := x) monotone root admitted grows
  refine ⟨⟨fun ⟨a, c, found, _⟩ jumped => ?_, fun short => ?_⟩, fails⟩
  · rw [fails jumped] at found
    cases found
  · by_cases at_root : f x = 0
    · have same : x = r := (eq_zero_iff_of_root monotone root x).1 at_root
      exact ⟨x, x, bracketRoot_of_eq at_root admitted, same.le, same.ge⟩
    · have away : x ≠ r := (eq_zero_iff_of_root monotone root x).not.1 at_root
      obtain ⟨n, count⟩ : ∃ n, march.moves = n + 1 := ⟨march.moves - 1, by omega⟩
      have towards := heading_towards monotone root away moves short
      rw [count, Nat.add_sub_cancel, ← abs_heading f x march.step] at near
      obtain ⟨a, c, found, enclosed⟩ := reach_towards monotone root grows n towards near
      rw [bracketRoot_of_ne at_root admitted, count, found]
      exact ⟨a, c, rfl, enclosed⟩

/-- From `-1`, half steps lead to the root of the identity. -/
theorem bracketRoot_encloses_zero :
    ∃ a c, bracketRoot (known (id : ℚ → ℚ)) (-1) (.doubling (1 / 2)) = .ok (a, c) ∧
      a ≤ 0 ∧ 0 ≤ c := by
  refine (bracketRoot_encloses_iff (.inl strictMono_id) rfl ?_ ?_ ?_ ?_).1.2 ?_
  · norm_num [March.doubling]
  · norm_num [March.doubling]
  · norm_num [March.doubling]
  · norm_num [March.doubling]
  · norm_num [Overshot, March.doubling]

/-- From `-1 / 4`, a step of length one jumps over the root of the identity, and the march leaves. -/
theorem bracketRoot_leaves_zero :
    StrictMono (id : ℚ → ℚ) ∧ |(0 : ℚ) - -1 / 4| ≤ |1| * 2 ^ 99 ∧
      bracketRoot (known (id : ℚ → ℚ)) (-1 / 4) (.doubling 1) = .error (.noRoot (-1 / 4)) := by
  have jumped : Overshot (id : ℚ → ℚ) 0 (-1 / 4) (March.doubling (1 : ℚ)).step := by
    norm_num [Overshot, March.doubling]
  have admitted : (March.doubling (1 : ℚ)).check = .ok () := by
    apply check_march <;> norm_num [March.doubling]
  have grows : 1 < (March.doubling (1 : ℚ)).growth := by
    norm_num [March.doubling]
  exact ⟨strictMono_id, by norm_num [abs_of_pos],
    bracketRoot_of_overshot (.inl strictMono_id) rfl admitted grows jumped⟩

end Descent
