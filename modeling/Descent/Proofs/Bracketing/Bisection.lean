/-
# Descent.Proofs.Bracketing.Bisection — a bracketed root can be bisected

`bracketRoot` stops on the sign of a product of values, `bisect` starts from the
signs of the values themselves.  Both tests say the same of an interval: its ends
`Straddle` a change of sign.  Every interval that a march returns does so
(`bracketRoot_straddles`), halving keeps one half that does (`changingHalf_straddles`),
and so `bisect` accepts the interval and ends at a point where the function is small,
or at an end of an interval that is narrow or has been halved as often as allowed
(`bracketRoot_feeds_bisect`).

The function is arbitrary: neither continuity nor monotonicity is used.
-/
import Descent.Proofs.Bracketing.Root

namespace Descent
set_option autoImplicit false

variable {K : Type} [Field K] [LinearOrder K] {f : K → K} {a c x : K}

/-- An interval over which the function changes sign, or at one of whose ends it is zero. -/
structure Straddles (f : K → K) (a c : K) : Prop where
  ordered : a ≤ c
  change : f a * f c ≤ 0

theorem Straddles.mem (interval : Straddles f a c) {r : K} (end_of : r = a ∨ r = c) :
    a ≤ r ∧ r ≤ c := by
  rcases end_of with rfl | rfl
  · exact ⟨le_rfl, interval.ordered⟩
  · exact ⟨interval.ordered, le_rfl⟩

/-- What bisection of an interval promises of a point of it: the function is small there, or it is
an end of an interval that straddles a change of sign and is narrow or of a given width. -/
def Located (f : K → K) (a c xTol fTol width r : K) : Prop :=
  |f r| ≤ fTol ∨ ∃ l h, a ≤ l ∧ h ≤ c ∧ Straddles f l h ∧ (r = l ∨ r = h) ∧
    (h - l ≤ xTol ∨ h - l = width)

theorem Located.mono {xTol fTol width r l h : K} (found : Located f l h xTol fTol width r)
    (left : a ≤ l) (right : h ≤ c) : Located f a c xTol fTol width r := by
  rcases found with small | ⟨l', h', left', right', rest⟩
  · exact .inl small
  · exact .inr ⟨l', h', left.trans left', right'.trans right, rest⟩

/-! ## The march -/

theorem ordered_straddles (change : f a * f c ≤ 0) :
    Straddles f (ordered a c).1 (ordered a c).2 ∧ (a = (ordered a c).1 ∨ a = (ordered a c).2) := by
  unfold Descent.ordered
  split
  · rename_i increasing
    exact ⟨⟨increasing.le, change⟩, .inl rfl⟩
  · rename_i decreasing
    exact ⟨⟨not_lt.1 decreasing, mul_comm (f a) (f c) ▸ change⟩, .inr rfl⟩

theorem reach_straddles {growth width : K} (n : ℕ)
    (found : reach (known f) x (f x) growth n width = .ok (some (a, c))) :
    Straddles f a c ∧ (x = a ∨ x = c) := by
  induction n generalizing width with
  | zero => cases found
  | succ n ih =>
    rw [reach_succ] at found
    split at found
    · rename_i change
      obtain ⟨rfl, rfl⟩ : (ordered x (x + width)).1 = a ∧ (ordered x (x + width)).2 = c := by
        rw [Option.some.inj (Except.ok.inj found)]
        exact ⟨rfl, rfl⟩
      exact ordered_straddles change
    · exact ih found

/-- A march for a root returns an interval with a change of sign that starts or ends where the march
did. -/
theorem bracketRoot_straddles {march : March K}
    (found : bracketRoot (known f) x march = .ok (a, c)) :
    Straddles f a c ∧ (x = a ∨ x = c) := by
  have admitted : march.check = .ok () := by
    obtain ⟨_, admitted, -⟩ := bind_eq_ok.1 found
    simpa using admitted
  by_cases at_root : f x = 0
  · rw [bracketRoot_of_eq at_root admitted] at found
    cases found
    exact ⟨⟨le_rfl, by rw [at_root, zero_mul]⟩, .inl rfl⟩
  · rw [bracketRoot_of_ne at_root admitted] at found
    obtain ⟨_ | interval, reached, rest⟩ := bind_eq_ok.1 found
    · cases rest
    · cases rest
      exact reach_straddles _ reached

/-! ## Halving -/

/-- The half of an interval that bisection goes on with. -/
def changingHalf (f : K → K) (l h : K) : K × K :=
  if 0 < f l * f (0.5 * (l + h)) then (0.5 * (l + h), h) else (l, 0.5 * (l + h))

theorem halve_succ (f : K → K) (xTol fTol : K) (n : ℕ) (l h last : K) :
    halve (known f) xTol fTol (n + 1) l (f l) h last =
      if |f (0.5 * (l + h))| ≤ fTol then .ok (0.5 * (l + h))
      else if |(changingHalf f l h).2 - (changingHalf f l h).1| ≤ xTol then .ok (0.5 * (l + h))
      else halve (known f) xTol fTol n (changingHalf f l h).1 (f (changingHalf f l h).1)
        (changingHalf f l h).2 (0.5 * (l + h)) := by
  unfold changingHalf
  rw [halve]
  simp only [known, ok_bind, scalar_abs, pure_ok]
  split <;> [rfl; split <;> rfl]

variable [IsStrictOrderedRing K] {l h : K}

theorem middle_eq (l h : K) : 0.5 * (l + h) = (l + h) / 2 := by
  norm_num
  ring

/-- The middle of an interval is an end of the half that bisection goes on with, and that half still
straddles a change of sign. -/
theorem changingHalf_straddles (interval : Straddles f l h) :
    l ≤ (changingHalf f l h).1 ∧ (changingHalf f l h).2 ≤ h ∧
      Straddles f (changingHalf f l h).1 (changingHalf f l h).2 ∧
      (0.5 * (l + h) = (changingHalf f l h).1 ∨ 0.5 * (l + h) = (changingHalf f l h).2) ∧
      (changingHalf f l h).2 - (changingHalf f l h).1 = (h - l) / 2 := by
  obtain ⟨increasing, change⟩ := interval
  unfold changingHalf
  rw [middle_eq]
  have after : l ≤ (l + h) / 2 := by linarith
  have before : (l + h) / 2 ≤ h := by linarith
  split
  · rename_i same
    -- the values at the left end and in the middle have one sign, so the right half changes it
    have changes : f ((l + h) / 2) * f h ≤ 0 := by
      by_contra! agree
      have : 0 < f l * f h := by
        rcases mul_pos_iff.1 same with ⟨hl, hm⟩ | ⟨hl, hm⟩
        · exact mul_pos hl (pos_of_mul_pos_right agree hm.le)
        · exact mul_pos_of_neg_of_neg hl (neg_of_mul_pos_right agree hm.le)
      exact this.not_ge change
    exact ⟨after, le_rfl, ⟨before, changes⟩, .inl rfl, by ring⟩
  · rename_i changes
    exact ⟨le_rfl, before, ⟨after, not_lt.1 changes⟩, .inr rfl, by ring⟩

/-- Repeated halving stays inside an interval and locates a change of sign; without any halvings the
point tried before is the answer. -/
theorem halve_locates (xTol fTol : K) (n : ℕ) (interval : Straddles f l h) (last : K)
    (tried : n = 0 → last = l ∨ last = h) :
    ∃ r, halve (known f) xTol fTol n l (f l) h last = .ok r ∧ l ≤ r ∧ r ≤ h ∧
      Located f l h xTol fTol ((h - l) / 2 ^ n) r := by
  induction n generalizing l h last with
  | zero =>
    obtain ⟨left, right⟩ := interval.mem (tried rfl)
    exact ⟨last, rfl, left, right, .inr ⟨l, h, le_rfl, le_rfl, interval, tried rfl, .inr (by simp)⟩⟩
  | succ n ih =>
    obtain ⟨left, right, half, end_of, width⟩ := changingHalf_straddles interval
    obtain ⟨after, before⟩ := half.mem end_of
    rw [halve_succ]
    split
    · rename_i small
      exact ⟨_, rfl, left.trans after, before.trans right, .inl small⟩
    split
    · rename_i narrow
      rw [abs_of_nonneg (sub_nonneg.2 half.ordered)] at narrow
      exact ⟨_, rfl, left.trans after, before.trans right,
        .inr ⟨_, _, left, right, half, end_of, .inl narrow⟩⟩
    · obtain ⟨r, found, low, high, located⟩ := ih half _ fun _ => end_of
      rw [width, div_div, ← pow_succ'] at located
      exact ⟨r, found, left.trans low, high.trans right, located.mono left right⟩

theorem bisect_locates {xTol fTol : K} {n : ℕ} (interval : Straddles f a c) (nonneg : 0 ≤ fTol)
    (halvings : 1 ≤ n) :
    ∃ r, bisect (known f) a c xTol fTol n = .ok r ∧ a ≤ r ∧ r ≤ c ∧
      Located f a c xTol fTol ((c - a) / 2 ^ n) r := by
  have zero {r : K} (root : f r = 0) : Located f a c xTol fTol ((c - a) / 2 ^ n) r :=
    .inl (by rwa [root, abs_zero])
  rw [bisect_known f interval.ordered, if_neg interval.change.not_gt]
  split
  · rename_i root
    exact ⟨a, rfl, le_rfl, interval.ordered, zero root⟩
  split
  · rename_i root
    exact ⟨c, rfl, interval.ordered, le_rfl, zero root⟩
  · exact halve_locates xTol fTol n interval _ fun none => absurd halvings (by omega)

/-- An interval that a march for a root returns is one that bisection accepts, whatever the
function: it starts or ends where the march did, the function changes sign over it, and bisection
ends inside it at a point where the function is small, or at an end of an interval with a change of
sign that is narrow or as wide as the allowed halvings leave it. -/
theorem bracketRoot_feeds_bisect {march : March K}
    (found : bracketRoot (known f) x march = .ok (a, c)) :
    a ≤ c ∧ (x = a ∨ x = c) ∧ f a * f c ≤ 0 ∧
      ∀ (xTol fTol : K) (n : ℕ), 0 ≤ xTol → 0 ≤ fTol → 1 ≤ n →
        ∃ r, bisect (known f) a c xTol fTol n = .ok r ∧ a ≤ r ∧ r ≤ c ∧
          (|f r| ≤ fTol ∨ ∃ l h, a ≤ l ∧ h ≤ c ∧ Straddles f l h ∧ (r = l ∨ r = h) ∧
            (h - l ≤ xTol ∨ h - l = (c - a) / 2 ^ n)) := by
  obtain ⟨interval, start⟩ := bracketRoot_straddles found
  exact ⟨interval.ordered, start, interval.change, fun _ _ _ _ nonneg halvings =>
    bisect_locates interval nonneg halvings⟩

/-- Along a parabola with the roots `-1` and `1`, a march from `-3` returns an interval with both
of them. -/
theorem bracketRoot_feeds_bisect_parabola :
    bracketRoot (known fun t : ℚ => t ^ 2 - 1) (-3) ⟨4, 2, 1⟩ = .ok (-3, 1) ∧
      ∃ r, bisect (known fun t : ℚ => t ^ 2 - 1) (-3) 1 0 (1 / 4) 8 = .ok r ∧ -3 ≤ r ∧ r ≤ 1 := by
  have found : bracketRoot (known fun t : ℚ => t ^ 2 - 1) (-3) ⟨4, 2, 1⟩ = .ok (-3, 1) := by
    have admitted : (⟨4, 2, 1⟩ : March ℚ).check = .ok () := by
      apply check_march <;> norm_num
    rw [bracketRoot_of_ne (by norm_num) admitted, reach_succ]
    norm_num [heading, Descent.ordered]
  obtain ⟨-, -, -, feeds⟩ := bracketRoot_feeds_bisect found
  obtain ⟨r, located, left, right, -⟩ := feeds 0 (1 / 4) 8 le_rfl (by norm_num) (by norm_num)
  exact ⟨found, r, located, left, right⟩

end Descent
