/-
# Descent.Proofs.LineSearch.Lowest — the three-point policy ends at the lowest point

The march for three points keeps no more than three of its samples, and the search that
follows no more than three of its trial points.  None of those that are dropped is lower
than the middle of the three: a probe is rejected because it is not below the start, the
march goes on from a sample only to one that is not above it (`firstDescent_asks`,
`ascend_asks`), and the steps of the search never raise the middle (`Brackets.least`).

So the policy, where it does not stop at a flat slope and finds three points, returns a
point that is lower than the start and not above any other that it has asked for
(`threePoint_lowest`).
-/
import Descent.Proofs.Bracketing.Minimum
import Descent.Proofs.LineSearch.ThreePoint

namespace Descent
set_option autoImplicit false

variable {K : Type} [Field K] [LinearOrder K] {f d : K → K}

/-! ## The march -/

theorem firstDescent_accepts {x δ : K} (falls : f (x + δ) < f x) (halvings : ℕ) :
    Edit.Asks (firstDescent (listed f) x (f x) halvings δ) (.ok (x + δ, f (x + δ), δ)) [x + δ] := by
  cases halvings <;>
  · rw [firstDescent]
    refine .ask ?_
    rw [if_pos falls]
    exact .pure _

/-- The probe that is accepted is below the start and not above the probes before it. -/
theorem firstDescent_asks {x : K} (halvings : ℕ) {δ b fb increment : K}
    (found : firstDescent (known f) x (f x) halvings δ = .ok (b, fb, increment)) :
    fb = f b ∧ f b < f x ∧ ∃ probes,
      Edit.Asks (firstDescent (listed f) x (f x) halvings δ) (.ok (b, fb, increment)) probes ∧
        ∀ t ∈ probes, f b ≤ f t := by
  induction halvings generalizing δ with
  | zero =>
    rw [firstDescent_step] at found
    split at found
    · rename_i falls
      cases found
      exact ⟨rfl, falls, _, firstDescent_accepts falls 0, by simp⟩
    · cases found
  | succ halvings ih =>
    rw [firstDescent_step] at found
    split at found
    · rename_i falls
      cases found
      exact ⟨rfl, falls, _, firstDescent_accepts falls _, by simp⟩
    · rename_i rejected
      obtain ⟨same, lower, probes, asked, least⟩ := ih found
      refine ⟨same, lower, (x + δ) :: probes, ?_, ?_⟩
      · rw [firstDescent]
        refine .ask ?_
        rw [if_neg rejected]
        exact asked
      · simp only [List.mem_cons, forall_eq_or_imp]
        exact ⟨lower.le.trans (not_lt.1 rejected), least⟩

/-- The march goes down until it rises, so that the middle of its last three samples is the lowest. -/
theorem ascend_asks (moves : ℕ) {a b increment : K} {p : K × K × K} (falls : f b ≤ f a)
    (found : ascend (known f) moves a b (f b) increment = .ok (some p)) :
    f p.2.1 ≤ f p.1 ∧ f p.2.1 < f p.2.2 ∧ f p.2.1 ≤ f b ∧ ∃ samples,
      Edit.Asks (ascend (listed f) moves a b (f b) increment) (.ok (some p)) samples ∧
        ∀ t ∈ samples, f p.2.1 ≤ f t := by
  induction moves generalizing a b increment with
  | zero => cases found
  | succ moves ih =>
    rw [ascend_succ] at found
    split at found
    · rename_i rises
      cases found
      refine ⟨falls, rises, le_rfl, [b + increment * 2.0], .ask ?_, by simpa using rises.le⟩
      rw [if_pos rises]
      exact .pure _
    · rename_i level
      obtain ⟨left, right, lower, samples, asked, least⟩ := ih (not_lt.1 level) found
      refine ⟨left, right, lower.trans (not_lt.1 level), (b + increment * 2.0) :: samples,
        .ask ?_, ?_⟩
      · rw [if_neg level]
        exact asked
      · simp only [List.mem_cons, forall_eq_or_imp]
        exact ⟨lower, least⟩

variable [IsStrictOrderedRing K]

theorem bracketTriple_asks {x δ a b c : K} {moves : ℕ} (ahead : 0 < δ)
    (found : bracketTriple (known f) x δ moves = .ok (a, b, c)) :
    Triple.Brackets f ⟨a, b, c⟩ ∧ x ≤ a ∧ f b < f x ∧ ∃ points,
      Edit.Asks (bracketTriple (listed f) x δ moves) (.ok (a, b, c)) points ∧
        ∀ t ∈ points, f b ≤ f t := by
  obtain ⟨start, left, right⟩ := bracketTriple_increasing f moves ahead found
  simp only [bracketTriple, ahead.not_ge, if_false, known, ok_bind, pure_ok] at found
  obtain ⟨⟨b', fb, increment⟩, descended, found⟩ := bind_eq_ok.1 found
  obtain ⟨_ | p, ascended, rest⟩ := bind_eq_ok.1 found
  · cases rest
  cases rest
  obtain ⟨rfl, lower, probes, probed, leastProbe⟩ := firstDescent_asks 5 descended
  obtain ⟨falls, rises, below, samples, sampled, leastSample⟩ :=
    ascend_asks moves lower.le ascended
  refine ⟨⟨left, right, falls, rises.le⟩, start, below.trans_lt lower,
    x :: (probes ++ samples), ?_, ?_⟩
  · simp only [bracketTriple, ahead.not_ge, if_false]
    exact .ask (probed.bind (sampled.finish (.pure _)))
  · simp only [List.mem_cons, List.mem_append]
    rintro t (rfl | probe | sample)
    · exact below.trans lower.le
    · exact below.trans (leastProbe t probe)
    · exact leastSample t sample

/-! ## The search -/

namespace Triple

omit [IsStrictOrderedRing K] in
/-- The middle after some steps is the first one or a trial point. -/
theorem mid_mem (f : K → K) (eps : K) (p : Triple K) (n : ℕ) :
    ((next f eps)^[n] p).mid ∈ p.mid :: trials f eps n p := by
  have step (q : Triple K) : (next f eps q).mid = q.mid ∨ (next f eps q).mid = trial f eps q := by
    unfold next insert
    split <;> split <;> simp
  induction n with
  | zero => exact List.mem_cons_self
  | succ n ih =>
    simp only [trials, List.mem_cons, List.mem_map, List.mem_range] at ih ⊢
    rw [Function.iterate_succ_apply']
    obtain same | tried := step ((next f eps)^[n] p)
    · rw [same]
      obtain first | ⟨i, before, tried⟩ := ih
      · exact .inl first
      · exact .inr ⟨i, by omega, tried⟩
    · exact .inr ⟨n, by omega, tried.symm⟩

end Triple

/-! ## The policy -/

namespace LineSearch

variable {c : LineSearch K} {alpha₀ : K}

omit [IsStrictOrderedRing K] in
/-- The march of the policy finds three points unless it is left to backtracking. -/
theorem bracketTriple_of_finds (kind : c.kind = .threePoint) (finds : ¬ c.FindsNone f) :
    ∃ p, bracketTriple (known f) 0 c.s 100 = .ok p := by
  cases found : bracketTriple (known f) 0 c.s 100 with
  | ok p => exact ⟨p, rfl⟩
  | error e =>
    refine absurd ?_ finds
    rw [FindsNone, kind]
    exact ⟨e, found⟩

/-- The three-point policy, where it neither stops at a flat slope nor is left to backtracking,
returns a step length ahead at which the ray is lower than at the start, and the lowest of all
points that it has asked for: the probes that it rejected, the samples of its march and the
trial points of its search. -/
theorem threePoint_lowest (valid : c.check = .ok c) (kind : c.kind = .threePoint)
    (steep : c.Steep d alpha₀) (finds : ¬ c.FindsNone f) :
    ∃ alpha points, c.search (.known f d) alpha₀ = .ok alpha ∧
      (c.search (.listed f d) alpha₀).outcome [] = (.ok alpha, points) ∧
      0 < alpha ∧ f alpha < f 0 ∧ alpha ∈ points ∧ ∀ t ∈ points, f alpha ≤ f t := by
  have moves := (check_ok_iff.1 valid).moves
  obtain ⟨⟨left, mid, right⟩, found⟩ := bracketTriple_of_finds kind finds
  obtain ⟨brackets, start, lower, march, marched, leastSample⟩ := bracketTriple_asks moves found
  obtain ⟨j, -, -, -, searched⟩ :=
    Triple.asks_search (Triple.placed_exact f c.tol) ⟨left, mid, right⟩ c.maxIterations.toNat
  have least := brackets.least c.tol j
  have member := Triple.mid_mem f c.tol ⟨left, mid, right⟩ j
  obtain ⟨within, ahead, -⟩ := brackets.iterate c.tol j
  generalize ((Triple.next f c.tol)^[j] ⟨left, mid, right⟩) = last at *
  -- the search starts from the lowest point of the march and never goes up
  have below : f last.mid ≤ f mid := least mid (by simp)
  have asked : Edit.Asks (c.search (.listed f d) alpha₀) (.ok last.mid)
      (march ++ ([left, mid, right] ++ Triple.trials f c.tol j ⟨left, mid, right⟩)) := by
    rw [search, kind]
    exact asks_of_steep steep (asks_onBracket marched searched _)
  refine ⟨last.mid, _, search_of_outcome (asked []), asked [],
    (start.trans ahead).trans_lt within.left, below.trans_lt lower, ?_, ?_⟩
  · rw [List.mem_cons] at member
    rcases member with same | tried
    · simp [same]
    · simp [tried]
  · intro t listed
    rw [List.nil_append, List.mem_append] at listed
    rcases listed with sample | tried
    · exact below.trans (leastSample t sample)
    · exact least t tried

/-- Towards a kink at `1`, from a first step length behind it. -/
theorem threePoint_lowest_kink :
    ∃ alpha, ({ standard with kind := .threePoint } : LineSearch ℚ).search
        (.known (fun t => |t - 1|) fun t => if t < 1 then -1 else 1) 2 = .ok alpha ∧
      0 < alpha ∧ |alpha - 1| < 1 := by
  have settings : ({ standard with kind := .threePoint } : LineSearch ℚ).check =
      .ok { standard with kind := .threePoint } :=
    check_ok_iff.2 (by constructor <;> norm_num [standard])
  have steep : ({ standard with kind := .threePoint } : LineSearch ℚ).Steep
      (fun t => if t < 1 then -1 else 1) 2 := by
    norm_num [Steep, standard]
  obtain ⟨a, b, c, found, -⟩ : ∃ a b c : ℚ,
      bracketTriple (known fun t => |t - 1|) 0 0.01 100 = .ok (a, b, c) ∧
        EnclosingTriple (fun t => |t - 1|) 1 a b c :=
    bracketTriple_encloses (unimodal_distance 1) (by norm_num) (by norm_num) (by norm_num)
  have finds : ¬ ({ standard with kind := .threePoint } : LineSearch ℚ).FindsNone
      (fun t => |t - 1|) := by
    rintro ⟨e, lost⟩
    cases found.symm.trans lost
  obtain ⟨alpha, -, searched, -, ahead, lower, -⟩ := threePoint_lowest settings rfl steep finds
  exact ⟨alpha, searched, ahead, by simpa using lower⟩

end LineSearch

end Descent
