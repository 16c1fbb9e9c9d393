/-
The statistical decisions of the evaluation (`_decide`), over the reals.

* `Decision.decide` — the decision on a count of successes;
* `decide_ok` — with successes in range and enough trials of which there is at
  least one, it compares a bound with the threshold;
* `decide_monotone` — decisions are monotone in the evidence.
-/
import HpcTelemetry.WilsonInterval

namespace Eval

open Analysis.Stats ScoreInterval

inductive Verdict where
  | pass
  | fail
  | insufficientEvidence
  deriving DecidableEq

/-- What a decision that rests on an interval records. -/
structure Evidence where
  successes : ℤ
  pointEstimate : ℝ
  wilsonLower : ℝ
  wilsonUpper : ℝ
  boundUsed : ℝ
  threshold : ℝ

/-- What `_decide` returns. -/
structure Decision where
  decision : Verdict
  n : ℤ
  predeclaredN : ℤ
  evidence : Option Evidence

namespace Decision

open Classical in
/-- `_decide`. -/
noncomputable def decide (successes n predeclaredN : ℤ) (upperBoundRule : Bool) (threshold : ℝ) :
    Except StatsError Decision :=
  if n < predeclaredN then .ok ⟨.insufficientEvidence, n, predeclaredN, none⟩
  else do
    let (lower, upper) ← wilsonInterval successes n z95
    let decision : Verdict :=
      if upperBoundRule then if upper ≤ threshold then .pass else .fail
      else if lower ≥ threshold then .pass else .fail
    let boundUsed := if upperBoundRule then upper else lower
    let pointEstimate ← div successes n
    return ⟨decision, n, predeclaredN,
      some ⟨successes, pointEstimate, lower, upper, boundUsed, threshold⟩⟩

/-- The decision is made, and it is this one. -/
def Gives (result : Except StatsError Decision) (verdict : Verdict) : Prop :=
  ∃ d, result = .ok d ∧ d.decision = verdict

theorem z95_pos : 0 < z95 := by norm_num [z95]

section Range

variable {successes n predeclaredN : ℤ} (hn : 1 ≤ n) (h0 : 0 ≤ successes) (h1 : successes ≤ n)

include hn h0 h1

/-- The decision of enough trials. -/
theorem decide_ok (hpredeclared : predeclaredN ≤ n) (upperBoundRule : Bool) (threshold : ℝ) :
    ∃ d, decide successes n predeclaredN upperBoundRule threshold = .ok d ∧
      (d.decision = .pass ↔ if upperBoundRule then upper n z95 (successes / n) ≤ threshold
        else threshold ≤ lower n z95 (successes / n)) := by
  rw [decide, if_neg (by omega), wilsonInterval_eq hn h0 h1 z95_pos]
  simp only [ok_bind, div_ok (cast_pos hn).ne']
  refine ⟨_, rfl, ?_⟩
  cases upperBoundRule with
  | true => simp
  | false => simp

theorem gives_pass_iff (hpredeclared : predeclaredN ≤ n) (upperBoundRule : Bool) (threshold : ℝ) :
    Gives (decide successes n predeclaredN upperBoundRule threshold) .pass ↔
      if upperBoundRule then upper n z95 (successes / n) ≤ threshold
      else threshold ≤ lower n z95 (successes / n) := by
  obtain ⟨d, hd, hpass⟩ := decide_ok hn h0 h1 hpredeclared upperBoundRule threshold
  rw [← hpass, Gives, hd]
  constructor
  · rintro ⟨d', hd', hverdict⟩
    injection hd' with hd'
    rwa [hd']
  · exact fun hverdict => ⟨d, rfl, hverdict⟩

end Range

/-! ### More successes -/

section Successes

variable {successes successes' n : ℤ} (hn : 1 ≤ n) (h0 : 0 ≤ successes)
  (hle : successes ≤ successes') (h1 : successes' ≤ n)

include hn h0 hle h1

/-- Neither bound goes down. -/
theorem bounds_mono {z : ℝ} (hz : 0 < z) :
    lower n z (successes / n) ≤ lower n z (successes' / n) ∧
      upper n z (successes / n) ≤ upper n z (successes' / n) := by
  have hpos := cast_pos hn
  have hphat : (successes : ℝ) / n ≤ successes' / n := by gcongr
  exact ⟨lower_mono hpos hz (phat_nonneg hn h0) (phat_le_one hn h1) hphat,
    upper_mono hpos hz (phat_nonneg hn h0) (phat_le_one hn h1) hphat⟩

variable {predeclaredN : ℤ} (hpredeclared : predeclaredN ≤ n) (threshold : ℝ)

include hpredeclared

theorem pass_of_more_successes (h : Gives (decide successes n predeclaredN false threshold) .pass) :
    Gives (decide successes' n predeclaredN false threshold) .pass := by
  have hbound := (gives_pass_iff hn h0 (hle.trans h1) hpredeclared false threshold).mp h
  have hmono := (bounds_mono hn h0 hle h1 z95_pos).1
  refine (gives_pass_iff hn (h0.trans hle) h1 hpredeclared false threshold).mpr ?_
  simp only [Bool.false_eq_true, if_false] at hbound ⊢
  exact hbound.trans hmono

theorem pass_of_fewer_successes
    (h : Gives (decide successes' n predeclaredN true threshold) .pass) :
    Gives (decide successes n predeclaredN true threshold) .pass := by
  have hbound := (gives_pass_iff hn (h0.trans hle) h1 hpredeclared true threshold).mp h
  have hmono := (bounds_mono hn h0 hle h1 z95_pos).2
  refine (gives_pass_iff hn h0 (hle.trans h1) hpredeclared true threshold).mpr ?_
  simp only [if_true] at hbound ⊢
  exact hmono.trans hbound

end Successes

/-! ### More trials -/

section Trials

variable {successes n k : ℤ} (hn : 1 ≤ n) (h0 : 0 ≤ successes) (h1 : successes ≤ n) (hk : 1 ≤ k)

include hk in
/-- The same proportion of more trials. -/
theorem scaled_proportion : ((k * successes : ℤ) : ℝ) / ((k * n : ℤ) : ℝ) = successes / n := by
  have hk' := (cast_pos hk).ne'
  rw [Int.cast_mul, Int.cast_mul, mul_div_mul_left _ _ hk']

include hn hk in
theorem le_scaled : n ≤ k * n := le_mul_of_one_le_left (by omega) hk

include hn h0 h1 hk

/-- The interval of more trials is contained in that of fewer. -/
theorem bounds_narrow {z : ℝ} (hz : 0 < z) :
    lower n z (successes / n)
        ≤ lower ((k * n : ℤ) : ℝ) z (((k * successes : ℤ) : ℝ) / (k * n : ℤ)) ∧
      upper ((k * n : ℤ) : ℝ) z (((k * successes : ℤ) : ℝ) / (k * n : ℤ))
        ≤ upper n z (successes / n) := by
  have hpos := cast_pos hn
  have hscaled : (n : ℝ) ≤ ((k * n : ℤ) : ℝ) := by exact_mod_cast le_scaled hn hk
  rw [scaled_proportion hk]
  exact ⟨lower_le_lower hpos hscaled hz (phat_nonneg hn h0) (phat_le_one hn h1),
    upper_le_upper hpos hscaled hz (phat_nonneg hn h0) (phat_le_one hn h1)⟩

theorem pass_of_more_trials {predeclaredN : ℤ} (hpredeclared : predeclaredN ≤ n)
    (upperBoundRule : Bool) (threshold : ℝ)
    (h : Gives (decide successes n predeclaredN upperBoundRule threshold) .pass) :
    Gives (decide (k * successes) (k * n) predeclaredN upperBoundRule threshold) .pass := by
  obtain ⟨hlower, hupper⟩ := bounds_narrow hn h0 h1 hk z95_pos
  have hscaled := le_scaled hn hk
  have hbound := (gives_pass_iff hn h0 h1 hpredeclared upperBoundRule threshold).mp h
  refine (gives_pass_iff (by omega) (mul_nonneg (by omega) h0)
    (mul_le_mul_of_nonneg_left h1 (by omega)) (by omega) upperBoundRule threshold).mpr ?_
  cases upperBoundRule with
  | true =>
    simp only [if_true] at hbound ⊢
    exact hupper.trans hbound
  | false =>
    simp only [Bool.false_eq_true, if_false] at hbound ⊢
    exact hbound.trans hlower

end Trials

/-- Decisions are monotone in the evidence: in the successes among `n` trials,
and in the number of trials at one proportion. -/
theorem decide_monotone {successes successes' n predeclaredN : ℤ} (hn : 1 ≤ n)
    (hpredeclared : predeclaredN ≤ n) (threshold : ℝ) (h0 : 0 ≤ successes)
    (hle : successes ≤ successes') (h1 : successes' ≤ n) :
    (Gives (decide successes n predeclaredN false threshold) .pass →
      Gives (decide successes' n predeclaredN false threshold) .pass) ∧
    (Gives (decide successes' n predeclaredN true threshold) .pass →
      Gives (decide successes n predeclaredN true threshold) .pass) ∧
    (∀ z : ℝ, 0 < z → ∃ L U L' U', wilsonInterval successes n z = .ok (L, U) ∧
      wilsonInterval successes' n z = .ok (L', U') ∧ L ≤ L' ∧ U ≤ U') ∧
    ∀ k : ℤ, 1 ≤ k →
      (∀ z : ℝ, 0 < z → ∃ L U L' U', wilsonInterval successes n z = .ok (L, U) ∧
        wilsonInterval (k * successes) (k * n) z = .ok (L', U') ∧
        Set.Icc L' U' ⊆ Set.Icc L U) ∧
      ∀ upperBoundRule, Gives (decide successes n predeclaredN upperBoundRule threshold) .pass →
        Gives (decide (k * successes) (k * n) predeclaredN upperBoundRule threshold) .pass := by
  have h1' := hle.trans h1
  have h0' := h0.trans hle
  refine ⟨pass_of_more_successes hn h0 hle h1 hpredeclared threshold,
    pass_of_fewer_successes hn h0 hle h1 hpredeclared threshold, fun z hz => ?_,
    fun k hk => ⟨fun z hz => ?_, fun rule => pass_of_more_trials hn h0 h1' hk hpredeclared rule _⟩⟩
  · obtain ⟨hlower, hupper⟩ := bounds_mono hn h0 hle h1 hz
    exact ⟨_, _, _, _, wilsonInterval_eq hn h0 h1' hz, wilsonInterval_eq hn h0' h1 hz,
      hlower, hupper⟩
  · obtain ⟨hlower, hupper⟩ := bounds_narrow hn h0 h1' hk hz
    have hscaled := le_scaled hn hk
    exact ⟨_, _, _, _, wilsonInterval_eq hn h0 h1' hz,
      wilsonInterval_eq (by omega) (mul_nonneg (by omega) h0)
        (mul_le_mul_of_nonneg_left h1' (by omega)) hz, Set.Icc_subset_Icc hlower hupper⟩

/-- Eight detections in ten trials pass a threshold of two fifths; so do nine,
and eighty in a hundred. -/
theorem decide_monotone_example :
    Gives (decide 9 10 10 false (2 / 5)) .pass ∧
      Gives (decide (10 * 8) (10 * 10) 10 false (2 / 5)) .pass := by
  have hpass : Gives (decide 8 10 10 false (2 / 5)) .pass := by
    refine (gives_pass_iff (by norm_num) (by norm_num) (by norm_num) le_rfl false _).mpr ?_
    show (2 / 5 : ℝ) ≤ lower _ z95 _
    -- two fifths are rejected by eight of ten
    by_contra hlow
    have hmean : (2 / 5 : ℝ) ≤ ((8 : ℤ) : ℝ) / ((10 : ℤ) : ℝ) := by norm_num
    have hhigh := hmean.trans (le_upper (z := z95) (n := ((10 : ℤ) : ℝ)) (by norm_num) z95_pos
      (by norm_num) (by norm_num))
    have haccepts := (accepts_iff (by norm_num) z95_pos (by norm_num) (by norm_num) _).mpr
      ⟨(not_le.mp hlow).le, hhigh⟩
    norm_num [Accepts, z95] at haccepts
  obtain ⟨hmore, _, _, hlarger⟩ := decide_monotone (by norm_num) le_rfl (2 / 5)
    (by norm_num : (0 : ℤ) ≤ 8) (by norm_num : (8 : ℤ) ≤ 9) (by norm_num : (9 : ℤ) ≤ 10)
  exact ⟨hmore hpass, (hlarger 10 (by norm_num)).2 false hpass⟩

end Decision

end Eval
