/-
Wilson's interval (`wilson_interval`), over the reals.

* `wilsonInterval` — the function as it computes, with the exceptions that
  divisions and the square root could raise;
* `wilsonInterval_eq` — none of these is raised, and the clamps change nothing;
* `wilsonInterval_characterisation` — the interval is the inversion of the score
  test.
-/
import HpcTelemetry.ScoreInterval

namespace Analysis.Stats

open ScoreInterval

/-- The exceptions of the statistics. -/
inductive StatsError where
  | valueError (message : String)
  | zeroDivisionError
  deriving DecidableEq

/-- `a / b`. -/
noncomputable def div (a b : ℝ) : Except StatsError ℝ :=
  if b = 0 then .error .zeroDivisionError else .ok (a / b)

/-- `math.sqrt`. -/
noncomputable def sqrt (x : ℝ) : Except StatsError ℝ :=
  if x < 0 then .error (.valueError "math domain error") else .ok (Real.sqrt x)

/-- `Z_95`. -/
noncomputable def z95 : ℝ := 1.959963984540054

def outOfRange (successes n : ℤ) : StatsError :=
  .valueError ("successes (" ++ toString successes ++ ") must be within [0, n=" ++ toString n ++
    "]")

/-- `wilson_interval`. -/
noncomputable def wilsonInterval (successes n : ℤ) (z : ℝ) : Except StatsError (ℝ × ℝ) :=
  if n = 0 then .ok (0, 1)
  else if successes < 0 ∨ successes > n then .error (outOfRange successes n)
  else do
    let phat ← div successes n
    let zSq := z * z
    let denom := 1 + (← div zSq n)
    let center ← div (phat + (← div zSq (2 * n : ℤ))) denom
    let margin ← div (z * (← sqrt (← div (phat * (1 - phat) + (← div zSq (4 * n : ℤ))) n))) denom
    return (max 0 (center - margin), min 1 (center + margin))

/-! ### Without exceptions -/

theorem ok_bind {α β : Type} (a : α) (f : α → Except StatsError β) : (Except.ok a >>= f) = f a :=
  rfl

theorem div_ok {a b : ℝ} (h : b ≠ 0) : div a b = .ok (a / b) := if_neg h

theorem sqrt_ok {x : ℝ} (h : 0 ≤ x) : sqrt x = .ok (Real.sqrt x) := if_neg (not_lt.mpr h)

section Range

variable {successes n : ℤ} (hn : 1 ≤ n) (h0 : 0 ≤ successes) (h1 : successes ≤ n)

include hn in
theorem cast_pos : (0 : ℝ) < n := by
  exact_mod_cast (show 0 < n by omega)

include hn h0 in
theorem phat_nonneg : (0 : ℝ) ≤ successes / n :=
  div_nonneg (by exact_mod_cast h0) (cast_pos hn).le

include hn h1 in
theorem phat_le_one : (successes : ℝ) / n ≤ 1 :=
  div_le_one_of_le₀ (by exact_mod_cast h1) (cast_pos hn).le

include hn h0 h1

/-- With successes in range nothing is raised, whatever `z` is. -/
theorem wilsonInterval_ok (z : ℝ) :
    wilsonInterval successes n z
      = .ok (max 0 (lower n z (successes / n)), min 1 (upper n z (successes / n))) := by
  have hpos := cast_pos hn
  have hdenom := (denom_pos hpos z).ne'
  have hradicand := radicand_nonneg hpos (phat_nonneg hn h0) (phat_le_one hn h1) z
  have htwo : ((2 * n : ℤ) : ℝ) = n + n := by rw [two_mul, Int.cast_add]
  have hfour : ((4 * n : ℤ) : ℝ) = 4 * n := by rw [Int.cast_mul, Int.cast_ofNat]
  have htwo' : (n : ℝ) + n ≠ 0 := by positivity
  have hfour' : (4 : ℝ) * n ≠ 0 := by positivity
  rw [wilsonInterval, if_neg (by omega), if_neg (by omega), htwo, hfour]
  simp only [div_ok hpos.ne', div_ok htwo', div_ok hfour', div_ok hdenom, sqrt_ok hradicand,
    ok_bind]
  rfl

/-- Neither clamp changes a bound. -/
theorem wilsonInterval_eq {z : ℝ} (hz : 0 < z) :
    wilsonInterval successes n z
      = .ok (lower n z (successes / n), upper n z (successes / n)) := by
  have hpos := cast_pos hn
  have hphat0 := phat_nonneg hn h0
  have hphat1 := phat_le_one hn h1
  rw [wilsonInterval_ok hn h0 h1, max_eq_right (lower_nonneg hpos hz hphat0 hphat1),
    min_eq_right (upper_le_one hpos hz hphat0 hphat1)]

end Range

/-- What the function raises, and when. -/
theorem wilsonInterval_raises (successes n : ℤ) (z : ℝ) :
    (∃ e, wilsonInterval successes n z = .error e) ↔ n ≠ 0 ∧ (successes < 0 ∨ successes > n) := by
  constructor
  · rintro ⟨e, he⟩
    by_contra hrange
    by_cases hn : n = 0
    · rw [wilsonInterval, if_pos hn] at he
      cases he
    · have hin : ¬ (successes < 0 ∨ successes > n) := fun h => hrange ⟨hn, h⟩
      rw [wilsonInterval_ok (by omega) (by omega) (by omega)] at he
      cases he
  · rintro ⟨hn, hrange⟩
    exact ⟨_, by rw [wilsonInterval, if_neg hn, if_pos hrange]⟩

/-! ### Inversion of the score test -/

/-- The interval `(L, U)` inverts the score test of `successes` out of `n`, and
has all its consequences. -/
structure InvertsScoreTest (successes n : ℤ) (z L U : ℝ) : Prop where
  mem_iff : ∀ p : ℝ, p ∈ Set.Icc L U ↔
    ((successes : ℝ) / n - p) ^ 2 ≤ z ^ 2 * p * (1 - p) / n
  lower_nonneg : 0 ≤ L
  lower_le : L ≤ (successes : ℝ) / n
  le_upper : (successes : ℝ) / n ≤ U
  upper_le_one : U ≤ 1
  /-- The bounds are what is clamped. -/
  unclamped : L = center n z (successes / n) - margin n z (successes / n) ∧
    U = center n z (successes / n) + margin n z (successes / n)
  lower_eq_zero : L = 0 ↔ successes = 0
  upper_eq_one : U = 1 ↔ successes = n

theorem invertsScoreTest {successes n : ℤ} (hn : 1 ≤ n) (h0 : 0 ≤ successes) (h1 : successes ≤ n)
    {z : ℝ} (hz : 0 < z) :
    InvertsScoreTest successes n z (lower n z (successes / n)) (upper n z (successes / n)) := by
  have hpos := cast_pos hn
  have hphat0 := phat_nonneg hn h0
  have hphat1 := phat_le_one hn h1
  constructor
  · exact fun p => (accepts_iff hpos hz hphat0 hphat1 p).symm
  · exact ScoreInterval.lower_nonneg hpos hz hphat0 hphat1
  · exact ScoreInterval.lower_le hpos hz hphat0 hphat1
  · exact ScoreInterval.le_upper hpos hz hphat0 hphat1
  · exact ScoreInterval.upper_le_one hpos hz hphat0 hphat1
  · exact ⟨rfl, rfl⟩
  · rw [ScoreInterval.lower_eq_zero hpos hz hphat0 hphat1, div_eq_zero_iff]
    simp [hpos.ne']
  · rw [ScoreInterval.upper_eq_one hpos hz hphat0 hphat1, div_eq_one_iff_eq hpos.ne', Int.cast_inj]

/-- With trials and with successes in range the interval inverts the score test,
and only successes out of range raise an exception. -/
theorem wilsonInterval_characterisation (successes n : ℤ) (z : ℝ) :
    (1 ≤ n → 0 ≤ successes → successes ≤ n → 0 < z →
      ∃ L U, wilsonInterval successes n z = .ok (L, U) ∧ InvertsScoreTest successes n z L U) ∧
    ((∃ e, wilsonInterval successes n z = .error e) ↔
      n ≠ 0 ∧ (successes < 0 ∨ successes > n)) := by
  refine ⟨fun hn h0 h1 hz => ?_, wilsonInterval_raises successes n z⟩
  exact ⟨_, _, wilsonInterval_eq hn h0 h1 hz, invertsScoreTest hn h0 h1 hz⟩

theorem wilsonInterval_characterisation_example :
    ∃ L U, wilsonInterval 5 10 z95 = .ok (L, U) ∧ InvertsScoreTest 5 10 z95 L U :=
  (wilsonInterval_characterisation 5 10 z95).1 (by norm_num) (by norm_num) (by norm_num)
    (by norm_num [z95])

end Analysis.Stats
