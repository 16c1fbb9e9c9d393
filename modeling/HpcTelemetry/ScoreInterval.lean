/-
The score interval of a binomial proportion.

A proportion is accepted if the observed one deviates from it by at most `z`
standard errors.  The accepted proportions are those between the two solutions
of a quadratic equation, and what is known about these follows from which
proportions are accepted.

* `accepts_iff` — the two solutions, in closed form;
* `lower_nonneg`, `lower_le`, `le_upper`, `upper_le_one` — where they are;
* `lower_eq_zero`, `upper_eq_one` — the degenerate ends;
* `lower_mono`, `upper_mono` — they grow with the observed proportion;
* `lower_le_lower`, `upper_le_upper` — more observations narrow the interval.
-/
import Mathlib.Analysis.Real.Sqrt
import Mathlib.Tactic

namespace ScoreInterval

/-- The proportion `p` is not rejected by `n` observations with the mean
`phat`. -/
def Accepts (n z phat p : ℝ) : Prop := (phat - p) ^ 2 ≤ z ^ 2 * p * (1 - p) / n

noncomputable def center (n z phat : ℝ) : ℝ := (phat + z * z / (n + n)) / (1 + z * z / n)

noncomputable def margin (n z phat : ℝ) : ℝ :=
  z * √((phat * (1 - phat) + z * z / (4 * n)) / n) / (1 + z * z / n)

noncomputable def lower (n z phat : ℝ) : ℝ := center n z phat - margin n z phat

noncomputable def upper (n z phat : ℝ) : ℝ := center n z phat + margin n z phat

section Solutions

variable {n z phat : ℝ} (hn : 0 < n) (hz : 0 < z) (h0 : 0 ≤ phat) (h1 : phat ≤ 1)

include hn in
theorem denom_pos (z : ℝ) : 0 < 1 + z * z / n := by
  have hsq : 0 ≤ z * z / n := div_nonneg (mul_self_nonneg z) hn.le
  linarith

include hn hz in
/-- The variance of an accepted proportion is not negative. -/
theorem Accepts.mem_unit {p : ℝ} (h : Accepts n z phat p) : 0 ≤ p ∧ p ≤ 1 := by
  have hvar : 0 ≤ p * (1 - p) := by
    have hle : 0 ≤ z ^ 2 * p * (1 - p) / n := (sq_nonneg _).trans h
    rw [le_div_iff₀ hn, zero_mul, mul_assoc] at hle
    exact nonneg_of_mul_nonneg_right hle (by positivity)
  constructor
  · by_contra hneg
    have hlt := mul_neg_of_neg_of_pos (not_le.mp hneg) (show 0 < 1 - p by linarith)
    linarith
  · by_contra hbig
    have hlt := mul_neg_of_pos_of_neg (show 0 < p by linarith) (show 1 - p < 0 by linarith)
    linarith

include hn h0 h1 in
/-- There is no square root of a negative number. -/
theorem radicand_nonneg (z : ℝ) : 0 ≤ (phat * (1 - phat) + z * z / (4 * n)) / n := by
  have hvar : 0 ≤ phat * (1 - phat) := mul_nonneg h0 (sub_nonneg.mpr h1)
  have hsq : 0 ≤ z * z / (4 * n) := div_nonneg (mul_self_nonneg z) (by linarith)
  exact div_nonneg (add_nonneg hvar hsq) hn.le

include hn hz in
theorem margin_nonneg : 0 ≤ margin n z phat :=
  div_nonneg (mul_nonneg hz.le (Real.sqrt_nonneg _)) (denom_pos hn z).le

include hn h0 h1 in
/-- The square of the margin is what the quadratic inequality leaves to the
deviation from the center. -/
theorem margin_sq_sub (p : ℝ) :
    margin n z phat ^ 2 - (p - center n z phat) ^ 2
      = (z ^ 2 * p * (1 - p) / n - (phat - p) ^ 2) / (1 + z * z / n) := by
  have hdenom := (denom_pos hn z).ne'
  have hsqrt := Real.sq_sqrt (radicand_nonneg hn h0 h1 z)
  rw [margin, center, div_pow, mul_pow, hsqrt]
  field_simp
  ring

include hn hz h0 h1

/-- Inversion of the test: the interval consists of the accepted proportions. -/
theorem accepts_iff (p : ℝ) :
    Accepts n z phat p ↔ lower n z phat ≤ p ∧ p ≤ upper n z phat := by
  have hdenom := denom_pos hn z
  have hsub := @margin_sq_sub n z phat hn h0 h1 p
  have habs : Accepts n z phat p ↔ |p - center n z phat| ≤ margin n z phat := by
    rw [← sq_le_sq₀ (abs_nonneg _) (margin_nonneg hn hz), sq_abs, ← sub_nonneg, hsub,
      le_div_iff₀ hdenom, zero_mul, sub_nonneg]
    rfl
  rw [habs, abs_le, lower, upper]
  constructor
  · rintro ⟨hlow, hhigh⟩
    exact ⟨by linarith, by linarith⟩
  · rintro ⟨hlow, hhigh⟩
    exact ⟨by linarith, by linarith⟩

/-- The ends of the interval are accepted. -/
theorem accepts_lower : Accepts n z phat (lower n z phat) := by
  have hmargin := @margin_nonneg n z phat hn hz
  refine (accepts_iff hn hz h0 h1 _).mpr ⟨le_rfl, ?_⟩
  rw [lower, upper]
  linarith

theorem accepts_upper : Accepts n z phat (upper n z phat) := by
  have hmargin := @margin_nonneg n z phat hn hz
  refine (accepts_iff hn hz h0 h1 _).mpr ⟨?_, le_rfl⟩
  rw [lower, upper]
  linarith

theorem lower_nonneg : 0 ≤ lower n z phat := (accepts_lower hn hz h0 h1).mem_unit hn hz |>.1

theorem upper_le_one : upper n z phat ≤ 1 := (accepts_upper hn hz h0 h1).mem_unit hn hz |>.2

/-- The observed proportion is accepted. -/
theorem accepts_self : Accepts n z phat phat := by
  have hvar : 0 ≤ phat * (1 - phat) := mul_nonneg h0 (sub_nonneg.mpr h1)
  have hright : 0 ≤ z ^ 2 * phat * (1 - phat) / n := by
    rw [mul_assoc]
    positivity
  rw [Accepts, sub_self]
  simpa using hright

theorem lower_le : lower n z phat ≤ phat :=
  ((accepts_iff hn hz h0 h1 phat).mp (accepts_self hn hz h0 h1)).1

theorem le_upper : phat ≤ upper n z phat :=
  ((accepts_iff hn hz h0 h1 phat).mp (accepts_self hn hz h0 h1)).2

theorem lower_eq_zero : lower n z phat = 0 ↔ phat = 0 := by
  constructor
  · intro h
    have haccepts := accepts_lower hn hz h0 h1
    rw [h] at haccepts
    have hsq : phat ^ 2 ≤ 0 := by simpa [Accepts] using haccepts
    exact pow_eq_zero_iff two_ne_zero |>.mp (le_antisymm hsq (sq_nonneg phat))
  · intro h
    have hle := lower_le hn hz h0 h1
    rw [h] at hle ⊢
    exact le_antisymm hle (h ▸ lower_nonneg hn hz h0 h1)

theorem upper_eq_one : upper n z phat = 1 ↔ phat = 1 := by
  constructor
  · intro h
    have haccepts := accepts_upper hn hz h0 h1
    rw [h] at haccepts
    have hsq : (phat - 1) ^ 2 ≤ 0 := by simpa [Accepts] using haccepts
    have hzero := pow_eq_zero_iff two_ne_zero |>.mp (le_antisymm hsq (sq_nonneg _))
    linarith
  · intro h
    have hle := le_upper hn hz h0 h1
    rw [h] at hle ⊢
    exact le_antisymm (h ▸ upper_le_one hn hz h0 h1) hle

end Solutions

/-! ### Monotonicity -/

section Monotone

variable {n n' z phat phat' : ℝ} (hn : 0 < n) (hz : 0 < z) (h0 : 0 ≤ phat) (h1 : phat' ≤ 1)

include hn hz h0 h1

/-- A proportion that is below both of the observed ones deviates less from the
smaller of them. -/
theorem lower_mono (h : phat ≤ phat') : lower n z phat ≤ lower n z phat' := by
  have h1' := h.trans h1
  rcases le_total phat (lower n z phat') with hle | hlt
  · exact (lower_le hn hz h0 h1').trans hle
  · have haccepts := accepts_lower hn hz (h0.trans h) h1
    refine ((accepts_iff hn hz h0 h1' _).mp (le_trans ?_ haccepts)).1
    exact pow_le_pow_left₀ (by linarith) (by linarith) 2

theorem upper_mono (h : phat ≤ phat') : upper n z phat ≤ upper n z phat' := by
  have h0' := h0.trans h
  rcases le_total (upper n z phat) phat' with hle | hlt
  · exact hle.trans (le_upper hn hz h0' h1)
  · have haccepts := accepts_upper hn hz h0 (h.trans h1)
    refine ((accepts_iff hn hz h0' h1 _).mp (le_trans ?_ haccepts)).2
    rw [← neg_sq (phat' - _), ← neg_sq (phat - _)]
    exact pow_le_pow_left₀ (by linarith) (by linarith) 2

end Monotone

section Narrowing

variable {n n' z phat : ℝ} (hn : 0 < n) (hnn : n ≤ n') (hz : 0 < z) (h0 : 0 ≤ phat)
  (h1 : phat ≤ 1)

include hn hnn hz

/-- What more observations accept, fewer do. -/
theorem Accepts.fewer {p : ℝ} (h : Accepts n' z phat p) : Accepts n z phat p := by
  obtain ⟨hp0, hp1⟩ := h.mem_unit (hn.trans_le hnn) hz
  refine h.trans ?_
  have hvar : 0 ≤ z ^ 2 * p * (1 - p) := by
    have := sub_nonneg.mpr hp1
    positivity
  exact div_le_div_of_nonneg_left hvar hn hnn

include h0 h1

theorem lower_le_lower : lower n z phat ≤ lower n' z phat :=
  ((accepts_iff hn hz h0 h1 _).mp
    ((accepts_lower (hn.trans_le hnn) hz h0 h1).fewer hn hnn hz)).1

theorem upper_le_upper : upper n' z phat ≤ upper n z phat :=
  ((accepts_iff hn hz h0 h1 _).mp
    ((accepts_upper (hn.trans_le hnn) hz h0 h1).fewer hn hnn hz)).2

end Narrowing

end ScoreInterval
