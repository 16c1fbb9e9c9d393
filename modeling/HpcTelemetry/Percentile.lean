/-
The percentiles of the benchmark (`_percentile`).

Arithmetic is exact, and a percentile lies between the two order statistics
around its rank.

* `percentile_eq` — the function interpolates between the ranks of the list, and
  reads valid indices;
* `percentile_coherent` — its bounds, its order, and what it is at 0, 50 and 100.
-/
import HpcTelemetry.DoubleArithmetic
import HpcTelemetry.Interpolation
import HpcTelemetry.PythonSequences

namespace Benchmark

open OrderStatistics PythonSequences

/-- `int(k)` rounds towards zero. -/
def truncate (k : ℚ) : ℤ := k.num.tdiv k.den

/-- The rank `k` of a percentile among `n` ordered values. -/
def fractionalRank (n : ℕ) (pct : ℚ) : ℚ := ((n : ℚ) - 1) * (pct / 100)

/-- The index `f`. -/
def lowerIndex (n : ℕ) (pct : ℚ) : ℤ := truncate (fractionalRank n pct)

/-- The index `c`. -/
def upperIndex (n : ℕ) (pct : ℚ) : ℤ := min (lowerIndex n pct + 1) ((n : ℤ) - 1)

/-- `_percentile`. -/
def percentile (values : List ℚ) (pct : ℚ) : Option Double :=
  if values = [] then some .nan
  else do
    let ordered := values.insertionSort (· ≤ ·)
    let k := fractionalRank ordered.length pct
    let f := lowerIndex ordered.length pct
    let c := upperIndex ordered.length pct
    if f = c then return .finite (← getItem ordered f)
    else
      let lower ← getItem ordered f
      let upper ← getItem ordered c
      return .finite (lower + (upper - lower) * (k - f))

/-! ### Indices -/

theorem truncate_of_nonneg {k : ℚ} (hk : 0 ≤ k) : truncate k = ⌊k⌋₊ := by
  rw [truncate, Int.tdiv_eq_ediv_of_nonneg (Rat.num_nonneg.mpr hk), ← Rat.floor_def']
  exact (Int.natCast_floor_eq_floor hk).symm

section Indices

variable {n : ℕ} {pct : ℚ}

theorem fractionalRank_nonneg (hn : 0 < n) (hpct : 0 ≤ pct) : 0 ≤ fractionalRank n pct := by
  have hlast : (1 : ℚ) ≤ n := by exact_mod_cast hn
  exact mul_nonneg (by linarith) (by linarith)

theorem fractionalRank_mono (hn : 0 < n) {p q : ℚ} (h : p ≤ q) :
    fractionalRank n p ≤ fractionalRank n q := by
  have hlast : (1 : ℚ) ≤ n := by exact_mod_cast hn
  rw [fractionalRank, fractionalRank]
  gcongr

theorem fractionalRank_hundred : fractionalRank n 100 = n - 1 := by
  rw [fractionalRank, div_self (by norm_num), mul_one]

theorem lowerIndex_eq (hn : 0 < n) (hpct : 0 ≤ pct) :
    lowerIndex n pct = (⌊fractionalRank n pct⌋₊ : ℤ) :=
  truncate_of_nonneg (fractionalRank_nonneg hn hpct)

theorem floor_lt (hn : 0 < n) (hpct' : pct ≤ 100) : ⌊fractionalRank n pct⌋₊ < n := by
  have hle := Nat.floor_le_floor (fractionalRank_mono hn hpct')
  have hlast : fractionalRank n 100 = ((n - 1 : ℕ) : ℚ) := by
    rw [fractionalRank_hundred, Nat.cast_sub hn, Nat.cast_one]
  rw [hlast, Nat.floor_natCast] at hle
  omega

theorem upperIndex_eq (hn : 0 < n) (hpct : 0 ≤ pct) :
    upperIndex n pct = ((min (⌊fractionalRank n pct⌋₊ + 1) (n - 1) : ℕ) : ℤ) := by
  rw [upperIndex, lowerIndex_eq hn hpct]
  omega

end Indices

theorem getItem_ordered {values : List ℚ} {i : ℕ} (hi : i < values.length) :
    getItem (values.insertionSort (· ≤ ·)) i = some (rank values i) := by
  have hi' : i < (values.insertionSort (· ≤ ·)).length := by rwa [List.length_insertionSort]
  rw [getItem_natCast hi', rank, min_eq_left (by omega), orderStatistic,
    List.getD_eq_getElem _ _ hi']

/-- Both indices are valid, and the value interpolates between their ranks. -/
theorem percentile_eq {values : List ℚ} (hvalues : values ≠ []) {pct : ℚ} (hpct : 0 ≤ pct)
    (hpct' : pct ≤ 100) :
    percentile values pct
      = some (.finite (interpolate (rank values) (fractionalRank values.length pct))) := by
  have hn := List.length_pos_iff.mpr hvalues
  have hfloor := floor_lt hn hpct'
  rw [percentile, if_neg hvalues]
  simp only [List.length_insertionSort, lowerIndex_eq hn hpct, upperIndex_eq hn hpct,
    Option.bind_eq_bind, Option.pure_def]
  generalize fractionalRank values.length pct = k at hfloor
  rw [getItem_ordered hfloor, getItem_ordered (by omega), Option.bind_some, Option.bind_some,
    Option.bind_some, interpolate, Int.cast_natCast]
  split_ifs with heq
  · -- the last rank
    have hlast : rank values (⌊k⌋₊ + 1) = rank values ⌊k⌋₊ := by
      have hindex : min (⌊k⌋₊ + 1) (values.length - 1) = min ⌊k⌋₊ (values.length - 1) := by omega
      rw [rank, rank, hindex]
    rw [hlast, sub_self, zero_mul, add_zero]
  · have hupper : rank values (min (⌊k⌋₊ + 1) (values.length - 1)) = rank values (⌊k⌋₊ + 1) := by
      rw [rank, rank, min_assoc, min_self]
    rw [hupper]

/-! ### Coherence -/

theorem fractionalRank_zero {n : ℕ} : fractionalRank n 0 = ((0 : ℕ) : ℚ) := by
  rw [fractionalRank, zero_div, mul_zero, Nat.cast_zero]

theorem fractionalRank_fifty {n : ℕ} (hn : 0 < n) :
    fractionalRank n 50 = ((n - 1 : ℕ) : ℚ) / 2 := by
  rw [fractionalRank, Nat.cast_sub hn, Nat.cast_one]
  ring

/-- Increased data have no smaller percentile. -/
theorem percentile_le_of_forall₂ {values values' : List ℚ} (hvalues : values ≠ [])
    (h : List.Forall₂ (· ≤ ·) values values') {p : ℚ} (hp : 0 ≤ p) (hp' : p ≤ 100) :
    ∃ v w, percentile values p = some (.finite v) ∧ percentile values' p = some (.finite w) ∧
      v ≤ w := by
  have hn := List.length_pos_iff.mpr hvalues
  have hvalues' : values' ≠ [] := List.length_pos_iff.mp (h.length_eq ▸ hn)
  refine ⟨_, _, percentile_eq hvalues hp hp', percentile_eq hvalues' hp hp', ?_⟩
  rw [← h.length_eq]
  exact interpolate_le_interpolate (rank_le_of_forall₂ hvalues h) (fractionalRank_nonneg hn hp)

/-- What percentiles of a list promise, for two percentages in order. -/
structure Coherent (values : List ℚ) (p q : ℚ) : Prop where
  indices : 0 ≤ lowerIndex values.length p ∧
    lowerIndex values.length p ≤ upperIndex values.length p ∧
    upperIndex values.length p < values.length
  within : ∃ least greatest v, IsLeast {x | x ∈ values} least ∧
    IsGreatest {x | x ∈ values} greatest ∧ percentile values p = some (.finite v) ∧
    least ≤ v ∧ v ≤ greatest
  monotone : ∃ v w, percentile values p = some (.finite v) ∧
    percentile values q = some (.finite w) ∧ v ≤ w
  order : ∀ values', values.Perm values' → percentile values p = percentile values' p
  least : ∃ least, IsLeast {x | x ∈ values} least ∧ percentile values 0 = some (.finite least)
  greatest : ∃ greatest, IsGreatest {x | x ∈ values} greatest ∧
    percentile values 100 = some (.finite greatest)
  median : percentile values 50 = some (.finite (median values))
  increase : ∀ i (hi : i < values.length) x, values[i] ≤ x →
    ∃ v w, percentile values p = some (.finite v) ∧
      percentile (values.set i x) p = some (.finite w) ∧ v ≤ w

/-- Percentiles are coherent. -/
theorem percentile_coherent {values : List ℚ} (hvalues : values ≠ []) {p q : ℚ} (hp : 0 ≤ p)
    (hpq : p ≤ q) (hq : q ≤ 100) : Coherent values p q := by
  have hn := List.length_pos_iff.mpr hvalues
  have hp' := hpq.trans hq
  have hrank := fractionalRank_nonneg hn hp
  have hmono := rank_mono hvalues
  have hzero : percentile values 0 = some (.finite (rank values 0)) := by
    rw [percentile_eq hvalues le_rfl (by norm_num), fractionalRank_zero, interpolate_natCast]
  have hhundred : percentile values 100 = some (.finite (rank values (values.length - 1))) := by
    rw [percentile_eq hvalues (by norm_num) le_rfl, fractionalRank_hundred, ← Nat.cast_one,
      ← Nat.cast_sub hn, interpolate_natCast]
  have hlast := (rank_last hvalues).2
  constructor
  · rw [lowerIndex_eq hn hp, upperIndex_eq hn hp]
    have hfloor := floor_lt hn hp'
    omega
  · refine ⟨_, _, _, rank_zero hvalues, rank_last hvalues, percentile_eq hvalues hp hp', ?_, ?_⟩
    · exact (hmono (Nat.zero_le _)).trans (le_interpolate hmono hrank)
    · exact (interpolate_le hmono hrank).trans (hlast (rank_mem hvalues _))
  · exact ⟨_, _, percentile_eq hvalues hp hp', percentile_eq hvalues (hp.trans hpq) hq,
      interpolate_mono hmono hrank (fractionalRank_mono hn hpq)⟩
  · intro values' hperm
    have hvalues' : values' ≠ [] := fun h => hvalues (List.perm_nil.mp (h ▸ hperm))
    rw [percentile_eq hvalues hp hp', percentile_eq hvalues' hp hp', rank_perm hperm,
      hperm.length_eq]
  · exact ⟨_, rank_zero hvalues, hzero⟩
  · exact ⟨_, rank_last hvalues, hhundred⟩
  · rw [percentile_eq hvalues (by norm_num) (by norm_num), fractionalRank_fifty hn,
      median_eq_interpolate hvalues]
  · intro i hi x hx
    exact percentile_le_of_forall₂ hvalues (forall₂_set hi hx) hp hp'

theorem percentile_coherent_example : Coherent [4, 1, 3] 50 95 :=
  percentile_coherent (by simp) (by norm_num) (by norm_num) (by norm_num)

example : percentile [4, 1, 3] 95 = some (.finite (39 / 10)) := by decide +kernel

end Benchmark
