/-
Linear interpolation between ranks.

* `interpolate` — between the values at the two integers around a rank;
* `interpolate_mono` — a greater rank has no smaller value, across the integers
  too;
* `interpolate_le_interpolate` — nor do greater data have smaller values;
* `interpolate_half` — halfway the two middle values are averaged;
* `rank` — the order statistics of a list, with the last one for all ranks
  behind it;
* `orderStatistic_le_of_forall₂` — how the ranks move when the data grow.
-/
import HpcTelemetry.Median
import Mathlib.Algebra.Order.Floor.Semiring

namespace OrderStatistics

section Interpolate

variable {K : Type*} [Field K] [LinearOrder K] [FloorSemiring K]

/-- The value at a rank between integers. -/
def interpolate (x : ℕ → K) (k : K) : K :=
  x ⌊k⌋₊ + (x (⌊k⌋₊ + 1) - x ⌊k⌋₊) * (k - ⌊k⌋₊)

/-- The value is a mean with weights. -/
theorem interpolate_eq (x : ℕ → K) (k : K) :
    interpolate x k = (1 - (k - ⌊k⌋₊)) * x ⌊k⌋₊ + (k - ⌊k⌋₊) * x (⌊k⌋₊ + 1) := by
  rw [interpolate]
  ring

variable [IsStrictOrderedRing K] {x y : ℕ → K} {k l : K}

theorem interpolate_natCast (i : ℕ) : interpolate x (i : K) = x i := by
  rw [interpolate, Nat.floor_natCast, sub_self, mul_zero, add_zero]

/-- How far a rank is behind an integer. -/
theorem sub_floor_mem (hk : 0 ≤ k) : 0 ≤ k - ⌊k⌋₊ ∧ k - ⌊k⌋₊ ≤ 1 := by
  have hfloor := Nat.floor_le hk
  have hceil := (Nat.lt_floor_add_one k).le
  constructor
  · linarith
  · linarith

theorem le_interpolate (hx : Monotone x) (hk : 0 ≤ k) : x ⌊k⌋₊ ≤ interpolate x k := by
  have hstep : 0 ≤ x (⌊k⌋₊ + 1) - x ⌊k⌋₊ := sub_nonneg.mpr (hx (Nat.le_succ _))
  exact le_add_of_nonneg_right (mul_nonneg hstep (sub_floor_mem hk).1)

theorem interpolate_le (hx : Monotone x) (hk : 0 ≤ k) : interpolate x k ≤ x (⌊k⌋₊ + 1) := by
  have hstep : 0 ≤ x (⌊k⌋₊ + 1) - x ⌊k⌋₊ := sub_nonneg.mpr (hx (Nat.le_succ _))
  calc interpolate x k
      ≤ x ⌊k⌋₊ + (x (⌊k⌋₊ + 1) - x ⌊k⌋₊) * 1 := by
        rw [interpolate]
        gcongr
        exact (sub_floor_mem hk).2
    _ = x (⌊k⌋₊ + 1) := by ring

/-- Within a cell the value grows with the rank, and between two cells there is
an integer. -/
theorem interpolate_mono (hx : Monotone x) (hk : 0 ≤ k) (hkl : k ≤ l) :
    interpolate x k ≤ interpolate x l := by
  rcases (Nat.floor_le_floor hkl).eq_or_lt with heq | hlt
  · have hstep : 0 ≤ x (⌊l⌋₊ + 1) - x ⌊l⌋₊ := sub_nonneg.mpr (hx (Nat.le_succ _))
    rw [interpolate, interpolate, heq]
    gcongr
  · calc interpolate x k
        ≤ x (⌊k⌋₊ + 1) := interpolate_le hx hk
      _ ≤ x ⌊l⌋₊ := hx hlt
      _ ≤ interpolate x l := le_interpolate hx (hk.trans hkl)

theorem interpolate_le_interpolate (h : ∀ i, x i ≤ y i) (hk : 0 ≤ k) :
    interpolate x k ≤ interpolate y k := by
  obtain ⟨hzero, hone⟩ := sub_floor_mem hk
  have hweight : 0 ≤ 1 - (k - ⌊k⌋₊) := sub_nonneg.mpr hone
  rw [interpolate_eq, interpolate_eq]
  gcongr
  · exact h _
  · exact h _

theorem interpolate_half (x : ℕ → K) (i : ℕ) :
    interpolate x ((i : K) / 2) = (x (i / 2) + x ((i + 1) / 2)) / 2 := by
  obtain ⟨j, hj | hj⟩ := Nat.even_or_odd' i
  · subst hj
    have hhalf : ((2 * j : ℕ) : K) / 2 = j := by
      push_cast
      ring
    rw [hhalf, interpolate_natCast, show 2 * j / 2 = j by omega, show (2 * j + 1) / 2 = j by omega,
      add_self_div_two]
  · subst hj
    have hhalf : ((2 * j + 1 : ℕ) : K) / 2 = j + 1 / 2 := by
      push_cast
      ring
    have hfloor : ⌊(j : K) + 1 / 2⌋₊ = j := by
      rw [Nat.floor_eq_iff (by positivity)]
      constructor
      · linarith
      · linarith
    rw [hhalf, interpolate, hfloor, show (2 * j + 1) / 2 = j by omega,
      show (2 * j + 1 + 1) / 2 = j + 1 by omega]
    ring

end Interpolate

/-! ### Ranks of a list -/

theorem countP_le_of_forall₂ {K : Type*} [LinearOrder K] {data data' : List K}
    (h : List.Forall₂ (· ≤ ·) data data') (t : K) :
    data'.countP (fun x => x ≤ t) ≤ data.countP fun x => x ≤ t := by
  induction h with
  | nil => exact le_rfl
  | @cons a b l l' hab _ ih =>
    rw [List.countP_cons, List.countP_cons]
    by_cases hb : b ≤ t
    · simp only [hb, hab.trans hb, decide_true, if_true]
      omega
    · simp only [hb, decide_false, Bool.false_eq_true, if_false]
      omega

/-- One of the data goes up. -/
theorem forall₂_set {K : Type*} [Preorder K] {data : List K} {i : ℕ} (hi : i < data.length) {x : K}
    (hx : data[i] ≤ x) : List.Forall₂ (· ≤ ·) data (data.set i x) := by
  refine List.forall₂_iff_get.mpr ⟨by simp, fun j hj _ => ?_⟩
  simp only [List.get_eq_getElem, List.getElem_set]
  split_ifs with hij
  · subst hij
    exact hx
  · exact le_rfl

section Ranks

variable {K : Type*} [LinearOrder K] [Zero K]

/-- The order statistic of rank `i`; behind the last rank there is nothing
greater. -/
def rank (data : List K) (i : ℕ) : K := orderStatistic data (min i (data.length - 1))

variable {data data' : List K}

theorem rank_mono (h : data ≠ []) : Monotone (rank data) := by
  intro i j hij
  have hpos := List.length_pos_iff.mpr h
  exact orderStatistic_mono (by omega) (by omega)

theorem rank_perm (h : data.Perm data') : rank data = rank data' := by
  have hsorted : data.insertionSort (· ≤ ·) = data'.insertionSort (· ≤ ·) :=
    List.Perm.eq_of_pairwise (fun a b _ _ => le_antisymm) (List.pairwise_insertionSort _ data)
      (List.pairwise_insertionSort _ data') ((List.perm_insertionSort _ data).trans
        (h.trans (List.perm_insertionSort _ data').symm))
  funext i
  rw [rank, rank, orderStatistic, orderStatistic, hsorted, h.length_eq]

theorem rank_mem (h : data ≠ []) (i : ℕ) : rank data i ∈ data := by
  have hpos := List.length_pos_iff.mpr h
  exact orderStatistic_mem (by omega)

/-- No rank goes down when data go up. -/
theorem orderStatistic_le_of_forall₂ (h : List.Forall₂ (· ≤ ·) data data') {i : ℕ}
    (hi : i < data.length) : orderStatistic data i ≤ orderStatistic data' i :=
  orderStatistic_le_of_forall hi (h.length_eq ▸ hi) fun hlt =>
    hlt.trans_le (countP_le_of_forall₂ h _)

theorem rank_le_of_forall₂ (hdata : data ≠ []) (h : List.Forall₂ (· ≤ ·) data data') (i : ℕ) :
    rank data i ≤ rank data' i := by
  have hpos := List.length_pos_iff.mpr hdata
  rw [rank, rank, ← h.length_eq]
  exact orderStatistic_le_of_forall₂ h (by omega)

/-- The least of the data. -/
theorem rank_zero (h : data ≠ []) : IsLeast {x | x ∈ data} (rank data 0) := by
  refine ⟨rank_mem h 0, fun x hx => ?_⟩
  have hpos := List.length_pos_iff.mpr h
  exact (orderStatistic_le_iff (by omega)).mpr (by
    rw [Nat.zero_min]
    exact List.countP_pos_iff.mpr ⟨x, hx, by simp⟩)

/-- The greatest of the data. -/
theorem rank_last (h : data ≠ []) : IsGreatest {x | x ∈ data} (rank data (data.length - 1)) := by
  refine ⟨rank_mem h _, fun x hx => ?_⟩
  have hpos := List.length_pos_iff.mpr h
  have hlast := (orderStatistic_le_iff (show data.length - 1 < data.length by omega)).mp le_rfl
  have hall : data.countP (fun y => y ≤ orderStatistic data (data.length - 1)) = data.length :=
    le_antisymm List.countP_le_length (by omega)
  rw [rank, min_self]
  exact of_decide_eq_true (List.countP_eq_length.mp hall x hx)

end Ranks

theorem median_eq_interpolate {K : Type*} [Field K] [LinearOrder K] [IsStrictOrderedRing K]
    [FloorSemiring K] {data : List K} (h : data ≠ []) :
    median data = interpolate (rank data) (((data.length - 1 : ℕ) : K) / 2) := by
  have hpos := List.length_pos_iff.mpr h
  rw [median_eq_orderStatistic, interpolate_half, rank, rank, min_eq_left (by omega),
    min_eq_left (by omega), Nat.sub_add_cancel hpos]

end OrderStatistics
