/-
Ranks in sorted data, and what moves a median.

* `holds_orderStatistic_iff` — the item of rank `i` has a property that is
  closed downwards iff more than `i` items have it: ranks are found by counting;
* `median_eq_orderStatistic` — the median is the mean of two middle ranks, of
  one and the same rank if the number of data is odd;
* `median_perm`, `median_map` — the median does not depend on the order of the
  data, and commutes with an affine change of scale;
* `median_congr_above` — less than half of the data may be changed above a
  bound without moving the median;
* `lt_two_mul_median` — what half of some nonnegative data exceed, the median
  exceeds by half;
* `median_cons_median`, `median_cons_zero_le` — one more copy of the median, and
  one more zero.
-/
import HpcTelemetry.OrderStatistics
import Mathlib.Data.List.GetD

namespace OrderStatistics

/-! ### Ranks -/

section Ranks

variable {K : Type*} [LinearOrder K] [Zero K]

/-- The item of rank `i`, counted from zero, in the sorted data. -/
def orderStatistic (data : List K) (i : ℕ) : K := (data.insertionSort (· ≤ ·)).getD i 0

/-- In a sorted list the items with a property that is closed downwards are the
first ones. -/
theorem holds_getD_iff {sorted : List K} (hs : sorted.Pairwise (· ≤ ·)) {p : K → Bool}
    (hp : ∀ a b, a ≤ b → p b → p a) {i : ℕ} (hi : i < sorted.length) :
    p (sorted.getD i 0) ↔ i < sorted.countP p := by
  induction sorted generalizing i with
  | nil => simp at hi
  | cons a sorted ih =>
    obtain ⟨ha, hs⟩ := List.pairwise_cons.mp hs
    by_cases hpa : p a = true
    · rw [List.countP_cons_of_pos hpa]
      cases i with
      | zero => simp [hpa]
      | succ i =>
        rw [List.getD_cons_succ, ih hs (Nat.lt_of_succ_lt_succ hi)]
        omega
    · -- no item behind `a` has the property
      have hnone : ∀ b ∈ a :: sorted, ¬ p b = true := by
        intro b hb hpb
        rcases List.mem_cons.mp hb with rfl | hb
        · exact hpa hpb
        · exact hpa (hp a b (ha b hb) hpb)
      rw [List.countP_eq_zero.mpr hnone, List.getD_eq_getElem _ _ hi]
      exact iff_of_false (hnone _ (List.getElem_mem hi)) (Nat.not_lt_zero i)

theorem holds_orderStatistic_iff {data : List K} {p : K → Bool} (hp : ∀ a b, a ≤ b → p b → p a)
    {i : ℕ} (hi : i < data.length) : p (orderStatistic data i) ↔ i < data.countP p := by
  rw [orderStatistic, holds_getD_iff (List.pairwise_insertionSort _ data) hp
    (by rwa [List.length_insertionSort]), (List.perm_insertionSort _ data).countP_eq]

theorem orderStatistic_le_iff {data : List K} {i : ℕ} (hi : i < data.length) {t : K} :
    orderStatistic data i ≤ t ↔ i < data.countP fun x => x ≤ t := by
  rw [← holds_orderStatistic_iff _ hi, decide_eq_true_iff]
  intro a b hab hb
  rw [decide_eq_true_iff] at hb ⊢
  exact hab.trans hb

theorem orderStatistic_lt_iff {data : List K} {i : ℕ} (hi : i < data.length) {t : K} :
    orderStatistic data i < t ↔ i < data.countP fun x => x < t := by
  rw [← holds_orderStatistic_iff _ hi, decide_eq_true_iff]
  intro a b hab hb
  rw [decide_eq_true_iff] at hb ⊢
  exact hab.trans_lt hb

/-- One rank is at most another if it is passed by every bound that passes the
other. -/
theorem orderStatistic_le_of_forall {data data' : List K} {i j : ℕ} (hi : i < data.length)
    (hj : j < data'.length) (h : (j < data'.countP fun x => x ≤ orderStatistic data' j) →
      i < data.countP fun x => x ≤ orderStatistic data' j) :
    orderStatistic data i ≤ orderStatistic data' j :=
  (orderStatistic_le_iff hi).mpr (h ((orderStatistic_le_iff hj).mp le_rfl))

theorem orderStatistic_mono {data : List K} {i j : ℕ} (hij : i ≤ j) (hj : j < data.length) :
    orderStatistic data i ≤ orderStatistic data j :=
  orderStatistic_le_of_forall (hij.trans_lt hj) hj fun h => hij.trans_lt h

theorem orderStatistic_congr {data data' : List K} {i : ℕ} (hi : i < data.length)
    (hi' : i < data'.length)
    (h : ∀ t, (i < data.countP fun x => x ≤ t) ↔ i < data'.countP fun x => x ≤ t) :
    orderStatistic data i = orderStatistic data' i :=
  le_antisymm (orderStatistic_le_of_forall hi hi' (h _).mpr)
    (orderStatistic_le_of_forall hi' hi (h _).mp)

theorem orderStatistic_mem {data : List K} {i : ℕ} (hi : i < data.length) :
    orderStatistic data i ∈ data := by
  have hi' : i < (data.insertionSort (· ≤ ·)).length := by rwa [List.length_insertionSort]
  rw [orderStatistic, List.getD_eq_getElem _ _ hi', ← List.mem_insertionSort (· ≤ ·)]
  exact List.getElem_mem hi'

theorem orderStatistic_map {K' : Type*} [LinearOrder K'] [Zero K'] {f : K → K'}
    (hf : StrictMono f) {data : List K} {i : ℕ} (hi : i < data.length) :
    orderStatistic (data.map f) i = f (orderStatistic data i) := by
  have hsort := List.map_insertionSort (· ≤ ·) (· ≤ ·) f data fun a _ b _ => hf.le_iff_le.symm
  have hi' : i < (data.insertionSort (· ≤ ·)).length := by rwa [List.length_insertionSort]
  rw [orderStatistic, orderStatistic, ← hsort, List.getD_eq_getElem _ _ (by rwa [List.length_map]),
    List.getElem_map, List.getD_eq_getElem _ _ hi']

end Ranks

/-! ### The median between its two ranks -/

section Median

variable {K : Type*} [Field K] [LinearOrder K] [IsStrictOrderedRing K]

theorem median_eq_orderStatistic (data : List K) :
    median data = (orderStatistic data ((data.length - 1) / 2)
      + orderStatistic data (data.length / 2)) / 2 := by
  rw [median, List.length_insertionSort]
  by_cases hodd : data.length % 2 = 1
  · have hrank : (data.length - 1) / 2 = data.length / 2 := by omega
    rw [if_pos hodd, hrank, add_self_div_two]
    rfl
  · have hrank : (data.length - 1) / 2 = data.length / 2 - 1 := by omega
    rw [if_neg hodd, hrank]
    rfl

theorem median_congr {data data' : List K} (hlen : data.length = data'.length)
    (h : ∀ i, i < data.length → i ≤ data.length / 2 →
      orderStatistic data i = orderStatistic data' i) :
    median data = median data' := by
  rw [median_eq_orderStatistic, median_eq_orderStatistic, ← hlen]
  rcases Nat.eq_zero_or_pos data.length with hzero | hpos
  · -- two empty lists
    have hnil := List.length_eq_zero_iff.mp hzero
    have hnil' := List.length_eq_zero_iff.mp (hlen.symm.trans hzero)
    rw [hnil, hnil']
  · rw [h _ (by omega) (by omega), h (data.length / 2) (by omega) le_rfl]

theorem median_perm {data data' : List K} (h : data.Perm data') : median data = median data' :=
  median_congr h.length_eq fun _ hi _ => orderStatistic_congr hi (h.length_eq ▸ hi) fun _ => by
    rw [h.countP_eq]

/-- An affine change of scale. -/
theorem median_map {f : K → K} (hf : StrictMono f) (hmid : ∀ a b, (f a + f b) / 2 = f ((a + b) / 2))
    {data : List K} (hdata : data ≠ []) : median (data.map f) = f (median data) := by
  have hpos := List.length_pos_iff.mpr hdata
  rw [median_eq_orderStatistic, median_eq_orderStatistic, List.length_map,
    orderStatistic_map hf (by omega), orderStatistic_map hf (by omega), hmid]

/-! ### What does not move a median -/

/-- A change above a bound that less than half of the data reach. -/
theorem median_congr_above {ρ : Type*} {rows : List ρ} {f g : ρ → K} {bound : K}
    (hfg : ∀ r ∈ rows, f r = g r ∨ bound ≤ f r ∧ bound ≤ g r)
    (hfew : 2 * (rows.countP fun r => bound ≤ f r) < rows.length) :
    median (rows.map f) = median (rows.map g) := by
  refine median_congr (by rw [List.length_map, List.length_map]) fun i hi hhalf => ?_
  rw [List.length_map] at hi hhalf
  refine orderStatistic_congr (by rwa [List.length_map]) (by rwa [List.length_map]) fun t => ?_
  rw [List.countP_map, List.countP_map]
  rcases lt_or_ge t bound with ht | ht
  · -- below the bound the data are the same
    have hsame : rows.countP ((fun x : K => decide (x ≤ t)) ∘ f)
        = rows.countP ((fun x : K => decide (x ≤ t)) ∘ g) := by
      refine List.countP_congr fun r hr => ?_
      simp only [Function.comp_apply, decide_eq_true_iff]
      rcases hfg r hr with h | ⟨hf, hg⟩
      · rw [h]
      · exact iff_of_false (not_le.mpr (ht.trans_le hf)) (not_le.mpr (ht.trans_le hg))
    rw [hsame]
  · -- at the bound more than half of the data are counted on either side
    have hsplit := List.length_eq_countP_add_countP (fun r => decide (bound ≤ f r)) (l := rows)
    have hbelow : ∀ h : ρ → K, (∀ r ∈ rows, ¬ bound ≤ f r → h r ≤ t) →
        i < rows.countP ((fun x : K => decide (x ≤ t)) ∘ h) := by
      intro h hle
      have hmono : (rows.countP fun r => decide ¬ decide (bound ≤ f r) = true)
          ≤ rows.countP ((fun x : K => decide (x ≤ t)) ∘ h) := by
        refine List.countP_mono_left fun r hr hbound => ?_
        simp only [decide_eq_true_iff] at hbound
        simpa only [Function.comp_apply, decide_eq_true_iff] using hle r hr hbound
      omega
    refine iff_of_true (hbelow f ?_) (hbelow g ?_)
    · intro r _ hbound
      exact (not_le.mp hbound).le.trans ht
    · intro r hr hbound
      rcases hfg r hr with h | ⟨hf, _⟩
      · rw [← h]
        exact (not_le.mp hbound).le.trans ht
      · exact absurd hf hbound

/-! ### Bounds -/

/-- What half of some nonnegative data exceed is less than twice their median. -/
theorem lt_two_mul_median {data : List K} (hnonneg : ∀ x ∈ data, 0 ≤ x) (hdata : data ≠ []) {t : K}
    (ht : data.length ≤ 2 * data.countP fun x => t < x) : t < 2 * median data := by
  have hpos := List.length_pos_iff.mpr hdata
  -- the upper of the two ranks is above `t`
  have hupper : t < orderStatistic data (data.length / 2) := by
    rw [← not_le, orderStatistic_le_iff (by omega)]
    have hsplit := List.length_eq_countP_add_countP (fun x => decide (t < x)) (l := data)
    have hcount : (data.countP fun x => decide ¬ decide (t < x) = true)
        = data.countP fun x => decide (x ≤ t) := by
      refine List.countP_congr fun x _ => ?_
      simp only [decide_eq_true_iff, not_lt]
    omega
  have hlower : 0 ≤ orderStatistic data ((data.length - 1) / 2) :=
    hnonneg _ (orderStatistic_mem (by omega))
  rw [median_eq_orderStatistic]
  linarith

/-- A median that is one of the data is both middle ranks. -/
theorem countP_of_median_mem {data : List K} (hmem : median data ∈ data) :
    (data.countP fun x => x < median data) ≤ (data.length - 1) / 2
      ∧ data.length / 2 < data.countP fun x => x ≤ median data := by
  have hpos := List.length_pos_of_mem hmem
  -- the median itself is counted by one of the two only
  have hcount : (data.countP fun x => x < median data) + 1
      ≤ data.countP fun x => x ≤ median data := by
    obtain ⟨before, after, hdata⟩ := List.append_of_mem hmem
    have hmono : ∀ l : List K, (l.countP fun x => x < median data)
        ≤ l.countP fun x => x ≤ median data := by
      intro l
      refine List.countP_mono_left fun x _ hx => ?_
      rw [decide_eq_true_iff] at hx ⊢
      exact hx.le
    generalize median data = m at hmono hdata
    have hbefore := hmono before
    have hafter := hmono after
    rw [hdata]
    simp only [List.countP_append, List.countP_cons, lt_self_iff_false, le_refl, decide_true,
      decide_false, if_true, Bool.false_eq_true, if_false]
    omega
  have hle : orderStatistic data ((data.length - 1) / 2) ≤ orderStatistic data (data.length / 2) :=
    orderStatistic_mono (by omega) (by omega)
  have hmid := median_eq_orderStatistic data
  constructor
  · by_contra hlt
    have hlow : orderStatistic data ((data.length - 1) / 2) < median data :=
      (orderStatistic_lt_iff (by omega)).mpr (not_le.mp hlt)
    have hhigh : orderStatistic data (data.length / 2) ≤ median data :=
      (orderStatistic_le_iff (by omega)).mpr (by omega)
    linarith
  · by_contra hlt
    have hhigh := mt (orderStatistic_le_iff (by omega)).mp hlt
    have hlow : orderStatistic data ((data.length - 1) / 2) < median data := by
      linarith [not_le.mp hhigh]
    have hcountLow := (orderStatistic_lt_iff (by omega)).mp hlow
    omega

/-- One more copy of the median. -/
theorem median_cons_median {data : List K} (hmem : median data ∈ data) :
    median (median data :: data) = median data := by
  have hpos := List.length_pos_of_mem hmem
  obtain ⟨hbelow, habove⟩ := countP_of_median_mem hmem
  generalize median data = m at *
  -- both middle ranks of the longer data are the median
  have hrank : ∀ i, data.length / 2 ≤ i → i ≤ (data.length + 1) / 2 →
      orderStatistic (m :: data) i = m := by
    intro i hi hi'
    have hlen : i < (m :: data).length := by
      rw [List.length_cons]
      omega
    refine le_antisymm ((orderStatistic_le_iff hlen).mpr ?_)
      (not_lt.mp (mt (orderStatistic_lt_iff hlen).mp ?_))
    · rw [List.countP_cons_of_pos (by simp)]
      omega
    · rw [List.countP_cons_of_neg (by simp)]
      omega
  rw [median_eq_orderStatistic, List.length_cons, Nat.add_sub_cancel, hrank _ le_rfl (by omega),
    hrank _ (by omega) le_rfl, add_self_div_two]

/-- One more zero among nonnegative data. -/
theorem median_cons_zero_le {data : List K} (hnonneg : ∀ x ∈ data, 0 ≤ x) (hdata : data ≠ []) :
    median (0 :: data) ≤ median data := by
  have hpos := List.length_pos_iff.mpr hdata
  have hrank : ∀ i j, i ≤ j + 1 → j < data.length →
      orderStatistic (0 :: data) i ≤ orderStatistic data j := by
    intro i j hij hj
    refine orderStatistic_le_of_forall (by rw [List.length_cons]; omega) hj fun h => ?_
    have hj0 : (0 : K) ≤ orderStatistic data j := hnonneg _ (orderStatistic_mem hj)
    rw [List.countP_cons_of_pos (by rwa [decide_eq_true_iff])]
    omega
  rw [median_eq_orderStatistic, median_eq_orderStatistic, List.length_cons, Nat.add_sub_cancel]
  have hlower := hrank (data.length / 2) ((data.length - 1) / 2) (by omega) (by omega)
  have hupper := hrank ((data.length + 1) / 2) (data.length / 2) (by omega) (by omega)
  linarith

end Median

end OrderStatistics
