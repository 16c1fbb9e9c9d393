/-
Time windows onto a series that is read newest first.

`query_series` returns the newest rows of a series up to a limit, and a caller
that wants the rows of a time window filters what it gets.  It then sees the
window without those of its rows that later rows have pushed out of the limit.

* `readings` — the rows of a series in a window of time;
* `filter_querySeries` — what of them a limited query returns;
* `length_readings_add_rowsFrom_le` — a short series fits into its limit;
* `readings_insertSamples`, `rowsFrom_insertSamples` — samples from behind the
  window on leave its rows as they are, and count against the limit.
-/
import HpcTelemetry.OrderStatistics
import HpcTelemetry.Store

namespace Ingest

namespace TSDBStore

open OrderStatistics

/-! ### Windows -/

/-- The rows of a series with `lo ≤ ts < hi`, newest first. -/
def readings (store : TSDBStore) (nodeId : String) (metricId : ℕ) (lo hi : ℤ) :
    List (ℤ × RealColumn) :=
  (store.querySeries nodeId metricId (-1)).filter fun s => lo ≤ s.1 ∧ s.1 < hi

/-- The number of rows of a series with `ts ≤ ts_ns`. -/
def rowsFrom (store : TSDBStore) (nodeId : String) (metricId : ℕ) (ts : ℤ) : ℕ :=
  ((store.querySeries nodeId metricId (-1)).filter fun s => ts ≤ s.1).length

theorem querySeries_natCast (store : TSDBStore) (nodeId : String) (metricId limit : ℕ) :
    store.querySeries nodeId metricId limit
      = (store.querySeries nodeId metricId (-1)).take limit := by
  rw [querySeries, querySeries, if_neg (Int.natCast_nonneg limit).not_gt, if_pos (by decide),
    Int.toNat_natCast]

theorem total_tsNs : Std.Total fun r r' : SampleRow => r'.tsNs ≤ r.tsNs :=
  ⟨fun r r' => le_total r'.tsNs r.tsNs⟩

theorem trans_tsNs : IsTrans SampleRow fun r r' => r'.tsNs ≤ r.tsNs :=
  ⟨fun _ _ _ h h' => le_trans h' h⟩

theorem pairwise_querySeries (store : TSDBStore) (nodeId : String) (metricId : ℕ) :
    (store.querySeries nodeId metricId (-1)).Pairwise fun s s' => s'.1 ≤ s.1 := by
  have htotal := total_tsNs
  have htrans := trans_tsNs
  exact List.pairwise_map.mpr (List.pairwise_insertionSort _ _)

/-- A filter by time can be put before the sort. -/
theorem filter_querySeries_neg (store : TSDBStore) (nodeId : String) (metricId : ℕ) (p : ℤ → Bool) :
    (store.querySeries nodeId metricId (-1)).filter (fun s => p s.1)
      = ((store.samples.rows.filter fun r =>
          (r.nodeId = nodeId ∧ r.metricId = metricId) ∧ p r.tsNs).insertionSort
            fun r r' => r'.tsNs ≤ r.tsNs).map fun r => (r.tsNs, r.value) := by
  have htotal := total_tsNs
  have htrans := trans_tsNs
  show List.filter _ (List.map _ _) = _
  rw [List.filter_map, filter_insertionSort, List.filter_filter]
  congr 2
  refine List.filter_congr fun r _ => ?_
  simp [Bool.and_comm]

/-- A limited query shows the newest rows of a window, as many as the rows behind
the window leave of the limit. -/
theorem filter_querySeries (store : TSDBStore) (nodeId : String) (metricId limit : ℕ) (lo hi : ℤ) :
    (store.querySeries nodeId metricId limit).filter (fun s => lo ≤ s.1 ∧ s.1 < hi)
      = (store.readings nodeId metricId lo hi).take
          (limit - store.rowsFrom nodeId metricId hi) := by
  rw [querySeries_natCast]
  refine filter_take_of_pairwise (store.pairwise_querySeries nodeId metricId) ?_ ?_ ?_ limit
  · intro s s' hs hs'
    rw [decide_eq_true_iff] at hs' ⊢
    omega
  · intro s s' hs hs'
    rw [decide_eq_true_iff] at hs' ⊢
    rw [decide_eq_true_iff]
    omega
  · intro s hs
    rw [decide_eq_true_iff] at hs
    rw [decide_eq_false_iff_not]
    omega

/-- The rows of a window and those behind it are rows of the series. -/
theorem length_readings_add_rowsFrom_le (store : TSDBStore) (nodeId : String) (metricId : ℕ)
    (lo hi : ℤ) : (store.readings nodeId metricId lo hi).length + store.rowsFrom nodeId metricId hi
      ≤ (store.querySeries nodeId metricId (-1)).length := by
  rw [readings, rowsFrom, ← List.countP_eq_length_filter, ← List.countP_eq_length_filter]
  induction store.querySeries nodeId metricId (-1) with
  | nil => simp
  | cons s series ih =>
    rw [List.countP_cons, List.countP_cons, List.length_cons]
    by_cases hs : hi ≤ s.1
    · have hout : ¬ (lo ≤ s.1 ∧ s.1 < hi) := by omega
      simp only [hs, hout, decide_true, decide_false, if_true, Bool.false_eq_true, if_false]
      omega
    · simp only [hs, decide_false, Bool.false_eq_true, if_false]
      split_ifs
      · omega
      · omega

/-! ### Later samples -/

/-- How many rows of a series come with the samples: their free keys. -/
def added (store : TSDBStore) (later : List SampleParams) (nodeId : String) (metricId : ℕ) : ℕ :=
  (((later.filterMap SampleParams.toRow).map SampleRow.key).dedup.filter fun k =>
    k ∉ store.samples.keys ∧ k.1 = nodeId ∧ k.2.1 = metricId).length

/-- The rows that come with the samples. -/
theorem exists_rows_insertSamples (store : TSDBStore) (later : List SampleParams) :
    ∃ new, (store.insertSamples later).1.samples.rows = store.samples.rows ++ new ∧
      (∀ r ∈ new, ∃ p ∈ later, p.toRow = some r) ∧
      ∀ nodeId metricId, (new.filter fun r => r.nodeId = nodeId ∧ r.metricId = metricId).length
        = store.added later nodeId metricId := by
  obtain ⟨new, hrows, hmem, hperm⟩ :=
    store.samples.exists_rows_insertAll (later.filterMap SampleParams.toRow)
  refine ⟨new, ?_, fun r hr => List.mem_filterMap.mp (hmem r hr), fun nodeId metricId => ?_⟩
  · rw [insertSamples_samples, hrows]
  · have hlength := (hperm.filter fun k => k.1 = nodeId ∧ k.2.1 = metricId).length_eq
    rw [List.filter_map, List.length_map, List.filter_filter] at hlength
    rw [added]
    refine Eq.trans ?_ (hlength.trans ?_)
    · rfl
    · refine congrArg List.length (List.filter_congr fun k _ => ?_)
      by_cases hfree : k ∈ store.samples.keys
      · simp [hfree]
      · simp [hfree]

variable {store : TSDBStore} {later : List SampleParams} {hi : ℤ}

theorem tsNs_of_toRow {p : SampleParams} {r : SampleRow} (h : p.toRow = some r) :
    r.tsNs = p.tsNs :=
  congrArg (fun k => k.2.2) (SampleParams.key_of_toRow h)

/-- Samples from behind a window on leave its rows as they are. -/
theorem readings_insertSamples (h : ∀ p ∈ later, hi ≤ p.tsNs) (nodeId : String) (metricId : ℕ)
    (lo : ℤ) : (store.insertSamples later).1.readings nodeId metricId lo hi
      = store.readings nodeId metricId lo hi := by
  obtain ⟨new, hrows, hmem, _⟩ := store.exists_rows_insertSamples later
  have hnone : new.filter (fun r => (r.nodeId = nodeId ∧ r.metricId = metricId) ∧
      decide (lo ≤ r.tsNs ∧ r.tsNs < hi) = true) = [] := by
    refine List.filter_eq_nil_iff.mpr fun r hr hc => ?_
    obtain ⟨p, hp, hrow⟩ := hmem r hr
    have hts := h p hp
    rw [← tsNs_of_toRow hrow] at hts
    rw [decide_eq_true_iff, decide_eq_true_iff] at hc
    omega
  rw [readings, readings, filter_querySeries_neg _ _ _ fun ts => lo ≤ ts ∧ ts < hi,
    filter_querySeries_neg _ _ _ fun ts => lo ≤ ts ∧ ts < hi, hrows, List.filter_append, hnone,
    List.append_nil]

/-- And they come before the window in a query. -/
theorem rowsFrom_insertSamples (h : ∀ p ∈ later, hi ≤ p.tsNs) (nodeId : String) (metricId : ℕ) :
    (store.insertSamples later).1.rowsFrom nodeId metricId hi
      = store.rowsFrom nodeId metricId hi + store.added later nodeId metricId := by
  obtain ⟨new, hrows, hmem, hadded⟩ := store.exists_rows_insertSamples later
  have hall : new.filter (fun r => (r.nodeId = nodeId ∧ r.metricId = metricId) ∧
      decide (hi ≤ r.tsNs) = true)
      = new.filter fun r => r.nodeId = nodeId ∧ r.metricId = metricId := by
    refine List.filter_congr fun r hr => ?_
    obtain ⟨p, hp, hrow⟩ := hmem r hr
    have hts := h p hp
    rw [← tsNs_of_toRow hrow] at hts
    simp [hts]
  rw [rowsFrom, rowsFrom, filter_querySeries_neg _ _ _ fun ts => hi ≤ ts,
    filter_querySeries_neg _ _ _ fun ts => hi ≤ ts, hrows, List.filter_append, hall,
    List.length_map, List.length_map, List.length_insertionSort, List.length_insertionSort,
    List.length_append, hadded]

end TSDBStore

end Ingest
