/-
Minutes and hours (`rollup_1m` and `rollup_1h` in `hpctel/storage/tsdb.py`).

Both resolutions are computed from the raw samples.

* `inBucket_nested` — an hour has a sample just if it has the sample's minute;
* `Merges` — an hour's row as the merge of the minutes' rows in it;
* `recomputeRollups_resolutions` — after a call each hour is the merge of its
  minutes, and each minute has one hour.
-/
import HpcTelemetry.RollupPartition

namespace Ingest

namespace TSDBStore

/-! ### Minutes in hours -/

/-- A minute is in the hours that a sample of it is in. -/
theorem inBucket_nested {minute hour ts : ℤ} (hminute : bucketWidthNs1m ∣ minute)
    (hhour : bucketWidthNs1h ∣ hour) (hts : inBucket bucketWidthNs1m minute ts = true) :
    inBucket bucketWidthNs1h hour minute = inBucket bucketWidthNs1h hour ts := by
  obtain ⟨c, rfl⟩ := hminute
  obtain ⟨d, rfl⟩ := hhour
  rw [inBucket_iff] at hts
  rw [Bool.eq_iff_iff, inBucket_iff, inBucket_iff]
  simp only [bucketWidthNs1m, bucketWidthNs1h] at *
  omega

/-- The rows of the minutes in an hour. -/
def minutesOf (minutes : List RollupRow) (hour : RollupRow) : List RollupRow :=
  minutes.filter fun minute => inBucket bucketWidthNs1h hour.bucketTsNs minute.bucketTsNs

/-- All values of the row are finite. -/
def FiniteRow (row : RollupRow) : Prop :=
  row.avgValue.val = .finite (rat row.avgValue) ∧ row.minValue.val = .finite (rat row.minValue)
    ∧ row.maxValue.val = .finite (rat row.maxValue)

/-- The row of an hour merges those of its minutes. -/
structure Merges (minutes : List RollupRow) (hour : RollupRow) : Prop where
  finite : ∀ row ∈ hour :: minutesOf minutes hour, FiniteRow row
  count : hour.sampleCount = ((minutesOf minutes hour).map (·.sampleCount)).sum
  min : IsLeast {x | ∃ minute ∈ minutesOf minutes hour, x = rat minute.minValue}
    (rat hour.minValue)
  max : IsGreatest {x | ∃ minute ∈ minutesOf minutes hour, x = rat minute.maxValue}
    (rat hour.maxValue)
  avg : rat hour.avgValue
    = ((minutesOf minutes hour).map fun minute => minute.sampleCount * rat minute.avgValue).sum
      / ((minutesOf minutes hour).map (·.sampleCount)).sum

theorem Summarises.rat_avg {rows : List SampleRow} {width : ℤ} {row : RollupRow}
    (h : Summarises rows width row) : rat row.avgValue
      = ((rows.filter fun s => inBucket width row.bucketTsNs s.tsNs).map fun s => rat s.value).sum
        / row.sampleCount := by
  rw [rat, h.avg]

theorem Summarises.finiteRow {rows : List SampleRow} {width : ℤ} {row : RollupRow}
    (h : Summarises rows width row) : FiniteRow row := by
  refine ⟨?_, h.finite_min, h.finite_max⟩
  rw [h.rat_avg, h.avg]

section Resolutions

variable {rows : List SampleRow} {minutes hours : List RollupRow}
  (hminutes : ExactPartition rows bucketWidthNs1m minutes)
  (hhours : ExactPartition rows bucketWidthNs1h hours)

include hminutes hhours

/-- A sample of the hour is in one of the hour's minutes, any other in none. -/
theorem countP_minutesOf {hour : RollupRow} (hhour : hour ∈ hours) {s : SampleRow}
    (hs : s ∈ rows) : ((minutesOf minutes hour).countP fun minute =>
        inBucket bucketWidthNs1m minute.bucketTsNs s.tsNs)
      = if inBucket bucketWidthNs1h hour.bucketTsNs s.tsNs then 1 else 0 := by
  have haligned := (hhours.summarises hour hhour).aligned
  rw [minutesOf, List.countP_filter]
  cases hin : inBucket bucketWidthNs1h hour.bucketTsNs s.tsNs with
  | true =>
    rw [if_pos rfl, ← hminutes.exactlyOne s hs]
    refine List.countP_congr fun minute hminute => ?_
    rw [Bool.and_eq_true, and_iff_left_iff_imp]
    intro hmin
    rw [inBucket_nested (hminutes.summarises minute hminute).aligned haligned hmin]
    exact hin
  | false =>
    rw [if_neg Bool.false_ne_true, List.countP_eq_zero]
    intro minute hminute hboth
    obtain ⟨hmin, hhr⟩ := Bool.and_eq_true_iff.mp hboth
    rw [inBucket_nested (hminutes.summarises minute hminute).aligned haligned hmin, hin] at hhr
    cases hhr

theorem merges_of_exactPartition {hour : RollupRow} (hhour : hour ∈ hours) :
    Merges minutes hour := by
  have hsum := hhours.summarises hour hhour
  have hmem : ∀ minute ∈ minutesOf minutes hour, Summarises rows bucketWidthNs1m minute :=
    fun minute hminute => hminutes.summarises minute (List.mem_filter.mp hminute).1
  have hone := fun s (hs : s ∈ rows) => countP_minutesOf hminutes hhours hhour hs
  have hcount : hour.sampleCount = ((minutesOf minutes hour).map (·.sampleCount)).sum := by
    rw [List.map_congr_left fun minute hminute => (hmem minute hminute).count, hsum.count]
    exact (GroupSums.sum_map_length_filter hone).symm
  -- the minutes make up the hour
  have hsub : ∀ minute ∈ minutesOf minutes hour, ∀ s ∈ rows,
      inBucket bucketWidthNs1m minute.bucketTsNs s.tsNs →
        inBucket bucketWidthNs1h hour.bucketTsNs s.tsNs := by
    intro minute hminute s _ hin
    rw [← inBucket_nested (hmem minute hminute).aligned hsum.aligned hin]
    exact (List.mem_filter.mp hminute).2
  have hcover : ∀ s ∈ rows, inBucket bucketWidthNs1h hour.bucketTsNs s.tsNs →
      ∃ minute ∈ minutesOf minutes hour, inBucket bucketWidthNs1m minute.bucketTsNs s.tsNs := by
    intro s hs hin
    refine List.countP_pos_iff.mp ?_
    rw [hone s hs, if_pos hin]
    exact Nat.one_pos
  refine ⟨fun row hrow => ?_, hcount, ?_, ?_, ?_⟩
  · rcases List.mem_cons.mp hrow with rfl | hrow
    · exact hsum.finiteRow
    · exact (hmem row hrow).finiteRow
  · exact GroupSums.isLeast_of_groups hsub hcover (fun minute hminute => (hmem minute hminute).min)
      hsum.min
  · exact GroupSums.isGreatest_of_groups hsub hcover
      (fun minute hminute => (hmem minute hminute).max) hsum.max
  · -- a weight cancels against the denominator of its mean
    have hweighted : ∀ minute ∈ minutesOf minutes hour,
        minute.sampleCount * rat minute.avgValue = ((rows.filter fun s =>
          inBucket bucketWidthNs1m minute.bucketTsNs s.tsNs).map fun s => rat s.value).sum := by
      intro minute hminute
      have hpos := (hmem minute hminute).nonempty
      rw [(hmem minute hminute).rat_avg]
      exact mul_div_cancel₀ _ (Nat.cast_ne_zero.mpr hpos.ne')
    rw [hsum.rat_avg, hcount, List.map_congr_left hweighted,
      GroupSums.sum_map_sum_filter (fun s => rat s.value) hone]

/-- A minute has one hour: that of its samples. -/
theorem countP_hours {minute : RollupRow} (hminute : minute ∈ minutes) :
    (hours.countP fun hour =>
      inBucket bucketWidthNs1h hour.bucketTsNs minute.bucketTsNs) = 1 := by
  have hsum := hminutes.summarises minute hminute
  obtain ⟨s, hs, hin, _⟩ := hsum.min.1
  rw [← hhours.exactlyOne s hs]
  refine List.countP_congr fun hour hhour => ?_
  rw [inBucket_nested hsum.aligned (hhours.summarises hour hhour).aligned hin]

end Resolutions

/-- Each hour is the merge of its minutes, and each minute has one hour. -/
structure ResolutionsAgree (minutes hours : List RollupRow) : Prop where
  merges : ∀ hour ∈ hours, Merges minutes hour
  oneHour : ∀ minute ∈ minutes, (hours.countP fun hour =>
    inBucket bucketWidthNs1h hour.bucketTsNs minute.bucketTsNs) = 1

/-- After a call the two resolutions of the pair agree. -/
theorem recomputeRollups_resolutions (store : TSDBStore) (hadmitted : Admitted store.samples.rows)
    (nodeId : String) (metricId : ℕ) :
    let r := store.recomputeRollups nodeId metricId
    r.2 = .returned ∧ ResolutionsAgree (r.1.rollup1m.restrict (ofPair nodeId metricId))
      (r.1.rollup1h.restrict (ofPair nodeId metricId)) := by
  obtain ⟨hminutes, hhours⟩ := exactPartition_recomputeRollups hadmitted nodeId metricId
  exact ⟨recomputeRollups_returned hadmitted nodeId metricId,
    fun _ hhour => merges_of_exactPartition hminutes hhours hhour,
    fun _ hminute => countP_hours hminutes hhours hminute⟩

theorem recomputeRollups_resolutions_example :
    let r := edgesStore.recomputeRollups "n" 1
    r.2 = .returned ∧ ResolutionsAgree (r.1.rollup1m.restrict (ofPair "n" 1))
      (r.1.rollup1h.restrict (ofPair "n" 1)) :=
  recomputeRollups_resolutions edgesStore admitted_edgesStore "n" 1

end TSDBStore

end Ingest
