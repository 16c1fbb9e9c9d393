/-
Rollups as a partition of the raw data (`recompute_rollups` in
`hpctel/storage/tsdb.py`).

* `bucketTsNs_eq_iff` — a sample that is not from before the epoch is in the bucket
  that its time falls into;
* `ExactPartition` — one row for each bucket with a sample in it, and in the row the
  bucket's samples;
* `exactPartition_of_rolledUpAt` — the selected rows are one;
* `recomputeRollups_again` — a second call changes nothing;
* `recomputeRollups_partition` — all of this of a call.
-/
import HpcTelemetry.GroupSums
import HpcTelemetry.Rollups

namespace Ingest

namespace TSDBStore

open OrderStatistics

/-! ### Buckets -/

/-- The time is in `[bucket, bucket + width)`. -/
def inBucket (width bucket ts : ℤ) : Bool := bucket ≤ ts ∧ ts < bucket + width

theorem inBucket_iff {width bucket ts : ℤ} :
    inBucket width bucket ts = true ↔ bucket ≤ ts ∧ ts < bucket + width := decide_eq_true_iff

theorem bucketTsNs_eq_iff {width bucket ts : ℤ} (hwidth : 0 < width) (hts : 0 ≤ ts) :
    bucketTsNs width ts = bucket ↔ width ∣ bucket ∧ inBucket width bucket ts = true := by
  rw [bucketTsNs, Int.tdiv_eq_ediv_of_nonneg hts, inBucket_iff]
  constructor
  · rintro rfl
    refine ⟨dvd_mul_left width _, Int.ediv_mul_le ts hwidth.ne', ?_⟩
    have hlt := Int.lt_ediv_add_one_mul_self ts hwidth
    rwa [add_mul, one_mul] at hlt
  · rintro ⟨⟨c, rfl⟩, hle, hlt⟩
    -- the quotient is the one that the remainder is left by
    have hquot : ts / width = c := by
      refine le_antisymm ?_ ?_
      · refine Int.lt_add_one_iff.mp ((Int.ediv_lt_iff_lt_mul hwidth).mpr ?_)
        rwa [add_mul, one_mul, mul_comm c]
      · refine (Int.le_ediv_iff_mul_le hwidth).mpr ?_
        rwa [mul_comm c]
    rw [hquot, mul_comm]

/-! ### Finite values -/

/-- The number that a finite value is. -/
def rat (x : RealColumn) : ℚ :=
  match x.val with
  | .finite q => q
  | _ => 0

/-- Samples as ingestion admits them, with finite values. -/
def Admitted (rows : List SampleRow) : Prop :=
  ∀ r ∈ rows, 0 ≤ r.tsNs ∧ r.value.val = .finite (rat r.value)

theorem avgOf_finite {values : List RealColumn} (hne : values ≠ [])
    (hfinite : ∀ v ∈ values, v.val = .finite (rat v)) {avg : RealColumn}
    (havg : avgOf values = some avg) :
    avg.val = .finite ((values.map rat).sum / values.length) := by
  have hvals : values.map (·.val) = (values.map rat).map Double.finite := by
    rw [List.map_map]
    exact List.map_congr_left hfinite
  rw [avgOf, if_neg hne, hvals, Double.sum_map_finite] at havg
  obtain ⟨_, havg⟩ := Option.dite_none_left_eq_some.mp havg
  rw [← Option.some_inj.mp havg]
  rfl

theorem lt_iff_of_finite {a b : RealColumn} (ha : a.val = .finite (rat a))
    (hb : b.val = .finite (rat b)) : a.val.lt b.val = true ↔ rat a < rat b := by
  rw [ha, hb]
  exact decide_eq_true_iff

theorem minOf_finite {values : List RealColumn} (hfinite : ∀ v ∈ values, v.val = .finite (rat v))
    {least : RealColumn} (h : minOf values = some least) :
    least ∈ values ∧ ∀ v ∈ values, rat least ≤ rat v := by
  have hbetter : ∀ a ∈ values, ∀ b ∈ values, a.val.lt b.val = true
      ↔ OrderDual.toDual (rat b) < OrderDual.toDual (rat a) := fun a ha b hb =>
    lt_iff_of_finite (hfinite a ha) (hfinite b hb)
  exact ⟨mem_of_firstBest h, fun v hv => OrderDual.toDual_le_toDual.mp
    (@key_le_of_firstBest _ _ _ (fun v => OrderDual.toDual (rat v)) _ _ _ hbetter h v hv)⟩

theorem maxOf_finite {values : List RealColumn} (hfinite : ∀ v ∈ values, v.val = .finite (rat v))
    {greatest : RealColumn} (h : maxOf values = some greatest) :
    greatest ∈ values ∧ ∀ v ∈ values, rat v ≤ rat greatest := by
  have hbetter : ∀ a ∈ values, ∀ b ∈ values, b.val.lt a.val = true ↔ rat b < rat a :=
    fun a ha b hb => lt_iff_of_finite (hfinite b hb) (hfinite a ha)
  exact ⟨mem_of_firstBest h, fun v hv => key_le_of_firstBest hbetter h hv⟩

/-! ### Partitions -/

/-- The row sums up the samples of its bucket, and there are some. -/
structure Summarises (rows : List SampleRow) (width : ℤ) (row : RollupRow) : Prop where
  aligned : width ∣ row.bucketTsNs
  nonempty : 0 < row.sampleCount
  count : row.sampleCount = (rows.filter fun s => inBucket width row.bucketTsNs s.tsNs).length
  avg : row.avgValue.val = .finite
    (((rows.filter fun s => inBucket width row.bucketTsNs s.tsNs).map fun s => rat s.value).sum
      / row.sampleCount)
  finite_min : row.minValue.val = .finite (rat row.minValue)
  min : IsLeast {x | ∃ s ∈ rows, inBucket width row.bucketTsNs s.tsNs ∧ x = rat s.value}
    (rat row.minValue)
  finite_max : row.maxValue.val = .finite (rat row.maxValue)
  max : IsGreatest {x | ∃ s ∈ rows, inBucket width row.bucketTsNs s.tsNs ∧ x = rat s.value}
    (rat row.maxValue)

/-- One row for each bucket that has a sample in it, each sample in one of them, and
what the rows say of their samples. -/
structure ExactPartition (rows : List SampleRow) (width : ℤ) (rollup : List RollupRow) :
    Prop where
  summarises : ∀ row ∈ rollup, Summarises rows width row
  distinct : (rollup.map (·.bucketTsNs)).Nodup
  bucket_iff : ∀ bucket, bucket ∈ rollup.map (·.bucketTsNs)
    ↔ width ∣ bucket ∧ ∃ s ∈ rows, inBucket width bucket s.tsNs
  exactlyOne : ∀ s ∈ rows, (rollup.countP fun row => inBucket width row.bucketTsNs s.tsNs) = 1
  total : (rollup.map (·.sampleCount)).sum = rows.length

section Partition

variable {samples : KeyedTable SampleRow.key} {width : ℤ} {nodeId : String} {metricId : ℕ}
  {t : KeyedTable RollupRow.key}

/-- The values of a bucket are those of the samples whose times fall into it. -/
theorem bucketValues_eq {rows : List SampleRow} (hwidth : 0 < width) (hrows : Admitted rows)
    {bucket : ℤ} (hbucket : width ∣ bucket) : bucketValues rows width bucket
      = (rows.filter fun s => inBucket width bucket s.tsNs).map SampleRow.value := by
  rw [bucketValues]
  congr 1
  refine List.filter_congr fun s hs => ?_
  rw [Bool.eq_iff_iff, decide_eq_true_iff, bucketTsNs_eq_iff hwidth (hrows s hs).1]
  exact and_iff_right hbucket

theorem summarises_of_rolledUpAt (hwidth : 0 < width)
    (hrows : Admitted (samples.restrict (ofPair nodeId metricId)))
    (h : RolledUpAt samples width nodeId metricId t) {row : RollupRow}
    (hrow : row ∈ t.restrict (ofPair nodeId metricId)) :
    Summarises (samples.restrict (ofPair nodeId metricId)) width row := by
  generalize hpair : samples.restrict (ofPair nodeId metricId) = rows at hrows
  obtain ⟨hbucket, havg, hmin, hmax, hcount⟩ := aggregates_of_rolledUpAt h hrow
  rw [hpair] at hbucket havg hmin hmax hcount
  have haligned : width ∣ row.bucketTsNs := by
    obtain ⟨s, hs, hts⟩ := mem_buckets.mp hbucket
    exact ((bucketTsNs_eq_iff hwidth (hrows s hs).1).mp hts).1
  have hne := bucketValues_ne_nil hbucket
  have hvalues := bucketValues_eq hwidth hrows haligned
  have hmemValues : ∀ v, v ∈ bucketValues rows width row.bucketTsNs
      ↔ ∃ s ∈ rows, inBucket width row.bucketTsNs s.tsNs ∧ s.value = v := by
    intro v
    rw [hvalues, List.mem_map]
    simp only [List.mem_filter, and_assoc]
  have hfinite : ∀ v ∈ bucketValues rows width row.bucketTsNs, v.val = .finite (rat v) := by
    intro v hv
    obtain ⟨s, hs, _, rfl⟩ := (hmemValues v).mp hv
    exact (hrows s hs).2
  obtain ⟨hminMem, hminLe⟩ := minOf_finite hfinite hmin
  obtain ⟨hmaxMem, hmaxLe⟩ := maxOf_finite hfinite hmax
  refine ⟨haligned, ?_, ?_, ?_, hfinite _ hminMem, ⟨?_, ?_⟩, hfinite _ hmaxMem, ⟨?_, ?_⟩⟩
  · rw [hcount]
    exact List.length_pos_iff.mpr hne
  · rw [hcount, hvalues, List.length_map]
  · rw [avgOf_finite hne hfinite havg, hcount, hvalues, List.map_map]
    rfl
  · obtain ⟨s, hs, hin, hv⟩ := (hmemValues _).mp hminMem
    exact ⟨s, hs, hin, congrArg rat hv.symm⟩
  · rintro _ ⟨s, hs, hin, rfl⟩
    exact hminLe _ ((hmemValues _).mpr ⟨s, hs, hin, rfl⟩)
  · obtain ⟨s, hs, hin, hv⟩ := (hmemValues _).mp hmaxMem
    exact ⟨s, hs, hin, congrArg rat hv.symm⟩
  · rintro _ ⟨s, hs, hin, rfl⟩
    exact hmaxLe _ ((hmemValues _).mpr ⟨s, hs, hin, rfl⟩)

/-- The rows selected from the samples are an exact partition of them. -/
theorem exactPartition_of_rolledUpAt (hwidth : 0 < width)
    (hrows : Admitted (samples.restrict (ofPair nodeId metricId)))
    (h : RolledUpAt samples width nodeId metricId t) :
    ExactPartition (samples.restrict (ofPair nodeId metricId)) width
      (t.restrict (ofPair nodeId metricId)) := by
  have hbuckets := map_bucketTsNs_of_rolledUpAt h
  have hsummarises : ∀ row ∈ t.restrict (ofPair nodeId metricId),
      Summarises (samples.restrict (ofPair nodeId metricId)) width row := fun row hrow =>
    summarises_of_rolledUpAt hwidth hrows h hrow
  have hone : ∀ s ∈ samples.restrict (ofPair nodeId metricId),
      ((t.restrict (ofPair nodeId metricId)).countP fun row =>
        inBucket width row.bucketTsNs s.tsNs) = 1 := by
    intro s hs
    -- of the buckets there are, the time is in the one it is rounded to
    have hcount : ((t.restrict (ofPair nodeId metricId)).countP fun row =>
        inBucket width row.bucketTsNs s.tsNs)
          = (buckets (samples.restrict (ofPair nodeId metricId)) width).count
            (bucketTsNs width s.tsNs) := by
      rw [← hbuckets, List.count, List.countP_map]
      refine List.countP_congr fun row hrow => ?_
      rw [Function.comp_apply, beq_iff_eq, eq_comm (a := row.bucketTsNs),
        bucketTsNs_eq_iff hwidth (hrows s hs).1]
      exact (and_iff_right (hsummarises row hrow).aligned).symm
    rw [hcount]
    exact List.count_eq_one_of_mem (nodup_buckets _ _) (mem_buckets.mpr ⟨s, hs, rfl⟩)
  refine ⟨hsummarises, ?_, fun bucket => ?_, hone, ?_⟩
  · rw [hbuckets]
    exact nodup_buckets _ _
  · rw [hbuckets, mem_buckets]
    constructor
    · rintro ⟨s, hs, hts⟩
      obtain ⟨haligned, hin⟩ := (bucketTsNs_eq_iff hwidth (hrows s hs).1).mp hts
      exact ⟨haligned, s, hs, hin⟩
    · rintro ⟨haligned, s, hs, hin⟩
      exact ⟨s, hs, (bucketTsNs_eq_iff hwidth (hrows s hs).1).mpr ⟨haligned, hin⟩⟩
  · rw [List.map_congr_left fun row hrow => (hsummarises row hrow).count]
    refine (@GroupSums.sum_map_length_filter _ _ _ _ _ (fun _ => true) hone).trans ?_
    rw [List.filter_true]

end Partition

/-! ### Calls -/

section Calls

variable {samples : KeyedTable SampleRow.key} {width : ℤ} {nodeId : String} {metricId : ℕ}

/-- A round that follows one that returned finds the rows it would insert. -/
theorem recomputeRollup_again {t : KeyedTable RollupRow.key}
    (h : (recomputeRollup samples width nodeId metricId t).2 = .returned) :
    recomputeRollup samples width nodeId metricId
        (recomputeRollup samples width nodeId metricId t).1
      = ((recomputeRollup samples width nodeId metricId t).1, .returned) := by
  cases hinsert : insertSelect (t.deleteWhere (ofPair nodeId metricId))
      (selectBuckets samples width nodeId metricId) with
  | none =>
    rw [recomputeRollup_of_none hinsert] at h
    cases h
  | some t' =>
    obtain ⟨rows, hrows, ht'⟩ := insertSelect_eq_some.mp hinsert
    -- the rows of the pair are all at the end, and go
    have hdeleted : (t'.deleteWhere (ofPair nodeId metricId)).rows
        = (t.deleteWhere (ofPair nodeId metricId)).rows := by
      have hnone : rows.filter (fun r => !ofPair nodeId metricId r.key) = [] := by
        refine List.filter_eq_nil_iff.mpr fun r hr hc => ?_
        obtain ⟨b, hb⟩ := key_of_selected hrows hr
        rw [hb] at hc
        simp [ofPair] at hc
      show t'.rows.filter _ = _
      rw [ht', List.filter_append, hnone, List.append_nil]
      show (t.rows.filter _).filter _ = t.rows.filter _
      rw [List.filter_filter]
      simp only [Bool.and_self]
    have hagain : insertSelect (t'.deleteWhere (ofPair nodeId metricId))
        (selectBuckets samples width nodeId metricId) = some t' :=
      insertSelect_eq_some.mpr ⟨rows, hrows, by rw [hdeleted, ht']⟩
    rw [recomputeRollup_of_some hinsert, recomputeRollup_of_some hagain]

theorem recomputeRollups_again {store : TSDBStore}
    (h : (store.recomputeRollups nodeId metricId).2 = .returned) :
    (store.recomputeRollups nodeId metricId).1.recomputeRollups nodeId metricId
      = ((store.recomputeRollups nodeId metricId).1, .returned) := by
  rw [recomputeRollups] at h
  by_cases h1m : (recomputeRollup store.samples bucketWidthNs1m nodeId metricId
      store.rollup1m).2 = .returned
  · simp only [if_pos h1m] at h
    have hagain1m := recomputeRollup_again h1m
    have hagain1h := recomputeRollup_again h
    simp only [recomputeRollups, if_pos h1m, hagain1m, hagain1h, if_true]
  · simp only [if_neg h1m] at h
    exact absurd h h1m

/-- A call after which the rollups of a pair partition its samples in both resolutions,
a second call changes nothing, and nothing else has changed. -/
structure PartitionsPair (store : TSDBStore) (nodeId : String) (metricId : ℕ)
    (r : TSDBStore × CallResult) : Prop where
  returned : r.2 = .returned
  minutes : ExactPartition (store.samples.restrict (ofPair nodeId metricId)) bucketWidthNs1m
    (r.1.rollup1m.restrict (ofPair nodeId metricId))
  hours : ExactPartition (store.samples.restrict (ofPair nodeId metricId)) bucketWidthNs1h
    (r.1.rollup1h.restrict (ofPair nodeId metricId))
  again : r.1.recomputeRollups nodeId metricId = (r.1, .returned)
  samples : r.1.samples = store.samples
  others : ∀ nodeId' metricId', (nodeId', metricId') ≠ (nodeId, metricId) →
    r.1.rollup1m.restrict (ofPair nodeId' metricId')
        = store.rollup1m.restrict (ofPair nodeId' metricId')
      ∧ r.1.rollup1h.restrict (ofPair nodeId' metricId')
        = store.rollup1h.restrict (ofPair nodeId' metricId')

/-- No infinities, so no mixed ones. -/
theorem recomputeRollups_returned {store : TSDBStore} (hadmitted : Admitted store.samples.rows)
    (nodeId : String) (metricId : ℕ) :
    (store.recomputeRollups nodeId metricId).2 = .returned := by
  refine (store.recomputeRollups_spec nodeId metricId).returns.mpr ?_
  rintro ⟨r, hr, _, _, _, hinf, _⟩
  rw [(hadmitted r (List.mem_filter.mp hr).1).2] at hinf
  cases hinf

/-- The rows of the pair are an exact partition in both resolutions. -/
theorem exactPartition_recomputeRollups {store : TSDBStore}
    (hadmitted : Admitted store.samples.rows) (nodeId : String) (metricId : ℕ) :
    let rows := store.samples.restrict (ofPair nodeId metricId)
    let r := store.recomputeRollups nodeId metricId
    ExactPartition rows bucketWidthNs1m (r.1.rollup1m.restrict (ofPair nodeId metricId))
      ∧ ExactPartition rows bucketWidthNs1h (r.1.rollup1h.restrict (ofPair nodeId metricId)) := by
  have hrows : Admitted (store.samples.restrict (ofPair nodeId metricId)) := fun r hr =>
    hadmitted r (List.mem_filter.mp hr).1
  have hspec := store.recomputeRollups_spec nodeId metricId
  have hup := hspec.rolledUp (recomputeRollups_returned hadmitted nodeId metricId)
  have hminutes := hup.minutes
  have hhours := hup.hours
  rw [hspec.samples] at hminutes hhours
  exact ⟨exactPartition_of_rolledUpAt (by decide) hrows hminutes,
    exactPartition_of_rolledUpAt (by decide) hrows hhours⟩

/-- What a call does to a store of admitted samples, whatever rollups there are. -/
theorem recomputeRollups_partition (store : TSDBStore) (hadmitted : Admitted store.samples.rows)
    (nodeId : String) (metricId : ℕ) :
    store.PartitionsPair nodeId metricId (store.recomputeRollups nodeId metricId) := by
  have hspec := store.recomputeRollups_spec nodeId metricId
  have hreturned := recomputeRollups_returned hadmitted nodeId metricId
  obtain ⟨hminutes, hhours⟩ := exactPartition_recomputeRollups hadmitted nodeId metricId
  refine ⟨hreturned, hminutes, hhours, recomputeRollups_again hreturned, hspec.samples, ?_⟩
  intro nodeId' metricId' hne
  have hother := hspec.others nodeId' metricId' hne
  exact ⟨hother.minutes, hother.hours⟩

end Calls

/-- Samples at the edges of two minutes and two hours, and a stale row. -/
def edgesStore : TSDBStore :=
  let sample (tsNs : ℤ) (value : ℚ) : SampleParams :=
    ⟨"n", 1, tsNs, 0, 0, .finite value, "hpctel-agent-0.1"⟩
  let stale : RollupRow := ⟨"n", 1, 7, ⟨.posInf, by decide⟩, ⟨.negInf, by decide⟩,
    ⟨.posInf, by decide⟩, 99⟩
  { (TSDBStore.empty.insertSamples [sample 0 10, sample 59999999999 20, sample 60000000000 33,
      sample 3600000000000 (-1)]).1 with
    rollup1m := ⟨[stale], List.nodup_singleton _⟩ }

theorem admitted_edgesStore : Admitted edgesStore.samples.rows := by
  rw [Admitted]
  decide +kernel

theorem recomputeRollups_partition_example :
    edgesStore.PartitionsPair "n" 1 (edgesStore.recomputeRollups "n" 1) :=
  recomputeRollups_partition edgesStore admitted_edgesStore "n" 1

end TSDBStore

end Ingest
