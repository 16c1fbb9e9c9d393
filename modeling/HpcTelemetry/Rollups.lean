/-
Rollups (`recompute_rollups` in `hpctel/storage/tsdb.py`).

For each resolution the rows of a pair are deleted and selected anew from its
samples, one row a bucket.  The average of a bucket with infinities of both signs
is `NULL`, which the table refuses: the `INSERT` raises and undoes itself, but not
the `DELETE` before it.

* `selectBuckets`, `recomputeRollup`, `recomputeRollups` — the statements;
* `exists_toRow_eq_none` — which selections the table refuses;
* `recomputeRollup_spec`, `recomputeRollups_spec` — what a call does.
-/
import HpcTelemetry.DoubleArithmetic
import HpcTelemetry.OrderStatistics
import HpcTelemetry.Store

namespace Ingest

namespace TSDBStore

open OrderStatistics

/-- `BUCKET_WIDTH_NS_1M` and `BUCKET_WIDTH_NS_1H`. -/
def bucketWidthNs1m : ℤ := 60000000000
def bucketWidthNs1h : ℤ := 3600000000000

/-- `(ts_ns / ?) * ?`, with SQLite's truncating division. -/
def bucketTsNs (width ts : ℤ) : ℤ := ts.tdiv width * width

/-- `node_id = ? AND metric_id = ?`. -/
def ofPair (nodeId : String) (metricId : ℕ) (key : SampleKey) : Bool :=
  key.1 = nodeId ∧ key.2.1 = metricId

/-! ### The statements -/

/-- A row of the `SELECT`; its aggregates can be `NULL`. -/
structure BucketAggregate where
  nodeId : String
  metricId : ℕ
  bucketTsNs : ℤ
  avgValue : Option RealColumn
  minValue : Option RealColumn
  maxValue : Option RealColumn
  sampleCount : ℕ
  deriving DecidableEq

/-- The row to insert; `none` when a `NOT NULL` column would be `NULL`. -/
def BucketAggregate.toRow (a : BucketAggregate) : Option RollupRow :=
  match a.avgValue, a.minValue, a.maxValue with
  | some avgValue, some minValue, some maxValue =>
    some ⟨a.nodeId, a.metricId, a.bucketTsNs, avgValue, minValue, maxValue, a.sampleCount⟩
  | _, _, _ => none

/-- `AVG`. -/
def avgOf (values : List RealColumn) : Option RealColumn :=
  if values = [] then none
  else bindReal ((Double.sum (values.map (·.val))).div (.finite values.length))

/-- `MIN`. -/
def minOf (values : List RealColumn) : Option RealColumn :=
  firstBest (fun a b => a.val.lt b.val) values

/-- `MAX`. -/
def maxOf (values : List RealColumn) : Option RealColumn :=
  firstBest (fun a b => b.val.lt a.val) values

/-- The values of a bucket. -/
def bucketValues (rows : List SampleRow) (width bucket : ℤ) : List RealColumn :=
  (rows.filter fun r => bucketTsNs width r.tsNs = bucket).map SampleRow.value

/-- The buckets with a sample in them, in order. -/
def buckets (rows : List SampleRow) (width : ℤ) : List ℤ :=
  (rows.map fun r => bucketTsNs width r.tsNs).dedup.insertionSort (· ≤ ·)

/-- `SELECT … GROUP BY bucket_ts_ns`. -/
def selectBuckets (samples : KeyedTable SampleRow.key) (width : ℤ) (nodeId : String)
    (metricId : ℕ) : List BucketAggregate :=
  let rows := samples.restrict (ofPair nodeId metricId)
  (buckets rows width).map fun bucket =>
    let values := bucketValues rows width bucket
    ⟨nodeId, metricId, bucket, avgOf values, minOf values, maxOf values, values.length⟩

/-- `INSERT … SELECT`; `none` is an `IntegrityError`. -/
def insertSelect (t : KeyedTable RollupRow.key) (selected : List BucketAggregate) :
    Option (KeyedTable RollupRow.key) :=
  selected.foldlM (fun t a => a.toRow.bind t.insertUnique) t

/-- How a call ends. -/
inductive CallResult where
  | returned
  | integrityError
  deriving DecidableEq

/-- One round of the loop: the table as the connection sees it afterwards, and how the
`INSERT` ended. -/
def recomputeRollup (samples : KeyedTable SampleRow.key) (width : ℤ) (nodeId : String)
    (metricId : ℕ) (t : KeyedTable RollupRow.key) : KeyedTable RollupRow.key × CallResult :=
  let t := t.deleteWhere (ofPair nodeId metricId)
  match insertSelect t (selectBuckets samples width nodeId metricId) with
  | none => (t, .integrityError)
  | some t' => (t', .returned)

/-- `recompute_rollups`. -/
def recomputeRollups (store : TSDBStore) (nodeId : String) (metricId : ℕ) :
    TSDBStore × CallResult :=
  let r1m := recomputeRollup store.samples bucketWidthNs1m nodeId metricId store.rollup1m
  let store := { store with rollup1m := r1m.1 }
  if r1m.2 = .returned then
    let r1h := recomputeRollup store.samples bucketWidthNs1h nodeId metricId store.rollup1h
    ({ store with rollup1h := r1h.1 }, r1h.2)
  else (store, r1m.2)

/-- `distinct_node_metric_pairs`, up to the order SQL leaves open. -/
def distinctNodeMetricPairs (store : TSDBStore) : List (String × ℕ) :=
  (store.samples.rows.map fun r => (r.nodeId, r.metricId)).dedup

/-! ### Aggregates -/

/-- Some bucket of the pair has samples of `+inf` and of `-inf`. -/
def MixedBucket (samples : KeyedTable SampleRow.key) (width : ℤ) (nodeId : String)
    (metricId : ℕ) : Prop :=
  ∃ r ∈ samples.restrict (ofPair nodeId metricId), ∃ r' ∈ samples.restrict (ofPair nodeId metricId),
    bucketTsNs width r.tsNs = bucketTsNs width r'.tsNs ∧
      r.value.val = .posInf ∧ r'.value.val = .negInf

theorem avgOf_eq_none {values : List RealColumn} (hne : values ≠ []) :
    avgOf values = none ↔ .posInf ∈ values.map (·.val) ∧ .negInf ∈ values.map (·.val) := by
  have hnan : Double.nan ∉ values.map (·.val) := by
    intro hc
    obtain ⟨v, _, hv⟩ := List.mem_map.mp hc
    exact v.property hv
  rw [avgOf, if_neg hne, bindReal_eq_none, Double.div_finite_eq_nan, Double.sum_eq_nan hnan]

theorem mem_buckets {rows : List SampleRow} {width bucket : ℤ} :
    bucket ∈ buckets rows width ↔ ∃ r ∈ rows, bucketTsNs width r.tsNs = bucket := by
  rw [buckets, List.mem_insertionSort, List.mem_dedup, List.mem_map]

theorem nodup_buckets (rows : List SampleRow) (width : ℤ) : (buckets rows width).Nodup :=
  (List.perm_insertionSort _ _).nodup_iff.mpr (List.nodup_dedup _)

theorem mem_bucketValues {rows : List SampleRow} {width bucket : ℤ} {x : Double} :
    x ∈ (bucketValues rows width bucket).map (·.val)
      ↔ ∃ r ∈ rows, bucketTsNs width r.tsNs = bucket ∧ r.value.val = x := by
  rw [bucketValues, List.map_map, List.mem_map]
  constructor
  · rintro ⟨r, hr, hx⟩
    obtain ⟨hr, hb⟩ := List.mem_filter.mp hr
    exact ⟨r, hr, of_decide_eq_true hb, hx⟩
  · rintro ⟨r, hr, hb, hx⟩
    exact ⟨r, List.mem_filter.mpr ⟨hr, decide_eq_true hb⟩, hx⟩

theorem bucketValues_ne_nil {rows : List SampleRow} {width bucket : ℤ}
    (h : bucket ∈ buckets rows width) : bucketValues rows width bucket ≠ [] := by
  obtain ⟨r, hr, hb⟩ := mem_buckets.mp h
  intro hnil
  have hx : r.value.val ∈ (bucketValues rows width bucket).map (·.val) :=
    mem_bucketValues.mpr ⟨r, hr, hb, rfl⟩
  rw [hnil] at hx
  exact List.not_mem_nil hx

/-- A bucket is refused if its average is `NULL`: its other aggregates are not. -/
theorem toRow_eq_none {nodeId : String} {metricId : ℕ} {bucket : ℤ} {values : List RealColumn}
    (hne : values ≠ []) :
    (BucketAggregate.mk nodeId metricId bucket (avgOf values) (minOf values) (maxOf values)
      values.length).toRow = none ↔ avgOf values = none := by
  obtain ⟨minValue, hmin⟩ : ∃ x, minOf values = some x := exists_firstBest hne
  obtain ⟨maxValue, hmax⟩ : ∃ x, maxOf values = some x := exists_firstBest hne
  rw [BucketAggregate.toRow, hmin, hmax]
  cases avgOf values with
  | none => simp
  | some avgValue => simp

/-- The table refuses the selections with a bucket of mixed infinities. -/
theorem exists_toRow_eq_none {samples : KeyedTable SampleRow.key} {width : ℤ} {nodeId : String}
    {metricId : ℕ} : (∃ a ∈ selectBuckets samples width nodeId metricId, a.toRow = none)
      ↔ MixedBucket samples width nodeId metricId := by
  constructor
  · rintro ⟨a, ha, hnone⟩
    obtain ⟨bucket, hbucket, rfl⟩ := List.mem_map.mp ha
    have hne := bucketValues_ne_nil hbucket
    obtain ⟨hpos, hneg⟩ := (avgOf_eq_none hne).mp ((toRow_eq_none hne).mp hnone)
    obtain ⟨r, hr, hb, hx⟩ := mem_bucketValues.mp hpos
    obtain ⟨r', hr', hb', hx'⟩ := mem_bucketValues.mp hneg
    exact ⟨r, hr, r', hr', hb.trans hb'.symm, hx, hx'⟩
  · rintro ⟨r, hr, r', hr', hb, hx, hx'⟩
    have hbucket : bucketTsNs width r.tsNs
        ∈ buckets (samples.restrict (ofPair nodeId metricId)) width :=
      mem_buckets.mpr ⟨r, hr, rfl⟩
    have hne := bucketValues_ne_nil hbucket
    refine ⟨_, List.mem_map.mpr ⟨_, hbucket, rfl⟩, (toRow_eq_none hne).mpr ?_⟩
    refine (avgOf_eq_none hne).mpr ?_
    exact ⟨mem_bucketValues.mpr ⟨r, hr, rfl, hx⟩, mem_bucketValues.mpr ⟨r', hr', hb.symm, hx'⟩⟩

theorem tdiv_1h (ts : ℤ) : ts.tdiv bucketWidthNs1h = (ts.tdiv bucketWidthNs1m).tdiv 60 := by
  have hnat : ∀ n : ℕ, (n : ℤ).tdiv bucketWidthNs1h = ((n : ℤ).tdiv bucketWidthNs1m).tdiv 60 := by
    intro n
    show (n : ℤ).tdiv ((60000000000 * 60 : ℕ) : ℤ)
      = ((n : ℤ).tdiv ((60000000000 : ℕ) : ℤ)).tdiv ((60 : ℕ) : ℤ)
    rw [← Int.ofNat_tdiv, ← Int.ofNat_tdiv, ← Int.ofNat_tdiv, Nat.div_div_eq_div_mul]
  obtain ⟨n, rfl | rfl⟩ := ts.eq_nat_or_neg
  · exact hnat n
  · rw [Int.neg_tdiv, Int.neg_tdiv, Int.neg_tdiv, hnat]

/-- An hour with a mixed minute is mixed. -/
theorem mixedBucket_1h {samples : KeyedTable SampleRow.key} {nodeId : String} {metricId : ℕ}
    (h : MixedBucket samples bucketWidthNs1m nodeId metricId) :
    MixedBucket samples bucketWidthNs1h nodeId metricId := by
  obtain ⟨r, hr, r', hr', hb, hx, hx'⟩ := h
  refine ⟨r, hr, r', hr', ?_, hx, hx'⟩
  have hminute : r.tsNs.tdiv bucketWidthNs1m = r'.tsNs.tdiv bucketWidthNs1m :=
    mul_right_cancel₀ (by decide) hb
  rw [bucketTsNs, bucketTsNs, tdiv_1h, tdiv_1h, hminute]

/-! ### One table -/

/-- The `INSERT` adds the selected rows, all of them. -/
theorem insertSelect_eq_some {t t' : KeyedTable RollupRow.key} {selected : List BucketAggregate} :
    insertSelect t selected = some t'
      ↔ ∃ rows : List RollupRow, selected.map BucketAggregate.toRow = rows.map some ∧
        t'.rows = t.rows ++ rows := by
  induction selected generalizing t with
  | nil =>
    constructor
    · intro h
      injection h with h
      exact ⟨[], rfl, by rw [← h, List.append_nil]⟩
    · rintro ⟨rows, hrows, ht'⟩
      obtain rfl : rows = [] := List.map_eq_nil_iff.mp hrows.symm
      rw [List.append_nil] at ht'
      exact congrArg some (KeyedTable.ext ht'.symm)
  | cons a selected ih =>
    rw [insertSelect, List.foldlM_cons, Option.bind_eq_bind, Option.bind_eq_some_iff]
    constructor
    · rintro ⟨t₁, hinsert, hrest⟩
      obtain ⟨row, hrow, hinsert⟩ := Option.bind_eq_some_iff.mp hinsert
      obtain ⟨rows, hrows, ht'⟩ := ih.mp hrest
      refine ⟨row :: rows, ?_, ?_⟩
      · rw [List.map_cons, List.map_cons, hrow, hrows]
      · rw [ht', KeyedTable.insertUnique_eq_some.mp hinsert, List.append_assoc,
          List.singleton_append]
    · rintro ⟨rows, hrows, ht'⟩
      cases rows with
      | nil => cases hrows
      | cons row rows =>
        injection hrows with hrow hrows
        -- the table in between has the first of the rows
        have hrest : t'.rows = t.rows ++ [row] ++ rows := by rw [ht', ← List.append_cons]
        have hnodup : ((t.rows ++ [row]).map RollupRow.key).Nodup := by
          refine List.Nodup.sublist ?_ t'.keys_nodup
          rw [hrest]
          exact (List.sublist_append_left _ _).map _
        refine ⟨⟨t.rows ++ [row], hnodup⟩, ?_, ih.mpr ⟨rows, hrows, hrest⟩⟩
        rw [hrow, Option.bind_some]
        exact KeyedTable.insertUnique_eq_some.mpr rfl

/-- The rows of the pair are those selected from its samples. -/
def RolledUpAt (samples : KeyedTable SampleRow.key) (width : ℤ) (nodeId : String) (metricId : ℕ)
    (t : KeyedTable RollupRow.key) : Prop :=
  (selectBuckets samples width nodeId metricId).map BucketAggregate.toRow
    = (t.restrict (ofPair nodeId metricId)).map some

section OneTable

variable {samples : KeyedTable SampleRow.key} {width : ℤ} {nodeId : String} {metricId : ℕ}

/-- The keys of the selected rows. -/
theorem keys_of_selected {rows : List RollupRow}
    (h : (selectBuckets samples width nodeId metricId).map BucketAggregate.toRow = rows.map some) :
    rows.map RollupRow.key = (buckets (samples.restrict (ofPair nodeId metricId)) width).map
      fun bucket => (nodeId, metricId, bucket) := by
  have key : ∀ (bs : List ℤ) (agg : ℤ → BucketAggregate) (rows : List RollupRow),
      (∀ b, (agg b).nodeId = nodeId ∧ (agg b).metricId = metricId ∧ (agg b).bucketTsNs = b) →
      (bs.map agg).map BucketAggregate.toRow = rows.map some →
      rows.map RollupRow.key = bs.map fun b => (nodeId, metricId, b) := by
    intro bs agg rows hagg
    induction bs generalizing rows with
    | nil =>
      intro h
      rw [List.map_eq_nil_iff.mp h.symm]
      rfl
    | cons b bs ih =>
      intro h
      cases rows with
      | nil => cases h
      | cons row rows =>
        injection h with hrow hrows
        obtain ⟨hnode, hmetric, hbucket⟩ := hagg b
        rw [List.map_cons, List.map_cons, ih rows hrows]
        congr 1
        rw [BucketAggregate.toRow] at hrow
        split at hrow
        · injection hrow with hrow
          rw [← hrow, RollupRow.key, hnode, hmetric, hbucket]
        · cases hrow
  exact key _ _ rows (fun b => ⟨rfl, rfl, rfl⟩) h

/-- The row holds the aggregates of the samples in its bucket, and there are some. -/
structure Aggregates (rows : List SampleRow) (width : ℤ) (row : RollupRow) : Prop where
  bucket : row.bucketTsNs ∈ buckets rows width
  avg : avgOf (bucketValues rows width row.bucketTsNs) = some row.avgValue
  min : minOf (bucketValues rows width row.bucketTsNs) = some row.minValue
  max : maxOf (bucketValues rows width row.bucketTsNs) = some row.maxValue
  count : row.sampleCount = (bucketValues rows width row.bucketTsNs).length

theorem aggregates_of_rolledUpAt {t : KeyedTable RollupRow.key}
    (h : RolledUpAt samples width nodeId metricId t) {row : RollupRow}
    (hrow : row ∈ t.restrict (ofPair nodeId metricId)) :
    Aggregates (samples.restrict (ofPair nodeId metricId)) width row := by
  have hmem : some row ∈ (t.restrict (ofPair nodeId metricId)).map some := List.mem_map_of_mem hrow
  rw [← h] at hmem
  obtain ⟨a, ha, htoRow⟩ := List.mem_map.mp hmem
  obtain ⟨bucket, hbucket, rfl⟩ := List.mem_map.mp ha
  rw [BucketAggregate.toRow] at htoRow
  split at htoRow
  · rename_i avgValue minValue maxValue havg hmin hmax
    injection htoRow with htoRow
    subst htoRow
    exact ⟨hbucket, havg, hmin, hmax, rfl⟩
  · cases htoRow

/-- There is a row for each bucket with a sample in it. -/
theorem map_bucketTsNs_of_rolledUpAt {t : KeyedTable RollupRow.key}
    (h : RolledUpAt samples width nodeId metricId t) :
    (t.restrict (ofPair nodeId metricId)).map (·.bucketTsNs)
      = buckets (samples.restrict (ofPair nodeId metricId)) width := by
  have hkeys := congrArg (List.map fun key => key.2.2) (keys_of_selected h)
  rw [List.map_map, List.map_map] at hkeys
  exact hkeys.trans (List.map_id _)

/-- Without a mixed bucket every selected row is one of the table. -/
theorem exists_selected (h : ¬ MixedBucket samples width nodeId metricId) :
    ∃ rows : List RollupRow,
      (selectBuckets samples width nodeId metricId).map BucketAggregate.toRow = rows.map some := by
  refine ⟨(selectBuckets samples width nodeId metricId).filterMap BucketAggregate.toRow, ?_⟩
  rw [List.map_filterMap_some_eq_filter_map_isSome, List.filter_eq_self.mpr]
  intro o ho
  obtain ⟨a, ha, rfl⟩ := List.mem_map.mp ho
  rw [Option.isSome_iff_ne_none]
  exact fun hc => h (exists_toRow_eq_none.mp ⟨a, ha, hc⟩)

/-- What a round does: it succeeds unless a bucket is mixed, then the rows of the pair
are what they should be, and the rows of other pairs are untouched in any case. -/
structure RecomputesAt (samples : KeyedTable SampleRow.key) (width : ℤ) (nodeId : String)
    (metricId : ℕ) (t : KeyedTable RollupRow.key)
    (r : KeyedTable RollupRow.key × CallResult) : Prop where
  returns : r.2 = .returned ↔ ¬ MixedBucket samples width nodeId metricId
  rolledUp : r.2 = .returned → RolledUpAt samples width nodeId metricId r.1
  others : ∀ nodeId' metricId', (nodeId', metricId') ≠ (nodeId, metricId) →
    r.1.restrict (ofPair nodeId' metricId') = t.restrict (ofPair nodeId' metricId')

theorem ofPair_disjoint {nodeId' : String} {metricId' : ℕ}
    (h : (nodeId', metricId') ≠ (nodeId, metricId)) (k : SampleKey)
    (hk : ofPair nodeId' metricId' k = true) : ofPair nodeId metricId k = false := by
  obtain ⟨rfl, rfl⟩ := of_decide_eq_true hk
  refine decide_eq_false fun hc => h ?_
  rw [← hc.1, ← hc.2]

theorem key_of_selected {rows : List RollupRow}
    (h : (selectBuckets samples width nodeId metricId).map BucketAggregate.toRow = rows.map some)
    {r : RollupRow} (hr : r ∈ rows) : ∃ bucket, r.key = (nodeId, metricId, bucket) := by
  have hk : r.key ∈ rows.map RollupRow.key := List.mem_map_of_mem hr
  rw [keys_of_selected h] at hk
  obtain ⟨bucket, _, hb⟩ := List.mem_map.mp hk
  exact ⟨bucket, hb.symm⟩

/-- After the `DELETE`, the `INSERT` succeeds unless a bucket is mixed. -/
theorem exists_insertSelect_iff (t : KeyedTable RollupRow.key) :
    (∃ t', insertSelect (t.deleteWhere (ofPair nodeId metricId))
        (selectBuckets samples width nodeId metricId) = some t')
      ↔ ¬ MixedBucket samples width nodeId metricId := by
  constructor
  · rintro ⟨t', ht'⟩ hmixed
    obtain ⟨rows, hrows, _⟩ := insertSelect_eq_some.mp ht'
    obtain ⟨a, ha, hnone⟩ := exists_toRow_eq_none.mpr hmixed
    have hmem : a.toRow ∈ rows.map some := hrows ▸ List.mem_map_of_mem ha
    rw [hnone] at hmem
    obtain ⟨_, _, hc⟩ := List.mem_map.mp hmem
    cases hc
  · intro hmixed
    -- the selected rows fit into the table
    obtain ⟨rows, hrows⟩ := exists_selected hmixed
    have hnodup : (((t.deleteWhere (ofPair nodeId metricId)).rows ++ rows).map
        RollupRow.key).Nodup := by
      rw [List.map_append, List.nodup_append]
      refine ⟨KeyedTable.keys_nodup _, ?_, ?_⟩
      · rw [keys_of_selected hrows]
        refine (nodup_buckets _ _).map fun b b' hb => ?_
        simpa using hb
      · rintro k hk k' hk' rfl
        obtain ⟨r, hr, rfl⟩ := List.mem_map.mp hk
        obtain ⟨r', hr', hkey⟩ := List.mem_map.mp hk'
        obtain ⟨b, hb⟩ := key_of_selected hrows hr'
        have hdeleted := KeyedTable.key_of_mem_deleteWhere hr
        rw [← hkey, hb] at hdeleted
        simp [ofPair] at hdeleted
    exact ⟨⟨_, hnodup⟩, insertSelect_eq_some.mpr ⟨rows, hrows, rfl⟩⟩

/-- What is inserted for a pair does not touch the rows of another. -/
theorem restrict_insertSelect_of_ne {t t' : KeyedTable RollupRow.key}
    (h : insertSelect t (selectBuckets samples width nodeId metricId) = some t')
    {nodeId' : String} {metricId' : ℕ} (hne : (nodeId', metricId') ≠ (nodeId, metricId)) :
    t'.restrict (ofPair nodeId' metricId') = t.restrict (ofPair nodeId' metricId') := by
  obtain ⟨rows, hrows, ht'⟩ := insertSelect_eq_some.mp h
  have hnone : rows.filter (fun r => ofPair nodeId' metricId' r.key) = [] := by
    refine List.filter_eq_nil_iff.mpr fun r hr hc => ?_
    obtain ⟨b, hb⟩ := key_of_selected hrows hr
    have hout := ofPair_disjoint hne _ hc
    rw [hb] at hout
    simp [ofPair] at hout
  rw [KeyedTable.restrict, KeyedTable.restrict, ht', List.filter_append, hnone, List.append_nil]

section Inserted

variable {t t' : KeyedTable RollupRow.key}
  (h : insertSelect (t.deleteWhere (ofPair nodeId metricId))
    (selectBuckets samples width nodeId metricId) = some t')

include h

theorem rolledUpAt_of_insertSelect : RolledUpAt samples width nodeId metricId t' := by
  obtain ⟨rows, hrows, ht'⟩ := insertSelect_eq_some.mp h
  have hdeleted := t.restrict_deleteWhere (ofPair nodeId metricId)
  rw [RolledUpAt, hrows, KeyedTable.restrict, ht', List.filter_append,
    show List.filter _ _ = [] from hdeleted, List.nil_append, List.filter_eq_self.mpr]
  intro r hr
  obtain ⟨b, hb⟩ := key_of_selected hrows hr
  rw [hb]
  simp [ofPair]

theorem restrict_of_insertSelect {nodeId' : String} {metricId' : ℕ}
    (hne : (nodeId', metricId') ≠ (nodeId, metricId)) :
    t'.restrict (ofPair nodeId' metricId') = t.restrict (ofPair nodeId' metricId') := by
  rw [restrict_insertSelect_of_ne h hne]
  exact t.restrict_deleteWhere_of_disjoint (ofPair_disjoint hne)

end Inserted

/-- A round whose `INSERT` is refused leaves the `DELETE`. -/
theorem recomputeRollup_of_none {t : KeyedTable RollupRow.key}
    (h : insertSelect (t.deleteWhere (ofPair nodeId metricId))
      (selectBuckets samples width nodeId metricId) = none) :
    recomputeRollup samples width nodeId metricId t
      = (t.deleteWhere (ofPair nodeId metricId), .integrityError) := by
  rw [recomputeRollup, h]

theorem recomputeRollup_of_some {t t' : KeyedTable RollupRow.key}
    (h : insertSelect (t.deleteWhere (ofPair nodeId metricId))
      (selectBuckets samples width nodeId metricId) = some t') :
    recomputeRollup samples width nodeId metricId t = (t', .returned) := by
  rw [recomputeRollup, h]

theorem recomputeRollup_spec (t : KeyedTable RollupRow.key) :
    RecomputesAt samples width nodeId metricId t
      (recomputeRollup samples width nodeId metricId t) := by
  have hiff : _ ↔ ¬ MixedBucket samples width nodeId metricId := exists_insertSelect_iff t
  cases hinsert : insertSelect (t.deleteWhere (ofPair nodeId metricId))
      (selectBuckets samples width nodeId metricId) with
  | none =>
    have hmixed : ¬ ¬ MixedBucket samples width nodeId metricId := by
      rw [← hiff]
      rintro ⟨t', ht'⟩
      rw [hinsert] at ht'
      cases ht'
    rw [recomputeRollup_of_none hinsert]
    exact ⟨⟨fun hc => (by cases hc), fun h => absurd h hmixed⟩, fun hc => (by cases hc),
      fun _ _ hne => t.restrict_deleteWhere_of_disjoint (ofPair_disjoint hne)⟩
  | some t' =>
    rw [recomputeRollup_of_some hinsert]
    exact ⟨⟨fun _ => hiff.mp ⟨t', hinsert⟩, fun _ => rfl⟩,
      fun _ => rolledUpAt_of_insertSelect hinsert,
      fun _ _ hne => restrict_of_insertSelect hinsert hne⟩

end OneTable

/-! ### Both tables -/

/-- The rollups of the pair are those of its samples, in both resolutions. -/
structure RolledUp (store : TSDBStore) (nodeId : String) (metricId : ℕ) : Prop where
  minutes : RolledUpAt store.samples bucketWidthNs1m nodeId metricId store.rollup1m
  hours : RolledUpAt store.samples bucketWidthNs1h nodeId metricId store.rollup1h

/-- The two stores have the same samples, and the same rollups of a pair. -/
structure SameRollups (store store' : TSDBStore) (nodeId : String) (metricId : ℕ) : Prop where
  samples : store'.samples = store.samples
  minutes : store'.rollup1m.restrict (ofPair nodeId metricId)
    = store.rollup1m.restrict (ofPair nodeId metricId)
  hours : store'.rollup1h.restrict (ofPair nodeId metricId)
    = store.rollup1h.restrict (ofPair nodeId metricId)

theorem SameRollups.rolledUp {store store' : TSDBStore} {nodeId : String} {metricId : ℕ}
    (h : SameRollups store store' nodeId metricId) (hup : store.RolledUp nodeId metricId) :
    store'.RolledUp nodeId metricId := by
  constructor
  · rw [RolledUpAt, h.samples, h.minutes]
    exact hup.minutes
  · rw [RolledUpAt, h.samples, h.hours]
    exact hup.hours

/-- What a call of `recompute_rollups` does: it returns unless an hour of the pair is
mixed, and other pairs keep their rollups in any case. -/
structure Recomputes (store : TSDBStore) (nodeId : String) (metricId : ℕ)
    (r : TSDBStore × CallResult) : Prop where
  samples : r.1.samples = store.samples
  returns : r.2 = .returned ↔ ¬ MixedBucket store.samples bucketWidthNs1h nodeId metricId
  rolledUp : r.2 = .returned → r.1.RolledUp nodeId metricId
  others : ∀ nodeId' metricId', (nodeId', metricId') ≠ (nodeId, metricId) →
    SameRollups store r.1 nodeId' metricId'

theorem recomputeRollups_spec (store : TSDBStore) (nodeId : String) (metricId : ℕ) :
    store.Recomputes nodeId metricId (store.recomputeRollups nodeId metricId) := by
  have h1m : RecomputesAt store.samples bucketWidthNs1m nodeId metricId store.rollup1m _ :=
    recomputeRollup_spec store.rollup1m
  have h1h : RecomputesAt store.samples bucketWidthNs1h nodeId metricId store.rollup1h _ :=
    recomputeRollup_spec store.rollup1h
  rw [recomputeRollups]
  by_cases hreturned : (recomputeRollup store.samples bucketWidthNs1m nodeId metricId
      store.rollup1m).2 = .returned
  · simp only [if_pos hreturned]
    exact ⟨rfl, h1h.returns, fun h => ⟨h1m.rolledUp hreturned, h1h.rolledUp h⟩,
      fun nodeId' metricId' hne => ⟨rfl, h1m.others _ _ hne, h1h.others _ _ hne⟩⟩
  · simp only [if_neg hreturned]
    have hmixed : MixedBucket store.samples bucketWidthNs1m nodeId metricId :=
      not_not.mp fun hc => hreturned (h1m.returns.mpr hc)
    exact ⟨rfl, ⟨fun hc => absurd hc hreturned, fun hc => absurd (mixedBucket_1h hmixed) hc⟩,
      fun hc => absurd hc hreturned, fun nodeId' metricId' hne => ⟨rfl, h1m.others _ _ hne, rfl⟩⟩

end TSDBStore

end Ingest
