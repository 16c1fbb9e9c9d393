/-
What a failed `recompute_rollups` leaves behind (`hpctel/storage/tsdb.py`).

The four statements of a call share one implicit transaction, which is committed at
the end and never rolled back.  When one of them raises, what those before it have
done is in the open transaction: it is read by all queries over the connection, and
committed by the next operation.

* `recomputeRollupsOn` — the call, statement by statement;
* `recomputeRollupsOn_seen` — without faults from outside it is the call on the store;
* `Atomic` — a failed call leaves the rollups of all pairs as they were, for any later
  queries and operations;
* `atomic_iff` — when it does.
-/
import HpcTelemetry.ImplicitTransaction
import HpcTelemetry.Rollups

namespace Ingest

namespace TSDBStore

open ImplicitTransaction OrderStatistics

/-! ### The statements -/

/-- The statements of a call, in order. -/
inductive RollupStatement where
  | deleteFrom1m
  | insertInto1m
  | deleteFrom1h
  | insertInto1h
  deriving DecidableEq

/-- What a statement does; `none` is an `IntegrityError`. -/
def RollupStatement.effect (nodeId : String) (metricId : ℕ) (store : TSDBStore) :
    RollupStatement → Option TSDBStore
  | .deleteFrom1m => some { store with
      rollup1m := store.rollup1m.deleteWhere (ofPair nodeId metricId) }
  | .insertInto1m =>
    (insertSelect store.rollup1m
      (selectBuckets store.samples bucketWidthNs1m nodeId metricId)).map
        fun t => { store with rollup1m := t }
  | .deleteFrom1h => some { store with
      rollup1h := store.rollup1h.deleteWhere (ofPair nodeId metricId) }
  | .insertInto1h =>
    (insertSelect store.rollup1h
      (selectBuckets store.samples bucketWidthNs1h nodeId metricId)).map
        fun t => { store with rollup1h := t }

def rollupStatements : List RollupStatement :=
  [.deleteFrom1m, .insertInto1m, .deleteFrom1h, .insertInto1h]

/-- A statement that raises of its own or because `raises` says so: the disk is full,
the database is locked. -/
def attempt (raises : RollupStatement → Bool) (nodeId : String) (metricId : ℕ)
    (statement : RollupStatement) (store : TSDBStore) : Option TSDBStore :=
  if raises statement then none else statement.effect nodeId metricId store

/-- `recompute_rollups` on a connection, and the statement that raised, if one did. -/
def recomputeRollupsOn (c : Connection TSDBStore) (raises : RollupStatement → Bool)
    (nodeId : String) (metricId : ℕ) : Connection TSDBStore × Option RollupStatement :=
  let r := c.executeAll (attempt raises nodeId metricId) rollupStatements
  if r.2 = none then (r.1.commit, none) else r

/-! ### Queries and other operations -/

inductive Resolution where
  | oneMinute
  | oneHour
  deriving DecidableEq

/-- The table of a resolution. -/
def rollup (store : TSDBStore) : Resolution → KeyedTable RollupRow.key
  | .oneMinute => store.rollup1m
  | .oneHour => store.rollup1h

/-- `query_rollup`: the latest buckets of a pair first, at most `limit` of them. -/
def queryRollup (store : TSDBStore) (nodeId : String) (metricId : ℕ) (resolution : Resolution)
    (limit : ℤ) : List (ℤ × RealColumn × RealColumn × RealColumn × ℕ) :=
  let rows := (store.rollup resolution).restrict (ofPair nodeId metricId)
  let sorted := (rows.insertionSort fun r r' => r'.bucketTsNs ≤ r.bucketTsNs).map fun r =>
    (r.bucketTsNs, r.avgValue, r.minValue, r.maxValue, r.sampleCount)
  if limit < 0 then sorted else sorted.take limit.toNat

/-- The operations of the store that write. -/
inductive Operation where
  | insertSamples (rows : List SampleParams)
  | insertPhaseEvent (row : PhaseEventRow)
  | createJob (jobId : String) (phaseCount : ℕ) (nodeIds : List String) (createdTsNs : ℤ)
      (faultManifest : Option FaultManifest)
  | setJobStatus (jobId : String) (status : JobStatus)
  | recomputeRollups (raises : RollupStatement → Bool) (nodeId : String) (metricId : ℕ)

/-- An operation on a connection. -/
def Operation.apply (c : Connection TSDBStore) : Operation → Connection TSDBStore
  | .insertSamples rows => c.executeAndCommit fun store => some (store.insertSamples rows).1
  | .insertPhaseEvent row => c.executeAndCommit fun store => some (store.insertPhaseEvent row)
  | .createJob jobId phaseCount nodeIds createdTsNs faultManifest =>
    c.executeAndCommit fun store =>
      store.createJob jobId phaseCount nodeIds createdTsNs faultManifest
  | .setJobStatus jobId status =>
    c.executeAndCommit fun store => some (store.setJobStatus jobId status)
  | .recomputeRollups raises nodeId metricId => (recomputeRollupsOn c raises nodeId metricId).1

/-- The operation recomputes the rollups of the pair. -/
def Operation.Recomputes (nodeId : String) (metricId : ℕ) (op : Operation) : Prop :=
  ∃ raises, op = .recomputeRollups raises nodeId metricId

/-- A call that leaves the rollups of every pair as they were: for all that is read
over the connection from then on, whatever operations there are that do not recompute
the pair, and for what is committed once the transaction has been closed. -/
structure Atomic (c : Connection TSDBStore) (raises : RollupStatement → Bool) (nodeId : String)
    (metricId : ℕ) : Prop where
  seen : ∀ (operations : List Operation) (nodeId' : String) (metricId' : ℕ),
    (∀ op ∈ operations, ¬ op.Recomputes nodeId' metricId') → ∀ resolution limit,
      (operations.foldl Operation.apply
          (recomputeRollupsOn c raises nodeId metricId).1).seen.queryRollup
            nodeId' metricId' resolution limit
        = c.seen.queryRollup nodeId' metricId' resolution limit
  committed : ∀ (operations : List Operation) (nodeId' : String) (metricId' : ℕ),
    (∀ op ∈ operations, ¬ op.Recomputes nodeId' metricId') →
      (operations.foldl Operation.apply
        (recomputeRollupsOn c raises nodeId metricId).1).transaction = none →
          ∀ resolution limit,
            (operations.foldl Operation.apply
                (recomputeRollupsOn c raises nodeId metricId).1).committed.queryRollup
                  nodeId' metricId' resolution limit
              = c.seen.queryRollup nodeId' metricId' resolution limit

/-- Each row of the pair holds the aggregates of its bucket, and each sample of the pair
has a row. -/
structure UpToDate (samples : KeyedTable SampleRow.key) (width : ℤ) (nodeId : String)
    (metricId : ℕ) (t : KeyedTable RollupRow.key) : Prop where
  aggregates : ∀ row ∈ t.restrict (ofPair nodeId metricId),
    Aggregates (samples.restrict (ofPair nodeId metricId)) width row
  complete : ∀ s ∈ samples.restrict (ofPair nodeId metricId),
    ∃ row ∈ t.restrict (ofPair nodeId metricId), row.bucketTsNs = bucketTsNs width s.tsNs

/-- What the statements before the one that raises leave as it was. -/
def KeptBefore (store : TSDBStore) (nodeId : String) (metricId : ℕ) : RollupStatement → Prop
  | .deleteFrom1m => True
  | .insertInto1m => store.rollup1m.restrict (ofPair nodeId metricId) = []
  | .deleteFrom1h => UpToDate store.samples bucketWidthNs1m nodeId metricId store.rollup1m
  | .insertInto1h => UpToDate store.samples bucketWidthNs1m nodeId metricId store.rollup1m
      ∧ store.rollup1h.restrict (ofPair nodeId metricId) = []

/-! ### The call on the store -/

section Call

variable {raises : RollupStatement → Bool} {nodeId : String} {metricId : ℕ}

/-- A call all of whose statements are carried out commits. -/
theorem recomputeRollupsOn_of_none {c : Connection TSDBStore}
    (h : (c.executeAll (attempt raises nodeId metricId) rollupStatements).2 = none) :
    recomputeRollupsOn c raises nodeId metricId
      = ((c.executeAll (attempt raises nodeId metricId) rollupStatements).1.commit, none) :=
  if_pos h

theorem recomputeRollupsOn_of_some {c : Connection TSDBStore} {statement : RollupStatement}
    (h : (c.executeAll (attempt raises nodeId metricId) rollupStatements).2 = some statement) :
    recomputeRollupsOn c raises nodeId metricId
      = c.executeAll (attempt raises nodeId metricId) rollupStatements := by
  rw [recomputeRollupsOn, if_neg]
  rw [h]
  exact Option.some_ne_none _

/-- What is read after a call is what its statements have made of the store. -/
theorem seen_recomputeRollupsOn (c : Connection TSDBStore) :
    (recomputeRollupsOn c raises nodeId metricId).1.seen
      = (c.executeAll (attempt raises nodeId metricId) rollupStatements).1.seen := by
  cases h : (c.executeAll (attempt raises nodeId metricId) rollupStatements).2 with
  | none =>
    rw [recomputeRollupsOn_of_none h]
    rfl
  | some statement => rw [recomputeRollupsOn_of_some h]

theorem raised_recomputeRollupsOn (c : Connection TSDBStore) :
    (recomputeRollupsOn c raises nodeId metricId).2
      = (c.executeAll (attempt raises nodeId metricId) rollupStatements).2 := by
  cases h : (c.executeAll (attempt raises nodeId metricId) rollupStatements).2 with
  | none => rw [recomputeRollupsOn_of_none h]
  | some statement => rw [recomputeRollupsOn_of_some h, h]

/-- Without faults from outside a call does to what is read over the connection what
the call on the store does. -/
theorem recomputeRollupsOn_seen (c : Connection TSDBStore) (nodeId : String) (metricId : ℕ) :
    let r := recomputeRollupsOn c (fun _ => false) nodeId metricId
    r.1.seen = (c.seen.recomputeRollups nodeId metricId).1
      ∧ (r.2 = none ↔ (c.seen.recomputeRollups nodeId metricId).2 = .returned) := by
  intro r
  rw [seen_recomputeRollupsOn, raised_recomputeRollupsOn, rollupStatements,
    Connection.executeAll_cons_of_some _ rfl]
  cases h1m : insertSelect (c.seen.rollup1m.deleteWhere (ofPair nodeId metricId))
      (selectBuckets c.seen.samples bucketWidthNs1m nodeId metricId) with
  | none =>
    rw [Connection.executeAll_cons_of_none _ (congrArg (Option.map _) h1m)]
    simp only [recomputeRollups, recomputeRollup_of_none h1m, reduceCtorEq, if_false]
    exact ⟨rfl, trivial⟩
  | some t1m =>
    rw [Connection.executeAll_cons_of_some _ (congrArg (Option.map _) h1m),
      Connection.executeAll_cons_of_some _ rfl]
    cases h1h : insertSelect (c.seen.rollup1h.deleteWhere (ofPair nodeId metricId))
        (selectBuckets c.seen.samples bucketWidthNs1h nodeId metricId) with
    | none =>
      rw [Connection.executeAll_cons_of_none _ (congrArg (Option.map _) h1h)]
      simp only [recomputeRollups, recomputeRollup_of_some h1m, recomputeRollup_of_none h1h,
        if_true, reduceCtorEq]
      exact ⟨rfl, trivial⟩
    | some t1h =>
      rw [Connection.executeAll_cons_of_some _ (congrArg (Option.map _) h1h),
        Connection.executeAll]
      simp only [recomputeRollups, recomputeRollup_of_some h1m, recomputeRollup_of_some h1h,
        if_true]
      exact ⟨rfl, trivial⟩

theorem effect_of_attempt {statement : RollupStatement} {store store' : TSDBStore}
    (h : attempt raises nodeId metricId statement store = some store') :
    statement.effect nodeId metricId store = some store' := by
  rw [attempt] at h
  split_ifs at h
  exact h

/-- What has been done when a statement raises: all that comes before it. -/
theorem seen_of_raised {c : Connection TSDBStore} {statement : RollupStatement}
    (h : (recomputeRollupsOn c raises nodeId metricId).2 = some statement) :
    (rollupStatements.takeWhile (· ≠ statement)).foldlM
        (fun store before => before.effect nodeId metricId store) c.seen
      = some (recomputeRollupsOn c raises nodeId metricId).1.seen := by
  rw [raised_recomputeRollupsOn] at h
  rw [seen_recomputeRollupsOn]
  have hdone := Connection.executeAll_failed (by decide) h
  -- a statement that did not raise has had its effect
  have key : ∀ (statements : List RollupStatement) (s t : TSDBStore),
      statements.foldlM (fun store j => attempt raises nodeId metricId j store) s = some t →
        statements.foldlM (fun store j => j.effect nodeId metricId store) s = some t := by
    intro statements
    induction statements with
    | nil => exact fun s t ht => ht
    | cons j statements ih =>
      intro s t ht
      rw [List.foldlM_cons, Option.bind_eq_bind, Option.bind_eq_some_iff] at ht ⊢
      obtain ⟨s', hattempt, hrest⟩ := ht
      exact ⟨s', effect_of_attempt hattempt, ih s' t hrest⟩
  exact key _ _ _ hdone

end Call

/-! ### Frames -/

/-- The rollups of the pair are the same rows. -/
def KeepsRollups (nodeId : String) (metricId : ℕ) (store store' : TSDBStore) : Prop :=
  ∀ resolution, (store'.rollup resolution).restrict (ofPair nodeId metricId)
    = (store.rollup resolution).restrict (ofPair nodeId metricId)

section Frames

variable {nodeId nodeId' : String} {metricId metricId' : ℕ}

theorem KeepsRollups.refl (store : TSDBStore) : KeepsRollups nodeId metricId store store :=
  fun _ => rfl

theorem KeepsRollups.trans {store store' store'' : TSDBStore}
    (h : KeepsRollups nodeId metricId store store')
    (h' : KeepsRollups nodeId metricId store' store'') :
    KeepsRollups nodeId metricId store store'' := fun resolution =>
  (h' resolution).trans (h resolution)

theorem keepsRollups_of_both {store store' : TSDBStore}
    (h1m : store'.rollup1m.restrict (ofPair nodeId metricId)
      = store.rollup1m.restrict (ofPair nodeId metricId))
    (h1h : store'.rollup1h.restrict (ofPair nodeId metricId)
      = store.rollup1h.restrict (ofPair nodeId metricId)) :
    KeepsRollups nodeId metricId store store' := by
  intro resolution
  cases resolution with
  | oneMinute => exact h1m
  | oneHour => exact h1h

/-- A statement leaves other pairs alone. -/
theorem keepsRollups_effect (hne : (nodeId', metricId') ≠ (nodeId, metricId))
    {statement : RollupStatement} {store store' : TSDBStore}
    (h : statement.effect nodeId metricId store = some store') :
    KeepsRollups nodeId' metricId' store store' := by
  have hdelete : ∀ t : KeyedTable RollupRow.key,
      (t.deleteWhere (ofPair nodeId metricId)).restrict (ofPair nodeId' metricId')
        = t.restrict (ofPair nodeId' metricId') := fun t =>
    t.restrict_deleteWhere_of_disjoint (ofPair_disjoint hne)
  cases statement with
  | deleteFrom1m =>
    obtain rfl := Option.some_inj.mp h
    exact keepsRollups_of_both (hdelete store.rollup1m) rfl
  | insertInto1m =>
    obtain ⟨t, ht, rfl⟩ := Option.map_eq_some_iff.mp h
    exact keepsRollups_of_both (restrict_insertSelect_of_ne ht hne) rfl
  | deleteFrom1h =>
    obtain rfl := Option.some_inj.mp h
    exact keepsRollups_of_both rfl (hdelete store.rollup1h)
  | insertInto1h =>
    obtain ⟨t, ht, rfl⟩ := Option.map_eq_some_iff.mp h
    exact keepsRollups_of_both rfl (restrict_insertSelect_of_ne ht hne)

/-- So does a call, whichever of its statements raises. -/
theorem keepsRollups_recomputeRollupsOn (hne : (nodeId', metricId') ≠ (nodeId, metricId))
    (raises : RollupStatement → Bool) (c : Connection TSDBStore) :
    KeepsRollups nodeId' metricId' c.seen
      (recomputeRollupsOn c raises nodeId metricId).1.seen := by
  rw [seen_recomputeRollupsOn]
  refine Connection.executeAll_invariant KeepsRollups.refl (fun _ _ _ => KeepsRollups.trans)
    (fun statement store store' h => ?_) _ c
  exact keepsRollups_effect hne (effect_of_attempt h)

/-- An operation leaves the rollups of a pair it does not recompute. -/
theorem keepsRollups_apply {op : Operation} (hop : ¬ op.Recomputes nodeId metricId)
    (c : Connection TSDBStore) :
    KeepsRollups nodeId metricId c.seen (op.apply c).seen := by
  cases op with
  | insertSamples rows =>
    rw [Operation.apply, Connection.seen_executeAndCommit]
    exact keepsRollups_of_both rfl rfl
  | insertPhaseEvent row =>
    rw [Operation.apply, Connection.seen_executeAndCommit]
    exact keepsRollups_of_both rfl rfl
  | createJob jobId phaseCount nodeIds createdTsNs faultManifest =>
    rw [Operation.apply, Connection.seen_executeAndCommit, createJob]
    split_ifs
    · exact KeepsRollups.refl c.seen
    · exact keepsRollups_of_both rfl rfl
  | setJobStatus jobId status =>
    rw [Operation.apply, Connection.seen_executeAndCommit]
    exact keepsRollups_of_both rfl rfl
  | recomputeRollups raises node metric =>
    refine keepsRollups_recomputeRollupsOn (fun hpair => hop ?_) raises c
    injection hpair with hnode hmetric
    rw [hnode, hmetric]
    exact ⟨raises, rfl⟩

/-- And so do operations one after another. -/
theorem keepsRollups_foldl {operations : List Operation}
    (hops : ∀ op ∈ operations, ¬ op.Recomputes nodeId metricId) (c : Connection TSDBStore) :
    KeepsRollups nodeId metricId c.seen (operations.foldl Operation.apply c).seen := by
  induction operations generalizing c with
  | nil => exact KeepsRollups.refl c.seen
  | cons op operations ih =>
    rw [List.foldl_cons]
    exact (keepsRollups_apply (hops op List.mem_cons_self) c).trans
      (ih (fun op' hop' => hops op' (List.mem_cons_of_mem _ hop')) _)

end Frames

/-! ### Queries -/

/-- The rollups of the pair have the same rows, in whatever order. -/
def SameRows (nodeId : String) (metricId : ℕ) (store store' : TSDBStore) : Prop :=
  ∀ resolution row, row ∈ (store'.rollup resolution).restrict (ofPair nodeId metricId)
    ↔ row ∈ (store.rollup resolution).restrict (ofPair nodeId metricId)

section Queries

variable {nodeId : String} {metricId : ℕ} {store store' : TSDBStore}

/-- The rows of a pair are told apart by their buckets. -/
theorem nodup_bucketTsNs (t : KeyedTable RollupRow.key) :
    ((t.restrict (ofPair nodeId metricId)).map (·.bucketTsNs)).Nodup := by
  have hkeys : ((t.restrict (ofPair nodeId metricId)).map RollupRow.key).Nodup :=
    (List.filter_sublist.map _).nodup t.keys_nodup
  have hpairs : (t.restrict (ofPair nodeId metricId)).map RollupRow.key
      = ((t.restrict (ofPair nodeId metricId)).map (·.bucketTsNs)).map
        fun bucket => (nodeId, metricId, bucket) := by
    rw [List.map_map]
    refine List.map_congr_left fun row hrow => ?_
    obtain ⟨hnode, hmetric⟩ := of_decide_eq_true (List.mem_filter.mp hrow).2
    exact Prod.ext hnode (Prod.ext hmetric rfl)
  rw [hpairs] at hkeys
  exact hkeys.of_map _

theorem queryRollup_of_keepsRollups (h : KeepsRollups nodeId metricId store store')
    (resolution : Resolution) (limit : ℤ) :
    store'.queryRollup nodeId metricId resolution limit
      = store.queryRollup nodeId metricId resolution limit := by
  rw [queryRollup, queryRollup, h resolution]

theorem mem_queryRollup_neg {resolution : Resolution}
    {columns : ℤ × RealColumn × RealColumn × RealColumn × ℕ} :
    columns ∈ store.queryRollup nodeId metricId resolution (-1)
      ↔ ∃ row ∈ (store.rollup resolution).restrict (ofPair nodeId metricId),
        (row.bucketTsNs, row.avgValue, row.minValue, row.maxValue, row.sampleCount)
          = columns := by
  rw [queryRollup, if_pos (by decide), List.mem_map]
  simp only [List.mem_insertionSort]

/-- The columns that a query leaves out are those of the pair. -/
theorem eq_of_columns {t t' : KeyedTable RollupRow.key} {row row' : RollupRow}
    (hrow : row ∈ t.restrict (ofPair nodeId metricId))
    (hrow' : row' ∈ t'.restrict (ofPair nodeId metricId))
    (h : (row'.bucketTsNs, row'.avgValue, row'.minValue, row'.maxValue, row'.sampleCount)
      = (row.bucketTsNs, row.avgValue, row.minValue, row.maxValue, row.sampleCount)) :
    row' = row := by
  obtain ⟨hnode, hmetric⟩ := of_decide_eq_true (List.mem_filter.mp hrow).2
  obtain ⟨hnode', hmetric'⟩ := of_decide_eq_true (List.mem_filter.mp hrow').2
  cases row
  cases row'
  cases hnode
  cases hmetric
  cases hnode'
  cases hmetric'
  cases h
  rfl

/-- Of two stores that answer all queries alike, the one has the rows of the other. -/
theorem mem_of_queryRollup {resolution : Resolution}
    (h : store'.queryRollup nodeId metricId resolution (-1)
      = store.queryRollup nodeId metricId resolution (-1))
    {row : RollupRow} (hrow : row ∈ (store'.rollup resolution).restrict (ofPair nodeId metricId)) :
    row ∈ (store.rollup resolution).restrict (ofPair nodeId metricId) := by
  have hcolumns := mem_queryRollup_neg.mpr ⟨row, hrow, rfl⟩
  rw [h] at hcolumns
  obtain ⟨row', hrow', hcolumns⟩ := mem_queryRollup_neg.mp hcolumns
  rw [← eq_of_columns hrow hrow' hcolumns]
  exact hrow'

/-- What is queried of a pair is its rows. -/
theorem queryRollup_eq_iff : (∀ resolution limit,
      store'.queryRollup nodeId metricId resolution limit
        = store.queryRollup nodeId metricId resolution limit)
    ↔ SameRows nodeId metricId store store' := by
  constructor
  · intro h resolution row
    exact ⟨mem_of_queryRollup (h resolution (-1)), mem_of_queryRollup (h resolution (-1)).symm⟩
  · intro h resolution limit
    have hsorted : ((store'.rollup resolution).restrict (ofPair nodeId metricId)).insertionSort
          (fun r r' => r'.bucketTsNs ≤ r.bucketTsNs)
        = ((store.rollup resolution).restrict (ofPair nodeId metricId)).insertionSort
          fun r r' => r'.bucketTsNs ≤ r.bucketTsNs :=
      @insertionSort_eq_of_mem_iff _ _ _ (fun row : RollupRow => OrderDual.toDual row.bucketTsNs)
        _ _ (nodup_bucketTsNs (store'.rollup resolution))
        (nodup_bucketTsNs (store.rollup resolution)) (h resolution)
    rw [queryRollup, queryRollup, hsorted]

end Queries

/-! ### Failed calls -/

section Failed

variable {raises : RollupStatement → Bool} {nodeId : String} {metricId : ℕ}

/-- The rows there are after the `DELETE` are those there were, if there were none. -/
theorem sameRows_deleteWhere {t : KeyedTable RollupRow.key} :
    (∀ row, row ∈ (t.deleteWhere (ofPair nodeId metricId)).restrict (ofPair nodeId metricId)
      ↔ row ∈ t.restrict (ofPair nodeId metricId)) ↔ t.restrict (ofPair nodeId metricId) = [] := by
  rw [t.restrict_deleteWhere, List.eq_nil_iff_forall_not_mem]
  simp only [List.not_mem_nil, false_iff]

section UpToDate

variable {samples : KeyedTable SampleRow.key} {width : ℤ} {t t' : KeyedTable RollupRow.key}

theorem upToDate_of_rolledUpAt (h : RolledUpAt samples width nodeId metricId t) :
    UpToDate samples width nodeId metricId t := by
  refine ⟨fun row hrow => aggregates_of_rolledUpAt h hrow, fun s hs => List.mem_map.mp ?_⟩
  rw [map_bucketTsNs_of_rolledUpAt h]
  exact mem_buckets.mpr ⟨s, hs, rfl⟩

/-- The samples say what the rows are. -/
theorem UpToDate.mem_of_mem (h : UpToDate samples width nodeId metricId t)
    (h' : UpToDate samples width nodeId metricId t') {row : RollupRow}
    (hrow : row ∈ t.restrict (ofPair nodeId metricId)) :
    row ∈ t'.restrict (ofPair nodeId metricId) := by
  have hagg := h.aggregates row hrow
  obtain ⟨s, hs, hbucket⟩ := mem_buckets.mp hagg.bucket
  obtain ⟨row', hrow', hbucket'⟩ := h'.complete s hs
  have hagg' := h'.aggregates row' hrow'
  have heq : row'.bucketTsNs = row.bucketTsNs := hbucket'.trans hbucket
  have havg := Option.some_inj.mp (hagg'.avg.symm.trans (heq ▸ hagg.avg))
  have hmin := Option.some_inj.mp (hagg'.min.symm.trans (heq ▸ hagg.min))
  have hmax := Option.some_inj.mp (hagg'.max.symm.trans (heq ▸ hagg.max))
  have hcount : row'.sampleCount = row.sampleCount := by
    rw [hagg'.count, hagg.count, heq]
  rw [← eq_of_columns hrow hrow' (by rw [heq, havg, hmin, hmax, hcount])]
  exact hrow'

/-- The rows after the `INSERT` are those there were, if these were up to date. -/
theorem sameRows_insertSelect
    (h : insertSelect (t.deleteWhere (ofPair nodeId metricId))
      (selectBuckets samples width nodeId metricId) = some t') :
    (∀ row, row ∈ t'.restrict (ofPair nodeId metricId)
      ↔ row ∈ t.restrict (ofPair nodeId metricId)) ↔ UpToDate samples width nodeId metricId t := by
  have hup := upToDate_of_rolledUpAt (rolledUpAt_of_insertSelect h)
  constructor
  · intro hsame
    refine ⟨fun row hrow => hup.aggregates row ((hsame row).mpr hrow), fun s hs => ?_⟩
    obtain ⟨row, hrow, hbucket⟩ := hup.complete s hs
    exact ⟨row, (hsame row).mp hrow, hbucket⟩
  · exact fun hup' row => ⟨hup.mem_of_mem hup', hup'.mem_of_mem hup⟩

end UpToDate

/-- What the statements before the one that raised have left. -/
theorem sameRows_iff_keptBefore {statement : RollupStatement} {store store' : TSDBStore}
    (h : (rollupStatements.takeWhile (· ≠ statement)).foldlM
      (fun store before => before.effect nodeId metricId store) store = some store') :
    SameRows nodeId metricId store store' ↔ KeptBefore store nodeId metricId statement := by
  have hboth : SameRows nodeId metricId store store'
      ↔ (∀ row, row ∈ store'.rollup1m.restrict (ofPair nodeId metricId)
          ↔ row ∈ store.rollup1m.restrict (ofPair nodeId metricId))
        ∧ ∀ row, row ∈ store'.rollup1h.restrict (ofPair nodeId metricId)
          ↔ row ∈ store.rollup1h.restrict (ofPair nodeId metricId) := by
    constructor
    · exact fun hsame => ⟨hsame .oneMinute, hsame .oneHour⟩
    · rintro ⟨h1m, h1h⟩ resolution
      cases resolution with
      | oneMinute => exact h1m
      | oneHour => exact h1h
  rw [hboth]
  cases statement with
  | deleteFrom1m =>
    obtain rfl : store = store' := Option.some_inj.mp h
    exact ⟨fun _ => trivial, fun _ => ⟨fun _ => Iff.rfl, fun _ => Iff.rfl⟩⟩
  | insertInto1m =>
    obtain rfl := Option.some_inj.mp h
    exact (and_iff_left fun _ => Iff.rfl).trans sameRows_deleteWhere
  | deleteFrom1h =>
    -- a `DELETE` is always carried out
    obtain ⟨_, hinsert, h⟩ := Option.bind_eq_some_iff.mp h
    obtain ⟨t, ht, rfl⟩ := Option.map_eq_some_iff.mp hinsert
    obtain rfl := Option.some_inj.mp h
    exact (and_iff_left fun _ => Iff.rfl).trans (sameRows_insertSelect ht)
  | insertInto1h =>
    obtain ⟨_, hinsert, h⟩ := Option.bind_eq_some_iff.mp h
    obtain ⟨t, ht, rfl⟩ := Option.map_eq_some_iff.mp hinsert
    obtain rfl := Option.some_inj.mp h
    exact and_congr (sameRows_insertSelect ht) sameRows_deleteWhere

/-- A failed call is atomic if and only if what it did before it failed changed
nothing. -/
theorem atomic_iff (c : Connection TSDBStore) (raises : RollupStatement → Bool) (nodeId : String)
    (metricId : ℕ) (statement : RollupStatement)
    (h : (recomputeRollupsOn c raises nodeId metricId).2 = some statement) :
    Atomic c raises nodeId metricId ↔ KeptBefore c.seen nodeId metricId statement := by
  rw [← sameRows_iff_keptBefore (seen_of_raised h), ← queryRollup_eq_iff]
  constructor
  · intro hatomic
    exact hatomic.seen [] nodeId metricId fun op hop => absurd hop List.not_mem_nil
  · intro hcall
    have hseen : ∀ (operations : List Operation) (nodeId' : String) (metricId' : ℕ),
        (∀ op ∈ operations, ¬ op.Recomputes nodeId' metricId') → ∀ resolution limit,
          (operations.foldl Operation.apply
              (recomputeRollupsOn c raises nodeId metricId).1).seen.queryRollup
                nodeId' metricId' resolution limit
            = c.seen.queryRollup nodeId' metricId' resolution limit := by
      intro operations nodeId' metricId' hops resolution limit
      rw [queryRollup_of_keepsRollups (keepsRollups_foldl hops _)]
      by_cases hpair : (nodeId', metricId') = (nodeId, metricId)
      · injection hpair with hnode hmetric
        rw [hnode, hmetric]
        exact hcall resolution limit
      · exact queryRollup_of_keepsRollups (keepsRollups_recomputeRollupsOn hpair raises c) _ _
    refine ⟨hseen, fun operations nodeId' metricId' hops hclosed resolution limit => ?_⟩
    -- without a transaction, what is committed is what is read
    have hcommitted : (operations.foldl Operation.apply
          (recomputeRollupsOn c raises nodeId metricId).1).seen
        = (operations.foldl Operation.apply
          (recomputeRollupsOn c raises nodeId metricId).1).committed := by
      rw [Connection.seen, hclosed]
      rfl
    rw [← hcommitted]
    exact hseen operations nodeId' metricId' hops resolution limit

end Failed

/-! ### Infinities -/

/-- A sample of the pair `n`, 1. -/
def reported (tsNs : ℤ) (value : Double) : SampleParams :=
  ⟨"n", 1, tsNs, 0, 0, value, "hpctel-agent-0.1"⟩

/-- Infinities of both signs in one minute, and no rollups yet. -/
def mixedConnection : Connection TSDBStore :=
  (Operation.insertSamples [reported 1 .posInf, reported 2 .negInf]).apply ⟨.empty, none⟩

/-- There is nothing that the `DELETE` could have deleted. -/
theorem atomic_iff_example : Atomic mixedConnection (fun _ => false) "n" 1 :=
  (atomic_iff mixedConnection (fun _ => false) "n" 1 .insertInto1m (by decide +kernel)).mpr
    (by rw [KeptBefore]; decide +kernel)

/-- `-inf` arrives when the rollups of `+inf` are there. -/
def rolledUpConnection : Connection TSDBStore :=
  [.insertSamples [reported 1 .posInf], .recomputeRollups (fun _ => false) "n" 1,
    .insertSamples [reported 2 .negInf]].foldl Operation.apply ⟨.empty, none⟩

/-- A call, and after it a change of the status of a job. -/
def laterConnection : Connection TSDBStore :=
  [.recomputeRollups (fun _ => false) "n" 1, .setJobStatus "job" .completed].foldl
    Operation.apply rolledUpConnection

/-- The call fails, and the next operation that commits makes its `DELETE` permanent. -/
theorem atomic_counterexample :
    (recomputeRollupsOn rolledUpConnection (fun _ => false) "n" 1).2 = some .insertInto1m ∧
      rolledUpConnection.committed.queryRollup "n" 1 .oneMinute 100
        = [(0, ⟨.posInf, by decide⟩, ⟨.posInf, by decide⟩, ⟨.posInf, by decide⟩, 1)] ∧
      laterConnection.transaction = none ∧
      laterConnection.committed.queryRollup "n" 1 .oneMinute 100 = [] ∧
      ¬ Atomic rolledUpConnection (fun _ => false) "n" 1 := by
  refine ⟨by decide +kernel, by decide +kernel, by decide +kernel, by decide +kernel,
    fun hatomic => ?_⟩
  have hquery := hatomic.seen [.setJobStatus "job" .completed] "n" 1
    (fun op hop => ?_) .oneMinute 100
  · exact absurd hquery (by decide +kernel)
  · obtain rfl := List.mem_singleton.mp hop
    rintro ⟨_, hc⟩
    cases hc

end TSDBStore

end Ingest
