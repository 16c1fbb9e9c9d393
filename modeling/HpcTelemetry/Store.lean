/-
The time-series store (`hpctel/storage/schema.py`, `hpctel/storage/tsdb.py`).

Each SQL table is a `KeyedTable`: its primary key is part of the type, and so
is every `NOT NULL` column, so that a row SQLite would refuse cannot be
written down.  Every statement runs on the one connection all queries use, so
the state modelled is the database as that connection sees it.

* `TSDBStore.insertSamples` — `executemany` of an `INSERT OR IGNORE`: a row is
  skipped when its key is taken or its value binds to `NULL`;
* `TSDBStore.insertPhaseEvent`, `countPhaseReports`, `listPhaseEvents` — the
  phase reports;
* `TSDBStore.createJob`, `setJobStatus`, `getJob` — the jobs;
* `insertSamples_rows_prefix`, `insertPhaseEvent_rows_prefix` — rows never
  disappear.
-/
import HpcTelemetry.KeyedTable
import HpcTelemetry.Wire
import Mathlib.Data.List.Sort

namespace Ingest

open Wire

/-! ### Schema -/

/-- A `REAL NOT NULL` column: `sqlite3` binds NaN as `NULL`. -/
abbrev RealColumn := {x : Double // x ≠ .nan}

/-- Binding a Python float to a parameter; `none` is `NULL`. -/
def bindReal (x : Double) : Option RealColumn :=
  if h : x = .nan then none else some ⟨x, h⟩

/-- The primary key of `samples`. -/
abbrev SampleKey := String × ℕ × ℤ

instance (key : SampleKey) (keys : List SampleKey) : Decidable (key ∈ keys) := inferInstance

/-- A row of `samples`. -/
structure SampleRow where
  nodeId : String
  metricId : ℕ
  tsNs : ℤ
  monoNs : ℤ
  serverRecvTsNs : ℤ
  value : RealColumn
  producerVersion : String
  deriving DecidableEq

def SampleRow.key (r : SampleRow) : SampleKey := (r.nodeId, r.metricId, r.tsNs)

/-- A row of `rollup_1m` or `rollup_1h`. -/
structure RollupRow where
  nodeId : String
  metricId : ℕ
  bucketTsNs : ℤ
  avgValue : RealColumn
  minValue : RealColumn
  maxValue : RealColumn
  sampleCount : ℕ
  deriving DecidableEq

def RollupRow.key (r : RollupRow) : String × ℕ × ℤ := (r.nodeId, r.metricId, r.bucketTsNs)

/-- The values of `jobs.status`. -/
inductive JobStatus where
  | running
  | completed
  | timedOut
  deriving DecidableEq

/-- The fault manifest of a job, as stored in `fault_manifest_json`. -/
structure FaultManifest where
  targetHost : String
  phaseIndex : ℤ
  faultType : String
  intensity : ℤ
  deriving DecidableEq

/-- A row of `jobs`, with its JSON columns decoded. -/
structure JobRow where
  jobId : String
  phaseCount : ℕ
  nodeIds : List String
  faultManifest : Option FaultManifest
  status : JobStatus
  createdTsNs : ℤ
  deriving DecidableEq

/-- The primary key of `phase_events`. -/
abbrev PhaseKey := String × String × ℕ

/-- A row of `phase_events`. -/
structure PhaseEventRow where
  jobId : String
  nodeId : String
  phaseIndex : ℕ
  phaseStartTsNs : ℤ
  phaseStartMonoNs : ℤ
  phaseEndTsNs : ℤ
  phaseEndMonoNs : ℤ
  status : String
  deriving DecidableEq

def PhaseEventRow.key (r : PhaseEventRow) : PhaseKey := (r.jobId, r.nodeId, r.phaseIndex)

/-- The database behind `_conn`. -/
structure TSDBStore where
  samples : KeyedTable SampleRow.key
  rollup1m : KeyedTable RollupRow.key
  rollup1h : KeyedTable RollupRow.key
  jobs : KeyedTable JobRow.jobId
  phaseEvents : KeyedTable PhaseEventRow.key
  deriving DecidableEq

namespace TSDBStore

/-- The database after the `CREATE TABLE IF NOT EXISTS` statements ran on an
empty file. -/
def empty : TSDBStore := ⟨.empty, .empty, .empty, .empty, .empty⟩

/-! ### Samples -/

/-- The parameters of one `INSERT` into `samples`. -/
structure SampleParams where
  nodeId : String
  metricId : ℕ
  tsNs : ℤ
  monoNs : ℤ
  serverRecvTsNs : ℤ
  value : Double
  producerVersion : String
  deriving DecidableEq

def SampleParams.key (p : SampleParams) : SampleKey := (p.nodeId, p.metricId, p.tsNs)

/-- The row the parameters describe; `none` when a `NOT NULL` column would be
`NULL`. -/
def SampleParams.toRow (p : SampleParams) : Option SampleRow :=
  (bindReal p.value).map fun value =>
    { nodeId := p.nodeId, metricId := p.metricId, tsNs := p.tsNs, monoNs := p.monoNs,
      serverRecvTsNs := p.serverRecvTsNs, value := value, producerVersion := p.producerVersion }

/-- The parameters a row was written with. -/
def SampleParams.ofRow (r : SampleRow) : SampleParams :=
  ⟨r.nodeId, r.metricId, r.tsNs, r.monoNs, r.serverRecvTsNs, r.value.val, r.producerVersion⟩

/-- One execution of the `INSERT OR IGNORE`: the table afterwards and the
number of rows changed. -/
def insertOrIgnore (t : KeyedTable SampleRow.key) (p : SampleParams) :
    KeyedTable SampleRow.key × ℕ :=
  match p.toRow with
  | none => (t, 0)
  | some row => if row.key ∈ t.keys then (t, 0) else (t.insertIgnore row, 1)

/-- `insert_samples`: the store afterwards and `cursor.rowcount`, the rows
changed by all executions together. -/
def insertSamples (store : TSDBStore) (rows : List SampleParams) : TSDBStore × ℕ :=
  let r := rows.foldl
    (fun acc p => ((insertOrIgnore acc.1 p).1, acc.2 + (insertOrIgnore acc.1 p).2))
    (store.samples, 0)
  ({ store with samples := r.1 }, r.2)

/-- `query_series`: the newest rows of one series first, at most `limit` of
them (a negative `LIMIT` is none). -/
def querySeries (store : TSDBStore) (nodeId : String) (metricId : ℕ) (limit : ℤ) :
    List (ℤ × RealColumn) :=
  let rows := store.samples.rows.filter fun r => r.nodeId = nodeId ∧ r.metricId = metricId
  let sorted := (rows.insertionSort fun r r' => r'.tsNs ≤ r.tsNs).map fun r => (r.tsNs, r.value)
  if limit < 0 then sorted else sorted.take limit.toNat

/-! ### Jobs and phase events -/

/-- `create_job`; `none` is the `IntegrityError` of a taken `job_id`. -/
def createJob (store : TSDBStore) (jobId : String) (phaseCount : ℕ) (nodeIds : List String)
    (createdTsNs : ℤ) (faultManifest : Option FaultManifest) : Option TSDBStore :=
  if jobId ∈ store.jobs.keys then none
  else some { store with
    jobs := store.jobs.insertIgnore ⟨jobId, phaseCount, nodeIds, faultManifest, .running,
      createdTsNs⟩ }

/-- `set_job_status`. -/
def setJobStatus (store : TSDBStore) (jobId : String) (status : JobStatus) : TSDBStore :=
  { store with
    jobs := store.jobs.mapRows (fun r => if r.jobId = jobId then { r with status := status } else r)
      fun r => by split <;> rfl }

/-- `get_job`. -/
def getJob (store : TSDBStore) (jobId : String) : Option JobRow :=
  store.jobs.rows.find? fun r => r.jobId = jobId

/-- `insert_phase_event`. -/
def insertPhaseEvent (store : TSDBStore) (row : PhaseEventRow) : TSDBStore :=
  { store with phaseEvents := store.phaseEvents.insertIgnore row }

/-- `count_phase_reports`. -/
def countPhaseReports (store : TSDBStore) (jobId : String) (phaseIndex : ℕ) : ℕ :=
  (store.phaseEvents.rows.filter fun r => r.jobId = jobId ∧ r.phaseIndex = phaseIndex).length

/-- `list_phase_events` with a `phase_index`. -/
def listPhaseEvents (store : TSDBStore) (jobId : String) (phaseIndex : ℕ) : List PhaseEventRow :=
  (store.phaseEvents.rows.filter fun r => r.jobId = jobId ∧ r.phaseIndex = phaseIndex).insertionSort
    fun r r' => r.nodeId ≤ r'.nodeId

end TSDBStore

/-! ### What the operations do -/

theorem bindReal_of_ne {x : Double} (h : x ≠ .nan) : bindReal x = some ⟨x, h⟩ := dif_neg h

theorem bindReal_eq_none {x : Double} : bindReal x = none ↔ x = .nan := by
  rw [bindReal]
  split_ifs with h
  · simp [h]
  · simp [h]

namespace TSDBStore

theorem SampleParams.toRow_eq_none {p : SampleParams} : p.toRow = none ↔ p.value = .nan := by
  rw [toRow, Option.map_eq_none_iff, bindReal_eq_none]

theorem SampleParams.key_of_toRow {p : SampleParams} {row : SampleRow} (h : p.toRow = some row) :
    row.key = p.key := by
  obtain ⟨v, _, rfl⟩ := Option.map_eq_some_iff.mp h
  rfl

/-- A row that was written carries its parameters. -/
theorem SampleParams.ofRow_of_toRow {p : SampleParams} {row : SampleRow}
    (h : p.toRow = some row) : ofRow row = p := by
  obtain ⟨v, hv, rfl⟩ := Option.map_eq_some_iff.mp h
  have hp : p.value ≠ .nan := by
    intro hnan
    rw [toRow_eq_none.mpr hnan] at h
    cases h
  rw [bindReal_of_ne hp, Option.some_inj] at hv
  rw [ofRow, ← hv]

/-- One execution inserts the row, if there is one, the way `insertIgnore`
does. -/
theorem insertOrIgnore_fst (t : KeyedTable SampleRow.key) (p : SampleParams) :
    (insertOrIgnore t p).1 = t.insertAll p.toRow.toList := by
  rw [insertOrIgnore]
  cases p.toRow with
  | none => rfl
  | some row =>
    by_cases h : row.key ∈ t.keys
    · simp [h, KeyedTable.insertIgnore_of_mem h]
    · simp [h]

/-- `insert_samples` inserts the rows that bind, in order, skipping taken keys. -/
theorem insertSamples_samples (store : TSDBStore) (rows : List SampleParams) :
    (store.insertSamples rows).1.samples
      = store.samples.insertAll (rows.filterMap SampleParams.toRow) := by
  have key : ∀ (rows : List SampleParams) (acc : KeyedTable SampleRow.key × ℕ),
      (rows.foldl (fun acc p =>
        ((insertOrIgnore acc.1 p).1, acc.2 + (insertOrIgnore acc.1 p).2)) acc).1
        = acc.1.insertAll (rows.filterMap SampleParams.toRow) := by
    intro rows
    induction rows with
    | nil => exact fun acc => rfl
    | cons p rows ih =>
      intro acc
      rw [List.foldl_cons, ih, insertOrIgnore_fst, List.filterMap_cons]
      cases p.toRow <;> simp
  exact key rows _

theorem insertSamples_fst (store : TSDBStore) (rows : List SampleParams) :
    (store.insertSamples rows).1 = { store with
      samples := store.samples.insertAll (rows.filterMap SampleParams.toRow) } := by
  rw [← insertSamples_samples]
  rfl

/-- The stored samples stay in place. -/
theorem insertSamples_rows_prefix (store : TSDBStore) (rows : List SampleParams) :
    store.samples.rows <+: (store.insertSamples rows).1.samples.rows := by
  rw [insertSamples_samples]
  exact KeyedTable.rows_prefix_insertAll _ _

/-- The stored reports stay in place. -/
theorem insertPhaseEvent_rows_prefix (store : TSDBStore) (row : PhaseEventRow) :
    store.phaseEvents.rows <+: (store.insertPhaseEvent row).phaseEvents.rows :=
  KeyedTable.rows_prefix_insertIgnore _ _

/-- The reports of one phase are from different nodes. -/
theorem nodup_nodeIds (store : TSDBStore) (jobId : String) (phaseIndex : ℕ) :
    ((store.phaseEvents.rows.filter fun r => r.jobId = jobId ∧ r.phaseIndex = phaseIndex).map
      PhaseEventRow.nodeId).Nodup := by
  set rows := store.phaseEvents.rows.filter fun r => r.jobId = jobId ∧ r.phaseIndex = phaseIndex
    with hrows
  have hkeys : rows.map PhaseEventRow.key
      = (rows.map PhaseEventRow.nodeId).map fun nodeId => (jobId, nodeId, phaseIndex) := by
    rw [List.map_map]
    refine List.map_congr_left fun r hr => ?_
    obtain ⟨hjob, hphase⟩ := of_decide_eq_true (List.mem_filter.mp hr).2
    rw [PhaseEventRow.key, hjob, hphase]
    rfl
  have hnodup : (rows.map PhaseEventRow.key).Nodup :=
    (List.filter_sublist.map _).nodup store.phaseEvents.keys_nodup
  rw [hkeys] at hnodup
  exact List.Nodup.of_map _ hnodup

end TSDBStore

end Ingest
