/-
Jobs as the database holds them (`get_job` in `hpctel/api.py`, the functions on
`jobs` and `phase_events` in `hpctel/storage/tsdb.py`).

The table `jobs` keeps the nodes and the fault manifest of a job as JSON texts.  An
INTEGER column holds 64 bits: a call that binds another integer raises an
`OverflowError` and stores nothing.

* `ofStore_apply` — with the texts written out, the tables go through the same
  states as those of `TSDBStore`;
* `getJob_ofStore` — and `get_job` reads the texts back;
* `getJob_history` — what `GET /api/jobs/{job_id}` answers, by the calls of the
  store before.
-/
import HpcTelemetry.JsonDumps
import HpcTelemetry.RollupTransaction
import HpcTelemetry.StragglerReport
import Mathlib.Data.Prod.Lex

namespace Ingest

open JsonText

/-! ### The columns -/

/-- The text of a status. -/
def JobStatus.text : JobStatus → String
  | .running => "running"
  | .completed => "completed"
  | .timedOut => "timed_out"

/-- The list of node ids. -/
def nodeIdList (nodeIds : List String) : Json := .arr (nodeIds.map fun id => .str id.toList)

/-- The manifest as a dictionary. -/
def FaultManifest.dict (m : FaultManifest) : Json :=
  .obj [("target_host".toList, .str m.targetHost.toList),
    ("phase_index".toList, .num (intLiteral m.phaseIndex)),
    ("fault_type".toList, .str m.faultType.toList),
    ("intensity".toList, .num (intLiteral m.intensity))]

/-- A row of `jobs`, as it is stored. -/
structure JobText where
  jobId : String
  phaseCount : ℕ
  nodeIdsJson : List Char
  faultManifestJson : Option (List Char)
  status : String
  createdTsNs : ℤ
  deriving DecidableEq

/-- The tables of jobs and of phase reports. -/
structure JobTables where
  jobs : KeyedTable JobText.jobId
  phaseEvents : KeyedTable PhaseEventRow.key
  deriving DecidableEq

/-- The integers SQLite can bind a parameter to. -/
def Bindable (n : ℤ) : Prop := -(2 ^ 63 : ℕ) ≤ n ∧ n < (2 ^ 63 : ℕ)

instance (n : ℤ) : Decidable (Bindable n) := inferInstanceAs (Decidable (_ ∧ _))

/-- The integers of a report. -/
def PhaseEventRow.integers (r : PhaseEventRow) : List ℤ :=
  [r.phaseIndex, r.phaseStartTsNs, r.phaseStartMonoNs, r.phaseEndTsNs, r.phaseEndMonoNs]

/-- What a function that writes may raise. -/
inductive WriteError where
  | overflowError
  | integrityError
  deriving DecidableEq

/-- What `get_job` may raise. -/
inductive GetJobError where
  | httpException (e : Api.HTTPException)
  | jsonDecodeError
  deriving DecidableEq

/-- The result of `TSDBStore.get_job`. -/
structure JobDict where
  jobId : String
  phaseCount : ℕ
  nodeIds : Json
  faultManifest : Option Json
  status : String
  createdTsNs : ℤ

/-- `json.loads`. -/
def loads (text : List Char) : Except GetJobError Json :=
  match parse text with
  | none => .error .jsonDecodeError
  | some v => .ok v

namespace JobTables

def empty : JobTables := ⟨.empty, .empty⟩

/-- `create_job`: the integers are bound before the key is looked up. -/
def createJob (t : JobTables) (jobId : String) (phaseCount : ℕ) (nodeIds : List String)
    (createdTsNs : ℤ) (faultManifest : Option FaultManifest) : Except WriteError JobTables :=
  if ¬ (Bindable phaseCount ∧ Bindable createdTsNs) then .error .overflowError
  else if jobId ∈ t.jobs.keys then .error .integrityError
  else .ok { t with
    jobs := t.jobs.insertIgnore ⟨jobId, phaseCount, dumps none false (nodeIdList nodeIds),
      faultManifest.map fun m => dumps none false m.dict, "running", createdTsNs⟩ }

/-- `set_job_status`. -/
def setJobStatus (t : JobTables) (jobId status : String) : JobTables :=
  { t with
    jobs := t.jobs.mapRows (fun r => if r.jobId = jobId then { r with status := status } else r)
      fun r => by split <;> rfl }

/-- `get_job`. -/
def getJob (t : JobTables) (jobId : String) : Except GetJobError (Option JobDict) :=
  match t.jobs.find jobId with
  | none => .ok none
  | some row => do
    let nodeIds ← loads row.nodeIdsJson
    let faultManifest ← match row.faultManifestJson with
      | none => pure none
      | some text => some <$> loads text
    return some ⟨row.jobId, row.phaseCount, nodeIds, faultManifest, row.status, row.createdTsNs⟩

/-- `insert_phase_event`. -/
def insertPhaseEvent (t : JobTables) (row : PhaseEventRow) : Except WriteError JobTables :=
  if ∀ n ∈ row.integers, Bindable n then
    .ok { t with phaseEvents := t.phaseEvents.insertIgnore row }
  else .error .overflowError

end JobTables

/-- What `ORDER BY phase_index, node_id` goes by. -/
def PhaseEventRow.position (r : PhaseEventRow) : ℕ ×ₗ String := toLex (r.phaseIndex, r.nodeId)

/-- `list_phase_events` without a `phase_index`. -/
def JobTables.listPhaseEvents (t : JobTables) (jobId : String) : List PhaseEventRow :=
  (t.phaseEvents.rows.filter fun r => r.jobId = jobId).insertionSort
    fun r r' => r.position ≤ r'.position

/-- The answer of `GET /api/jobs/{job_id}`. -/
structure JobAnswer extends JobDict where
  phaseEvents : List PhaseEventRow

/-- `get_job` of `api.py`. -/
def getJobEndpoint (t : JobTables) (jobId : String) : Except GetJobError JobAnswer := do
  match ← t.getJob jobId with
  | none => throw (.httpException ⟨404, "unknown job_id: " ++ jobId⟩)
  | some job => return { job with phaseEvents := t.listPhaseEvents jobId }

/-! ### The calls of the store -/

/-- A call of one of the functions of `tsdb.py` that write. -/
inductive StoreCall where
  | insertSamples (rows : List TSDBStore.SampleParams)
  | recomputeRollups (nodeId : String) (metricId : ℕ)
  | createJob (jobId : String) (phaseCount : ℕ) (nodeIds : List String) (createdTsNs : ℤ)
      (faultManifest : Option FaultManifest)
  | setJobStatus (jobId : String) (status : JobStatus)
  | insertPhaseEvent (row : PhaseEventRow)

/-- The call, on the tables as they are stored; one that raises leaves them as they
are. -/
def StoreCall.write : StoreCall → JobTables → JobTables
  | .insertSamples _, t => t
  | .recomputeRollups _ _, t => t
  | .createJob jobId phaseCount nodeIds createdTsNs faultManifest, t =>
    (t.createJob jobId phaseCount nodeIds createdTsNs faultManifest).toOption.getD t
  | .setJobStatus jobId status, t => t.setJobStatus jobId status.text
  | .insertPhaseEvent row, t => (t.insertPhaseEvent row).toOption.getD t

/-- The call, on the store with its columns decoded. -/
def StoreCall.apply : StoreCall → TSDBStore → TSDBStore
  | .insertSamples rows, store => (store.insertSamples rows).1
  | .recomputeRollups nodeId metricId, store => (store.recomputeRollups nodeId metricId).1
  | .createJob jobId phaseCount nodeIds createdTsNs faultManifest, store =>
    if Bindable phaseCount ∧ Bindable createdTsNs then
      (store.createJob jobId phaseCount nodeIds createdTsNs faultManifest).getD store
    else store
  | .setJobStatus jobId status, store => store.setJobStatus jobId status
  | .insertPhaseEvent row, store =>
    if ∀ n ∈ row.integers, Bindable n then store.insertPhaseEvent row else store

/-- The tables after some calls. -/
def tablesAfter (calls : List StoreCall) : JobTables :=
  calls.foldl (fun t call => call.write t) .empty

def storeAfter (calls : List StoreCall) : TSDBStore :=
  calls.foldl (fun store call => call.apply store) .empty

/-! ### The texts are read back -/

/-- A row with its columns written out. -/
def JobText.ofRow (r : JobRow) : JobText :=
  ⟨r.jobId, r.phaseCount, dumps none false (nodeIdList r.nodeIds),
    r.faultManifest.map fun m => dumps none false m.dict, r.status.text, r.createdTsNs⟩

/-- The tables of a store. -/
def JobTables.ofStore (store : TSDBStore) : JobTables :=
  ⟨store.jobs.recode JobText.ofRow fun _ => rfl, store.phaseEvents⟩

/-- What `get_job` makes of a row. -/
def JobRow.dict (r : JobRow) : JobDict :=
  ⟨r.jobId, r.phaseCount, nodeIdList r.nodeIds, r.faultManifest.map (·.dict), r.status.text,
    r.createdTsNs⟩

theorem loads_dumps {v : Json} (h : WellFormed v) : loads (dumps none false v) = .ok v := by
  have hgap : Blank [] := fun _ hc => absurd hc List.not_mem_nil
  have hparse := parse_dumps h none false hgap
  rw [List.append_nil, if_neg Bool.false_ne_true] at hparse
  rw [loads, hparse]

theorem wellFormed_nodeIdList (nodeIds : List String) : WellFormed (nodeIdList nodeIds) := by
  refine .arr fun v hv => ?_
  obtain ⟨id, _, rfl⟩ := List.mem_map.mp hv
  exact .str

theorem wellFormed_dict (m : FaultManifest) : WellFormed m.dict := by
  refine .obj fun x hx => ?_
  simp only [List.mem_cons, List.not_mem_nil, or_false] at hx
  rcases hx with rfl | rfl | rfl | rfl
  · exact .str
  · exact .num (isNumber_intLiteral _)
  · exact .str
  · exact .num (isNumber_intLiteral _)

theorem getJob_ofStore (store : TSDBStore) (jobId : String) :
    (JobTables.ofStore store).getJob jobId = .ok ((store.getJob jobId).map JobRow.dict) := by
  have hfind : (JobTables.ofStore store).jobs.find jobId
      = (store.getJob jobId).map JobText.ofRow :=
  store.jobs.find_recode JobText.ofRow (fun _ => rfl) jobId
  rw [JobTables.getJob, hfind]
  cases store.getJob jobId with
  | none => rfl
  | some row =>
    obtain ⟨id, phaseCount, nodeIds, faultManifest, status, createdTsNs⟩ := row
    have hnodes := loads_dumps (wellFormed_nodeIdList nodeIds)
    cases faultManifest with
    | none =>
      simp only [Option.map_some, Option.map_none, JobText.ofRow, hnodes]
      rfl
    | some m =>
      have hmanifest := loads_dumps (wellFormed_dict m)
      simp only [Option.map_some, JobText.ofRow, hnodes, hmanifest]
      rfl

theorem ofStore_setJobStatus (store : TSDBStore) (jobId : String) (status : JobStatus) :
    JobTables.ofStore (store.setJobStatus jobId status)
      = (JobTables.ofStore store).setJobStatus jobId status.text := by
  have hrows : (store.jobs.rows.map fun r =>
        if r.jobId = jobId then { r with status := status } else r).map JobText.ofRow
      = (store.jobs.rows.map JobText.ofRow).map fun r =>
        if r.jobId = jobId then { r with status := status.text } else r := by
    rw [List.map_map, List.map_map]
    refine List.map_congr_left fun r _ => ?_
    by_cases hr : r.jobId = jobId
    · simp [hr, JobText.ofRow]
    · simp [hr, JobText.ofRow]
  have hjobs : (JobTables.ofStore (store.setJobStatus jobId status)).jobs
      = ((JobTables.ofStore store).setJobStatus jobId status.text).jobs := KeyedTable.ext hrows
  rw [JobTables.mk.injEq]
  exact ⟨hjobs, rfl⟩

theorem ofStore_createJob (store : TSDBStore) (jobId : String) {phaseCount : ℕ}
    (nodeIds : List String) {createdTsNs : ℤ} (faultManifest : Option FaultManifest)
    (hint : Bindable phaseCount ∧ Bindable createdTsNs) :
    ((JobTables.ofStore store).createJob jobId phaseCount nodeIds createdTsNs
      faultManifest).toOption
      = (store.createJob jobId phaseCount nodeIds createdTsNs faultManifest).map
        JobTables.ofStore := by
  have hkeys : (JobTables.ofStore store).jobs.keys = store.jobs.keys :=
    store.jobs.keys_recode JobText.ofRow fun _ => rfl
  rw [JobTables.createJob, if_neg (not_not.mpr hint), TSDBStore.createJob, hkeys]
  by_cases htaken : jobId ∈ store.jobs.keys
  · rw [if_pos htaken, if_pos htaken]
    rfl
  · have hinsert := @KeyedTable.recode_insertIgnore JobRow String JobRow.jobId JobText
      JobText.jobId store.jobs JobText.ofRow (fun _ => rfl) _
      ⟨jobId, phaseCount, nodeIds, faultManifest, .running, createdTsNs⟩
    rw [if_neg htaken, if_neg htaken, Option.map_some, Except.toOption, Option.some_inj,
      JobTables.mk.injEq]
    exact ⟨hinsert.symm, rfl⟩

theorem recomputeRollups_frame (store : TSDBStore) (nodeId : String) (metricId : ℕ) :
    (store.recomputeRollups nodeId metricId).1.jobs = store.jobs ∧
      (store.recomputeRollups nodeId metricId).1.phaseEvents = store.phaseEvents := by
  rw [TSDBStore.recomputeRollups]
  simp only
  split_ifs <;> exact ⟨rfl, rfl⟩

/-- A call does the same to the tables as they are stored. -/
theorem ofStore_apply (call : StoreCall) (store : TSDBStore) :
    JobTables.ofStore (call.apply store) = call.write (JobTables.ofStore store) := by
  cases call with
  | insertSamples rows => rfl
  | recomputeRollups nodeId metricId =>
    obtain ⟨hjobs, hevents⟩ := recomputeRollups_frame store nodeId metricId
    rw [StoreCall.apply, StoreCall.write, JobTables.ofStore, JobTables.ofStore, JobTables.mk.injEq]
    simp only [hjobs, hevents, and_self]
  | createJob jobId phaseCount nodeIds createdTsNs faultManifest =>
    rw [StoreCall.apply, StoreCall.write]
    by_cases hint : Bindable phaseCount ∧ Bindable createdTsNs
    · rw [if_pos hint, ofStore_createJob store jobId nodeIds faultManifest hint]
      cases store.createJob jobId phaseCount nodeIds createdTsNs faultManifest with
      | none => rfl
      | some store' => rfl
    · rw [if_neg hint, JobTables.createJob, if_pos hint]
      rfl
  | setJobStatus jobId status => exact ofStore_setJobStatus store jobId status
  | insertPhaseEvent row =>
    rw [StoreCall.apply, StoreCall.write, JobTables.insertPhaseEvent]
    by_cases hint : ∀ n ∈ row.integers, Bindable n
    · rw [if_pos hint, if_pos hint]
      rfl
    · rw [if_neg hint, if_neg hint]
      rfl

theorem tablesAfter_eq (calls : List StoreCall) :
    tablesAfter calls = JobTables.ofStore (storeAfter calls) := by
  have hfold : ∀ store : TSDBStore, calls.foldl (fun t call => call.write t) (.ofStore store)
      = JobTables.ofStore (calls.foldl (fun store call => call.apply store) store) := by
    induction calls with
    | nil => exact fun store => rfl
    | cons call calls ih =>
      intro store
      rw [List.foldl_cons, List.foldl_cons, ← ofStore_apply, ih]
  exact hfold .empty

/-! ### The history of a job -/

/-- The row of the first `create_job` with an id that can be stored, and the calls
after it. -/
def creation (jobId : String) : List StoreCall → Option (JobRow × List StoreCall)
  | [] => none
  | .createJob id phaseCount nodeIds createdTsNs faultManifest :: calls =>
    if id = jobId ∧ Bindable phaseCount ∧ Bindable createdTsNs then
      some (⟨id, phaseCount, nodeIds, faultManifest, .running, createdTsNs⟩, calls)
    else creation jobId calls
  | _ :: calls => creation jobId calls

/-- What a call does to the status of a job. -/
def StoreCall.statusOf (jobId : String) (status : JobStatus) : StoreCall → JobStatus
  | .setJobStatus id status' => if id = jobId then status' else status
  | _ => status

/-- The status that was set last. -/
def lastStatus (jobId : String) (calls : List StoreCall) : JobStatus :=
  calls.foldl (fun status call => call.statusOf jobId status) .running

/-- The reports that were inserted and can be stored, in their order. -/
def reports (calls : List StoreCall) : List PhaseEventRow :=
  calls.filterMap fun
    | .insertPhaseEvent row => if ∀ n ∈ row.integers, Bindable n then some row else none
    | _ => none

theorem getJob_createJob (store : TSDBStore) (id : String) (phaseCount : ℕ)
    (nodeIds : List String) (createdTsNs : ℤ) (faultManifest : Option FaultManifest)
    (jobId : String) :
    ((store.createJob id phaseCount nodeIds createdTsNs faultManifest).getD store).getJob jobId
      = (store.getJob jobId).or (if id = jobId then
          some ⟨id, phaseCount, nodeIds, faultManifest, .running, createdTsNs⟩ else none) := by
  have hinsert := store.jobs.find_insertIgnore
    ⟨id, phaseCount, nodeIds, faultManifest, .running, createdTsNs⟩ jobId
  rw [TSDBStore.createJob]
  by_cases htaken : id ∈ store.jobs.keys
  · rw [if_pos htaken, Option.getD_none]
    rw [KeyedTable.insertIgnore_of_mem htaken] at hinsert
    exact hinsert
  · rw [if_neg htaken, Option.getD_some]
    exact hinsert

theorem getJob_setJobStatus (store : TSDBStore) (id : String) (status : JobStatus)
    (jobId : String) :
    (store.setJobStatus id status).getJob jobId = (store.getJob jobId).map fun r =>
      if r.jobId = id then { r with status := status } else r :=
  store.jobs.find_mapRows (fun r => by split <;> rfl) jobId

/-- One call, seen by `get_job`, for a job that is stored. -/
theorem getJob_apply_of_some {store : TSDBStore} {jobId : String} {row : JobRow}
    (h : store.getJob jobId = some row) (call : StoreCall) :
    (call.apply store).getJob jobId
      = some { row with status := call.statusOf jobId row.status } := by
  have hid : row.jobId = jobId := KeyedTable.key_of_find h
  cases call with
  | insertSamples rows => exact h
  | recomputeRollups nodeId metricId =>
    have hjobs := (recomputeRollups_frame store nodeId metricId).1
    rw [StoreCall.apply, TSDBStore.getJob, hjobs]
    exact h
  | createJob id phaseCount nodeIds createdTsNs faultManifest =>
    rw [StoreCall.apply]
    split_ifs with hint
    · rw [getJob_createJob, h]
      rfl
    · exact h
  | setJobStatus id status =>
    rw [StoreCall.apply, getJob_setJobStatus, h, Option.map_some, Option.some_inj,
      StoreCall.statusOf]
    by_cases hjob : id = jobId
    · rw [if_pos hjob, if_pos (hid.trans hjob.symm)]
    · rw [if_neg hjob, if_neg fun heq => hjob (heq.symm.trans hid)]
  | insertPhaseEvent row =>
    rw [StoreCall.apply]
    split_ifs
    · exact h
    · exact h

/-- Once stored, a job changes its status only. -/
theorem getJob_of_some {store : TSDBStore} {jobId : String} {row : JobRow}
    (h : store.getJob jobId = some row) (calls : List StoreCall) :
    (calls.foldl (fun store call => call.apply store) store).getJob jobId
      = some { row with
          status := calls.foldl (fun status call => call.statusOf jobId status) row.status } := by
  induction calls generalizing store row with
  | nil => exact h
  | cons call calls ih => exact ih (getJob_apply_of_some h call)

theorem getJob_of_none {store : TSDBStore} {jobId : String} (h : store.getJob jobId = none)
    (calls : List StoreCall) :
    (calls.foldl (fun store call => call.apply store) store).getJob jobId
      = (creation jobId calls).map fun c => { c.1 with status := lastStatus jobId c.2 } := by
  induction calls generalizing store with
  | nil => exact h
  | cons call calls ih =>
    cases call with
    | insertSamples rows => exact ih h
    | recomputeRollups nodeId metricId =>
      have hjobs := (recomputeRollups_frame store nodeId metricId).1
      refine ih ?_
      show (store.recomputeRollups nodeId metricId).1.getJob jobId = none
      rw [TSDBStore.getJob, hjobs]
      exact h
    | createJob id phaseCount nodeIds createdTsNs faultManifest =>
      have hcreate := getJob_createJob store id phaseCount nodeIds createdTsNs faultManifest jobId
      rw [h, Option.none_or] at hcreate
      rw [creation, List.foldl_cons, StoreCall.apply]
      by_cases hint : Bindable phaseCount ∧ Bindable createdTsNs
      · rw [if_pos hint]
        by_cases hjob : id = jobId
        · rw [if_pos hjob] at hcreate
          rw [if_pos ⟨hjob, hint⟩]
          exact getJob_of_some hcreate calls
        · rw [if_neg hjob] at hcreate
          rw [if_neg fun hc => hjob hc.1]
          exact ih hcreate
      · -- an `OverflowError`
        rw [if_neg hint, if_neg fun hc => hint hc.2]
        exact ih h
    | setJobStatus id status =>
      refine ih ?_
      show (store.setJobStatus id status).getJob jobId = none
      rw [getJob_setJobStatus, h, Option.map_none]
    | insertPhaseEvent row =>
      have hsame : (StoreCall.apply (.insertPhaseEvent row) store).getJob jobId = none := by
        rw [StoreCall.apply]
        split_ifs
        · exact h
        · exact h
      have hcreation : creation jobId (.insertPhaseEvent row :: calls) = creation jobId calls := rfl
      rw [List.foldl_cons, hcreation]
      exact ih hsame

theorem reports_insertPhaseEvent (row : PhaseEventRow) (calls : List StoreCall) :
    reports (.insertPhaseEvent row :: calls)
      = if ∀ n ∈ row.integers, Bindable n then row :: reports calls else reports calls := by
  rw [reports, reports]
  by_cases hint : ∀ n ∈ row.integers, Bindable n
  · rw [if_pos hint]
    exact List.filterMap_cons_some (if_pos hint)
  · rw [if_neg hint]
    exact List.filterMap_cons_none (if_neg hint)

theorem phaseEvents_foldl (calls : List StoreCall) (store : TSDBStore) :
    (calls.foldl (fun store call => call.apply store) store).phaseEvents
      = store.phaseEvents.insertAll (reports calls) := by
  induction calls generalizing store with
  | nil => rfl
  | cons call calls ih =>
    rw [List.foldl_cons, ih]
    cases call with
    | insertSamples rows => rfl
    | recomputeRollups nodeId metricId =>
      exact congrArg (fun t : KeyedTable PhaseEventRow.key => t.insertAll (reports calls))
        (recomputeRollups_frame store nodeId metricId).2
    | createJob id phaseCount nodeIds createdTsNs faultManifest =>
      have hsame : (StoreCall.apply (.createJob id phaseCount nodeIds createdTsNs faultManifest)
          store).phaseEvents = store.phaseEvents := by
        rw [StoreCall.apply, TSDBStore.createJob]
        split_ifs
        · rfl
        · rfl
        · rfl
      rw [hsame]
      rfl
    | setJobStatus id status => rfl
    | insertPhaseEvent row =>
      rw [reports_insertPhaseEvent, StoreCall.apply]
      by_cases hint : ∀ n ∈ row.integers, Bindable n
      · rw [if_pos hint, if_pos hint]
        rfl
      · rw [if_neg hint, if_neg hint]

/-! ### The reports of a job -/

/-- The reports listed are in their order, and no two at one place. -/
theorem pairwise_listPhaseEvents (t : JobTables) (jobId : String) :
    (t.listPhaseEvents jobId).Pairwise fun r r' => r.position < r'.position := by
  have hsorted : (t.listPhaseEvents jobId).Pairwise fun r r' => r.position ≤ r'.position :=
    List.pairwise_insertionSort _ _
  have hperm : (t.listPhaseEvents jobId).Perm
      (t.phaseEvents.rows.filter fun r => r.jobId = jobId) := List.perm_insertionSort _ _
  have hkeys : ((t.phaseEvents.rows.filter fun r => r.jobId = jobId).map PhaseEventRow.key).Nodup :=
    (List.filter_sublist.map _).nodup t.phaseEvents.keys_nodup
  have hnodup := List.pairwise_map.mp ((hperm.map PhaseEventRow.key).nodup_iff.mpr hkeys)
  refine (hsorted.and hnodup).imp_of_mem fun {r r'} hr hr' h => lt_of_le_of_ne h.1 fun heq => ?_
  have hjob : ∀ r ∈ t.listPhaseEvents jobId, r.jobId = jobId := fun r hr =>
    of_decide_eq_true (List.mem_filter.mp (hperm.mem_iff.mp hr)).2
  have hposition : (r.phaseIndex, r.nodeId) = (r'.phaseIndex, r'.nodeId) := toLex.injective heq
  obtain ⟨hphase, hnode⟩ := Prod.mk.inj hposition
  refine h.2 ?_
  rw [PhaseEventRow.key, PhaseEventRow.key, hjob r hr, hjob r' hr', hphase, hnode]

theorem mem_listPhaseEvents {calls : List StoreCall} {jobId : String} {r : PhaseEventRow} :
    r ∈ (tablesAfter calls).listPhaseEvents jobId ↔
      r.jobId = jobId ∧ KeyedTable.FirstOf PhaseEventRow.key (reports calls) r := by
  have hevents : (tablesAfter calls).phaseEvents
      = (KeyedTable.empty : KeyedTable PhaseEventRow.key).insertAll (reports calls) := by
    rw [tablesAfter_eq]
    exact phaseEvents_foldl calls .empty
  have hempty : r.key ∉ (KeyedTable.empty : KeyedTable PhaseEventRow.key).keys :=
    List.not_mem_nil
  have hrow : r ∉ (KeyedTable.empty : KeyedTable PhaseEventRow.key).rows := List.not_mem_nil
  rw [JobTables.listPhaseEvents, List.mem_insertionSort, List.mem_filter, hevents,
    KeyedTable.mem_rows_insertAll_iff, decide_eq_true_iff]
  constructor
  · rintro ⟨hr | ⟨_, hfirst⟩, hjob⟩
    · exact absurd hr hrow
    · exact ⟨hjob, hfirst⟩
  · rintro ⟨hjob, hfirst⟩
    exact ⟨.inr ⟨hempty, hfirst⟩, hjob⟩

/-- What `GET /api/jobs/{job_id}` answers after some calls of the store.  If no call
has created the job, or only calls whose integers do not fit, a 404.  Otherwise the
job as the first call created it that could, with the status that was set last since
then, and the first report of each phase and node that was inserted under its id, by
phase and node. -/
theorem getJob_history (calls : List StoreCall) (jobId : String) :
    match creation jobId calls with
    | none => getJobEndpoint (tablesAfter calls) jobId
        = .error (.httpException ⟨404, "unknown job_id: " ++ jobId⟩)
    | some (row, later) => ∃ events, getJobEndpoint (tablesAfter calls) jobId = .ok
          { jobId := jobId
            phaseCount := row.phaseCount
            nodeIds := nodeIdList row.nodeIds
            faultManifest := row.faultManifest.map (·.dict)
            status := (lastStatus jobId later).text
            createdTsNs := row.createdTsNs
            phaseEvents := events } ∧
        events.Pairwise (fun r r' => r.position < r'.position) ∧
        ∀ r, r ∈ events ↔
          r.jobId = jobId ∧ KeyedTable.FirstOf PhaseEventRow.key (reports calls) r := by
  have hrow : (storeAfter calls).getJob jobId = (creation jobId calls).map fun c =>
      { c.1 with status := lastStatus jobId c.2 } :=
    getJob_of_none (KeyedTable.find_eq_none.mpr List.not_mem_nil) calls
  have hget := getJob_ofStore (storeAfter calls) jobId
  rw [hrow, ← tablesAfter_eq] at hget
  cases hcreation : creation jobId calls with
  | none =>
    rw [hcreation] at hget
    simp only [getJobEndpoint, hget]
    rfl
  | some c =>
    obtain ⟨row, later⟩ := c
    rw [hcreation] at hrow hget
    have hfind : (storeAfter calls).jobs.find jobId
      = some { row with status := lastStatus jobId later } := hrow
    have hkey := KeyedTable.key_of_find hfind
    have hid : row.jobId = jobId := hkey
    refine ⟨(tablesAfter calls).listPhaseEvents jobId, ?_, pairwise_listPhaseEvents _ _,
      fun r => mem_listPhaseEvents⟩
    subst hid
    simp only [getJobEndpoint, hget]
    rfl

end Ingest
