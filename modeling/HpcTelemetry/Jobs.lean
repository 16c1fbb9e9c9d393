/-
Synthetic job orchestration (`hpctel/jobs.py`).

`execute_job` runs phase after phase: it dispatches the phase to every host,
waits until all dispatches have returned, and then polls the store until the
phase has been reported often enough or the deadline has passed.  All the while
the connections of the ingestion server insert reports.

The state keeps a log of the dispatches issued and of what each poll found.
`JobStep` is one step of the orchestrator, of one of its dispatches, or of the
ingestion server; `readStep_ingest` says that every round of a connection's
read loop is such a step.
-/
import HpcTelemetry.StoreEffects
import HpcTelemetry.Transitions

namespace Ingest

open Transitions

/-- `_PHASE_REPORT_TIMEOUT_S`. -/
def phaseReportTimeoutS : ℚ := 30

/-- The arguments of `execute_job`. -/
structure Job where
  jobId : String
  workloadHosts : List String
  phaseCount : ℕ
  sieveLimit : Option ℤ := none
  faultManifest : Option FaultManifest := none

/-- The body of a `POST /start_phase`, and the host it goes to. -/
structure DispatchRequest where
  host : String
  jobId : String
  phaseIndex : ℕ
  sieveLimit : Option ℤ
  /-- The type of the fault and its intensity. -/
  fault : Option (String × ℤ)
  deriving DecidableEq

/-- `fault_for_host`. -/
def faultForHost (manifest : Option FaultManifest) (host : String) (phaseIndex : ℕ) :
    Option (String × ℤ) :=
  manifest.bind fun m =>
    if m.targetHost = host ∧ m.phaseIndex = phaseIndex then some (m.faultType, m.intensity)
    else none

/-- The dispatches of one phase. -/
def dispatches (job : Job) (phaseIndex : ℕ) : List DispatchRequest :=
  job.workloadHosts.map fun host =>
    ⟨host, job.jobId, phaseIndex, job.sieveLimit, faultForHost job.faultManifest host phaseIndex⟩

/-! ### The state -/

/-- Where `execute_job` stands. -/
inductive Progress where
  /-- In `asyncio.gather`. -/
  | dispatching (phaseIndex : ℕ)
  /-- In `_wait_for_phase_reports`, before the next look at the clock. -/
  | polling (phaseIndex : ℕ) (deadline : ℚ)
  | ended
  /-- An exception has left `asyncio.gather`. -/
  | raised
  deriving DecidableEq

inductive JobLogEntry where
  | dispatched (request : DispatchRequest)
  /-- The reports a poll of the phase counted. -/
  | polled (phaseIndex : ℕ) (count : ℕ)
  deriving DecidableEq

/-- `execute_job`, its dispatches, and the store. -/
structure JobRun where
  store : TSDBStore
  progress : Progress
  /-- Dispatches that have not been issued yet. -/
  waiting : List DispatchRequest
  /-- Dispatches that have been issued and have not returned. -/
  inFlight : List DispatchRequest
  log : List JobLogEntry

/-- How a `_dispatch_phase` ends; it catches an `httpx.HTTPError`. -/
inductive DispatchOutcome where
  | returned
  | httpError
  | raised
  deriving DecidableEq

inductive JobAction where
  | dispatch (request : DispatchRequest)
  | settle (request : DispatchRequest) (outcome : DispatchOutcome)
  /-- `asyncio.gather` returns, and the deadline is set. -/
  | gathered (now : ℚ)
  | poll (now : ℚ)
  /-- Some connection stores samples and reports. -/
  | ingest (srows : List SampleRow) (prows : List PhaseEventRow)

/-- The top of the loop over the phases. -/
def enterPhase (job : Job) (phaseIndex : ℕ) (s : JobRun) : JobRun :=
  if phaseIndex < job.phaseCount then
    { s with progress := .dispatching phaseIndex, waiting := dispatches job phaseIndex }
  else
    { s with store := s.store.setJobStatus job.jobId .completed, progress := .ended }

/-- `execute_job` when it is scheduled. -/
def executeJob (job : Job) (store : TSDBStore) : JobRun :=
  enterPhase job 0 ⟨store, .dispatching 0, [], [], []⟩

/-- One round of `_wait_for_phase_reports` and, if it returns, what follows.
There is no `await` in between. -/
def pollPhase (job : Job) (phaseIndex : ℕ) (deadline now : ℚ) (s : JobRun) : JobRun :=
  let count := s.store.countPhaseReports job.jobId phaseIndex
  let s' := { s with log := s.log ++ [.polled phaseIndex count] }
  if count ≥ job.workloadHosts.length then enterPhase job (phaseIndex + 1) s'
  else if now < deadline then s'
  else { s' with store := s.store.setJobStatus job.jobId .timedOut, progress := .ended }

inductive JobStep (job : Job) : JobRun → JobAction → JobRun → Prop where
  | dispatch {s : JobRun} {before after : List DispatchRequest} {request : DispatchRequest} :
      s.waiting = before ++ request :: after →
      JobStep job s (.dispatch request) { s with
        waiting := before ++ after
        inFlight := s.inFlight ++ [request]
        log := s.log ++ [.dispatched request] }
  | settle {s : JobRun} {before after : List DispatchRequest} {request : DispatchRequest}
      {outcome : DispatchOutcome} : s.inFlight = before ++ request :: after →
      JobStep job s (.settle request outcome) { s with
        progress := if outcome = .raised then .raised else s.progress
        inFlight := before ++ after }
  | gathered {s : JobRun} {phaseIndex : ℕ} {now : ℚ} : s.progress = .dispatching phaseIndex →
      s.waiting = [] → s.inFlight = [] →
      JobStep job s (.gathered now) { s with
        progress := .polling phaseIndex (now + phaseReportTimeoutS) }
  | poll {s : JobRun} {phaseIndex : ℕ} {deadline now : ℚ} :
      s.progress = .polling phaseIndex deadline →
      JobStep job s (.poll now) (pollPhase job phaseIndex deadline now s)
  | ingest {s : JobRun} {srows : List SampleRow} {prows : List PhaseEventRow} :
      JobStep job s (.ingest srows prows) { s with store := s.store.insertRows srows prows }

/-- Every round of a read loop is an `ingest` step. -/
theorem readStep_ingest (job : Job) (env : Env) (c : Connection) (read : ReadResult) (s : JobRun) :
    ∃ srows prows, JobStep job s (.ingest srows prows)
      { s with store := (readStep env (c, s.store) read).2 } := by
  obtain ⟨c', srows, new, he, _⟩ := readStep_effect env c read
  refine ⟨srows, new.flatMap (phaseRows env.codec), ?_⟩
  rw [he s.store]
  exact .ingest

/-! ### What is observed -/

/-- The stored status of a job. -/
def jobStatus (store : TSDBStore) (jobId : String) : Option JobStatus :=
  (store.getJob jobId).map JobRow.status

/-- The distinct nodes that have reported a phase. -/
def reporters (store : TSDBStore) (jobId : String) (phaseIndex : ℕ) : List String :=
  ((store.phaseEvents.rows.filter fun r => r.jobId = jobId ∧ r.phaseIndex = phaseIndex).map
    PhaseEventRow.nodeId).dedup

/-- What the last poll of a phase counted. -/
def lastPoll (log : List JobLogEntry) (phaseIndex : ℕ) : Option ℕ :=
  (log.filterMap fun
    | .polled k count => if k = phaseIndex then some count else none
    | .dispatched _ => none).getLast?

/-- The last poll of the phase found enough reports. -/
def PollReached (job : Job) (log : List JobLogEntry) (phaseIndex : ℕ) : Prop :=
  ∃ count, lastPoll log phaseIndex = some count ∧ job.workloadHosts.length ≤ count

theorem jobStatus_setJobStatus (store : TSDBStore) (jobId : String) (status : JobStatus) :
    jobStatus (store.setJobStatus jobId status) jobId
      = (jobStatus store jobId).map fun _ => status := by
  have hcomp : ((fun r : JobRow => decide (r.jobId = jobId)) ∘
      fun r : JobRow => if r.jobId = jobId then { r with status := status } else r)
      = fun r => decide (r.jobId = jobId) := by
    funext r
    by_cases h : r.jobId = jobId <;> simp [h]
  -- the row found is the one that was updated, since ids are kept
  rw [jobStatus, jobStatus, TSDBStore.getJob, TSDBStore.getJob, TSDBStore.setJobStatus]
  simp only [KeyedTable.rows_mapRows]
  rw [List.find?_map, hcomp]
  cases hfind : store.jobs.rows.find? fun r => decide (r.jobId = jobId) with
  | none => rfl
  | some r =>
    have hid : r.jobId = jobId := of_decide_eq_true (List.find?_some hfind :)
    simp [hid]

/-- A job that was just created is running. -/
theorem jobStatus_createJob {store store' : TSDBStore} {job : Job} {createdTsNs : ℤ}
    (h : store.createJob job.jobId job.phaseCount job.workloadHosts createdTsNs job.faultManifest
      = some store') : jobStatus store' job.jobId = some .running := by
  rw [TSDBStore.createJob] at h
  split_ifs at h with htaken
  injection h with h
  rw [← h, jobStatus, TSDBStore.getJob]
  simp only
  rw [KeyedTable.rows_insertIgnore_of_notMem htaken, List.find?_append]
  have hnone : store.jobs.rows.find? (fun r => decide (r.jobId = job.jobId)) = none := by
    rw [List.find?_eq_none]
    intro r hr hid
    exact htaken (KeyedTable.mem_keys.mpr ⟨r, hr, of_decide_eq_true hid⟩)
  rw [hnone]
  simp

/-- One row per node: the rows counted are the nodes that have reported. -/
theorem length_reporters (store : TSDBStore) (jobId : String) (phaseIndex : ℕ) :
    (reporters store jobId phaseIndex).length = store.countPhaseReports jobId phaseIndex := by
  rw [reporters, (store.nodup_nodeIds jobId phaseIndex).dedup, List.length_map,
    TSDBStore.countPhaseReports]

/-- Rows never disappear, so a count never falls. -/
theorem countPhaseReports_le_insertRows (store : TSDBStore) (srows : List SampleRow)
    (prows : List PhaseEventRow) (jobId : String) (phaseIndex : ℕ) :
    store.countPhaseReports jobId phaseIndex
      ≤ (store.insertRows srows prows).countPhaseReports jobId phaseIndex := by
  have hrows : store.phaseEvents.rows <+: (store.insertRows srows prows).phaseEvents.rows :=
    KeyedTable.rows_prefix_insertAll _ _
  exact (hrows.filter _).length_le

theorem lastPoll_dispatched (log : List JobLogEntry) (request : DispatchRequest)
    (phaseIndex : ℕ) :
    lastPoll (log ++ [.dispatched request]) phaseIndex = lastPoll log phaseIndex := by
  rw [lastPoll, List.filterMap_append]
  simp [lastPoll]

theorem lastPoll_polled (log : List JobLogEntry) (k count phaseIndex : ℕ) :
    lastPoll (log ++ [.polled k count]) phaseIndex
      = if k = phaseIndex then some count else lastPoll log phaseIndex := by
  rw [lastPoll, List.filterMap_append]
  by_cases h : k = phaseIndex <;> simp [h, lastPoll]

end Ingest
