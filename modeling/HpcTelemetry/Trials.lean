/-
The evaluation harness (`eval/run_trials.py`).

`_run_trial` posts a job of one phase, asks for it until it is over or 30
seconds have passed, and then asks for the straggler report if the job has
completed.  Meanwhile the service runs the job and stores what the nodes report.

The two processes read clocks that advance together.  A step of the harness is
one reading of its clock or one HTTP call, and every call succeeds
(`TrialStep`).

* `TrialResult` — what is recorded of a trial;
* `detections`, `completedTrials` — what `_summarize` counts for the first
  estimand;
* `TrialStep` — the harness, the service and the time.
-/
import HpcTelemetry.StartJob

namespace Eval

open Ingest Api Analysis Transitions

/-! ### Trials and their results -/

/-- `JOB_POLL_TIMEOUT_S`. -/
def jobPollTimeoutS : ℚ := 30

/-- The fault of a trial; its three entries are null together. -/
structure TrialFault where
  faultType : String
  targetHost : String
  intensity : ℤ
  deriving DecidableEq

/-- An entry of the manifest. -/
structure Trial where
  trialId : String
  sieveLimit : ℤ
  phaseIndex : ℕ
  fault : Option TrialFault
  deriving DecidableEq

/-- The body of the `POST /api/jobs`. -/
def Trial.body (trial : Trial) : StartJobRequest :=
  { phaseCount := 1
    sieveLimit := some trial.sieveLimit
    fault := trial.fault.map fun fault =>
      { targetHost := fault.targetHost
        phaseIndex := trial.phaseIndex
        faultType := fault.faultType
        intensity := fault.intensity } }

/-- `expected_target_node_id`. -/
def Trial.expectedTargetNodeId (trial : Trial) : Option String :=
  trial.fault.map fun fault => fault.targetHost.replace "workload-" "node-"

/-- The record of a trial whose outcome is `COMPLETED`. -/
structure CompletedTrial where
  trialId : String
  jobId : String
  faultType : Option String
  targetHost : Option String
  expectedTargetNodeId : Option String
  stragglerStatus : ReportStatus
  topCandidate : Option String
  naiveBaselineCandidate : Option String
  rootCause : Option RootCause
  rankedNodes : List RankedNode
  deriving DecidableEq

/-- What `_run_trial` returns. -/
inductive TrialResult where
  | completed (record : CompletedTrial)
  | aborted (trialId reason : String)
  deriving DecidableEq

def Trial.completed (trial : Trial) (jobId : String) (report : StragglerReport) : TrialResult :=
  .completed
    { trialId := trial.trialId
      jobId := jobId
      faultType := trial.fault.map (·.faultType)
      targetHost := trial.fault.map (·.targetHost)
      expectedTargetNodeId := trial.expectedTargetNodeId
      stragglerStatus := report.status
      topCandidate := report.topCandidate
      naiveBaselineCandidate := report.naiveBaselineCandidate
      rootCause := report.rootCause
      rankedNodes := report.rankedNodes }

/-! ### The first estimand -/

/-- `completed_fault`. -/
def completedTrials (results : List TrialResult) : List CompletedTrial :=
  results.filterMap fun
    | .completed record => some record
    | .aborted _ _ => none

/-- `detections`. -/
def detections (results : List TrialResult) : ℕ :=
  ((completedTrials results).filter fun r =>
    r.stragglerStatus = .ranked ∧ r.topCandidate = r.expectedTargetNodeId).length

/-- Among any other results, this one raises the number of trials of the first
estimand and not that of detections. -/
def NonDetection (result : TrialResult) : Prop :=
  ∀ before after,
    (completedTrials (before ++ result :: after)).length
      = (completedTrials (before ++ after)).length + 1 ∧
    detections (before ++ result :: after) = detections (before ++ after)

/-! ### A trial -/

/-- Where the harness stands. -/
inductive HarnessState where
  /-- The response to the `POST` is on its way. -/
  | posting
  /-- At the top of the loop of `_wait_for_job`. -/
  | checking (deadline : ℚ)
  /-- The deadline had not passed, and the job is asked for. -/
  | asking (deadline : ℚ)
  /-- The job has completed, and the report is asked for. -/
  | reporting
  | finished (result : TrialResult)
  deriving DecidableEq

/-- The harness, the service, and the time. -/
structure TrialRun where
  clock : ℚ
  job : JobRun
  harness : HarnessState

inductive TrialAction where
  | tick (elapsed : ℚ)
  | service (a : JobAction)
  /-- The response arrives, and the deadline is set. -/
  | responded
  | checkClock
  | getJob
  | getReport

/-- Where the action reads the clock, it finds this time. -/
def ReadsClock (clock : ℚ) : JobAction → Prop
  | .gathered now => now = clock
  | .poll now => now = clock
  | _ => True

/-- What the harness does with the status of the job. -/
def Trial.onStatus (trial : Trial) (deadline : ℚ) : JobStatus → HarnessState
  | .running => .checking deadline
  | .completed => .reporting
  | .timedOut => .finished (.aborted trial.trialId "job_status=timed_out")

inductive TrialStep (trial : Trial) (job : Job) : TrialRun → TrialAction → TrialRun → Prop where
  | tick {s : TrialRun} {elapsed : ℚ} : 0 < elapsed →
      TrialStep trial job s (.tick elapsed) { s with clock := s.clock + elapsed }
  | service {s : TrialRun} {a : JobAction} {job' : JobRun} : JobStep job s.job a job' →
      ReadsClock s.clock a → TrialStep trial job s (.service a) { s with job := job' }
  | responded {s : TrialRun} : s.harness = .posting →
      TrialStep trial job s .responded { s with harness := .checking (s.clock + jobPollTimeoutS) }
  | checkClock {s : TrialRun} {deadline : ℚ} : s.harness = .checking deadline →
      TrialStep trial job s .checkClock { s with
        harness := if s.clock < deadline then .asking deadline
          else .finished (.aborted trial.trialId "job_poll_timeout") }
  | getJob {s : TrialRun} {deadline : ℚ} {row : JobRow} : s.harness = .asking deadline →
      s.job.store.getJob job.jobId = some row →
      TrialStep trial job s .getJob { s with harness := trial.onStatus deadline row.status }
  | getReport {s : TrialRun} {report : StragglerReport} : s.harness = .reporting →
      getStragglerReport s.job.store job.jobId trial.phaseIndex = .ok report →
      TrialStep trial job s .getReport { s with
        harness := .finished (trial.completed job.jobId report) }

/-- The service has accepted the job at this time. -/
def TrialRun.start (clock : ℚ) (job : Job) (store : TSDBStore) : TrialRun :=
  ⟨clock, executeJob job store, .posting⟩

/-! ### What is counted -/

theorem completedTrials_append (results results' : List TrialResult) :
    completedTrials (results ++ results') = completedTrials results ++ completedTrials results' :=
  List.filterMap_append

theorem detections_append (results results' : List TrialResult) :
    detections (results ++ results') = detections results + detections results' := by
  rw [detections, completedTrials_append, List.filter_append, List.length_append]
  rfl

/-- A completed trial without a ranking counts as a trial and not as a
detection. -/
theorem nonDetection_of_insufficient {record : CompletedTrial}
    (h : record.stragglerStatus = .insufficientEvidence) : NonDetection (.completed record) := by
  intro before after
  have hcompleted : completedTrials (.completed record :: after)
      = record :: completedTrials after := rfl
  constructor
  · rw [completedTrials_append, completedTrials_append, hcompleted, List.length_append,
      List.length_append, List.length_cons]
    omega
  · have hnone : detections (.completed record :: after) = detections after := by
      rw [detections, hcompleted, List.filter_cons, if_neg (by simp [h])]
      rfl
    rw [detections_append, detections_append, hnone]

/-- An aborted trial does not count. -/
theorem not_nonDetection_aborted (trialId reason : String) :
    ¬ NonDetection (.aborted trialId reason) := by
  intro h
  have hone : 0 = 0 + 1 := (h [] []).1
  omega

end Eval
