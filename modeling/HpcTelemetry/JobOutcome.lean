/-
What a job leaves behind when its orchestration is over.

`execute_job` writes a status where it returns.  It does not where an exception
leaves `asyncio.gather`, which lets everything through that `_dispatch_phase`
does not catch.

* `Orchestrated` — the invariant of the runs, those with such an exception
  included;
* `status_terminal_iff` — the job is left completed or timed out exactly in the
  runs without one.
-/
import HpcTelemetry.PhaseBarrier
import HpcTelemetry.StartJob

namespace Ingest

open Transitions

variable {job : Job}

/-- As long as every exception was caught, the invariant of the loop; otherwise
the orchestration is over, and the job is still running. -/
def Orchestrated (job : Job) (tr : List (JobRun × JobAction)) (s : JobRun) : Prop :=
  (∀ p ∈ tr, Caught p.2) ∧ JobInv job s ∨
  (¬ ∀ p ∈ tr, Caught p.2) ∧ s.progress = .raised ∧ jobStatus s.store job.jobId = some .running

theorem caught_concat {tr : List (JobRun × JobAction)} {p : JobRun × JobAction} :
    (∀ q ∈ tr ++ [p], Caught q.2) ↔ (∀ q ∈ tr, Caught q.2) ∧ Caught p.2 := by
  rw [List.forall_mem_append, List.forall_mem_singleton]

/-- Once an exception has left `asyncio.gather` nothing but the other dispatches
and the ingestion goes on. -/
theorem raised_step {s s' : JobRun} {a : JobAction} (h : s.progress = .raised)
    (hstep : JobStep job s a s') :
    s'.progress = .raised ∧ jobStatus s'.store job.jobId = jobStatus s.store job.jobId := by
  cases hstep with
  | dispatch _ => exact ⟨h, rfl⟩
  | settle _ =>
    refine ⟨?_, rfl⟩
    simp only [h]
    split_ifs
    · rfl
    · rfl
  | gathered hp _ _ =>
    rw [h] at hp
    cases hp
  | poll hp =>
    rw [h] at hp
    cases hp
  | ingest => exact ⟨h, rfl⟩

theorem orchestrated_of_run {store : TSDBStore}
    (hstatus : jobStatus store job.jobId = some .running) {tr : List (JobRun × JobAction)}
    {s : JobRun} (hrun : Run (JobStep job) (executeJob job store) tr s) :
    Orchestrated job tr s := by
  induction hrun with
  | nil => exact .inl ⟨fun _ hp => absurd hp List.not_mem_nil, jobInv_executeJob hstatus⟩
  | @snoc tr s s' a hrun hstep ih =>
    rcases ih with ⟨hcaught, hinv⟩ | ⟨hcaught, hraised, hrunning⟩
    · by_cases ha : Caught a
      · exact .inl ⟨caught_concat.mpr ⟨hcaught, ha⟩, jobInv_step hinv ha hstep⟩
      · -- this exception ends the loop in the middle of a phase
        refine .inr ⟨fun hall => ha (caught_concat.mp hall).2, ?_⟩
        rw [Caught] at ha
        push Not at ha
        obtain ⟨request, rfl⟩ := ha
        cases hstep with
        | @settle before after _ _ hf =>
          obtain ⟨k, _, hphase, _⟩ := hinv.dispatching (Or.inr (by simp [hf]))
          exact ⟨rfl, hphase.status⟩
    · obtain ⟨hraised', hsame⟩ := raised_step hraised hstep
      exact .inr ⟨fun hall => hcaught (caught_concat.mp hall).1, hraised', hsame.trans hrunning⟩

/-- When the orchestration of an accepted job is over, its stored status is
terminal exactly if every dispatch has returned or failed with an
`httpx.HTTPError`. -/
theorem status_terminal_iff {workloadHosts : List String} {jobId : String} {createdTsNs : ℤ}
    {store store' : TSDBStore} {request : Api.StartJobRequest} {job : Job}
    (hstart : Api.startJob workloadHosts jobId createdTsNs store request = .ok (store', job))
    {tr : List (JobRun × JobAction)} {s : JobRun}
    (hrun : Run (JobStep job) (executeJob job store') tr s)
    (hover : s.progress = .ended ∨ s.progress = .raised) :
    (jobStatus s.store job.jobId = some .completed ∨ jobStatus s.store job.jobId = some .timedOut)
      ↔ ∀ p ∈ tr, Caught p.2 := by
  rcases orchestrated_of_run (Api.jobStatus_startJob hstart) hrun with
    ⟨hcaught, hinv⟩ | ⟨hcaught, _, hrunning⟩
  · refine iff_of_true ?_ hcaught
    rcases hover with hended | hraised
    · rw [JobInv, hended] at hinv
      obtain ⟨_, _, hdone | ⟨k, hfailed⟩⟩ := hinv
      · exact .inl hdone.status
      · exact .inr hfailed.status
    · rw [JobInv, hraised] at hinv
      exact hinv.elim
  · refine iff_of_false ?_ hcaught
    rw [hrunning]
    decide

/-- The second phase is reported by one of the two hosts, and the deadline passes. -/
theorem status_terminal_iff_example :
    ∃ (tr : List (JobRun × JobAction)) (s : JobRun), s.progress = .ended ∧
      jobStatus s.store "j" = some .timedOut ∧
      ((jobStatus s.store "j" = some .completed ∨ jobStatus s.store "j" = some .timedOut)
        ↔ ∀ p ∈ tr, Caught p.2) := by
  obtain ⟨tr, log, hrun, _⟩ := exists_run_polling none
  have hreported := hrun.snoc (@JobStep.ingest _ _ [] [twoHostsReport "a" 1])
  have hfew : ¬ ((firstPhaseStore none).insertRows [] [twoHostsReport "a" 1]).countPhaseReports
      (twoHostsJob none).jobId 1 ≥ (twoHostsJob none).workloadHosts.length := by decide
  have hlate : ¬ (39 : ℚ) < 8 + phaseReportTimeoutS := by norm_num [phaseReportTimeoutS]
  have hpolled := hreported.snoc (@JobStep.poll _ _ 1 (8 + phaseReportTimeoutS) 39 rfl)
  simp only [pollPhase, if_neg hfew, if_neg hlate] at hpolled
  exact ⟨_, _, rfl, rfl, status_terminal_iff
    (show Api.startJob ["a", "b"] "j" 0 .empty { phaseCount := 2 }
      = .ok (twoHostsStore none, twoHostsJob none) from rfl) hpolled (.inl rfl)⟩

/-- A job of one phase on a host whose entry in `WORKLOAD_HOSTS` has a port. -/
def portedHostJob : Job := { jobId := "j", workloadHosts := ["workload-1:9090"], phaseCount := 1 }

/-- The URL of its dispatch is invalid, and the exception leaves the job
running. -/
theorem status_terminal_counterexample :
    ∃ store tr s,
      Api.startJob ["workload-1:9090"] "j" 0 .empty {} = .ok (store, portedHostJob) ∧
      Run (JobStep portedHostJob) (executeJob portedHostJob store) tr s ∧
      s.progress = .raised ∧ jobStatus s.store "j" = some .running := by
  have hstart : Run (JobStep portedHostJob) (executeJob portedHostJob
    { TSDBStore.empty with
      jobs := TSDBStore.empty.jobs.insertIgnore ⟨"j", 1, ["workload-1:9090"], none, .running, 0⟩ })
    [] _ := .nil
  have hrun := (hstart.snoc
    (@JobStep.dispatch _ _ [] [] ⟨"workload-1:9090", "j", 0, none, none⟩ rfl)).snoc
    (@JobStep.settle _ _ [] [] ⟨"workload-1:9090", "j", 0, none, none⟩ .raised rfl)
  exact ⟨_, _, _, rfl, hrun, by decide, by decide⟩

end Ingest
