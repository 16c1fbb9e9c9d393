/-
Trials without enough evidence.

A phase that fewer than three nodes report never reaches the count the
orchestrator waits for, the job times out, and the harness records the trial as
aborted.  The one way to a completed trial without a ranking leads through
reports that arrive when the deadline has passed and the orchestrator has not
yet counted for the last time.

* `Orchestration`, `Harness` — what has happened when the orchestrator, and the
  harness, are where they are;
* `counted_iff` — when a trial in which fewer than three nodes have reported by
  the deadline is counted as a non-detection.
-/
import HpcTelemetry.Trials

namespace Eval

open Ingest Api Analysis Transitions

variable {trial : Trial} {job : Job}

/-- The deadline of the phase has not passed, or has not been set yet. -/
def BeforeReportDeadline (s : TrialRun) : Prop :=
  match s.job.progress with
  | .dispatching _ => True
  | .polling _ deadline => s.clock < deadline
  | .ended => False
  | .raised => False

instance (s : TrialRun) : Decidable (BeforeReportDeadline s) := by
  unfold BeforeReportDeadline
  split <;> infer_instance

/-- The orchestrator counts for the last time, after the deadline, and finds as
many reports as there are hosts. -/
def LateReports (job : Job) (p : TrialRun × TrialAction) : Prop :=
  ∃ deadline, p.1.job.progress = .polling 0 deadline ∧ deadline ≤ p.1.clock ∧
    p.2 = .service (.poll p.1.clock) ∧
    job.workloadHosts.length ≤ p.1.job.store.countPhaseReports job.jobId 0

/-- The reports were late. -/
def SeenLate (job : Job) (tr : List (TrialRun × TrialAction)) : Prop :=
  ∃ before p after, tr = before ++ p :: after ∧ LateReports job p

/-- The reports were late, and the harness has asked for the job after that. -/
def AskedLate (job : Job) (tr : List (TrialRun × TrialAction)) : Prop :=
  ∃ before q after, tr = before ++ q :: after ∧ q.2 = .getJob ∧ SeenLate job before

/-- After all this the harness has asked for the report, when fewer than three
of the reports stored were `ok`. -/
def LateEvidence (trial : Trial) (job : Job) (tr : List (TrialRun × TrialAction)) : Prop :=
  ∃ before r after, tr = before ++ r :: after ∧ r.2 = .getReport ∧ AskedLate job before ∧
    (okReports r.1.job.store job.jobId trial.phaseIndex).length < minReportingNodes

/-- The trial is recorded as completed without a ranking, and counted as a
non-detection. -/
def CountedAsNonDetection (result : TrialResult) : Prop :=
  (∃ record, result = .completed record ∧ record.stragglerStatus = .insufficientEvidence) ∧
    NonDetection result

theorem SeenLate.snoc {tr : List (TrialRun × TrialAction)} (h : SeenLate job tr)
    (p : TrialRun × TrialAction) : SeenLate job (tr ++ [p]) := by
  obtain ⟨before, q, after, rfl, hq⟩ := h
  exact ⟨before, q, after ++ [p], by rw [List.append_assoc, List.cons_append], hq⟩

theorem AskedLate.snoc {tr : List (TrialRun × TrialAction)} (h : AskedLate job tr)
    (p : TrialRun × TrialAction) : AskedLate job (tr ++ [p]) := by
  obtain ⟨before, q, after, rfl, hq⟩ := h
  exact ⟨before, q, after ++ [p], by rw [List.append_assoc, List.cons_append], hq⟩

/-! ### The orchestrator -/

/-- Where the orchestration of a job of one phase stands, and what its status
says. -/
def Orchestration (job : Job) (tr : List (TrialRun × TrialAction)) (s : JobRun) : Prop :=
  match s.progress with
  | .dispatching k => k = 0 ∧ jobStatus s.store job.jobId = some .running
  | .polling k _ => k = 0 ∧ (s.waiting = [] ∧ s.inFlight = []) ∧
      jobStatus s.store job.jobId = some .running
  | .ended => (s.waiting = [] ∧ s.inFlight = []) ∧
      (jobStatus s.store job.jobId = some .timedOut ∨
        jobStatus s.store job.jobId = some .completed ∧ SeenLate job tr)
  | .raised => jobStatus s.store job.jobId = some .running

/-- A completed job has been reported late. -/
theorem Orchestration.seenLate {tr : List (TrialRun × TrialAction)} {s : JobRun}
    (h : Orchestration job tr s) (hcompleted : jobStatus s.store job.jobId = some .completed) :
    SeenLate job tr := by
  rw [Orchestration, hcompleted] at h
  cases hp : s.progress with
  | dispatching k =>
    rw [hp] at h
    cases h.2
  | polling k deadline =>
    rw [hp] at h
    cases h.2.2
  | ended =>
    rw [hp] at h
    rcases h.2 with hc | ⟨_, hseen⟩
    · cases hc
    · exact hseen
  | raised =>
    rw [hp] at h
    cases h

theorem Orchestration.snoc {tr : List (TrialRun × TrialAction)} {s : JobRun}
    (h : Orchestration job tr s) (p : TrialRun × TrialAction) :
    Orchestration job (tr ++ [p]) s := by
  rw [Orchestration] at h ⊢
  cases hp : s.progress with
  | dispatching k =>
    rw [hp] at h
    exact h
  | polling k deadline =>
    rw [hp] at h
    exact h
  | ended =>
    rw [hp] at h
    exact ⟨h.1, h.2.imp id fun hc => ⟨hc.1, hc.2.snoc p⟩⟩
  | raised =>
    rw [hp] at h
    exact h

/-- While dispatches are not done the job is running. -/
theorem Orchestration.busy {tr : List (TrialRun × TrialAction)} {s : JobRun}
    (h : Orchestration job tr s) (hbusy : s.waiting ≠ [] ∨ s.inFlight ≠ []) :
    (s.progress = .dispatching 0 ∨ s.progress = .raised) ∧
      jobStatus s.store job.jobId = some .running := by
  rw [Orchestration] at h
  cases hp : s.progress with
  | dispatching k =>
    rw [hp] at h
    exact ⟨.inl (by rw [h.1]), h.2⟩
  | polling k deadline =>
    rw [hp] at h
    obtain ⟨_, ⟨hwaiting, hinFlight⟩, _⟩ := h
    exact absurd hbusy (by simp [hwaiting, hinFlight])
  | ended =>
    rw [hp] at h
    obtain ⟨⟨hwaiting, hinFlight⟩, _⟩ := h
    exact absurd hbusy (by simp [hwaiting, hinFlight])
  | raised =>
    rw [hp] at h
    exact ⟨.inr rfl, h⟩

theorem orchestration_of_running {tr : List (TrialRun × TrialAction)} {s : JobRun}
    (hp : s.progress = .dispatching 0 ∨ s.progress = .raised)
    (hrunning : jobStatus s.store job.jobId = some .running) : Orchestration job tr s := by
  rw [Orchestration]
  rcases hp with hp | hp
  · rw [hp]
    exact ⟨rfl, hrunning⟩
  · rw [hp]
    exact hrunning

/-- The orchestration of a job of one phase as long as few nodes have reported
before the deadline. -/
theorem orchestration_step {tr : List (TrialRun × TrialAction)} {s : TrialRun} {a : JobAction}
    {job' : JobRun} (hcount : job.phaseCount = 1) (hrack : 3 ≤ job.workloadHosts.length)
    (h : Orchestration job tr s.job) (hclock : ReadsClock s.clock a)
    (hfew : BeforeReportDeadline s → (reporters s.job.store job.jobId 0).length < 3)
    (hstep : JobStep job s.job a job') :
    Orchestration job (tr ++ [(s, .service a)]) job' := by
  cases hstep with
  | @dispatch before after request hw =>
    obtain ⟨hp, hrunning⟩ := h.busy (.inl (by simp [hw]))
    exact orchestration_of_running hp hrunning
  | @settle before after request outcome hf =>
    obtain ⟨hp, hrunning⟩ := h.busy (.inr (by simp [hf]))
    refine orchestration_of_running ?_ hrunning
    show (if outcome = .raised then _ else _) = _ ∨ (if outcome = .raised then _ else _) = _
    split_ifs
    · exact .inr rfl
    · exact hp
  | @gathered k now hp hw hf =>
    rw [Orchestration, hp] at h
    exact ⟨h.1, ⟨hw, hf⟩, h.2⟩
  | @poll k deadline now hp =>
    have hh := h
    rw [Orchestration, hp] at hh
    obtain ⟨rfl, ⟨hwaiting, hinFlight⟩, hrunning⟩ := hh
    obtain rfl : now = s.clock := hclock
    have hset : ∀ status, jobStatus (s.job.store.setJobStatus job.jobId status) job.jobId
        = some status := by
      intro status
      rw [jobStatus_setJobStatus, hrunning]
      rfl
    rw [pollPhase]
    simp only
    by_cases henough : s.job.store.countPhaseReports job.jobId 0 ≥ job.workloadHosts.length
    · -- so many reports were not there before the deadline
      have hlate : deadline ≤ s.clock := by
        by_contra hearly
        have hbefore : BeforeReportDeadline s := by
          rw [BeforeReportDeadline, hp]
          exact not_le.mp hearly
        have hthree := hfew hbefore
        rw [length_reporters] at hthree
        omega
      rw [if_pos henough, enterPhase, if_neg (by omega)]
      exact ⟨⟨hwaiting, hinFlight⟩,
        .inr ⟨hset _, tr, _, [], rfl, deadline, hp, hlate, rfl, henough⟩⟩
    · rw [if_neg henough]
      by_cases hearly : s.clock < deadline
      · rw [if_pos hearly, Orchestration]
        simp only [hp]
        exact ⟨trivial, ⟨hwaiting, hinFlight⟩, hrunning⟩
      · rw [if_neg hearly]
        exact ⟨⟨hwaiting, hinFlight⟩, .inl (hset _)⟩
  | ingest => exact h.snoc (s, _)

/-! ### The harness -/

/-- What has happened when the harness is where it is. -/
def Harness (trial : Trial) (job : Job) (tr : List (TrialRun × TrialAction)) :
    HarnessState → Prop
  | .posting => True
  | .checking _ => True
  | .asking _ => True
  | .reporting => AskedLate job tr
  | .finished (.aborted _ _) => True
  | .finished (.completed record) => record.stragglerStatus = .insufficientEvidence →
      LateEvidence trial job tr

theorem Harness.snoc {tr : List (TrialRun × TrialAction)} {harness : HarnessState}
    (h : Harness trial job tr harness) (p : TrialRun × TrialAction) :
    Harness trial job (tr ++ [p]) harness := by
  cases harness with
  | posting => trivial
  | checking deadline => trivial
  | asking deadline => trivial
  | reporting => exact AskedLate.snoc h p
  | finished result =>
    cases result with
    | aborted trialId reason => trivial
    | completed record =>
      intro hinsufficient
      obtain ⟨before, r, after, rfl, hr⟩ := h hinsufficient
      exact ⟨before, r, after ++ [p], by rw [List.append_assoc, List.cons_append], hr⟩

/-- A report without a ranking is one made of fewer than three `ok` reports. -/
theorem status_insufficient {store : TSDBStore} {jobId : String} {phaseIndex : ℕ}
    {report : StragglerReport} (h : getStragglerReport store jobId phaseIndex = .ok report) :
    report.status = .insufficientEvidence
      ↔ (okReports store jobId phaseIndex).length < minReportingNodes := by
  obtain ⟨_, rfl⟩ := getStragglerReport_ok.mp h
  have hranked := @rankStragglers_ranked jobId phaseIndex (durationsNs store jobId phaseIndex)
  rw [length_durationsNs] at hranked
  cases hs : (rankStragglers jobId phaseIndex (durationsNs store jobId phaseIndex)).status with
  | ranked =>
    refine iff_of_false ?_ (not_lt.mpr (hranked.mp hs))
    intro hc
    cases hc
  | insufficientEvidence =>
    refine iff_of_true rfl (not_le.mp fun hge => ?_)
    rw [hranked.mpr hge] at hs
    cases hs

theorem harness_step {tr : List (TrialRun × TrialAction)} {s s' : TrialRun} {a : TrialAction}
    (horchestration : Orchestration job tr s.job) (h : Harness trial job tr s.harness)
    (hstep : TrialStep trial job s a s') : Harness trial job (tr ++ [(s, a)]) s'.harness := by
  cases hstep with
  | tick _ => exact h.snoc _
  | service _ _ => exact h.snoc _
  | responded _ => trivial
  | @checkClock deadline _ =>
    simp only
    split_ifs
    · trivial
    · trivial
  | @getJob deadline row _ hrow =>
    have hstatus : jobStatus s.job.store job.jobId = some row.status := by
      rw [jobStatus, hrow]
      rfl
    simp only
    cases hr : row.status with
    | running => trivial
    | timedOut => trivial
    | completed =>
      rw [hr] at hstatus
      exact ⟨tr, _, [], rfl, rfl, horchestration.seenLate hstatus⟩
  | @getReport report hreporting hreport =>
    rw [hreporting] at h
    intro hinsufficient
    exact ⟨tr, _, [], rfl, rfl, h, (status_insufficient hreport).mp hinsufficient⟩

/-- A recorded result stands. -/
theorem finished_step {s s' : TrialRun} {a : TrialAction} {result : TrialResult}
    (h : s.harness = .finished result) (hstep : TrialStep trial job s a s') :
    s'.harness = .finished result := by
  cases hstep with
  | tick _ => exact h
  | service _ _ => exact h
  | responded hp =>
    rw [h] at hp
    cases hp
  | checkClock hp =>
    rw [h] at hp
    cases hp
  | getJob hp _ =>
    rw [h] at hp
    cases hp
  | getReport hp _ =>
    rw [h] at hp
    cases hp

/-! ### The trial -/

section Run

variable {workloadHosts : List String} {jobId : String} {createdTsNs : ℤ}
  {store store' : TSDBStore} (hrack : 3 ≤ workloadHosts.length)
  (hstart : startJob workloadHosts jobId createdTsNs store trial.body = .ok (store', job))
  {clock : ℚ} {tr : List (TrialRun × TrialAction)} {s : TrialRun}
  (hrun : Run (TrialStep trial job) (.start clock job store') tr s)
  (hfew : ∀ p ∈ tr, BeforeReportDeadline p.1 →
    (reporters p.1.job.store job.jobId 0).length < 3)

include hrack hstart hrun hfew

theorem history_of_run : Orchestration job tr s.job ∧ Harness trial job tr s.harness := by
  obtain ⟨haccepts, _⟩ := startJob_ok hstart
  have hcount : job.phaseCount = 1 := Int.ofNat.inj haccepts.phaseCount
  have hhosts : 3 ≤ job.workloadHosts.length := by
    rw [haccepts.hosts]
    exact hrack
  induction hrun with
  | nil =>
    refine ⟨orchestration_of_running (.inl ?_) ?_, trivial⟩
    · show (enterPhase job 0 _).progress = _
      rw [enterPhase, if_pos (by omega)]
    · show jobStatus (enterPhase job 0 _).store _ = _
      rw [enterPhase, if_pos (by omega)]
      exact jobStatus_startJob hstart
  | @snoc tr s s' a hrun hstep ih =>
    obtain ⟨horchestration, hharness⟩ := ih fun p hp => hfew p (List.mem_append_left _ hp)
    refine ⟨?_, harness_step horchestration hharness hstep⟩
    cases hstep with
    | tick _ => exact horchestration.snoc _
    | service hjob hclock =>
      exact orchestration_step hcount hhosts horchestration hclock
        (hfew (s, _) (List.mem_append_right _ (List.mem_singleton_self _))) hjob
    | responded _ => exact horchestration.snoc _
    | checkClock _ => exact horchestration.snoc _
    | getJob _ _ => exact horchestration.snoc _
    | getReport _ _ => exact horchestration.snoc _

/-- On a rack of three hosts or more, a trial in which fewer than three nodes
have reported by the deadline is recorded as completed without a ranking, and
counted as a non-detection, exactly if the other reports arrive before the
orchestrator's last count, and the harness asks in time. -/
theorem counted_iff {result : TrialResult} (hresult : s.harness = .finished result) :
    CountedAsNonDetection result ↔ LateEvidence trial job tr := by
  obtain ⟨_, hharness⟩ := history_of_run hrack hstart hrun hfew
  constructor
  · rintro ⟨⟨record, rfl, hinsufficient⟩, _⟩
    rw [hresult] at hharness
    exact hharness hinsufficient
  · rintro ⟨before, r, after, rfl, hget, _, hok⟩
    obtain ⟨s₁, _, hstep, hrest⟩ := hrun.split
    rw [hget] at hstep
    cases hstep with
    | @getReport report _ hreport =>
      -- what is recorded here is what is recorded in the end
      have hstands : s.harness = .finished (trial.completed job.jobId report) :=
        Reachable.invariant (fun s => s.harness = .finished (trial.completed job.jobId report)) rfl
          (fun _ _ _ h hstep => finished_step h hstep) ⟨_, hrest⟩
      rw [hresult] at hstands
      injection hstands with hstands
      have hinsufficient := (status_insufficient hreport).mpr hok
      rw [hstands]
      exact ⟨⟨_, rfl, hinsufficient⟩, nonDetection_of_insufficient hinsufficient⟩

end Run

/-- A trial with a fault on a rack of three hosts. -/
def faultTrial : Trial :=
  ⟨"cpu_contention-0000", 2000000, 0, some ⟨"cpu_contention", "workload-1", 2⟩⟩

def threeHosts : List String := ["workload-1", "workload-2", "workload-3"]

def faultTrialManifest : FaultManifest := ⟨"workload-1", 0, "cpu_contention", 2⟩

def faultTrialJob : Job :=
  { jobId := "j"
    workloadHosts := threeHosts
    phaseCount := 1
    sieveLimit := some 2000000
    faultManifest := some faultTrialManifest }

def faultTrialStore : TSDBStore :=
  { TSDBStore.empty with
    jobs := TSDBStore.empty.jobs.insertIgnore
      ⟨"j", 1, threeHosts, some faultTrialManifest, .running, 0⟩ }

theorem startJob_faultTrial :
    startJob threeHosts "j" 0 .empty faultTrial.body = .ok (faultTrialStore, faultTrialJob) := rfl

/-- What `execute_job` asks of each host. -/
def trialRequest (host : String) : DispatchRequest :=
  ⟨host, "j", 0, some 2000000, faultForHost (some faultTrialManifest) host 0⟩

def trialReport (nodeId status : String) : PhaseEventRow := ⟨"j", nodeId, 0, 0, 0, 1, 1, status⟩

/-- The phase has been dispatched, and the harness starts to wait a second
later. -/
def waitingRun : TrialRun where
  clock := 0 + 1
  job :=
    { store := faultTrialStore
      progress := .polling 0 (0 + phaseReportTimeoutS)
      waiting := []
      inFlight := []
      log := threeHosts.map fun host => .dispatched (trialRequest host) }
  harness := .checking (0 + 1 + jobPollTimeoutS)

theorem exists_run_waiting :
    ∃ tr, Run (TrialStep faultTrial faultTrialJob) (.start 0 faultTrialJob faultTrialStore) tr
        waitingRun ∧
      ∀ p ∈ tr, BeforeReportDeadline p.1 → (reporters p.1.job.store "j" 0).length < 3 := by
  have hstart : Run (TrialStep faultTrial faultTrialJob)
    (.start 0 faultTrialJob faultTrialStore) [] _ := .nil
  have hgathered := ((((((hstart.snoc
    (.service (@JobStep.dispatch _ _ [] _ (trialRequest "workload-1") rfl) trivial)).snoc
    (.service (@JobStep.dispatch _ _ [] _ (trialRequest "workload-2") rfl) trivial)).snoc
    (.service (@JobStep.dispatch _ _ [] _ (trialRequest "workload-3") rfl) trivial)).snoc
    (.service (@JobStep.settle _ _ [] _ (trialRequest "workload-1") .returned rfl) trivial)).snoc
    (.service (@JobStep.settle _ _ [] _ (trialRequest "workload-2") .returned rfl) trivial)).snoc
    (.service (@JobStep.settle _ _ [] _ (trialRequest "workload-3") .returned rfl) trivial)).snoc
    (.service (@JobStep.gathered _ _ 0 0 rfl rfl rfl) rfl)
  exact ⟨_, (hgathered.snoc (@TrialStep.tick faultTrial faultTrialJob _ 1 (by norm_num))).snoc
    (.responded rfl), by decide +kernel⟩

/-- Two nodes report in time; the third one reports an error when the deadline
has passed, before the orchestrator counts again. -/
theorem counted_iff_example :
    ∃ tr s result, Run (TrialStep faultTrial faultTrialJob)
        (.start 0 faultTrialJob faultTrialStore) tr s ∧
      reporters s.job.store "j" 0 = ["node-1", "node-2", "node-3"] ∧
      s.harness = .finished result ∧ CountedAsNonDetection result ∧
      LateEvidence faultTrial faultTrialJob tr := by
  obtain ⟨tr, hwaiting, hfew⟩ := exists_run_waiting
  have hstart : Run (TrialStep faultTrial faultTrialJob) waitingRun [] _ := .nil
  have hintime := (hstart.snoc
    (.service (@JobStep.ingest _ _ [] [trialReport "node-1" "ok", trialReport "node-2" "ok"])
      trivial)).snoc
    (.service (@JobStep.poll _ _ 0 (0 + phaseReportTimeoutS) _ rfl) rfl)
  have hlate := ((hintime.snoc
    (@TrialStep.tick faultTrial faultTrialJob _ (59 / 2) (by norm_num))).snoc
    (.service (@JobStep.ingest _ _ [] [trialReport "node-3" "error"]) trivial)).snoc
    (.service (@JobStep.poll _ _ 0 (0 + phaseReportTimeoutS) _ (by decide +kernel)) rfl)
  have hrest := ((hlate.snoc
    (@TrialStep.checkClock faultTrial faultTrialJob _ (0 + 1 + jobPollTimeoutS) rfl)).snoc
    (@TrialStep.getJob faultTrial faultTrialJob _ (0 + 1 + jobPollTimeoutS)
      ⟨"j", 1, threeHosts, some faultTrialManifest, .completed, 0⟩ (by decide +kernel)
      (by decide +kernel))).snoc
    (@TrialStep.getReport faultTrial faultTrialJob _ _ rfl
      (getStragglerReport_ok.mpr ⟨by decide +kernel, rfl⟩))
  have hrun := hwaiting.append hrest
  have hiff := counted_iff (by decide) startJob_faultTrial hrun
    (List.forall_mem_append.mpr ⟨hfew, by decide +kernel⟩) rfl
  refine ⟨_, _, _, hrun, by decide +kernel, rfl, (and_iff_left_of_imp hiff.mp).mpr ?_⟩
  exact ⟨⟨_, rfl, by decide +kernel⟩, nonDetection_of_insufficient (by decide +kernel)⟩

/-- Two of three nodes report, the job times out, and the trial is excluded. -/
theorem counted_counterexample :
    ∃ tr s, Run (TrialStep faultTrial faultTrialJob) (.start 0 faultTrialJob faultTrialStore) tr s ∧
      (∀ p ∈ tr, BeforeReportDeadline p.1 → (reporters p.1.job.store "j" 0).length < 3) ∧
      reporters s.job.store "j" 0 = ["node-1", "node-2"] ∧
      s.harness = .finished (.aborted "cpu_contention-0000" "job_status=timed_out") ∧
      ¬ CountedAsNonDetection (.aborted "cpu_contention-0000" "job_status=timed_out") := by
  obtain ⟨tr, hwaiting, hfew⟩ := exists_run_waiting
  have hstart : Run (TrialStep faultTrial faultTrialJob) waitingRun [] _ := .nil
  have hreported := hstart.snoc
    (.service (@JobStep.ingest _ _ [] [trialReport "node-1" "ok", trialReport "node-2" "ok"])
      trivial)
  have hrest := (((hreported.snoc
    (@TrialStep.tick faultTrial faultTrialJob _ (59 / 2) (by norm_num))).snoc
    (.service (@JobStep.poll _ _ 0 (0 + phaseReportTimeoutS) _ rfl) rfl)).snoc
    (@TrialStep.checkClock faultTrial faultTrialJob _ (0 + 1 + jobPollTimeoutS) rfl)).snoc
    (@TrialStep.getJob faultTrial faultTrialJob _ (0 + 1 + jobPollTimeoutS)
      ⟨"j", 1, threeHosts, some faultTrialManifest, .timedOut, 0⟩ (by decide +kernel)
      (by decide +kernel))
  refine ⟨_, _, hwaiting.append hrest, List.forall_mem_append.mpr ⟨hfew, by decide +kernel⟩,
    by decide +kernel, by decide +kernel, fun h => ?_⟩
  exact not_nonDetection_aborted _ _ h.2

end Eval
