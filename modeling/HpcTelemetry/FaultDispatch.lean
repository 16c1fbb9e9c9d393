/-
Where a fault is injected.

`execute_job` compares the manifest with each host and phase it dispatches.
`start_job` checks the host of the manifest, but not its phase, and a phase the
job does not have is compared with in vain.

* `Issued` — the invariant: in each phase the loop dispatches every host once;
* `issued_of_completed` — a completed job has issued exactly the dispatches of
  the two loops;
* `injected_once_iff` — the fault is injected exactly once if and only if the
  job has the phase that was asked for.
-/
import HpcTelemetry.PhaseBarrier
import HpcTelemetry.StartJob

namespace Ingest

open Transitions

variable {job : Job}

/-! ### What is issued -/

/-- The requests issued, in order. -/
def issued (log : List JobLogEntry) : List DispatchRequest :=
  log.filterMap fun
    | .dispatched request => some request
    | .polled _ _ => none

/-- The dispatches of the phases below `k`. -/
def dispatchesBelow (job : Job) (k : ℕ) : List DispatchRequest :=
  (List.range k).flatMap (dispatches job)

theorem dispatchesBelow_succ (job : Job) (k : ℕ) :
    dispatchesBelow job (k + 1) = dispatchesBelow job k ++ dispatches job k := by
  rw [dispatchesBelow, List.range_succ, List.flatMap_append, List.flatMap_singleton]
  rfl

theorem issued_dispatched (log : List JobLogEntry) (request : DispatchRequest) :
    issued (log ++ [.dispatched request]) = issued log ++ [request] := by
  rw [issued, List.filterMap_append]
  rfl

theorem issued_polled (log : List JobLogEntry) (k count : ℕ) :
    issued (log ++ [.polled k count]) = issued log := by
  rw [issued, List.filterMap_append]
  exact List.append_nil _

/-- What has been issued and what is waiting are the dispatches of the phases so
far, each once. -/
def Issued (job : Job) (s : JobRun) : Prop :=
  match s.progress with
  | .dispatching k => k < job.phaseCount ∧
      (issued s.log ++ s.waiting).Perm (dispatchesBelow job (k + 1))
  | .polling k _ => k < job.phaseCount ∧ s.waiting = [] ∧
      (issued s.log).Perm (dispatchesBelow job (k + 1))
  | .ended => s.waiting = [] ∧ (jobStatus s.store job.jobId = some .completed →
      (issued s.log).Perm (dispatchesBelow job job.phaseCount))
  | .raised => True

theorem issued_enterPhase {s : JobRun} {k : ℕ} (hwaiting : s.waiting = [])
    (hle : k ≤ job.phaseCount) (hissued : (issued s.log).Perm (dispatchesBelow job k)) :
    Issued job (enterPhase job k s) := by
  rw [enterPhase]
  by_cases hk : k < job.phaseCount
  · rw [if_pos hk]
    refine ⟨hk, ?_⟩
    show (issued s.log ++ dispatches job k).Perm _
    rw [dispatchesBelow_succ]
    exact hissued.append_right _
  · rw [if_neg hk]
    obtain rfl : k = job.phaseCount := by omega
    exact ⟨hwaiting, fun _ => hissued⟩

theorem issued_step {s s' : JobRun} {a : JobAction} (h : Issued job s)
    (hstep : JobStep job s a s') : Issued job s' := by
  rw [Issued] at h
  cases hstep with
  | @dispatch before after request hw =>
    rw [Issued]
    cases hp : s.progress with
    | dispatching k =>
      rw [hp] at h
      obtain ⟨hk, hperm⟩ := h
      refine ⟨hk, ?_⟩
      -- the request moves from the waiting ones to the issued ones
      show (issued (s.log ++ [.dispatched request]) ++ (before ++ after)).Perm _
      have hmoved : (request :: (before ++ after)).Perm (before ++ request :: after) :=
        List.perm_middle.symm
      rw [issued_dispatched, List.append_assoc]
      rw [hw] at hperm
      exact (hmoved.append_left _).trans hperm
    | polling k deadline =>
      rw [hp] at h
      obtain ⟨_, hwaiting, _⟩ := h
      rw [hwaiting] at hw
      simp at hw
    | ended =>
      rw [hp] at h
      rw [h.1] at hw
      simp at hw
    | raised => trivial
  | @settle before after request outcome hf =>
    by_cases hraised : outcome = .raised
    · rw [Issued]
      simp only [if_pos hraised]
    · rw [Issued]
      simp only [if_neg hraised]
      exact h
  | @gathered k now hp hw hf =>
    rw [hp] at h
    obtain ⟨hk, hperm⟩ := h
    rw [hw, List.append_nil] at hperm
    exact ⟨hk, hw, hperm⟩
  | @poll k deadline now hp =>
    rw [hp] at h
    obtain ⟨hk, hwaiting, hperm⟩ := h
    have hperm' : (issued (s.log ++ [.polled k (s.store.countPhaseReports job.jobId k)])).Perm
        (dispatchesBelow job (k + 1)) := by
      rw [issued_polled]
      exact hperm
    rw [pollPhase]
    simp only
    split_ifs with henough hearly
    · exact issued_enterPhase hwaiting hk hperm'
    · rw [Issued]
      simp only [hp]
      exact ⟨hk, hwaiting, hperm'⟩
    · refine ⟨hwaiting, fun hcompleted => ?_⟩
      -- this job has timed out
      simp only [jobStatus_setJobStatus, Option.map_eq_some_iff] at hcompleted
      obtain ⟨_, _, hc⟩ := hcompleted
      cases hc
  | ingest => exact h

/-- A completed job has dispatched every host in every phase, once, and nothing
else. -/
theorem issued_of_completed {store : TSDBStore} {tr : List (JobRun × JobAction)} {s : JobRun}
    (hrun : Run (JobStep job) (executeJob job store) tr s) (hended : s.progress = .ended)
    (hcompleted : jobStatus s.store job.jobId = some .completed) :
    (issued s.log).Perm (dispatchesBelow job job.phaseCount) := by
  have h : Issued job s := hrun.invariant
    (issued_enterPhase rfl (Nat.zero_le _) (List.Perm.refl _))
    fun _ _ _ hi hstep => issued_step hi hstep
  rw [Issued, hended] at h
  exact h.2 hcompleted

/-! ### The dispatches of a host and of a fault -/

theorem mem_dispatchesBelow {k : ℕ} {request : DispatchRequest} :
    request ∈ dispatchesBelow job k ↔ ∃ j < k, ∃ host ∈ job.workloadHosts,
      request = ⟨host, job.jobId, j, job.sieveLimit, faultForHost job.faultManifest host j⟩ := by
  rw [dispatchesBelow, List.mem_flatMap]
  constructor
  · rintro ⟨j, hj, hmem⟩
    obtain ⟨host, hhost, rfl⟩ := List.mem_map.mp hmem
    exact ⟨j, List.mem_range.mp hj, host, hhost, rfl⟩
  · rintro ⟨j, hj, host, hhost, rfl⟩
    exact ⟨j, List.mem_range.mpr hj, List.mem_map.mpr ⟨host, hhost, rfl⟩⟩

/-- Each host is dispatched once in each phase. -/
theorem filter_dispatchesBelow (hnodup : job.workloadHosts.Nodup) {host : String}
    (hhost : host ∈ job.workloadHosts) (j k : ℕ) :
    (dispatchesBelow job k).filter (fun r => r.host = host ∧ r.phaseIndex = j)
      = if j < k then [⟨host, job.jobId, j, job.sieveLimit,
          faultForHost job.faultManifest host j⟩] else [] := by
  induction k with
  | zero => rfl
  | succ k ih =>
    have hphase : (dispatches job k).filter (fun r => r.host = host ∧ r.phaseIndex = j)
        = if k = j then [⟨host, job.jobId, j, job.sieveLimit,
            faultForHost job.faultManifest host j⟩] else [] := by
      rw [dispatches, List.filter_map]
      by_cases hkj : k = j
      · have hone : job.workloadHosts.filter (· = host) = [host] := by
          rw [List.filter_eq, List.count_eq_one_of_mem hnodup hhost]
          rfl
        subst hkj
        rw [if_pos rfl]
        simp only [Function.comp_def, and_true, hone]
        rfl
      · rw [if_neg hkj]
        simp [Function.comp_def, hkj]
    rw [dispatchesBelow_succ, List.filter_append, ih, hphase]
    by_cases hlt : j < k
    · rw [if_pos hlt, if_neg (by omega), if_pos (by omega), List.append_nil]
    · by_cases heq : k = j
      · rw [if_neg hlt, if_pos heq, if_pos (by omega), List.nil_append]
      · rw [if_neg hlt, if_neg heq, if_neg (by omega), List.nil_append]

theorem faultForHost_isSome {fault : Api.FaultManifestRequest} {host : String} {k : ℕ} :
    (faultForHost (some fault.modelDump) host k).isSome
      ↔ host = fault.targetHost ∧ (k : ℤ) = fault.phaseIndex := by
  show (if fault.targetHost = host ∧ fault.phaseIndex = k then _ else none).isSome ↔ _
  split_ifs with h
  · exact iff_of_true rfl ⟨h.1.symm, h.2.symm⟩
  · exact iff_of_false Bool.false_ne_true fun hc => h ⟨hc.1.symm, hc.2.symm⟩

theorem faultForHost_target (fault : Api.FaultManifestRequest) {k : ℕ}
    (h : (k : ℤ) = fault.phaseIndex) :
    faultForHost (some fault.modelDump) fault.targetHost k
      = some (fault.faultType, fault.intensity) := by
  show (if fault.targetHost = fault.targetHost ∧ fault.phaseIndex = k then _ else none) = _
  rw [if_pos ⟨rfl, h.symm⟩]
  rfl

/-- To carry a fault is to be the dispatch that was asked for. -/
theorem filter_fault_dispatchesBelow {fault : Api.FaultManifestRequest}
    (hmanifest : job.faultManifest = some fault.modelDump) {k : ℕ} (hk : fault.phaseIndex = k)
    (n : ℕ) : (dispatchesBelow job n).filter (·.fault.isSome)
      = (dispatchesBelow job n).filter fun r => r.host = fault.targetHost ∧ r.phaseIndex = k := by
  refine List.filter_congr fun r hr => ?_
  obtain ⟨j, _, host, _, rfl⟩ := mem_dispatchesBelow.mp hr
  simp only
  rw [Bool.eq_iff_iff, decide_eq_true_iff, hmanifest, faultForHost_isSome, hk, Nat.cast_inj]

/-! ### Exactly one fault -/

/-- One dispatch carries the fault, the one that was asked for; every other host
and phase is dispatched once and without a fault. -/
structure InjectedOnce (job : Job) (fault : Api.FaultManifestRequest) (log : List JobLogEntry) :
    Prop where
  injected : ∃ request, (issued log).filter (·.fault.isSome) = [request] ∧
    request.host = fault.targetHost ∧ (request.phaseIndex : ℤ) = fault.phaseIndex ∧
    request.fault = some (fault.faultType, fault.intensity)
  others : ∀ host ∈ job.workloadHosts, ∀ k < job.phaseCount,
    ¬ (host = fault.targetHost ∧ (k : ℤ) = fault.phaseIndex) →
    ∃ request, (issued log).filter (fun r => r.host = host ∧ r.phaseIndex = k) = [request] ∧
      request.fault = none

/-- In a run that completes, the fault of an accepted request is injected
exactly once, where it was asked for, if and only if the job has that phase. -/
theorem injected_once_iff {workloadHosts : List String} (hnodup : workloadHosts.Nodup)
    {jobId : String} {createdTsNs : ℤ} {store store' : TSDBStore} {request : Api.StartJobRequest}
    {job : Job}
    (hstart : Api.startJob workloadHosts jobId createdTsNs store request = .ok (store', job))
    {fault : Api.FaultManifestRequest} (hfault : request.fault = some fault)
    {tr : List (JobRun × JobAction)} {s : JobRun}
    (hrun : Run (JobStep job) (executeJob job store') tr s) (hended : s.progress = .ended)
    (hcompleted : jobStatus s.store job.jobId = some .completed) :
    InjectedOnce job fault s.log
      ↔ 0 ≤ fault.phaseIndex ∧ fault.phaseIndex < request.phaseCount := by
  obtain ⟨haccepts, _⟩ := Api.startJob_ok hstart
  have hperm := issued_of_completed hrun hended hcompleted
  have hhosts := haccepts.hosts
  have hmanifest : job.faultManifest = some fault.modelDump := by
    rw [haccepts.faultManifest, hfault]
    rfl
  have htarget : fault.targetHost ∈ job.workloadHosts := by
    rw [hhosts]
    exact haccepts.target fault hfault
  rw [← haccepts.phaseCount]
  rw [← hhosts] at hnodup
  constructor
  · rintro ⟨⟨r, hr, _, hphase, _⟩, _⟩
    -- the one dispatch with a fault is of a phase of the job
    have hmem : r ∈ (issued s.log).filter (·.fault.isSome) := by
      rw [hr]
      exact List.mem_singleton_self r
    obtain ⟨j, hj, host, _, rfl⟩ :=
      mem_dispatchesBelow.mp (hperm.subset (List.mem_filter.mp hmem).1)
    rw [← hphase]
    exact ⟨Int.natCast_nonneg j, Int.ofNat_lt.mpr hj⟩
  · rintro ⟨hnonneg, hlt⟩
    obtain ⟨k, hk⟩ := Int.eq_ofNat_of_zero_le hnonneg
    rw [hk] at hlt
    have hkcount : k < job.phaseCount := Int.ofNat_lt.mp hlt
    constructor
    case injected =>
      have hone := hperm.filter (·.fault.isSome)
      rw [filter_fault_dispatchesBelow hmanifest hk, filter_dispatchesBelow hnodup htarget,
        if_pos hkcount, List.perm_singleton] at hone
      refine ⟨_, hone, rfl, hk.symm, ?_⟩
      simp only [hmanifest]
      exact faultForHost_target fault hk.symm
    case others =>
      intro host hhost j hj hother
      have hone := hperm.filter fun r => r.host = host ∧ r.phaseIndex = j
      rw [filter_dispatchesBelow hnodup hhost, if_pos hj, List.perm_singleton] at hone
      refine ⟨_, hone, ?_⟩
      simp only [hmanifest]
      rw [← Option.not_isSome_iff_eq_none, faultForHost_isSome]
      exact hother

/-- A fault in the second of two phases, on the second of two hosts. -/
def secondPhaseFault (faultType : String) : Api.FaultManifestRequest :=
  { targetHost := "b", phaseIndex := 1, faultType := faultType }

theorem startJob_secondPhaseFault (faultType : String) :
    Api.startJob ["a", "b"] "j" 0 .empty
        { phaseCount := 2, fault := some (secondPhaseFault faultType) }
      = .ok (twoHostsStore (some (secondPhaseFault faultType).modelDump),
        twoHostsJob (some (secondPhaseFault faultType).modelDump)) := rfl

theorem injected_once_iff_example :
    let fault := secondPhaseFault "cpu_contention"
    let job := twoHostsJob (some fault.modelDump)
    ∃ (tr : List (JobRun × JobAction)) (s : JobRun),
      Run (JobStep job) (executeJob job (twoHostsStore (some fault.modelDump))) tr s ∧
      s.progress = .ended ∧ jobStatus s.store "j" = some .completed ∧
      (InjectedOnce job fault s.log ↔ (0 : ℤ) ≤ 1 ∧ (1 : ℤ) < 2) := by
  obtain ⟨tr, log, hrun, _⟩ :=
    exists_run_polling (some (secondPhaseFault "cpu_contention").modelDump)
  have hended := (hrun.snoc
    (@JobStep.ingest _ _ [] [twoHostsReport "b" 1, twoHostsReport "a" 1])).snoc
    (@JobStep.poll _ _ _ _ 9 rfl)
  exact ⟨_, _, hended, rfl, rfl, injected_once_iff (by decide)
    (startJob_secondPhaseFault "cpu_contention") rfl hended rfl rfl⟩

/-- A request for one phase with a fault in some phase. -/
def faultRequest (phaseIndex : ℤ) : Api.StartJobRequest :=
  { fault := some { targetHost := "h", phaseIndex := phaseIndex, faultType := "cpu_contention" } }

def faultJob (phaseIndex : ℤ) : Job :=
  { jobId := "j"
    workloadHosts := ["h"]
    phaseCount := 1
    faultManifest := some ⟨"h", phaseIndex, "cpu_contention", 2⟩ }

def faultStore (phaseIndex : ℤ) : TSDBStore :=
  { TSDBStore.empty with
    jobs := TSDBStore.empty.jobs.insertIgnore
      ⟨"j", 1, ["h"], some ⟨"h", phaseIndex, "cpu_contention", 2⟩, .running, 0⟩ }

theorem startJob_faultRequest (phaseIndex : ℤ) :
    Api.startJob ["h"] "j" 0 .empty (faultRequest phaseIndex)
      = .ok (faultStore phaseIndex, faultJob phaseIndex) := rfl

/-- A run of this job: the dispatch returns, and the node reports. -/
theorem exists_run_faultJob (phaseIndex : ℤ) :
    ∃ tr s, Run (JobStep (faultJob phaseIndex))
        (executeJob (faultJob phaseIndex) (faultStore phaseIndex)) tr s ∧
      s.progress = .ended ∧ jobStatus s.store "j" = some .completed := by
  set request : DispatchRequest := ⟨"h", "j", 0, none,
    faultForHost (faultJob phaseIndex).faultManifest "h" 0⟩ with hrequest
  have hstart : Run (JobStep (faultJob phaseIndex))
    (executeJob (faultJob phaseIndex) (faultStore phaseIndex)) [] _ := .nil
  have hrun := ((((hstart.snoc
    (@JobStep.dispatch _ _ [] [] request rfl)).snoc
    (@JobStep.settle _ _ [] [] request .returned rfl)).snoc
    (@JobStep.gathered _ _ _ 5 rfl rfl rfl)).snoc
    (@JobStep.ingest _ _ [] [⟨"j", "n", 0, 0, 0, 1, 1, "ok"⟩])).snoc
    (@JobStep.poll _ _ _ _ 6 rfl)
  exact ⟨_, _, hrun, rfl, rfl⟩

/-- A fault in the second phase of a job that has one phase is accepted, and the
job completes without it. -/
theorem injected_once_counterexample :
    ∃ store job tr s, Api.startJob ["h"] "j" 0 .empty (faultRequest 1) = .ok (store, job) ∧
      Run (JobStep job) (executeJob job store) tr s ∧ s.progress = .ended ∧
      jobStatus s.store "j" = some .completed ∧
      ¬ InjectedOnce job ⟨"h", 1, "cpu_contention", 2⟩ s.log := by
  obtain ⟨tr, s, hrun, hended, hcompleted⟩ := exists_run_faultJob 1
  refine ⟨_, _, tr, s, startJob_faultRequest 1, hrun, hended, hcompleted, ?_⟩
  rintro ⟨⟨r, hr, _, hphase, _⟩, _⟩
  have hmem : r ∈ (issued s.log).filter (·.fault.isSome) := by
    rw [hr]
    exact List.mem_singleton_self r
  obtain ⟨j, hj, host, _, rfl⟩ := mem_dispatchesBelow.mp
    ((issued_of_completed hrun hended hcompleted).subset (List.mem_filter.mp hmem).1)
  -- there is no phase but the first
  have hcount : j < 1 := hj
  simp only at hphase
  omega

end Ingest
