/-
Faults on the rack.

A fault is dispatched to one host in one phase.  What keeps it there is spread
over three programs: the orchestrator names it in one post, the runner tells its
workers to stop before it reports, and the barrier waits for the report.

* `attended_of_run` — the workers of every runner, in runs that strand none;
* `fault_confined` — a worker that has not been told to stop belongs to the
  phase and the host the fault was asked for, and no later phase has begun;
* `failedUnranked_of_refused` — a phase that is refused fails, and the ranking
  leaves its host out;
* `unknownFault_unranked` — that is what becomes of a fault of an unknown type,
  which `start_job` accepts.
-/
import HpcTelemetry.FaultDispatch
import HpcTelemetry.RackPhases

namespace Fleet

open Ingest Workload Transitions

variable {job : Job} {config : String → Config}

/-! ### The runners of the rack -/

/-- The step strands workers of one of the runners. -/
def RackStrands (s : Rack) : RackAction → Prop
  | .run host i a => Strands (s.runners host) (.phase i a)
  | _ => False

/-- Seen from one of the runners, a step of the rack is one of its own or none. -/
theorem runner_step {s s' : Rack} {a : RackAction} (hstep : RackStep job config s a s')
    (host : String) : s'.runners host = s.runners host ∨
      ∃ b, RunnerStep (config host) (s.runners host) b (s'.runners host) ∧
        (Strands (s.runners host) b → RackStrands s a) := by
  cases hstep with
  | orchestrate _ _ => exact .inl rfl
  | @arrive before after request startTsNs startMonoNs hr =>
    by_cases h : host = request.host
    · subst h
      refine .inr ⟨.request (startPhaseRequest request) startTsNs startMonoNs, ?_, fun hc => hc⟩
      simp only [Function.update_self]
      exact .request
    · exact .inl (Function.update_of_ne h _ _)
  | loseRequest _ => exact .inl rfl
  | @run host' i p p' a hp hmove =>
    by_cases h : host = host'
    · subst h
      refine .inr ⟨.phase i a, ?_, fun hc => hc⟩
      simp only [Function.update_self]
      exact .phase hp hmove
    · exact .inl (Function.update_of_ne h _ _)
  | ingest _ => exact .inl rfl
  | loseReport _ => exact .inl rfl
  | other _ => exact .inl rfl

/-- What holds of a new runner and is kept by its steps holds of all runners in
every run. -/
theorem runners_invariant {Inv : String → Runner → Prop} {G : Rack → RackAction → Prop}
    (hinit : ∀ host, Inv host .start)
    (hkeep : ∀ s a, G s a → ∀ host b r', (Strands (s.runners host) b → RackStrands s a) →
      Inv host (s.runners host) → RunnerStep (config host) (s.runners host) b r' → Inv host r')
    {store : TSDBStore} {tr : List (Rack × RackAction)} {s : Rack}
    (hrun : Run (RackStep job config) (Rack.start job store) tr s)
    (hguard : ∀ q ∈ tr, G q.1 q.2) (host : String) : Inv host (s.runners host) := by
  induction hrun with
  | nil => exact hinit host
  | @snoc tr s s' a hrun hstep ih =>
    have hprev := ih fun q hq => hguard q (List.mem_append_left _ hq)
    have hg := hguard (s, a) (List.mem_append_right _ (List.mem_singleton_self _))
    rcases runner_step hstep host with hsame | ⟨b, hb, hstrands⟩
    · rw [hsame]
      exact hprev
    · exact hkeep s a hg host b _ hstrands hprev hb

theorem attended_of_run {store : TSDBStore} {tr : List (Rack × RackAction)} {s : Rack}
    (hrun : Run (RackStep job config) (Rack.start job store) tr s)
    (hguard : ∀ q ∈ tr, ¬ RackStrands q.1 q.2) (host : String) : Attended (s.runners host) :=
  @runners_invariant job config (fun _ r => Attended r) (fun s a => ¬ RackStrands s a)
    (fun _ => attended_start)
    (fun _ _ hg _ _ _ hstrands h hstep => attended_step h (fun hc => hg (hstrands hc)) hstep)
    _ _ _ hrun hguard host

/-! ### Where a fault is at work -/

/-- The runner's copy of a fault. -/
def manifestOf (manifest : Ingest.FaultManifest) : Workload.FaultManifest :=
  ⟨manifest.faultType, manifest.intensity⟩

/-- The phases of a host are those the orchestrator has posted to it. -/
theorem request_of_mem {s : Rack} (h : Barred job config s) {host : String} {p : PhaseRun}
    (hp : p ∈ (s.runners host).phases) : ∃ k : ℕ, host ∈ job.workloadHosts ∧
      p.request = startPhaseRequest ⟨host, job.jobId, k, job.sieveLimit,
        faultForHost job.faultManifest host k⟩ := by
  obtain ⟨request, hadmitted, rfl, hrequest⟩ := h.phases host p hp
  obtain ⟨host, hhost, heq⟩ := List.mem_map.mp hadmitted.dispatched
  rw [← heq] at hrequest
  refine ⟨request.phaseIndex, hadmitted.host, hrequest.trans ?_⟩
  rw [← heq]

/-- Only the phase of the manifest carries a fault, and its own. -/
theorem fault_startPhaseRequest {host : String} {k : ℕ} {sieveLimit : Option ℤ}
    (h : (startPhaseRequest ⟨host, job.jobId, k, sieveLimit,
      faultForHost job.faultManifest host k⟩).fault ≠ none) :
    ∃ manifest, job.faultManifest = some manifest ∧ manifest.targetHost = host ∧
      manifest.phaseIndex = k ∧ (startPhaseRequest ⟨host, job.jobId, k, sieveLimit,
        faultForHost job.faultManifest host k⟩).fault = some (manifestOf manifest) := by
  cases hm : job.faultManifest with
  | none =>
    rw [hm] at h
    exact absurd rfl h
  | some manifest =>
    rw [hm] at h
    by_cases hhere : manifest.targetHost = host ∧ manifest.phaseIndex = k
    · refine ⟨manifest, rfl, hhere.1, hhere.2, ?_⟩
      simp only [startPhaseRequest, faultForHost, Option.bind_some, if_pos hhere, Option.map_some]
      rfl
    · simp only [startPhaseRequest, faultForHost, Option.bind_some, if_neg hhere,
        Option.map_none] at h
      exact absurd rfl h

/-- The fault of the job is at work on this host: its phase is under way there,
and nowhere has a later phase begun. -/
structure AtWork (job : Job) (s : Rack) (host : String) (p : PhaseRun)
    (manifest : Ingest.FaultManifest) : Prop where
  requested : job.faultManifest = some manifest
  target : manifest.targetHost = host
  phase : p.request.phaseIndex = manifest.phaseIndex
  fault : p.request.fault = some (manifestOf manifest)
  inside : p.Inside
  last : ∀ host', ∀ q ∈ (s.runners host').phases, q.request.phaseIndex ≤ manifest.phaseIndex

section Started

variable {workloadHosts : List String} {jobId : String} {createdTsNs : ℤ}
  {before store : TSDBStore} {request : Api.StartJobRequest} {tr : List (Rack × RackAction)}
  {s : Rack}

/-- A fault stays where and when it was asked for: in every run in which no
runner strands a worker, a worker that has not been told to stop is one of the
target host, whose phase is the one of the manifest and still under way, while
no host has begun a later phase. -/
theorem fault_confined
    (hstart : Api.startJob workloadHosts jobId createdTsNs before request = .ok (store, job))
    (hfresh : ∀ row ∈ before.phaseEvents.rows, row.jobId ≠ jobId)
    (hrun : Run (RackStep job config) (Rack.start job store) tr s)
    (hguard : ∀ q ∈ tr, ¬ RackStrands q.1 q.2) {host : String} {w : Worker}
    (hw : w ∈ (s.runners host).workers) (huntold : w.told = false) :
    ∃ p manifest, (s.runners host).phases[w.owner]? = some p ∧ AtWork job s host p manifest := by
  have hbarred : Barred job config s := barred_of_startJob hstart hfresh hrun
  obtain ⟨hmanned, hconfined⟩ := attended_of_run hrun hguard host
  have hcount : untold (s.runners host).workers w.owner ≠ 0 := by
    intro hc
    rw [untold_eq_zero.mp hc w hw rfl] at huntold
    cases huntold
  -- the worker belongs to a phase, and the phase is not over
  have hlt : w.owner < (s.runners host).phases.length := by
    by_contra hge
    exact hcount (hmanned.owned _ (by omega))
  set p := (s.runners host).phases[w.owner] with hpdef
  have hp : (s.runners host).phases[w.owner]? = some p := List.getElem?_eq_getElem hlt
  have hmem : p ∈ (s.runners host).phases := List.getElem_mem hlt
  have hin : p.Inside := by
    by_contra hout
    exact hcount (hconfined.behind _ p hp hout)
  obtain ⟨k, hhost, hrequest⟩ := request_of_mem hbarred hmem
  have hfault : p.request.fault ≠ none := by
    intro hnone
    have hlimited := hmanned.limited _ p hp
    rw [hnone, show workersOf none = 0 from rfl] at hlimited
    exact hcount ((hconfined.inside _ p hp hin).trans (Nat.le_zero.mp hlimited))
  rw [hrequest] at hfault
  obtain ⟨manifest, hmanifest, htarget, hphase, hcopy⟩ := fault_startPhaseRequest hfault
  have hindex : p.request.phaseIndex = (k : ℤ) := by
    rw [hrequest]
    rfl
  refine ⟨p, manifest, hp, hmanifest, htarget, hindex.trans hphase.symm, ?_, hin,
    fun host' q hq => ?_⟩
  · rw [hrequest, hcopy]
  · by_contra hlater
    rw [hphase, not_le] at hlater
    -- a later phase has begun, so this one is done on this host
    have hpassed : Passed job config s k := hbarred.passed_of_later hq hlater
    obtain ⟨row, _, p', hp', hdone, hindex', _⟩ := hpassed.done host hhost
    obtain rfl := phase_unique (once_of_run hrun) hpassed hp' hmem hindex' hindex
    rw [PhaseDone] at hdone
    split at hdone
    · next hstage => simp [PhaseRun.Inside, hstage] at hin
    · exact hdone

end Started

/-- A calm step strands no worker. -/
theorem not_strands_of_calm {s : Rack} {a : RackAction} (h : Calm a) : ¬ RackStrands s a := by
  cases a with
  | run host i a =>
    cases a with
    | startRaises => exact h.elim
    | stopRaises => exact h.elim
    | _ => exact fun hc => hc
  | _ => exact fun hc => hc

/-- The second phase is over on the first host, and under way on the second one. -/
theorem fault_confined_example : ∃ (s : Rack) (p : PhaseRun) (manifest : Ingest.FaultManifest),
    (s.runners "a").workers = [] ∧ (s.runners "b").workers = [⟨1, false⟩] ∧
      AtWork (faultyJob "cpu_contention") s "b" p manifest := by
  obtain ⟨log, hsecond⟩ := reachable_secondPhase "cpu_contention"
  have hserved := @reachable_served _ _ _ _ _ _ [] [faultyPost "cpu_contention" "b" 1]
    (faultyPost "cpu_contention" "a" 1) 10 1 20 3 hsecond rfl (Nat.one_lt_two_pow (by omega))
  obtain ⟨s, hreach, ha, hb⟩ : ∃ s, Reachable (CalmStep (faultyJob "cpu_contention") hostConfig)
      (Rack.start (faultyJob "cpu_contention") (faultyStore "cpu_contention")) s ∧
      (s.runners "a").workers = [] ∧ (s.runners "b").workers = [⟨1, false⟩] :=
    ⟨_, reachable_run (hserved.snoc ⟨@RackStep.arrive _ _ _ [] []
      (faultyPost "cpu_contention" "b" 1) 10 1 rfl, trivial⟩)
      (@PhaseMove.startWorker (hostConfig "b") _ 0 rfl Nat.two_pos) trivial, rfl, rfl⟩
  obtain ⟨tr, hrun, hcalm⟩ := run_of_calm hreach
  have hw : (⟨1, false⟩ : Worker) ∈ (s.runners "b").workers := by simp [hb]
  obtain ⟨p, manifest, _, hwork⟩ := fault_confined (startJob_secondPhaseFault "cpu_contention")
    (fun row hrow => absurd hrow List.not_mem_nil) hrun
    (fun q hq => not_strands_of_calm (hcalm q hq)) hw rfl
  exact ⟨s, p, manifest, ha, hb, hwork⟩

/-! ### Faults of an unknown type -/

/-- A phase whose fault `apply_fault` refuses does not come to work. -/
def Refused (p : PhaseRun) : Prop :=
  match p.stage with
  | .entering _ | .failed => True
  | .working | .leaving _ => False
  | .left status | .reporting status _ _ | .reported status _ _ => status = .error

theorem refused_move {config : Config} {p p' : PhaseRun} {a : PhaseAction} {text : String}
    (herror : applyFault p.request.fault = .error text) (h : Refused p)
    (hmove : PhaseMove config p a p') : Refused p' := by
  rw [Refused] at h
  cases hmove with
  | startWorker _ _ => trivial
  | startRaises _ _ => rfl
  | yields hok _ =>
    rw [herror] at hok
    cases hok
  | unknownFault _ _ => rfl
  | worked hstage =>
    rw [hstage] at h
    exact h.elim
  | stop hstage =>
    rw [hstage] at h
    exact h.elim
  | stopRaises _ _ _ => rfl
  | joinRaises _ _ => rfl
  | clock hstage =>
    rw [hstage] at h
    exact h
  | report hstage _ =>
    rw [hstage] at h
    exact h
  | reportRaises _ => trivial

/-- In every run the phases with such a fault fail. -/
theorem refused_of_run {store : TSDBStore} {tr : List (Rack × RackAction)} {s : Rack}
    (hrun : Run (RackStep job config) (Rack.start job store) tr s) (host : String) :
    ∀ p ∈ (s.runners host).phases, ∀ text, applyFault p.request.fault = .error text →
      Refused p := by
  refine @runners_invariant job config (fun _ r => ∀ p ∈ r.phases, ∀ text,
    applyFault p.request.fault = .error text → Refused p) (fun _ _ => True)
    (fun _ p hp => absurd hp List.not_mem_nil) ?_ _ _ _ hrun (fun _ _ => trivial) host
  intro s a _ host b r' _ h hstep p' hp' text herror
  obtain ⟨j, hj⟩ := List.mem_iff_getElem?.mp hp'
  rcases getElem?_step hstep hj with ⟨_, hstage, _⟩ | ⟨hp, _⟩ | ⟨p, c, hp, _, hmove, _⟩
  · rw [Refused, hstage]
    trivial
  · exact h p' (List.mem_of_getElem? hp) text herror
  · rw [PhaseMove.request_eq hmove] at herror
    exact refused_move herror (h p (List.mem_of_getElem? hp) text herror) hmove

/-- The phase has failed on this host, and its node is not among those the phase is
ranked by. -/
structure FailedUnranked (job : Job) (config : String → Config) (s : Rack) (host : String) (k : ℕ) :
    Prop where
  failed : ∃ p ∈ (s.runners host).phases, p.request.phaseIndex = k ∧
    ∃ endTsNs endMonoNs, p.stage = .reported .error endTsNs endMonoNs
  unranked : ∀ durationNs, ((config host).nodeId, durationNs)
    ∉ (Api.durationsNs s.job.store job.jobId k).rows

/-- A phase that is behind has failed if it was refused. -/
theorem failedUnranked_of_refused {s : Rack} {host : String} {k : ℕ}
    (hbarred : Barred job config s) (hpassed : Passed job config s k)
    (hhost : host ∈ job.workloadHosts)
    (hrefused : ∀ p ∈ (s.runners host).phases, p.request.phaseIndex = k → Refused p) :
    FailedUnranked job config s host k where
  failed := by
    obtain ⟨row, _, p, hp, hdone, hindex, hrow⟩ := hpassed.done host hhost
    obtain ⟨status, endTsNs, endMonoNs, hstage, _⟩ := row_of_done hdone hrow
    have hstatus := hrefused p hp hindex
    rw [Refused, hstage] at hstatus
    rw [show status = .error from hstatus] at hstage
    exact ⟨p, hp, hindex, endTsNs, endMonoNs, hstage⟩
  unranked := by
    intro durationNs hmem
    rw [Api.durationsNs_rows, List.mem_map] at hmem
    obtain ⟨row, hrow, hentry⟩ := hmem
    rw [(List.perm_insertionSort _ _).mem_iff, okReports_phaseRowsOf, List.mem_filter] at hrow
    obtain ⟨host', hhost', hnode, p, hp, hdone, hindex, hevent⟩ := hbarred.exists_host hrow.1
    -- nodes are different, so this is the report of the same host
    obtain rfl : host = host' := by
      refine List.inj_on_of_nodup_map hpassed.nodup_nodes hhost hhost' ?_
      rw [← hnode]
      exact (congrArg Prod.fst hentry).symm
    obtain ⟨status, endTsNs, endMonoNs, hstage, hstatus, _⟩ := row_of_done hdone hevent
    have herror := hrefused p hp hindex
    rw [Refused, hstage] at herror
    rw [show status = .error from herror, of_decide_eq_true hrow.2] at hstatus
    simp [PhaseStatus.text] at hstatus

/-- If the type of a fault is unknown, the phase of the target fails; the job
completes all the same, and its ranking leaves the target out. -/
theorem failedUnranked_of_unknown {workloadHosts : List String} {jobId : String} {createdTsNs : ℤ}
    {before store : TSDBStore} {request : Api.StartJobRequest} {tr : List (Rack × RackAction)}
    {s : Rack}
    (hstart : Api.startJob workloadHosts jobId createdTsNs before request = .ok (store, job))
    (hfresh : ∀ row ∈ before.phaseEvents.rows, row.jobId ≠ jobId)
    (hrun : Run (RackStep job config) (Rack.start job store) tr s)
    (hcompleted : jobStatus s.job.store job.jobId = some .completed)
    {fault : Api.FaultManifestRequest} (hfault : request.fault = some fault)
    (hunknown : fault.faultType ≠ "cpu_contention" ∧ fault.faultType ≠ "io_stall") {k : ℕ}
    (hk : k < job.phaseCount) (hphase : fault.phaseIndex = k) :
    FailedUnranked job config s fault.targetHost k := by
  obtain ⟨haccepts, _⟩ := Api.startJob_ok hstart
  refine failedUnranked_of_refused (barred_of_startJob hstart hfresh hrun)
    (completed_passed hstart hfresh hrun hcompleted hk) ?_ fun p hp hindex => ?_
  · rw [haccepts.hosts]
    exact haccepts.target fault hfault
  · obtain ⟨j, _, hrequest⟩ := request_of_mem (barred_of_startJob hstart hfresh hrun) hp
    have hjk : (j : ℤ) = k := by
      rw [hrequest] at hindex
      exact hindex
    have hmanifest : job.faultManifest = some fault.modelDump := by
      rw [haccepts.faultManifest, hfault]
      rfl
    refine refused_of_run hrun _ p hp ("unknown fault_type: " ++ fault.faultType) ?_
    rw [hrequest, startPhaseRequest]
    simp only [hmanifest, faultForHost_target fault (hjk.trans hphase.symm), Option.map_some,
      applyFault, if_neg hunknown.1, if_neg hunknown.2]

/-- `start_job` does not look at the type of a fault: what it accepts with one type
it accepts with any.  In every run with a fault of an unknown type, of a phase the
job has, that completes, the target has failed and is not ranked. -/
theorem unknownFault_unranked {workloadHosts : List String} {jobId : String} {createdTsNs : ℤ}
    {before : TSDBStore} :
    (∀ (request : Api.StartJobRequest) (fault : Api.FaultManifestRequest) (faultType : String),
      (∃ store job, Api.startJob workloadHosts jobId createdTsNs before
        { request with fault := some fault } = .ok (store, job)) ↔
      ∃ store job, Api.startJob workloadHosts jobId createdTsNs before
        { request with fault := some { fault with faultType := faultType } } = .ok (store, job)) ∧
    ∀ (request : Api.StartJobRequest) (store : TSDBStore) (tr : List (Rack × RackAction)) (s : Rack)
      (fault : Api.FaultManifestRequest) (k : ℕ),
      Api.startJob workloadHosts jobId createdTsNs before request = .ok (store, job) →
      (∀ row ∈ before.phaseEvents.rows, row.jobId ≠ jobId) →
      Run (RackStep job config) (Rack.start job store) tr s →
      jobStatus s.job.store job.jobId = some .completed →
      request.fault = some fault →
      fault.faultType ≠ "cpu_contention" ∧ fault.faultType ≠ "io_stall" →
      k < job.phaseCount → fault.phaseIndex = k →
      FailedUnranked job config s fault.targetHost k := by
  constructor
  · intro request fault faultType
    exact Api.exists_startJob_faultType fault faultType
  · intro request store tr s fault k hstart hfresh hrun hcompleted hfault hunknown hk hphase
    exact failedUnranked_of_unknown hstart hfresh hrun hcompleted hfault hunknown hk hphase

/-- The second host fails its second phase. -/
theorem unknownFault_unranked_example : ∃ s : Rack,
    jobStatus s.job.store "j" = some .completed ∧
      (∀ faultType, ∃ store' job', Api.startJob ["a", "b"] "j" 0 .empty
        { phaseCount := 2, fault := some (secondPhaseFault faultType) } = .ok (store', job')) ∧
      FailedUnranked (faultyJob "reboot") hostConfig s "b" 1 := by
  obtain ⟨s, hreach, hcompleted, _⟩ := reachable_completed
  obtain ⟨tr, hrun, _⟩ := run_of_calm hreach
  have hunknown : "reboot" ≠ "cpu_contention" ∧ "reboot" ≠ "io_stall" := by simp
  obtain ⟨haccepted, hfailed⟩ :=
    @unknownFault_unranked (faultyJob "reboot") hostConfig ["a", "b"] "j" 0 .empty
  refine ⟨s, hcompleted, fun faultType => ?_, ?_⟩
  · exact (haccepted { phaseCount := 2 } (secondPhaseFault "reboot") faultType).mp
      ⟨_, _, startJob_secondPhaseFault "reboot"⟩
  · exact hfailed _ _ tr s (secondPhaseFault "reboot") 1 (startJob_secondPhaseFault "reboot")
      (fun row hrow => absurd hrow List.not_mem_nil) hrun hcompleted rfl hunknown Nat.one_lt_two rfl

end Fleet
