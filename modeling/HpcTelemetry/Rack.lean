/-
A job on the rack: the orchestrator, the runners, and the messages between them.

The orchestrator posts a phase to every host and polls the store; each runner
works its phases and reports them over TCP; the ingestion service stores what
arrives.  Posts and reports travel for any time and may be lost, and meanwhile
the service stores samples, runs other jobs and refreshes rollups.

* `RackStep` — one step of any of the parties;
* `Barred`, `barred_step` — the invariant: what is stored of the job are reports
  of its runners, and no phase is posted before those in front of it are behind;
* `passed_of_count` — as many reports as hosts are one report of each host;
* `global_barrier` — no runner is asked for a phase while another one still works
  an earlier one;
* `completed_passed` — what a completed job has left behind.
-/
import HpcTelemetry.FaultDispatch
import HpcTelemetry.PhaseRunner

namespace Fleet

open Ingest Workload Transitions

/-! ### The parties -/

/-- The body of a `POST /start_phase`, as the runner reads it. -/
def startPhaseRequest (request : DispatchRequest) : StartPhaseRequest :=
  { jobId := request.jobId
    phaseIndex := request.phaseIndex
    sieveLimit := request.sieveLimit
    fault := request.fault.map fun fault => ⟨fault.1, fault.2⟩ }

structure Rack where
  /-- The orchestrator and the store. -/
  job : JobRun
  /-- Posts that have not arrived. -/
  requests : List DispatchRequest
  runners : String → Runner
  /-- Reports that have not arrived. -/
  reports : List Wire.PhaseEvent

inductive RackAction where
  | orchestrate (a : JobAction)
  | arrive (request : DispatchRequest) (startTsNs startMonoNs : ℤ)
  | loseRequest (request : DispatchRequest)
  | run (host : String) (i : ℕ) (a : PhaseAction)
  | ingest (event : Wire.PhaseEvent)
  | loseReport (event : Wire.PhaseEvent)
  | other (store : TSDBStore)

/-- The steps of `execute_job` and its dispatches. -/
def FromOrchestrator : JobAction → Prop
  | .ingest _ _ => False
  | _ => True

/-- The posts a step of the orchestrator sends. -/
def posted : JobAction → List DispatchRequest
  | .dispatch request => [request]
  | _ => []

/-- The reports a step of a phase sends. -/
def sent (config : Config) (p : PhaseRun) : PhaseAction → List Wire.PhaseEvent
  | .report => (p.phaseEvent config).toList
  | _ => []

/-- The stored reports of the job. -/
def jobRows (job : Job) (store : TSDBStore) : List PhaseEventRow :=
  store.phaseEvents.rows.filter fun r => r.jobId = job.jobId

/-- What the rest of the service does leaves the job alone: nobody else knows its
id. -/
structure SameForJob (job : Job) (store store' : TSDBStore) : Prop where
  rows : jobRows job store' = jobRows job store
  status : jobStatus store' job.jobId = jobStatus store job.jobId

section Steps

variable (job : Job) (config : String → Config)

/-- One step of the orchestrator, of a runner, of the network, or of the
ingestion service. -/
inductive RackStep : Rack → RackAction → Rack → Prop where
  | orchestrate {s : Rack} {a : JobAction} {job' : JobRun} : FromOrchestrator a →
      JobStep job s.job a job' →
      RackStep s (.orchestrate a) { s with job := job', requests := s.requests ++ posted a }
  | arrive {s : Rack} {before after : List DispatchRequest} {request : DispatchRequest}
      {startTsNs startMonoNs : ℤ} : s.requests = before ++ request :: after →
      RackStep s (.arrive request startTsNs startMonoNs) { s with
        requests := before ++ after
        runners := Function.update s.runners request.host
          ((s.runners request.host).accept (config request.host) (startPhaseRequest request)
            startTsNs startMonoNs) }
  | loseRequest {s : Rack} {before after : List DispatchRequest} {request : DispatchRequest} :
      s.requests = before ++ request :: after →
      RackStep s (.loseRequest request) { s with requests := before ++ after }
  | run {s : Rack} {host : String} {i : ℕ} {p p' : PhaseRun} {a : PhaseAction} :
      (s.runners host).phases[i]? = some p → PhaseMove (config host) p a p' →
      RackStep s (.run host i a) { s with
        runners := Function.update s.runners host
          ⟨(s.runners host).phases.set i p', workersAfter i a (s.runners host).workers⟩
        reports := s.reports ++ sent (config host) p a }
  | ingest {s : Rack} {before after : List Wire.PhaseEvent} {event : Wire.PhaseEvent} :
      s.reports = before ++ event :: after →
      RackStep s (.ingest event) { s with
        job := { s.job with store := s.job.store.insertPhaseEvent (phaseEventRow event) }
        reports := before ++ after }
  | loseReport {s : Rack} {before after : List Wire.PhaseEvent} {event : Wire.PhaseEvent} :
      s.reports = before ++ event :: after →
      RackStep s (.loseReport event) { s with reports := before ++ after }
  | other {s : Rack} {store : TSDBStore} : SameForJob job s.job.store store →
      RackStep s (.other store) { s with job := { s.job with store := store } }

/-- The job is scheduled, and the runners have nothing of it. -/
def Rack.start (store : TSDBStore) : Rack := ⟨executeJob job store, [], fun _ => .start, []⟩

end Steps

/-! ### Counting reports -/

/-- The stored reports of one phase. -/
def phaseRowsOf (job : Job) (store : TSDBStore) (k : ℕ) : List PhaseEventRow :=
  (jobRows job store).filter fun r => r.phaseIndex = k

theorem phaseRowsOf_eq (job : Job) (store : TSDBStore) (k : ℕ) :
    phaseRowsOf job store k
      = store.phaseEvents.rows.filter fun r => r.jobId = job.jobId ∧ r.phaseIndex = k := by
  rw [phaseRowsOf, jobRows, List.filter_filter]
  refine List.filter_congr fun r _ => ?_
  rw [Bool.decide_and, Bool.and_comm]

theorem length_phaseRowsOf (job : Job) (store : TSDBStore) (k : ℕ) :
    (phaseRowsOf job store k).length = store.countPhaseReports job.jobId k := by
  rw [phaseRowsOf_eq, TSDBStore.countPhaseReports]

theorem nodup_phaseRowsOf (job : Job) (store : TSDBStore) (k : ℕ) :
    ((phaseRowsOf job store k).map PhaseEventRow.nodeId).Nodup := by
  rw [phaseRowsOf_eq]
  exact store.nodup_nodeIds job.jobId k

theorem SameForJob.count {job : Job} {store store' : TSDBStore} (h : SameForJob job store store')
    (k : ℕ) : store'.countPhaseReports job.jobId k = store.countPhaseReports job.jobId k := by
  rw [← length_phaseRowsOf, ← length_phaseRowsOf, phaseRowsOf, phaseRowsOf, h.rows]

/-- A stored report stays, and one that is stored now was stored before or is the
one that arrives. -/
theorem jobRows_insertPhaseEvent (job : Job) (store : TSDBStore) (row : PhaseEventRow) :
    jobRows job store <+: jobRows job (store.insertPhaseEvent row) ∧
      ∀ r ∈ jobRows job (store.insertPhaseEvent row), r ∈ jobRows job store ∨ r = row := by
  refine ⟨(store.insertPhaseEvent_rows_prefix row).filter _, fun r hr => ?_⟩
  obtain ⟨hrow, hjob⟩ := List.mem_filter.mp hr
  have hmem : r ∈ (store.phaseEvents.insertAll [row]).rows := hrow
  rcases KeyedTable.mem_rows_of_insertAll hmem with hold | hnew
  · exact .inl (List.mem_filter.mpr ⟨hold, hjob⟩)
  · exact .inr (List.mem_singleton.mp hnew)

theorem count_le_insertPhaseEvent (job : Job) (store : TSDBStore) (row : PhaseEventRow) (k : ℕ) :
    store.countPhaseReports job.jobId k
      ≤ (store.insertPhaseEvent row).countPhaseReports job.jobId k := by
  rw [← length_phaseRowsOf, ← length_phaseRowsOf]
  exact ((jobRows_insertPhaseEvent job store row).1.filter _).length_le

/-! ### The invariant -/

/-- The phase has written its report. -/
def PhaseDone (p : PhaseRun) : Prop :=
  match p.stage with
  | .reported _ _ _ => True
  | _ => False

section Invariant

variable (job : Job) (config : String → Config)

/-- The row is the report of a runner of the job. -/
def FromRunner (runners : String → Runner) (row : PhaseEventRow) : Prop :=
  ∃ host ∈ job.workloadHosts, ∃ p ∈ (runners host).phases, PhaseDone p ∧
    p.request.phaseIndex = row.phaseIndex ∧
    (p.phaseEvent (config host)).map phaseEventRow = some row

/-- A post of the job, for a phase whose turn has come. -/
structure Admitted (store : TSDBStore) (request : DispatchRequest) : Prop where
  dispatched : request ∈ dispatches job request.phaseIndex
  reached : Reached job store request.phaseIndex

/-- Where the orchestrator stands, the phases before have been reported often
enough. -/
structure Scheduled (s : JobRun) : Prop where
  waiting : ∀ request ∈ s.waiting, Admitted job s.store request
  dispatching : ∀ k, s.progress = .dispatching k → k < job.phaseCount ∧ Reached job s.store k
  polling : ∀ k deadline, s.progress = .polling k deadline →
    k < job.phaseCount ∧ Reached job s.store k
  completed : jobStatus s.store job.jobId = some .completed → Reached job s.store job.phaseCount

structure Barred (s : Rack) : Prop where
  stored : ∀ row ∈ jobRows job s.job.store, FromRunner job config s.runners row
  underway : ∀ event ∈ s.reports, FromRunner job config s.runners (phaseEventRow event)
  phases : ∀ host, ∀ p ∈ (s.runners host).phases, ∃ request,
    Admitted job s.job.store request ∧ request.host = host ∧ p.request = startPhaseRequest request
  requests : ∀ request ∈ s.requests, Admitted job s.job.store request
  scheduled : Scheduled job s.job

end Invariant

variable {job : Job} {config : String → Config}

theorem Admitted.mono {store store' : TSDBStore} {request : DispatchRequest}
    (h : Admitted job store request)
    (hcount : ∀ k, store.countPhaseReports job.jobId k ≤ store'.countPhaseReports job.jobId k) :
    Admitted job store' request := ⟨h.dispatched, h.reached.mono hcount⟩

theorem Admitted.host {store : TSDBStore} {request : DispatchRequest}
    (h : Admitted job store request) : request.host ∈ job.workloadHosts := by
  obtain ⟨host, hhost, hrequest⟩ := List.mem_map.mp h.dispatched
  rw [← hrequest]
  exact hhost

/-- The phases that are done stay, with their reports. -/
theorem FromRunner.mono {runners runners' : String → Runner} {row : PhaseEventRow}
    (h : FromRunner job config runners row)
    (hkeep : ∀ host, ∀ p ∈ (runners host).phases, PhaseDone p → p ∈ (runners' host).phases) :
    FromRunner job config runners' row := by
  obtain ⟨host, hhost, p, hp, hdone, hrow⟩ := h
  exact ⟨host, hhost, p, hkeep host p hp hdone, hdone, hrow⟩

/-- A phase that is done takes no more steps. -/
theorem not_phaseDone_of_move {config : Config} {p p' : PhaseRun} {a : PhaseAction}
    (h : PhaseMove config p a p') : ¬ PhaseDone p := by
  rw [PhaseDone]
  cases h with
  | startWorker hstage _ => rw [hstage]; exact fun hc => hc
  | startRaises hstage _ => rw [hstage]; exact fun hc => hc
  | yields _ hstage => rw [hstage]; exact fun hc => hc
  | unknownFault _ hstage => rw [hstage]; exact fun hc => hc
  | worked hstage => rw [hstage]; exact fun hc => hc
  | stop hstage => rw [hstage]; exact fun hc => hc
  | stopRaises hstage _ _ => rw [hstage]; exact fun hc => hc
  | joinRaises hstage _ => rw [hstage]; exact fun hc => hc
  | clock hstage => rw [hstage]; exact fun hc => hc
  | report hstage _ => rw [hstage]; exact fun hc => hc
  | reportRaises hstage => rw [hstage]; exact fun hc => hc

/-! ### The orchestrator -/

theorem Reached.of_phaseEvents {store store' : TSDBStore} {k : ℕ} (h : Reached job store k)
    (hsame : store'.phaseEvents = store.phaseEvents) : Reached job store' k := by
  intro j hj
  rw [TSDBStore.countPhaseReports, hsame]
  exact h j hj

/-- Scheduling survives what is stored meanwhile. -/
theorem Scheduled.mono {s : JobRun} {store : TSDBStore} (h : Scheduled job s)
    (hcount : ∀ k, s.store.countPhaseReports job.jobId k ≤ store.countPhaseReports job.jobId k)
    (hstatus : jobStatus store job.jobId = jobStatus s.store job.jobId) :
    Scheduled job { s with store := store } where
  waiting := fun request hr => (h.waiting request hr).mono hcount
  dispatching := fun k hp => ⟨(h.dispatching k hp).1, (h.dispatching k hp).2.mono hcount⟩
  polling := fun k deadline hp =>
    ⟨(h.polling k deadline hp).1, (h.polling k deadline hp).2.mono hcount⟩
  completed := fun hc => (h.completed (hstatus.symm.trans hc)).mono hcount

theorem scheduled_enterPhase {s : JobRun} {k : ℕ}
    (hwaiting : ∀ request ∈ s.waiting, Admitted job s.store request)
    (hreached : Reached job s.store k) (hle : k ≤ job.phaseCount)
    (hcompleted : jobStatus s.store job.jobId = some .completed →
      Reached job s.store job.phaseCount) : Scheduled job (enterPhase job k s) := by
  rw [enterPhase]
  by_cases hk : k < job.phaseCount
  · rw [if_pos hk]
    refine ⟨fun request hr => ?_, fun j hp => ?_, fun _ _ hp => (by cases hp), hcompleted⟩
    · obtain ⟨host, hhost, rfl⟩ := List.mem_map.mp hr
      exact ⟨hr, hreached⟩
    · injection hp with hp
      subst hp
      exact ⟨hk, hreached⟩
  · rw [if_neg hk]
    obtain rfl : k = job.phaseCount := by omega
    exact ⟨fun request hr => (hwaiting request hr).mono fun _ => le_rfl,
      fun _ hp => (by cases hp), fun _ _ hp => (by cases hp), fun _ => hreached⟩

/-- A step of the orchestrator stores no report, and posts phases whose turn has
come. -/
theorem scheduled_step {s s' : JobRun} {a : JobAction} (h : Scheduled job s)
    (hfrom : FromOrchestrator a) (hstep : JobStep job s a s') :
    Scheduled job s' ∧ s'.store.phaseEvents = s.store.phaseEvents ∧
      ∀ request ∈ posted a, Admitted job s.store request := by
  cases hstep with
  | @dispatch before after request hw =>
    have hadmitted : ∀ r, r ∈ before ++ request :: after → Admitted job s.store r := by
      rw [← hw]
      exact h.waiting
    refine ⟨⟨fun r hr => hadmitted r ?_, h.dispatching, h.polling, h.completed⟩, rfl,
      fun r hr => ?_⟩
    · rcases List.mem_append.mp hr with hr | hr
      · exact List.mem_append_left _ hr
      · exact List.mem_append_right _ (List.mem_cons_of_mem _ hr)
    · rw [posted, List.mem_singleton] at hr
      rw [hr]
      exact hadmitted request (List.mem_append_right _ List.mem_cons_self)
  | @settle before after request outcome hf =>
    refine ⟨⟨h.waiting, fun k hp => h.dispatching k ?_,
      fun k deadline hp => h.polling k deadline ?_, h.completed⟩, rfl,
      fun r hr => absurd hr List.not_mem_nil⟩
    · simp only at hp
      split_ifs at hp
      exact hp
    · simp only at hp
      split_ifs at hp
      exact hp
  | @gathered k now hp hw hf =>
    refine ⟨⟨h.waiting, fun _ hc => (by cases hc), fun j deadline hc => ?_, h.completed⟩, rfl,
      fun r hr => absurd hr List.not_mem_nil⟩
    injection hc with hj _
    subst hj
    exact h.dispatching k hp
  | @poll k deadline now hp =>
    obtain ⟨hk, hreached⟩ := h.polling k deadline hp
    refine ⟨?_, ?_, fun r hr => absurd hr List.not_mem_nil⟩
    · rw [pollPhase]
      simp only
      split_ifs with henough hearly
      · refine scheduled_enterPhase h.waiting (fun j hj => ?_) hk h.completed
        rcases Nat.lt_succ_iff_lt_or_eq.mp hj with hj | rfl
        · exact hreached j hj
        · exact henough
      · exact ⟨h.waiting, h.dispatching, h.polling, h.completed⟩
      · refine ⟨fun r hr => (h.waiting r hr).mono fun _ => le_rfl, fun _ hc => (by cases hc),
          fun _ _ hc => (by cases hc), fun hc => ?_⟩
        -- the job has timed out
        simp only [jobStatus_setJobStatus, Option.map_eq_some_iff] at hc
        obtain ⟨_, _, hc⟩ := hc
        cases hc
    · rw [pollPhase, enterPhase]
      simp only
      split_ifs <;> rfl
  | ingest => exact hfrom.elim

/-! ### The whole rack -/

theorem mem_of_mem_split {α : Type*} {before after : List α} {x y : α}
    (h : y ∈ before ++ after) : y ∈ before ++ x :: after := by
  rcases List.mem_append.mp h with h | h
  · exact List.mem_append_left _ h
  · exact List.mem_append_right _ (List.mem_cons_of_mem x h)

/-- A report carries what its phase was asked for. -/
theorem phaseEvent_spec {config : Config} {p : PhaseRun} {event : Wire.PhaseEvent}
    (h : p.phaseEvent config = some event) :
    event.jobId = p.request.jobId ∧ event.nodeId = config.nodeId ∧
      p.request.phaseIndex = event.phaseIndex := by
  rw [PhaseRun.phaseEvent] at h
  split at h
  · rw [reportPhaseEvent, Option.ite_none_right_eq_some, Option.some_inj] at h
    obtain ⟨⟨hnonneg, _⟩, rfl⟩ := h
    exact ⟨rfl, rfl, (Int.toNat_of_nonneg hnonneg).symm⟩
  · rw [reportPhaseEvent, Option.ite_none_right_eq_some, Option.some_inj] at h
    obtain ⟨⟨hnonneg, _⟩, rfl⟩ := h
    exact ⟨rfl, rfl, (Int.toNat_of_nonneg hnonneg).symm⟩
  · cases h

/-- The report that is sent is the report of the phase afterwards. -/
theorem sent_spec {config : Config} {p p' : PhaseRun} {a : PhaseAction}
    (h : PhaseMove config p a p') : ∀ event ∈ sent config p a,
      PhaseDone p' ∧ p'.phaseEvent config = some event := by
  intro event hevent
  cases h with
  | report hstage hsome =>
    rw [sent, Option.mem_toList] at hevent
    refine ⟨trivial, ?_⟩
    rw [← hevent, PhaseRun.phaseEvent, PhaseRun.phaseEvent, hstage]
  | _ => exact absurd hevent List.not_mem_nil

theorem PhaseMove.request_eq {config : Config} {p p' : PhaseRun} {a : PhaseAction}
    (h : PhaseMove config p a p') : p'.request = p.request := by
  cases h <;> rfl

/-- The phases of a host after a post has arrived. -/
theorem phases_arrive (runners : String → Runner) (host host' : String) (config : Config)
    (request : StartPhaseRequest) (startTsNs startMonoNs : ℤ) :
    (Function.update runners host ((runners host).accept config request startTsNs startMonoNs)
      host').phases = (runners host').phases ++ if host' = host then
        [⟨request, sieveLimit config request, startTsNs, startMonoNs, .entering 0⟩] else [] := by
  by_cases h : host' = host
  · subst h
    rw [Function.update_self, if_pos rfl]
    rfl
  · rw [Function.update_of_ne h, if_neg h, List.append_nil]

/-- The phases of a host after one of them has taken a step. -/
theorem mem_phases_run {runners : String → Runner} {host host' : String} {i : ℕ} {p' q : PhaseRun}
    {workers : List Worker}
    (hq : q ∈ (Function.update runners host
      ⟨(runners host).phases.set i p', workers⟩ host').phases) :
    q ∈ (runners host').phases ∨ host' = host ∧ q = p' := by
  by_cases h : host' = host
  · subst h
    rw [Function.update_self] at hq
    rcases List.mem_or_eq_of_mem_set hq with hq | hq
    · exact .inl hq
    · exact .inr ⟨rfl, hq⟩
  · rw [Function.update_of_ne h] at hq
    exact .inl hq

/-- A step of a phase keeps the phases that are done, and it becomes one of the
phases. -/
theorem phases_run {runners : String → Runner} {host : String} {i : ℕ} {p p' : PhaseRun}
    {config : Config} {a : PhaseAction} (workers : List Worker)
    (hp : (runners host).phases[i]? = some p) (hmove : PhaseMove config p a p') :
    p' ∈ (Function.update runners host ⟨(runners host).phases.set i p', workers⟩ host).phases ∧
    ∀ host', ∀ q ∈ (runners host').phases, PhaseDone q →
      q ∈ (Function.update runners host
        ⟨(runners host).phases.set i p', workers⟩ host').phases := by
  have hlt := (List.getElem?_eq_some_iff.mp hp).1
  constructor
  · rw [Function.update_self]
    exact List.mem_of_getElem? (List.getElem?_set_self hlt)
  · intro host' q hq hdone
    by_cases h : host' = host
    · subst h
      rw [Function.update_self]
      obtain ⟨j, hj⟩ := List.mem_iff_getElem?.mp hq
      refine List.mem_of_getElem? (i := j) ?_
      rw [← hj]
      refine List.getElem?_set_ne fun hij => ?_
      -- the phase that moves is not done
      subst hij
      obtain rfl : p = q := Option.some_inj.mp (hp.symm.trans hj)
      exact not_phaseDone_of_move hmove hdone
    · rw [Function.update_of_ne h]
      exact hq

theorem barred_start {store : TSDBStore} (hfresh : jobRows job store = [])
    (hstatus : jobStatus store job.jobId ≠ some .completed) :
    Barred job config (Rack.start job store) := by
  have hscheduled : Scheduled job (executeJob job store) :=
    scheduled_enterPhase (fun request hr => absurd hr List.not_mem_nil)
      (fun j hj => absurd hj (Nat.not_lt_zero j)) (Nat.zero_le _) fun hc => absurd hc hstatus
  refine ⟨fun row hrow => ?_, fun event he => absurd he List.not_mem_nil,
    fun host p hp => absurd hp List.not_mem_nil, fun request hr => absurd hr List.not_mem_nil,
    hscheduled⟩
  have hrows : jobRows job (executeJob job store).store = jobRows job store := by
    rw [executeJob, enterPhase]
    split_ifs <;> rfl
  rw [show (Rack.start job store).job = executeJob job store from rfl, hrows, hfresh] at hrow
  exact absurd hrow List.not_mem_nil

theorem barred_step {s s' : Rack} {a : RackAction} (h : Barred job config s)
    (hstep : RackStep job config s a s') : Barred job config s' := by
  cases hstep with
  | @orchestrate a job' hfrom hstep =>
    obtain ⟨hscheduled, hsame, hposted⟩ := scheduled_step h.scheduled hfrom hstep
    have hrows : jobRows job job'.store = jobRows job s.job.store := by rw [jobRows, hsame, jobRows]
    have hadmitted : ∀ request,
        Admitted job s.job.store request → Admitted job job'.store request :=
      fun request hr => ⟨hr.dispatched, Reached.of_phaseEvents hr.reached hsame⟩
    refine ⟨fun row hrow => h.stored row (hrows ▸ hrow), h.underway, fun host p hp => ?_,
      fun request hr => ?_, hscheduled⟩
    · obtain ⟨request, hr, hrest⟩ := h.phases host p hp
      exact ⟨request, hadmitted request hr, hrest⟩
    · rcases List.mem_append.mp hr with hr | hr
      · exact hadmitted request (h.requests request hr)
      · exact hadmitted request (hposted request hr)
  | @arrive before after request startTsNs startMonoNs hr =>
    have hadmitted : Admitted job s.job.store request :=
      h.requests request (hr ▸ List.mem_append_right _ List.mem_cons_self)
    have hkeep : ∀ host, ∀ p ∈ (s.runners host).phases, PhaseDone p →
        p ∈ (Function.update s.runners request.host ((s.runners request.host).accept
          (config request.host) (startPhaseRequest request) startTsNs
            startMonoNs) host).phases := by
      intro host p hp _
      rw [phases_arrive]
      exact List.mem_append_left _ hp
    refine ⟨fun row hrow => (h.stored row hrow).mono hkeep,
      fun event he => (h.underway event he).mono hkeep, fun host p hp => ?_,
      fun r hr' => h.requests r (hr ▸ mem_of_mem_split hr'), h.scheduled⟩
    rw [phases_arrive] at hp
    rcases List.mem_append.mp hp with hp | hp
    · exact h.phases host p hp
    · split_ifs at hp with hhost
      · rw [List.mem_singleton] at hp
        exact ⟨request, hadmitted, hhost.symm, by rw [hp]⟩
      · exact absurd hp List.not_mem_nil
  | loseRequest hr =>
    exact ⟨h.stored, h.underway, h.phases, fun r hr' => h.requests r (hr ▸ mem_of_mem_split hr'),
      h.scheduled⟩
  | @run host i p p' a hp hmove =>
    obtain ⟨hmem, hkeep⟩ := phases_run (workersAfter i a (s.runners host).workers) hp hmove
    obtain ⟨request, hadmitted, hhost, hrequest⟩ := h.phases host p (List.mem_of_getElem? hp)
    refine ⟨fun row hrow => (h.stored row hrow).mono hkeep, fun event he => ?_,
      fun host' q hq => ?_, h.requests, h.scheduled⟩
    · rcases List.mem_append.mp he with he | he
      · exact (h.underway event he).mono hkeep
      · obtain ⟨hdone, hevent⟩ := sent_spec hmove event he
        refine ⟨host, hhost ▸ hadmitted.host, p', hmem, hdone, (phaseEvent_spec hevent).2.2, ?_⟩
        rw [hevent]
        rfl
    · rcases mem_phases_run hq with hq | ⟨rfl, rfl⟩
      · exact h.phases host' q hq
      · exact ⟨request, hadmitted, hhost, (PhaseMove.request_eq hmove).trans hrequest⟩
  | @ingest before after event hr =>
    have hcount := count_le_insertPhaseEvent job s.job.store (phaseEventRow event)
    refine ⟨fun row hrow => ?_, fun e he => h.underway e (hr ▸ mem_of_mem_split he),
      fun host p hp => ?_, fun r hr' => (h.requests r hr').mono hcount,
      h.scheduled.mono hcount rfl⟩
    · rcases (jobRows_insertPhaseEvent job s.job.store (phaseEventRow event)).2 row hrow with
        hold | rfl
      · exact h.stored row hold
      · exact h.underway event (hr ▸ List.mem_append_right _ List.mem_cons_self)
    · obtain ⟨request, hadmitted, hrest⟩ := h.phases host p hp
      exact ⟨request, hadmitted.mono hcount, hrest⟩
  | loseReport hr =>
    exact ⟨h.stored, fun e he => h.underway e (hr ▸ mem_of_mem_split he), h.phases, h.requests,
      h.scheduled⟩
  | @other store hsame =>
    have hcount : ∀ k, s.job.store.countPhaseReports job.jobId k
        ≤ store.countPhaseReports job.jobId k := fun k => (hsame.count k).ge
    refine ⟨fun row hrow => h.stored row (hsame.rows ▸ hrow), h.underway, fun host p hp => ?_,
      fun r hr => (h.requests r hr).mono hcount, h.scheduled.mono hcount hsame.status⟩
    obtain ⟨request, hadmitted, hrest⟩ := h.phases host p hp
    exact ⟨request, hadmitted.mono hcount, hrest⟩

theorem barred_of_run {store : TSDBStore} (hfresh : jobRows job store = [])
    (hstatus : jobStatus store job.jobId ≠ some .completed)
    {tr : List (Rack × RackAction)} {s : Rack}
    (hrun : Run (RackStep job config) (Rack.start job store) tr s) : Barred job config s :=
  hrun.invariant (barred_start hfresh hstatus) fun _ _ _ h hstep => barred_step h hstep

/-! ### The barrier -/

/-- The host has done the phase, and this row is its report. -/
def DoneAs (config : String → Config) (s : Rack) (k : ℕ) (host : String) (row : PhaseEventRow) :
    Prop :=
  ∃ p ∈ (s.runners host).phases, PhaseDone p ∧ p.request.phaseIndex = k ∧
    (p.phaseEvent (config host)).map phaseEventRow = some row

/-- All hosts are through with the phase, and the store has one report of each. -/
structure Passed (job : Job) (config : String → Config) (s : Rack) (k : ℕ) : Prop where
  done : ∀ host ∈ job.workloadHosts, ∃ row ∈ phaseRowsOf job s.job.store k,
    DoneAs config s k host row
  nodes : ((phaseRowsOf job s.job.store k).map PhaseEventRow.nodeId).Perm
    (job.workloadHosts.map fun host => (config host).nodeId)

/-- Each stored report of a phase is the one of a host that has done it. -/
theorem Barred.exists_host {s : Rack} (h : Barred job config s) {k : ℕ} {row : PhaseEventRow}
    (hrow : row ∈ phaseRowsOf job s.job.store k) :
    ∃ host ∈ job.workloadHosts, row.nodeId = (config host).nodeId ∧ DoneAs config s k host row := by
  obtain ⟨hjob, hk⟩ := List.mem_filter.mp hrow
  obtain ⟨host, hhost, p, hp, hdone, hphase, hevent⟩ := h.stored row hjob
  rw [of_decide_eq_true hk] at hphase
  refine ⟨host, hhost, ?_, p, hp, hdone, hphase, hevent⟩
  obtain ⟨event, he, rfl⟩ := Option.map_eq_some_iff.mp hevent
  exact (phaseEvent_spec he).2.1

/-- Reports of one phase are from different nodes, so that as many of them as
there are hosts are one of each. -/
theorem passed_of_count {s : Rack} (h : Barred job config s) {k : ℕ}
    (hcount : job.workloadHosts.length ≤ s.job.store.countPhaseReports job.jobId k) :
    Passed job config s k := by
  classical
  rw [← length_phaseRowsOf] at hcount
  set rows := phaseRowsOf job s.job.store k with hrows
  have hcount : job.workloadHosts.length ≤ (rows.map PhaseEventRow.nodeId).length := by
    rw [List.length_map]
    exact hcount
  have hnodup : (rows.map PhaseEventRow.nodeId).Nodup := nodup_phaseRowsOf job s.job.store k
  set doing := job.workloadHosts.filter fun host => ∃ row ∈ rows, DoneAs config s k host row
    with hdoing
  -- every node that has reported is the node of a host that is through
  have hsub : rows.map PhaseEventRow.nodeId ⊆ doing.map fun host => (config host).nodeId := by
    intro nodeId hnode
    obtain ⟨row, hrow, rfl⟩ := List.mem_map.mp hnode
    obtain ⟨host, hhost, hid, hdone⟩ := h.exists_host hrow
    refine List.mem_map.mpr ⟨host, List.mem_filter.mpr ⟨hhost, ?_⟩, hid.symm⟩
    exact decide_eq_true ⟨row, hrow, hdone⟩
  have hlength : ∀ hosts : List String,
      (hosts.map fun host => (config host).nodeId).length = hosts.length :=
    fun _ => List.length_map _
  have hle := (List.subperm_of_subset hnodup hsub).length_le
  rw [hlength] at hle
  have hall : doing = job.workloadHosts :=
    List.filter_sublist.eq_of_length_le (hcount.trans hle)
  constructor
  case done =>
    intro host hhost
    rw [← hall] at hhost
    exact of_decide_eq_true (List.mem_filter.mp hhost).2
  case nodes =>
    rw [hall] at hsub
    refine (List.subperm_of_subset hnodup hsub).perm_of_length_le ?_
    rw [hlength]
    exact hcount

/-- A phase has only been posted once the earlier ones are behind. -/
theorem Barred.passed_of_later {s : Rack} (h : Barred job config s) {host : String} {p : PhaseRun}
    (hp : p ∈ (s.runners host).phases) {k : ℕ} (hk : (k : ℤ) < p.request.phaseIndex) :
    Passed job config s k := by
  obtain ⟨r, hadmitted, _, hrequest⟩ := h.phases host p hp
  rw [hrequest, startPhaseRequest, Nat.cast_lt] at hk
  exact passed_of_count h (hadmitted.reached k hk)

section Started

variable {workloadHosts : List String} {jobId : String} {createdTsNs : ℤ}
  {before store : TSDBStore} {request : Api.StartJobRequest} {tr : List (Rack × RackAction)}
  {s : Rack}

/-- A job that has just been accepted has no reports, if its id is new. -/
theorem barred_of_startJob
    (hstart : Api.startJob workloadHosts jobId createdTsNs before request = .ok (store, job))
    (hfresh : ∀ row ∈ before.phaseEvents.rows, row.jobId ≠ jobId)
    (hrun : Run (RackStep job config) (Rack.start job store) tr s) : Barred job config s := by
  obtain ⟨haccepts, hcreate⟩ := Api.startJob_ok hstart
  refine barred_of_run ?_ ?_ hrun
  · rw [TSDBStore.createJob] at hcreate
    split_ifs at hcreate
    injection hcreate with hcreate
    rw [jobRows, ← hcreate, List.filter_eq_nil_iff]
    intro row hrow hjob
    rw [decide_eq_true_iff, haccepts.jobId] at hjob
    exact hfresh row hrow hjob
  · rw [Api.jobStatus_startJob hstart]
    exact fun hc => (by cases hc)

/-- A barrier across the rack: in every run, whatever is lost or late, when a
runner has been asked for a phase, every host of the job is through with all the
phases before it, and has reported them. -/
theorem global_barrier
    (hstart : Api.startJob workloadHosts jobId createdTsNs before request = .ok (store, job))
    (hfresh : ∀ row ∈ before.phaseEvents.rows, row.jobId ≠ jobId)
    (hrun : Run (RackStep job config) (Rack.start job store) tr s) {host : String} {p : PhaseRun}
    (hp : p ∈ (s.runners host).phases) {k : ℕ} (hk : (k : ℤ) < p.request.phaseIndex) :
    Passed job config s k :=
  (barred_of_startJob hstart hfresh hrun).passed_of_later hp hk

/-- A completed job has all its phases behind it on every host. -/
theorem completed_passed
    (hstart : Api.startJob workloadHosts jobId createdTsNs before request = .ok (store, job))
    (hfresh : ∀ row ∈ before.phaseEvents.rows, row.jobId ≠ jobId)
    (hrun : Run (RackStep job config) (Rack.start job store) tr s)
    (hcompleted : jobStatus s.job.store job.jobId = some .completed) {k : ℕ}
    (hk : k < job.phaseCount) : Passed job config s k := by
  have h : Barred job config s := barred_of_startJob hstart hfresh hrun
  exact passed_of_count h (h.scheduled.completed hcompleted k hk)

end Started

/-! ### Undisturbed phases -/

/-- In this step no worker fails to start and no flag to be set. -/
def Calm : RackAction → Prop
  | .run _ _ .startRaises | .run _ _ .stopRaises => False
  | _ => True

variable (job config) in
def CalmStep (s : Rack) (a : RackAction) (s' : Rack) : Prop := RackStep job config s a s' ∧ Calm a

theorem run_of_calm {s₀ s : Rack} (h : Reachable (CalmStep job config) s₀ s) :
    ∃ tr, Run (RackStep job config) s₀ tr s ∧ ∀ q ∈ tr, Calm q.2 := by
  obtain ⟨tr, hrun⟩ := h
  induction hrun with
  | nil => exact ⟨[], .nil, fun q hq => absurd hq List.not_mem_nil⟩
  | snoc _ hstep ih =>
    obtain ⟨tr, hrun, hcalm⟩ := ih
    refine ⟨_, hrun.snoc hstep.1, ?_⟩
    rw [List.forall_mem_append, List.forall_mem_singleton]
    exact ⟨hcalm, hstep.2⟩

section Undisturbed

variable {s₀ : Rack} {s : JobRun} {requests : List DispatchRequest} {runners : String → Runner}
  {reports : List Wire.PhaseEvent}

/-- A step of the orchestrator. -/
theorem reachable_orchestrate {s' : JobRun} {a : JobAction}
    (h : Reachable (CalmStep job config) s₀ ⟨s, requests, runners, reports⟩)
    (hstep : JobStep job s a s') (hfrom : FromOrchestrator a) :
    Reachable (CalmStep job config) s₀ ⟨s', requests ++ posted a, runners, reports⟩ :=
  h.snoc ⟨.orchestrate hfrom hstep, trivial⟩

/-- A step of the last phase of a host. -/
theorem reachable_run {host : String} {phases : List PhaseRun} {p p' : PhaseRun}
    {workers : List Worker} {a : PhaseAction}
    (h : Reachable (CalmStep job config) s₀
      ⟨s, requests, Function.update runners host ⟨phases ++ [p], workers⟩, reports⟩)
    (hmove : PhaseMove (config host) p a p') (hcalm : Calm (.run host phases.length a)) :
    Reachable (CalmStep job config) s₀
      ⟨s, requests, Function.update runners host
        ⟨phases ++ [p'], workersAfter phases.length a workers⟩,
      reports ++ sent (config host) p a⟩ := by
  have hget : (Function.update runners host ⟨phases ++ [p], workers⟩ host).phases[phases.length]?
      = some p := by
    rw [Function.update_self]
    exact List.getElem?_concat_length
  have hnext := h.snoc ⟨.run hget hmove, hcalm⟩
  simp only [Function.update_self, Function.update_idem] at hnext
  rw [List.set_append_right _ _ le_rfl, Nat.sub_self] at hnext
  exact hnext

/-- A phase that is over is clocked and reported. -/
theorem reachable_reported {host : String} {phases : List PhaseRun} {p : PhaseRun}
    {workers : List Worker} {status : PhaseStatus} {event : Wire.PhaseEvent}
    (endTsNs endMonoNs : ℤ)
    (h : Reachable (CalmStep job config) s₀
      ⟨s, requests, Function.update runners host ⟨phases ++ [p], workers⟩, reports⟩)
    (hstage : p.stage = .left status)
    (hevent : ({ p with stage := .reporting status endTsNs endMonoNs } : PhaseRun).phaseEvent
      (config host) = some event) :
    Reachable (CalmStep job config) s₀
      ⟨s, requests, Function.update runners host
        ⟨phases ++ [{ p with stage := .reported status endTsNs endMonoNs }], workers⟩,
        reports ++ [event]⟩ := by
  have hreported := reachable_run
    (reachable_run h (@PhaseMove.clock _ _ status endTsNs endMonoNs hstage) trivial)
    (@PhaseMove.report _ _ status endTsNs endMonoNs rfl (by rw [hevent]; rfl)) trivial
  simp only [sent, workersAfter, List.append_nil] at hreported
  rw [hevent] at hreported
  exact hreported

theorem reportPhaseEvent_natCast {jobId nodeId status : String} {k : ℕ} (hk : k < 2 ^ 32)
    {startTsNs startMonoNs endTsNs endMonoNs : ℤ} :
    reportPhaseEvent jobId nodeId k startTsNs startMonoNs endTsNs endMonoNs status
      = some ⟨jobId, nodeId, k, startTsNs, startMonoNs, endTsNs, endMonoNs, status⟩ := by
  rw [reportPhaseEvent, if_pos ⟨Int.natCast_nonneg k, by exact_mod_cast hk⟩, Int.toNat_natCast]

/-- A post without a fault arrives; its phase ends well, and is reported. -/
theorem reachable_served {before after : List DispatchRequest} {request : DispatchRequest}
    (startTsNs startMonoNs endTsNs endMonoNs : ℤ)
    (h : Reachable (CalmStep job config) s₀ ⟨s, before ++ request :: after, runners, reports⟩)
    (hfault : request.fault = none) (hindex : request.phaseIndex < 2 ^ 32) :
    Reachable (CalmStep job config) s₀
      ⟨s, before ++ after, Function.update runners request.host
        ⟨(runners request.host).phases ++ [⟨startPhaseRequest request,
            sieveLimit (config request.host) (startPhaseRequest request), startTsNs, startMonoNs,
            .reported .ok endTsNs endMonoNs⟩],
          workersAfter (runners request.host).phases.length .stop (runners request.host).workers⟩,
        reports ++ [⟨request.jobId, (config request.host).nodeId, request.phaseIndex, startTsNs,
          startMonoNs, endTsNs, endMonoNs, "ok"⟩]⟩ := by
  have harrived := h.snoc ⟨@RackStep.arrive _ _ _ before after request startTsNs startMonoNs rfl,
    trivial⟩
  have hnone : (startPhaseRequest request).fault = none := by
    rw [startPhaseRequest, hfault]
    rfl
  have hyields : PhaseMove (config request.host)
      ⟨startPhaseRequest request, sieveLimit (config request.host) (startPhaseRequest request),
        startTsNs, startMonoNs, .entering 0⟩ .yields
      ⟨startPhaseRequest request, sieveLimit (config request.host) (startPhaseRequest request),
        startTsNs, startMonoNs, .working⟩ := by
    refine @PhaseMove.yields _ _ none ?_ ?_
    · rw [hnone]
      rfl
    · rw [hnone]
      rfl
  have hworked := reachable_run (reachable_run harrived hyields trivial)
    (@PhaseMove.worked _ _ false rfl) trivial
  have hstopped := reachable_run hworked (@PhaseMove.stop _ _ false rfl) trivial
  simp only [sent, List.append_nil] at hstopped
  exact reachable_reported endTsNs endMonoNs hstopped rfl
    (reportPhaseEvent_natCast hindex)

end Undisturbed

/-! ### Two phases on two hosts -/

/-- Each runner has its host as its node. -/
def hostConfig (host : String) : Config := { nodeId := host }

/-- The phases on two hosts, with a fault of this type in the second one of the
second host. -/
def faultyJob (faultType : String) : Job :=
  twoHostsJob (some (secondPhaseFault faultType).modelDump)

def faultyStore (faultType : String) : TSDBStore :=
  twoHostsStore (some (secondPhaseFault faultType).modelDump)

def faultyPost (faultType host : String) (k : ℕ) : DispatchRequest :=
  twoHostsPost (some (secondPhaseFault faultType).modelDump) host k

/-- A phase of it, at some stage. -/
def faultyPhase (faultType host : String) (k : ℕ) (stage : Stage) : PhaseRun :=
  ⟨startPhaseRequest (faultyPost faultType host k), 500000, 10, 1, stage⟩

def hostEvent (host : String) (k : ℕ) (endMonoNs : ℤ) (status : String) : Wire.PhaseEvent :=
  ⟨"j", host, k, 10, 1, 20, endMonoNs, status⟩

/-- The store after the first phase. -/
def firstReportsStore (faultType : String) : TSDBStore :=
  ((faultyStore faultType).insertPhaseEvent
    (phaseEventRow (hostEvent "b" 0 5 "ok"))).insertPhaseEvent
    (phaseEventRow (hostEvent "a" 0 2 "ok"))

/-- The runners after the first phase. -/
def firstPhaseRunners (faultType : String) : String → Runner :=
  Function.update (Function.update (fun _ => .start) "a"
    ⟨[faultyPhase faultType "a" 0 (.reported .ok 20 2)], []⟩) "b"
    ⟨[faultyPhase faultType "b" 0 (.reported .ok 20 5)], []⟩

/-- Both hosts have done their first phase, and the second one has been posted. -/
theorem reachable_secondPhase (faultType : String) : ∃ log,
    Reachable (CalmStep (faultyJob faultType) hostConfig)
      (Rack.start (faultyJob faultType) (faultyStore faultType))
      ⟨⟨firstReportsStore faultType, .dispatching 1, [],
          [faultyPost faultType "a" 1, faultyPost faultType "b" 1], log⟩,
        [faultyPost faultType "a" 1, faultyPost faultType "b" 1],
        firstPhaseRunners faultType, []⟩ := by
  have hstart : Reachable (CalmStep (faultyJob faultType) hostConfig)
    (Rack.start (faultyJob faultType) (faultyStore faultType)) _ := .refl
  have hposted := reachable_orchestrate (reachable_orchestrate hstart
    (@JobStep.dispatch _ _ [] [faultyPost faultType "b" 0] (faultyPost faultType "a" 0) rfl)
      trivial)
    (@JobStep.dispatch _ _ [] [] (faultyPost faultType "b" 0) rfl) trivial
  have hserved := @reachable_served _ _ _ _ _ _ [] [] (faultyPost faultType "b" 0) 10 1 20 5
    (@reachable_served _ _ _ _ _ _ [] [faultyPost faultType "b" 0] (faultyPost faultType "a" 0) 10
      1 20 2 hposted rfl (Nat.two_pow_pos 32)) rfl (Nat.two_pow_pos 32)
  -- the reports arrive the other way round
  have hstored := (hserved.snoc ⟨@RackStep.ingest _ _ _ [hostEvent "a" 0 2 "ok"] []
    (hostEvent "b" 0 5 "ok") rfl, trivial⟩).snoc
    ⟨@RackStep.ingest _ _ _ [] [] (hostEvent "a" 0 2 "ok") rfl, trivial⟩
  have hsettled := reachable_orchestrate (reachable_orchestrate hstored
    (@JobStep.settle _ _ [] [faultyPost faultType "b" 0] (faultyPost faultType "a" 0) .returned
      rfl) trivial)
    (@JobStep.settle _ _ [] [] (faultyPost faultType "b" 0) .returned rfl) trivial
  have hpolled := reachable_orchestrate (reachable_orchestrate hsettled
    (@JobStep.gathered _ _ 0 5 rfl rfl rfl) trivial)
    (@JobStep.poll _ _ 0 (5 + 30) 6 rfl) trivial
  have hsecond := reachable_orchestrate (reachable_orchestrate hpolled
    (@JobStep.dispatch _ _ [] [faultyPost faultType "b" 1] (faultyPost faultType "a" 1) rfl)
      trivial)
    (@JobStep.dispatch _ _ [] [] (faultyPost faultType "b" 1) rfl) trivial
  exact ⟨_, hsecond⟩

/-- One host is at its second phase, and the other one has not been asked for it. -/
theorem global_barrier_example : ∃ s : Rack,
    (s.runners "a").phases.map (·.request.phaseIndex) = [0, 1] ∧
      (s.runners "b").phases.map (·.request.phaseIndex) = [0] ∧
      Passed (faultyJob "io_stall") hostConfig s 0 := by
  obtain ⟨log, hsecond⟩ := reachable_secondPhase "io_stall"
  obtain ⟨s, hreach, ha, hb⟩ : ∃ s, Reachable (CalmStep (faultyJob "io_stall") hostConfig)
      (Rack.start (faultyJob "io_stall") (faultyStore "io_stall")) s ∧
      (s.runners "a").phases.map (·.request.phaseIndex) = [0, 1] ∧
      (s.runners "b").phases.map (·.request.phaseIndex) = [0] :=
    ⟨_, hsecond.snoc ⟨@RackStep.arrive _ _ _ [] [faultyPost "io_stall" "b" 1]
      (faultyPost "io_stall" "a" 1) 30 3 rfl, trivial⟩, rfl, rfl⟩
  obtain ⟨tr, hrun, _⟩ := run_of_calm hreach
  have hlater : (1 : ℤ) ∈ (s.runners "a").phases.map (·.request.phaseIndex) := by simp [ha]
  obtain ⟨p, hp, hindex⟩ := List.mem_map.mp hlater
  refine ⟨s, ha, hb, global_barrier (startJob_secondPhaseFault "io_stall") ?_ hrun hp ?_⟩
  · exact fun row hrow => absurd hrow List.not_mem_nil
  · rw [hindex]
    exact Int.one_pos

end Fleet
