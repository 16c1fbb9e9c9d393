/-
The phase barrier and the terminal status of a job.

The invariant ties the orchestrator's place in its loop to the store and to the
log (`JobInv`): a phase is only entered when all earlier ones have been reported
by enough nodes, and these reports stay in the store whatever is ingested later.

* `jobInv_step`, `jobInv_of_run` — the invariant holds in every run whose
  dispatches return or fail with an `httpx.HTTPError`;
* `remaining_step` — every step of the orchestrator that is not a poll before
  the deadline brings its end nearer;
* `phase_barrier` — the barrier, the outcome, and the one change of the status.
-/
import HpcTelemetry.Jobs

namespace Ingest

open Transitions

variable {job : Job}

/-- Every phase before `phaseIndex` has been reported by enough nodes. -/
def Reached (job : Job) (store : TSDBStore) (phaseIndex : ℕ) : Prop :=
  ∀ j < phaseIndex, job.workloadHosts.length ≤ store.countPhaseReports job.jobId j

theorem Reached.mono {store store' : TSDBStore} {phaseIndex : ℕ}
    (h : Reached job store phaseIndex)
    (hcount : ∀ j, store.countPhaseReports job.jobId j ≤ store'.countPhaseReports job.jobId j) :
    Reached job store' phaseIndex := fun j hj => (h j hj).trans (hcount j)

/-- The job is in phase `phaseIndex`. -/
structure InPhase (job : Job) (s : JobRun) (phaseIndex : ℕ) : Prop where
  lt : phaseIndex < job.phaseCount
  status : jobStatus s.store job.jobId = some .running
  reached : Reached job s.store phaseIndex
  polls : ∀ j < phaseIndex, PollReached job s.log j
  /-- Nothing later has been polled or dispatched. -/
  unpolled : ∀ j, phaseIndex < j → lastPoll s.log j = none
  undispatched : ∀ request, .dispatched request ∈ s.log → request.phaseIndex ≤ phaseIndex
  inFlight : ∀ request ∈ s.inFlight, request.phaseIndex = phaseIndex

/-- The job has ended with all phases reported. -/
structure EndedCompleted (job : Job) (s : JobRun) : Prop where
  status : jobStatus s.store job.jobId = some .completed
  reached : Reached job s.store job.phaseCount
  polls : ∀ j < job.phaseCount, PollReached job s.log j

/-- The job has ended in the first phase whose last poll did not reach the
count, and nothing was dispatched after it. -/
structure EndedTimedOut (job : Job) (s : JobRun) (phaseIndex : ℕ) : Prop where
  status : jobStatus s.store job.jobId = some .timedOut
  lt : phaseIndex < job.phaseCount
  polls : ∀ j < phaseIndex, PollReached job s.log j
  failed : ¬ PollReached job s.log phaseIndex
  undispatched : ∀ request, .dispatched request ∈ s.log → request.phaseIndex ≤ phaseIndex

/-- The invariant of a run. -/
def JobInv (job : Job) (s : JobRun) : Prop :=
  match s.progress with
  | .dispatching k => InPhase job s k ∧ lastPoll s.log k = none ∧
      ∀ request ∈ s.waiting, request.phaseIndex = k
  | .polling k _ => InPhase job s k ∧ ¬ PollReached job s.log k ∧ s.waiting = [] ∧ s.inFlight = []
  | .ended => s.waiting = [] ∧ s.inFlight = [] ∧
      (EndedCompleted job s ∨ ∃ k, EndedTimedOut job s k)
  | .raised => False

/-- Only in `asyncio.gather` are there dispatches that are not done. -/
theorem JobInv.dispatching {s : JobRun} (h : JobInv job s)
    (hbusy : s.waiting ≠ [] ∨ s.inFlight ≠ []) :
    ∃ k, s.progress = .dispatching k ∧ InPhase job s k ∧ lastPoll s.log k = none ∧
      ∀ request ∈ s.waiting, request.phaseIndex = k := by
  rw [JobInv] at h
  cases hp : s.progress with
  | dispatching k =>
    rw [hp] at h
    exact ⟨k, rfl, h⟩
  | polling k deadline =>
    rw [hp] at h
    obtain ⟨_, _, hwaiting, hinFlight⟩ := h
    exact absurd hbusy (by simp [hwaiting, hinFlight])
  | ended =>
    rw [hp] at h
    obtain ⟨hwaiting, hinFlight, _⟩ := h
    exact absurd hbusy (by simp [hwaiting, hinFlight])
  | raised =>
    rw [hp] at h
    exact h.elim

theorem not_pollReached_of_none {log : List JobLogEntry} {k : ℕ} (h : lastPoll log k = none) :
    ¬ PollReached job log k := by
  rintro ⟨count, hcount, _⟩
  rw [h] at hcount
  cases hcount

/-- Entering a phase, with the earlier ones behind. -/
theorem jobInv_enterPhase {s : JobRun} {k : ℕ}
    (hstatus : jobStatus s.store job.jobId = some .running)
    (hreached : Reached job s.store k) (hpolls : ∀ j < k, PollReached job s.log j)
    (hunpolled : ∀ j, k ≤ j → lastPoll s.log j = none)
    (hundispatched : ∀ request, .dispatched request ∈ s.log → request.phaseIndex ≤ k)
    (hwaiting : s.waiting = []) (hinFlight : s.inFlight = []) (hle : k ≤ job.phaseCount) :
    JobInv job (enterPhase job k s) := by
  rw [enterPhase]
  by_cases hk : k < job.phaseCount
  · rw [if_pos hk]
    refine ⟨⟨hk, hstatus, hreached, hpolls, fun j hj => hunpolled j hj.le, hundispatched, ?_⟩,
      hunpolled k le_rfl, ?_⟩
    · rw [hinFlight]
      exact fun request hr => absurd hr List.not_mem_nil
    · intro request hr
      obtain ⟨host, _, rfl⟩ := List.mem_map.mp hr
      rfl
  · rw [if_neg hk]
    obtain rfl : k = job.phaseCount := by omega
    refine ⟨hwaiting, hinFlight, Or.inl ⟨?_, hreached, hpolls⟩⟩
    show jobStatus (s.store.setJobStatus _ _) _ = _
    rw [jobStatus_setJobStatus, hstatus]
    rfl

theorem jobInv_executeJob {store : TSDBStore}
    (hstatus : jobStatus store job.jobId = some .running) : JobInv job (executeJob job store) := by
  refine jobInv_enterPhase hstatus ?_ ?_ ?_ ?_ rfl rfl (Nat.zero_le _)
  · exact fun j hj => absurd hj (Nat.not_lt_zero j)
  · exact fun j hj => absurd hj (Nat.not_lt_zero j)
  · exact fun j _ => rfl
  · exact fun request hr => absurd hr List.not_mem_nil

/-- A poll either finds enough reports and enters the next phase, or goes on
waiting, or ends the job. -/
theorem jobInv_pollPhase {s : JobRun} {k : ℕ} {deadline : ℚ} (now : ℚ)
    (hp : s.progress = .polling k deadline) (h : JobInv job s) :
    JobInv job (pollPhase job k deadline now s) := by
  rw [JobInv, hp] at h
  obtain ⟨hphase, hnot, hwaiting, hinFlight⟩ := h
  set count := s.store.countPhaseReports job.jobId k with hcount
  have hlast : ∀ j, lastPoll (s.log ++ [.polled k count]) j
      = if k = j then some count else lastPoll s.log j := lastPoll_polled s.log k count
  have hpolls : ∀ j < k, PollReached job (s.log ++ [.polled k count]) j := by
    intro j hj
    rw [PollReached, hlast, if_neg (by omega)]
    exact hphase.polls j hj
  have hunpolled : ∀ j, k < j → lastPoll (s.log ++ [.polled k count]) j = none := by
    intro j hj
    rw [hlast, if_neg (by omega)]
    exact hphase.unpolled j hj
  have hundispatched : ∀ request, .dispatched request ∈ s.log ++ [.polled k count] →
      request.phaseIndex ≤ k := by
    intro request hr
    rcases List.mem_append.mp hr with hr | hr
    · exact hphase.undispatched request hr
    · rw [List.mem_singleton] at hr
      cases hr
  rw [pollPhase]
  simp only [← hcount]
  by_cases henough : count ≥ job.workloadHosts.length
  · -- this poll is the evidence that the phase is behind
    rw [if_pos henough]
    refine jobInv_enterPhase hphase.status ?_ ?_ ?_ ?_ hwaiting hinFlight hphase.lt
    · intro j hj
      rcases Nat.lt_succ_iff_lt_or_eq.mp hj with hj | rfl
      · exact hphase.reached j hj
      · exact henough
    · intro j hj
      rcases Nat.lt_succ_iff_lt_or_eq.mp hj with hj | rfl
      · exact hpolls j hj
      · exact ⟨count, by rw [hlast, if_pos rfl], henough⟩
    · exact fun j hj => hunpolled j hj
    · exact fun request hr => (hundispatched request hr).trans (Nat.le_succ k)
  · have hfailed : ¬ PollReached job (s.log ++ [.polled k count]) k := by
      rintro ⟨c, hc, hle⟩
      rw [hlast, if_pos rfl, Option.some_inj] at hc
      exact henough (hc ▸ hle)
    rw [if_neg henough]
    by_cases hearly : now < deadline
    · -- the job goes on polling, with one poll more in the log
      rw [if_pos hearly, JobInv]
      simp only [hp]
      exact ⟨⟨hphase.lt, hphase.status, hphase.reached, hpolls, hunpolled, hundispatched,
        hphase.inFlight⟩, hfailed, hwaiting, hinFlight⟩
    · rw [if_neg hearly]
      refine ⟨hwaiting, hinFlight, Or.inr ⟨k, ⟨?_, hphase.lt, hpolls, hfailed, hundispatched⟩⟩⟩
      show jobStatus (s.store.setJobStatus _ _) _ = _
      rw [jobStatus_setJobStatus, hphase.status]
      rfl

/-- A dispatch that ends in no other exception than an `httpx.HTTPError`. -/
def Caught (a : JobAction) : Prop := ∀ request, a ≠ .settle request .raised

/-- What is ingested adds reports and touches no job. -/
theorem jobInv_ingest {s : JobRun} (srows : List SampleRow) (prows : List PhaseEventRow)
    (h : JobInv job s) : JobInv job { s with store := s.store.insertRows srows prows } := by
  -- of all that is known, only the counts depend on the reports, and they grow
  have hcount := fun j => countPhaseReports_le_insertRows s.store srows prows job.jobId j
  rw [JobInv] at h ⊢
  cases hp : s.progress with
  | dispatching k =>
    rw [hp] at h
    obtain ⟨hphase, hnone, hwaiting⟩ := h
    exact ⟨⟨hphase.lt, hphase.status, hphase.reached.mono hcount, hphase.polls, hphase.unpolled,
      hphase.undispatched, hphase.inFlight⟩, hnone, hwaiting⟩
  | polling k deadline =>
    rw [hp] at h
    obtain ⟨hphase, hnot, hwaiting, hinFlight⟩ := h
    exact ⟨⟨hphase.lt, hphase.status, hphase.reached.mono hcount, hphase.polls, hphase.unpolled,
      hphase.undispatched, hphase.inFlight⟩, hnot, hwaiting, hinFlight⟩
  | ended =>
    rw [hp] at h
    obtain ⟨hwaiting, hinFlight, hdone | ⟨k, hfailed⟩⟩ := h
    · exact ⟨hwaiting, hinFlight, Or.inl ⟨hdone.status, hdone.reached.mono hcount, hdone.polls⟩⟩
    · exact ⟨hwaiting, hinFlight, Or.inr ⟨k, ⟨hfailed.status, hfailed.lt, hfailed.polls,
        hfailed.failed, hfailed.undispatched⟩⟩⟩
  | raised =>
    rw [hp] at h
    exact h

theorem jobInv_step {s s' : JobRun} {a : JobAction} (h : JobInv job s) (ha : Caught a)
    (hstep : JobStep job s a s') : JobInv job s' := by
  cases hstep with
  | @dispatch before after request hw =>
    obtain ⟨k, hp, hphase, hnone, hwaiting⟩ := h.dispatching (Or.inl (by simp [hw]))
    have hk : request.phaseIndex = k := hwaiting request (by simp [hw])
    rw [JobInv]
    simp only [hp]
    refine ⟨⟨hphase.lt, hphase.status, hphase.reached, ?_, ?_, ?_, ?_⟩, ?_, ?_⟩
    · intro j hj
      rw [PollReached, lastPoll_dispatched]
      exact hphase.polls j hj
    · intro j hj
      rw [lastPoll_dispatched]
      exact hphase.unpolled j hj
    · -- the new dispatch is of this phase, like those before
      intro r hr
      rcases List.mem_append.mp hr with hr | hr
      · exact hphase.undispatched r hr
      · rw [List.mem_singleton] at hr
        injection hr with hr
        rw [hr, hk]
    · intro r hr
      rcases List.mem_append.mp hr with hr | hr
      · exact hphase.inFlight r hr
      · rw [List.mem_singleton.mp hr, hk]
    · rw [lastPoll_dispatched]
      exact hnone
    · intro r hr
      refine hwaiting r ?_
      rw [hw]
      exact List.mem_append.mpr ((List.mem_append.mp hr).imp_right (List.mem_cons_of_mem _))
  | @settle before after request outcome hf =>
    have hraised : outcome ≠ .raised := fun hc => ha request (by rw [hc])
    obtain ⟨k, hp, hphase, hnone, hwaiting⟩ := h.dispatching (Or.inr (by simp [hf]))
    rw [JobInv]
    simp only [if_neg hraised, hp]
    refine ⟨⟨hphase.lt, hphase.status, hphase.reached, hphase.polls, hphase.unpolled,
      hphase.undispatched, fun r hr => hphase.inFlight r ?_⟩, hnone, hwaiting⟩
    rw [hf]
    exact List.mem_append.mpr ((List.mem_append.mp hr).imp_right (List.mem_cons_of_mem _))
  | @gathered k now hp hw hf =>
    rw [JobInv, hp] at h
    obtain ⟨hphase, hnone, _⟩ := h
    exact ⟨⟨hphase.lt, hphase.status, hphase.reached, hphase.polls, hphase.unpolled,
      hphase.undispatched, hphase.inFlight⟩, not_pollReached_of_none hnone, hw, hf⟩
  | @poll k deadline now hp => exact jobInv_pollPhase now hp h
  | ingest => exact jobInv_ingest _ _ h

theorem jobInv_of_run {store : TSDBStore} (hstatus : jobStatus store job.jobId = some .running)
    {tr : List (JobRun × JobAction)} {s : JobRun}
    (hrun : Run (JobStep job) (executeJob job store) tr s) (hcaught : ∀ p ∈ tr, Caught p.2) :
    JobInv job s :=
  hrun.invariant_of_guard (jobInv_executeJob hstatus)
    (fun _ _ _ h ha hstep => jobInv_step h ha hstep) hcaught

theorem JobInv.reached_of_completed {s : JobRun} (h : JobInv job s)
    (hstatus : jobStatus s.store job.jobId = some .completed) :
    Reached job s.store job.phaseCount := by
  rw [JobInv] at h
  cases hp : s.progress with
  | dispatching k =>
    rw [hp] at h
    rw [h.1.status] at hstatus
    cases hstatus
  | polling k deadline =>
    rw [hp] at h
    rw [h.1.status] at hstatus
    cases hstatus
  | ended =>
    rw [hp] at h
    obtain ⟨_, _, hdone | ⟨k, hfailed⟩⟩ := h
    · exact hdone.reached
    · rw [hfailed.status] at hstatus
      cases hstatus
  | raised =>
    rw [hp] at h
    exact h.elim

/-! ### The orchestrator ends -/

/-- The steps the orchestrator and its dispatches have to take until the end, not
counting polls that go on waiting. -/
def remaining (job : Job) (s : JobRun) : ℕ :=
  match s.progress with
  | .dispatching k => (job.phaseCount - (k + 1)) * (2 * job.workloadHosts.length + 2) +
      (2 * s.waiting.length + s.inFlight.length + 2)
  | .polling k _ => (job.phaseCount - (k + 1)) * (2 * job.workloadHosts.length + 2) + 1
  | .ended | .raised => 0

/-- A step of the orchestrator or a dispatch, other than a poll that goes on
waiting because the deadline has not passed. -/
def progresses (job : Job) (p : JobRun × JobAction) : Bool :=
  match p.2 with
  | .ingest _ _ => false
  | .poll now =>
    match p.1.progress with
    | .polling k deadline =>
      job.workloadHosts.length ≤ p.1.store.countPhaseReports job.jobId k ∨ deadline ≤ now
    | _ => true
  | _ => true

theorem remaining_enterPhase (job : Job) (s : JobRun) (hinFlight : s.inFlight = []) {k : ℕ}
    (hk : k < job.phaseCount) :
    remaining job (enterPhase job (k + 1) s)
      = (job.phaseCount - (k + 1)) * (2 * job.workloadHosts.length + 2) := by
  rw [enterPhase]
  by_cases hnext : k + 1 < job.phaseCount
  · rw [if_pos hnext, remaining]
    have hlen : (dispatches job (k + 1)).length = job.workloadHosts.length := List.length_map ..
    simp only [hlen, hinFlight, List.length_nil]
    obtain ⟨m, hm⟩ : ∃ m, job.phaseCount - (k + 1) = m + 1 :=
      ⟨job.phaseCount - (k + 1) - 1, by omega⟩
    have hm' : job.phaseCount - (k + 1 + 1) = m := by omega
    rw [hm, hm', Nat.add_mul m 1, Nat.one_mul]
  · rw [if_neg hnext, show job.phaseCount - (k + 1) = 0 by omega, Nat.zero_mul]
    rfl

/-- Each such step brings the end nearer, and no other step defers it. -/
theorem remaining_step {s s' : JobRun} {a : JobAction} (h : JobInv job s) (ha : Caught a)
    (hstep : JobStep job s a s') :
    remaining job s' + (if progresses job (s, a) then 1 else 0) ≤ remaining job s := by
  cases hstep with
  | @dispatch before after request hw =>
    obtain ⟨k, hp, _⟩ := h.dispatching (Or.inl (by simp [hw]))
    simp only [remaining, hp, progresses, hw, List.length_append, List.length_cons,
      List.length_nil, if_true]
    omega
  | @settle before after request outcome hf =>
    have hraised : outcome ≠ .raised := fun hc => ha request (by rw [hc])
    obtain ⟨k, hp, _⟩ := h.dispatching (Or.inr (by simp [hf]))
    simp only [remaining, hp, progresses, hf, List.length_append, List.length_cons, if_true,
      if_neg hraised]
    omega
  | @gathered k now hp hw hf =>
    simp only [remaining, hp, progresses, hw, hf, List.length_nil, if_true]
    omega
  | @poll k deadline now hp =>
    rw [JobInv, hp] at h
    obtain ⟨hphase, _, hwaiting, hinFlight⟩ := h
    -- the last step of a phase: what is left is that of the phases to come
    have hs : remaining job s
        = (job.phaseCount - (k + 1)) * (2 * job.workloadHosts.length + 2) + 1 := by
      simp only [remaining, hp]
    have hnext := remaining_enterPhase job
      { s with log := s.log ++ [.polled k (s.store.countPhaseReports job.jobId k)] }
      hinFlight hphase.lt
    rw [hs, pollPhase]
    simp only [progresses, hp, decide_eq_true_eq] at hnext ⊢
    by_cases henough : job.workloadHosts.length ≤ s.store.countPhaseReports job.jobId k
    · rw [if_pos henough, if_pos (Or.inl henough), hnext]
    · rw [if_neg henough]
      by_cases hearly : now < deadline
      · have hwaits : ¬ (job.workloadHosts.length ≤ s.store.countPhaseReports job.jobId k ∨
            deadline ≤ now) := not_or.mpr ⟨henough, not_le.mpr hearly⟩
        rw [if_pos hearly, if_neg hwaits]
        simp only [remaining, Nat.add_zero]
        exact le_rfl
      · rw [if_neg hearly, if_pos (Or.inr (not_lt.mp hearly))]
        simp only [remaining]
        omega
  | ingest => exact le_rfl

theorem remaining_executeJob (job : Job) (store : TSDBStore) :
    remaining job (executeJob job store) =
      job.phaseCount * (2 * job.workloadHosts.length + 2) := by
  rw [executeJob, enterPhase]
  by_cases hpos : 0 < job.phaseCount
  · have hlen : (dispatches job 0).length = job.workloadHosts.length := List.length_map ..
    obtain ⟨m, hm⟩ : ∃ m, job.phaseCount = m + 1 := ⟨job.phaseCount - 1, by omega⟩
    rw [if_pos hpos, remaining]
    simp only [hlen, hm, List.length_nil]
    rw [Nat.add_mul m 1, Nat.one_mul]
    rfl
  · rw [if_neg hpos, Nat.eq_zero_of_not_pos hpos, Nat.zero_mul]
    rfl

/-- As long as the job has not ended, some step of the orchestrator or of a
dispatch is possible. -/
theorem exists_step {s : JobRun} (h : JobInv job s) (hp : s.progress ≠ .ended) :
    ∃ a s', (∀ srows prows, a ≠ .ingest srows prows) ∧ Caught a ∧ JobStep job s a s' := by
  cases hprogress : s.progress with
  | dispatching k =>
    cases hw : s.waiting with
    | cons request after =>
      exact ⟨.dispatch request, _, fun _ _ hc => (by cases hc), fun _ hc => (by cases hc),
        @JobStep.dispatch job s [] after request hw⟩
    | nil =>
      cases hf : s.inFlight with
      | cons request after =>
        exact ⟨.settle request .returned, _, fun _ _ hc => (by cases hc),
          fun _ hc => (by cases hc), @JobStep.settle job s [] after request .returned hf⟩
      | nil =>
        exact ⟨.gathered 0, _, fun _ _ hc => (by cases hc), fun _ hc => (by cases hc),
          .gathered hprogress hw hf⟩
  | polling k deadline =>
    exact ⟨.poll deadline, _, fun _ _ hc => (by cases hc), fun _ hc => (by cases hc),
      .poll hprogress⟩
  | ended => exact absurd hprogress hp
  | raised =>
    rw [JobInv, hprogress] at h
    exact h.elim

/-! ### The status -/

/-- How often a list of values changes from one entry to the next. -/
def changes {α : Type*} [DecidableEq α] : List α → ℕ
  | a :: b :: l => (if a = b then 0 else 1) + changes (b :: l)
  | _ => 0

theorem changes_concat {α : Type*} [DecidableEq α] (l : List α) (a b : α) :
    changes (l ++ [a] ++ [b]) = changes (l ++ [a]) + (if a = b then 0 else 1) := by
  induction l with
  | nil => simp [changes]
  | cons x l ih =>
    cases l with
    | nil => simp [changes]
    | cons y l =>
      show (if x = y then 0 else 1) + changes (y :: l ++ [a] ++ [b]) =
        (if x = y then 0 else 1) + changes (y :: l ++ [a]) + _
      rw [ih]
      omega

/-- A step leaves the status alone or moves it away from running. -/
theorem status_step {s s' : JobRun} {a : JobAction} (h : JobInv job s)
    (hstep : JobStep job s a s') :
    jobStatus s.store job.jobId = jobStatus s'.store job.jobId ∨
      jobStatus s.store job.jobId = some .running ∧
        jobStatus s'.store job.jobId ≠ some .running := by
  cases hstep with
  | dispatch _ => exact Or.inl rfl
  | settle _ => exact Or.inl rfl
  | gathered _ _ _ => exact Or.inl rfl
  | ingest => exact Or.inl rfl
  | @poll k deadline now hp =>
    rw [JobInv, hp] at h
    have hset : ∀ status, jobStatus (s.store.setJobStatus job.jobId status) job.jobId
        = some status := by
      intro status
      rw [jobStatus_setJobStatus, h.1.status]
      rfl
    rw [pollPhase]
    simp only
    split_ifs with henough hearly
    · rw [enterPhase]
      split_ifs with hnext
      · exact Or.inl rfl
      · refine Or.inr ⟨h.1.status, ?_⟩
        rw [hset]
        decide
    · exact Or.inl rfl
    · refine Or.inr ⟨h.1.status, ?_⟩
      rw [hset]
      decide

/-! ### The barrier -/

/-- What holds of a run of `execute_job` that leads to `s`. -/
structure PhaseBarrier (job : Job) (tr : List (JobRun × JobAction)) (s : JobRun) : Prop where
  /-- When a dispatch is issued, enough nodes have reported every earlier phase. -/
  barrier : ∀ p ∈ tr, ∀ request, p.2 = .dispatch request → ∀ j < request.phaseIndex,
    job.workloadHosts.length ≤ (reporters p.1.store job.jobId j).length
  /-- A completed job has been reported by enough nodes in every phase. -/
  completed : jobStatus s.store job.jobId = some .completed → ∀ j < job.phaseCount,
    job.workloadHosts.length ≤ (reporters s.store job.jobId j).length
  /-- It ends completed if the last poll of every phase found enough reports. -/
  endsCompleted : s.progress = .ended → (∀ j < job.phaseCount, PollReached job s.log j) →
    jobStatus s.store job.jobId = some .completed
  /-- Otherwise it ends timed out, and nothing is dispatched after the phase whose
  last poll did not. -/
  endsTimedOut : s.progress = .ended → ¬ (∀ j < job.phaseCount, PollReached job s.log j) →
    jobStatus s.store job.jobId = some .timedOut ∧ ∃ k < job.phaseCount,
      ¬ PollReached job s.log k ∧
        ∀ request, .dispatched request ∈ s.log → request.phaseIndex ≤ k
  /-- The status changes at most once. -/
  once : changes (tr.map (fun p => jobStatus p.1.store job.jobId) ++
    [jobStatus s.store job.jobId]) ≤ 1
  /-- It does end: until then some step is possible, and there is a bound on the
  steps other than polls that go on waiting before a deadline. -/
  goesOn : s.progress ≠ .ended →
    ∃ a s', (∀ srows prows, a ≠ .ingest srows prows) ∧ JobStep job s a s'
  bounded : (tr.filter (progresses job)).length
    ≤ job.phaseCount * (2 * job.workloadHosts.length + 2)

section Run

variable {store : TSDBStore} (hstatus : jobStatus store job.jobId = some .running)
  {tr : List (JobRun × JobAction)} {s : JobRun}
  (hrun : Run (JobStep job) (executeJob job store) tr s) (hcaught : ∀ p ∈ tr, Caught p.2)

include hstatus hrun hcaught

theorem barrier_of_run {p : JobRun × JobAction} (hp : p ∈ tr) {request : DispatchRequest}
    (ha : p.2 = .dispatch request) :
    Reached job p.1.store request.phaseIndex := by
  -- the invariant holds in the state the dispatch is issued in
  obtain ⟨tr₁, tr₂, rfl⟩ := List.append_of_mem hp
  obtain ⟨s', hrun₁, hstep, _⟩ := hrun.split
  have hinv := jobInv_of_run hstatus hrun₁ fun q hq => hcaught q (List.mem_append_left _ hq)
  rw [ha] at hstep
  cases hstep with
  | @dispatch before after _ hw =>
    have hmem : request ∈ p.1.waiting := by
      rw [hw]
      simp
    obtain ⟨k, _, hphase, _, hwaiting⟩ := hinv.dispatching (Or.inl (List.ne_nil_of_mem hmem))
    rw [hwaiting request hmem]
    exact hphase.reached

/-- As long as the job is running its status has not changed, and it changes
once. -/
theorem changes_of_run :
    changes (tr.map (fun p => jobStatus p.1.store job.jobId) ++ [jobStatus s.store job.jobId]) ≤ 1 ∧
      (jobStatus s.store job.jobId = some .running →
        changes (tr.map (fun p => jobStatus p.1.store job.jobId) ++
          [jobStatus s.store job.jobId]) = 0) := by
  induction hrun with
  | nil => exact ⟨Nat.zero_le _, fun _ => rfl⟩
  | @snoc tr s s' a hrun hstep ih =>
    have hcaught' : ∀ p ∈ tr, Caught p.2 := fun p hp => hcaught p (List.mem_append_left _ hp)
    obtain ⟨hle, hzero⟩ := ih hcaught'
    rw [List.map_append, List.map_singleton, changes_concat]
    rcases status_step (jobInv_of_run hstatus hrun hcaught') hstep with hsame | ⟨hrunning, hnot⟩
    · rw [← hsame, if_pos rfl]
      exact ⟨hle, hzero⟩
    · refine ⟨?_, fun hc => absurd hc hnot⟩
      rw [hzero hrunning]
      split_ifs
      · exact Nat.zero_le _
      · exact le_rfl

theorem bounded_of_run :
    remaining job s + (tr.filter (progresses job)).length
      ≤ job.phaseCount * (2 * job.workloadHosts.length + 2) := by
  induction hrun with
  | nil => exact (remaining_executeJob job store).le
  | @snoc tr s s' a hrun hstep ih =>
    have hcaught' : ∀ p ∈ tr, Caught p.2 := fun p hp => hcaught p (List.mem_append_left _ hp)
    have hremaining := remaining_step (jobInv_of_run hstatus hrun hcaught')
      (hcaught (s, a) (List.mem_append_right _ (List.mem_singleton_self _))) hstep
    have hle := ih hcaught'
    rw [List.filter_append, List.length_append, List.filter_singleton]
    split_ifs at hremaining with hprogress
    · rw [hprogress]
      simp only [cond_true, List.length_singleton]
      omega
    · rw [Bool.not_eq_true] at hprogress
      rw [hprogress]
      simp only [cond_false, List.length_nil]
      omega

end Run

def twoHostsJob (fault : Option FaultManifest) : Job :=
  { jobId := "j", workloadHosts := ["a", "b"], phaseCount := 2, faultManifest := fault }

/-- A store in which the job was just created. -/
def twoHostsStore (fault : Option FaultManifest) : TSDBStore :=
  { TSDBStore.empty with
    jobs := TSDBStore.empty.jobs.insertIgnore ⟨"j", 2, ["a", "b"], fault, .running, 0⟩ }

def twoHostsPost (fault : Option FaultManifest) (host : String) (k : ℕ) : DispatchRequest :=
  ⟨host, "j", k, none, faultForHost fault host k⟩

def twoHostsReport (host : String) (k : ℕ) : PhaseEventRow := ⟨"j", host, k, 10, 1, 20, 2, "ok"⟩

/-- The store once both hosts have reported their first phase. -/
def firstPhaseStore (fault : Option FaultManifest) : TSDBStore :=
  ((twoHostsStore fault).insertRows [] [twoHostsReport "a" 0]).insertRows []
    [twoHostsReport "b" 0]

/-- The first phase: one of the dispatches fails, and both hosts report. -/
theorem exists_run_firstPhase (fault : Option FaultManifest) : ∃ tr log,
    Run (JobStep (twoHostsJob fault)) (executeJob (twoHostsJob fault) (twoHostsStore fault)) tr
      ⟨firstPhaseStore fault, .dispatching 1,
        [twoHostsPost fault "a" 1, twoHostsPost fault "b" 1], [], log⟩ ∧
      ∀ p ∈ tr, Caught p.2 := by
  have hstart : Run (JobStep (twoHostsJob fault))
    (executeJob (twoHostsJob fault) (twoHostsStore fault)) [] _ := .nil
  have hposted := (hstart.snoc
    (@JobStep.dispatch _ _ [] [twoHostsPost fault "b" 0] (twoHostsPost fault "a" 0) rfl)).snoc
    (@JobStep.dispatch _ _ [] [] (twoHostsPost fault "b" 0) rfl)
  have hgathered := ((hposted.snoc
    (@JobStep.settle _ _ [twoHostsPost fault "a" 0] [] (twoHostsPost fault "b" 0) .httpError
      rfl)).snoc
    (@JobStep.settle _ _ [] [] (twoHostsPost fault "a" 0) .returned rfl)).snoc
    (@JobStep.gathered _ _ _ 5 rfl rfl rfl)
  have hrun := ((hgathered.snoc
    (@JobStep.ingest _ _ [] [twoHostsReport "a" 0])).snoc
    (@JobStep.ingest _ _ [] [twoHostsReport "b" 0])).snoc
    (@JobStep.poll _ _ _ _ 7 rfl)
  exact ⟨_, _, hrun, by simp [Caught]⟩

/-- The second phase is dispatched, and the dispatches return. -/
theorem exists_run_polling (fault : Option FaultManifest) : ∃ tr log,
    Run (JobStep (twoHostsJob fault)) (executeJob (twoHostsJob fault) (twoHostsStore fault)) tr
      ⟨firstPhaseStore fault, .polling 1 (8 + phaseReportTimeoutS), [], [], log⟩ ∧
      ∀ p ∈ tr, Caught p.2 := by
  obtain ⟨tr, log, hrun, hcaught⟩ := exists_run_firstPhase fault
  have hposted := (hrun.snoc
    (@JobStep.dispatch _ _ [] [twoHostsPost fault "b" 1] (twoHostsPost fault "a" 1) rfl)).snoc
    (@JobStep.dispatch _ _ [] [] (twoHostsPost fault "b" 1) rfl)
  have hgathered := ((hposted.snoc
    (@JobStep.settle _ _ [] [twoHostsPost fault "b" 1] (twoHostsPost fault "a" 1) .returned
      rfl)).snoc
    (@JobStep.settle _ _ [] [] (twoHostsPost fault "b" 1) .returned rfl)).snoc
    (@JobStep.gathered _ _ _ 8 rfl rfl rfl)
  refine ⟨_, _, hgathered, ?_⟩
  simp only [List.forall_mem_append, List.forall_mem_singleton]
  simpa [Caught] using hcaught

end Ingest
