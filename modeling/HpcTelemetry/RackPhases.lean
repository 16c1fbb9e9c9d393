/-
Each phase once on each host.

A post that is issued waits, travels, or has arrived, and it is issued for one
host and one phase.  So no host runs a phase twice, and what the store has of a
phase that is behind are the reports the runners have measured themselves.

* `posts` — what there is of a phase of a host, from its dispatch on;
* `Once`, `once_step` — the invariant;
* `phase_unique` — no host runs a phase twice;
* `durationsNs_completed` — the durations a completed job is ranked by are the
  ones its runners measured.
-/
import HpcTelemetry.Rack

namespace Fleet

open Ingest Workload Transitions

variable {job : Job} {config : String → Config}

/-! ### Posts -/

/-- The posts of a phase of a host that wait, that travel, and that have
arrived. -/
def posts (s : Rack) (host : String) (k : ℕ) : ℕ :=
  s.job.waiting.countP (fun r => r.host = host ∧ r.phaseIndex = k) +
    s.requests.countP (fun r => r.host = host ∧ r.phaseIndex = k) +
    ((s.runners host).phases.map (·.request.phaseIndex)).count (k : ℤ)

variable (job) in
/-- There is at most one post for each time a host is listed, and none for the
phases ahead. -/
structure Once (s : Rack) : Prop where
  bound : ∀ host k, posts s host k ≤ job.workloadHosts.count host
  dispatching : ∀ k, s.job.progress = .dispatching k → ∀ host j, k < j → posts s host j = 0
  polling : ∀ k deadline, s.job.progress = .polling k deadline →
    s.job.waiting = [] ∧ ∀ host j, k < j → posts s host j = 0

/-- A step that adds no post and enters no phase. -/
theorem Once.mono {s s' : Rack} (h : Once job s)
    (hposts : ∀ host k, posts s' host k ≤ posts s host k)
    (hprogress : s'.job.progress = s.job.progress) (hwaiting : s'.job.waiting = s.job.waiting) :
    Once job s' where
  bound := fun host k => (hposts host k).trans (h.bound host k)
  dispatching := fun k hp host j hj =>
    Nat.le_zero.mp ((hposts host j).trans (h.dispatching k (hprogress ▸ hp) host j hj).le)
  polling := fun k deadline hp => by
    obtain ⟨hw, hnone⟩ := h.polling k deadline (hprogress ▸ hp)
    exact ⟨hwaiting.trans hw, fun host j hj =>
      Nat.le_zero.mp ((hposts host j).trans (hnone host j hj).le)⟩

theorem countP_split {α : Type*} (q : α → Bool) (before after : List α) (x : α) :
    (before ++ x :: after).countP q = (before ++ after).countP q + if q x then 1 else 0 := by
  rw [List.countP_append, List.countP_cons, List.countP_append]
  omega

/-- The orchestrator posts a phase once for each time a host is listed. -/
theorem countP_dispatches (job : Job) (k : ℕ) (host : String) (j : ℕ) :
    (dispatches job k).countP (fun r => r.host = host ∧ r.phaseIndex = j)
      = if j = k then job.workloadHosts.count host else 0 := by
  rw [dispatches, List.countP_map]
  split_ifs with hjk
  · rw [List.count_eq_countP, hjk]
    refine List.countP_congr fun x _ => ?_
    simp
  · rw [List.countP_eq_zero]
    intro x _
    simp [Ne.symm hjk]

/-- Phases keep the request they were started with. -/
theorem map_request_set {phases : List PhaseRun} {i : ℕ} {p p' : PhaseRun}
    (hp : phases[i]? = some p) (hsame : p'.request = p.request) :
    (phases.set i p').map (·.request.phaseIndex) = phases.map (·.request.phaseIndex) := by
  obtain ⟨hlt, hget⟩ := List.getElem?_eq_some_iff.mp hp
  have hlt' : i < (phases.map (·.request.phaseIndex)).length := by
    rw [List.length_map]
    exact hlt
  have hindex : p'.request.phaseIndex = (phases.map (·.request.phaseIndex))[i] := by
    rw [List.getElem_map, hget, hsame]
  rw [List.map_set, hindex, List.set_getElem_self]

/-! ### The invariant -/

/-- Entering a phase, when nothing of it has been posted. -/
theorem once_enterPhase {s : Rack} {job' : JobRun} {k : ℕ} (hwaiting : job'.waiting = [])
    (hbound : ∀ host j, posts { s with job := job' } host j ≤ job.workloadHosts.count host)
    (hnone : ∀ host j, k ≤ j → posts { s with job := job' } host j = 0) :
    Once job { s with job := enterPhase job k job' } := by
  rw [enterPhase]
  split_ifs with hk
  · have hposts : ∀ host j, posts { s with job := { job' with
        progress := .dispatching k, waiting := dispatches job k } } host j
        = posts { s with job := job' } host j
          + if j = k then job.workloadHosts.count host else 0 := by
      intro host j
      simp only [posts, countP_dispatches, hwaiting, List.countP_nil]
      omega
    refine ⟨fun host j => ?_, fun i hp host j hj => ?_, fun i deadline hp => (by cases hp)⟩
    · rw [hposts]
      split_ifs with hjk
      · rw [hnone host j hjk.ge, Nat.zero_add]
      · rw [Nat.add_zero]
        exact hbound host j
    · injection hp with hp
      rw [hposts, hnone host j (by omega), if_neg (by omega)]
  · exact ⟨hbound, fun i hp => (by cases hp), fun i deadline hp => (by cases hp)⟩

theorem once_start (store : TSDBStore) : Once job (Rack.start job store) := by
  have hposts : ∀ host j,
      posts ⟨⟨store, .dispatching 0, [], [], []⟩, [], fun _ => .start, []⟩ host j = 0 :=
    fun host j => rfl
  refine once_enterPhase (s := ⟨⟨store, .dispatching 0, [], [], []⟩, [], fun _ => .start, []⟩) rfl
    (fun host j => ?_) fun host j _ => hposts host j
  rw [hposts]
  exact Nat.zero_le _

theorem once_step {s s' : Rack} {a : RackAction} (h : Once job s)
    (hstep : RackStep job config s a s') : Once job s' := by
  cases hstep with
  | @orchestrate a job' hfrom hstep =>
    cases hstep with
    | @dispatch before after request hw =>
      -- the post leaves the waiting ones and travels
      have hposts : ∀ host k, posts { s with
          job := { s.job with
            waiting := before ++ after
            inFlight := s.job.inFlight ++ [request]
            log := s.job.log ++ [.dispatched request] }
          requests := s.requests ++ posted (.dispatch request) } host k = posts s host k := by
        intro host k
        simp only [posts, hw, posted, List.countP_append, List.countP_cons, List.countP_nil]
        omega
      refine ⟨fun host k => (hposts host k).le.trans (h.bound host k), fun k hp host j hj => ?_,
        fun k deadline hp => ?_⟩
      · rw [hposts]
        exact h.dispatching k hp host j hj
      · obtain ⟨hnil, _⟩ := h.polling k deadline hp
        rw [hw] at hnil
        simp at hnil
    | @settle before after request outcome hf =>
      have hposts : ∀ host k, posts { s with
          job := { s.job with
            progress := if outcome = .raised then .raised else s.job.progress
            inFlight := before ++ after }
          requests := s.requests ++ posted (.settle request outcome) } host k = posts s host k := by
        intro host k
        simp only [posts, posted, List.append_nil]
      refine ⟨fun host k => (hposts host k).le.trans (h.bound host k), fun k hp host j hj => ?_,
        fun k deadline hp => ?_⟩
      · simp only at hp
        split_ifs at hp
        rw [hposts]
        exact h.dispatching k hp host j hj
      · simp only at hp
        split_ifs at hp
        obtain ⟨hnil, hnone⟩ := h.polling k deadline hp
        exact ⟨hnil, fun host j hj => (hposts host j).trans (hnone host j hj)⟩
    | @gathered k now hp hw hf =>
      have hposts : ∀ host j, posts { s with
          job := { s.job with progress := .polling k (now + phaseReportTimeoutS) }
          requests := s.requests ++ posted (.gathered now) } host j = posts s host j := by
        intro host j
        simp only [posts, posted, List.append_nil]
      refine ⟨fun host j => (hposts host j).le.trans (h.bound host j), fun i hc => (by cases hc),
        fun i deadline hc => ⟨hw, fun host j hj => ?_⟩⟩
      injection hc with hi _
      rw [hposts]
      exact h.dispatching k hp host j (hi ▸ hj)
    | @poll k deadline now hp =>
      obtain ⟨hnil, hnone⟩ := h.polling k deadline hp
      have hposts : ∀ (job' : JobRun) host j, job'.waiting = [] →
          posts { s with job := job' } host j = posts s host j := by
        intro job' host j hw
        simp only [posts, hw, hnil]
      rw [show s.requests ++ posted (.poll now) = s.requests from List.append_nil _, pollPhase]
      simp only
      split_ifs with henough hearly
      · exact once_enterPhase hnil
          (fun host j => (hposts _ host j hnil).le.trans (h.bound host j))
          fun host j hj => (hposts _ host j hnil).trans (hnone host j hj)
      · refine ⟨fun host j => (hposts _ host j hnil).le.trans (h.bound host j), fun i hc => ?_,
          fun i d hc => ⟨hnil, fun host j hj =>
            (hposts _ host j hnil).trans ((h.polling i d hc).2 host j hj)⟩⟩
        rw [show s.job.progress = _ from hc] at hp
        cases hp
      · exact ⟨fun host j => (hposts _ host j hnil).le.trans (h.bound host j),
          fun i hc => (by cases hc), fun i d hc => (by cases hc)⟩
    | ingest => exact hfrom.elim
  | @arrive before after request startTsNs startMonoNs hr =>
    refine h.mono (fun host k => ?_) rfl rfl
    -- the post leaves the travelling ones and becomes a phase of its host
    simp only [posts, hr, countP_split, phases_arrive, List.map_append, List.count_append]
    by_cases hhost : host = request.host
    · subst hhost
      rw [if_pos rfl, List.map_singleton, List.count_singleton, startPhaseRequest]
      simp only [beq_iff_eq, Nat.cast_inj, true_and, decide_eq_true_eq]
      omega
    · rw [if_neg hhost, List.map_nil, List.count_nil]
      omega
  | @loseRequest before after request hr =>
    refine h.mono (fun host k => ?_) rfl rfl
    simp only [posts, hr, countP_split]
    omega
  | @run host i p p' a hp hmove =>
    refine h.mono (fun host' k => le_of_eq ?_) rfl rfl
    simp only [posts]
    by_cases hhost : host' = host
    · subst hhost
      rw [Function.update_self, map_request_set hp (PhaseMove.request_eq hmove)]
    · rw [Function.update_of_ne hhost]
  | ingest _ => exact h.mono (fun _ _ => le_rfl) rfl rfl
  | loseReport _ => exact h.mono (fun _ _ => le_rfl) rfl rfl
  | other _ => exact h.mono (fun _ _ => le_rfl) rfl rfl

theorem once_of_run {store : TSDBStore} {tr : List (Rack × RackAction)} {s : Rack}
    (hrun : Run (RackStep job config) (Rack.start job store) tr s) : Once job s :=
  hrun.invariant (once_start store) fun _ _ _ h hstep => once_step h hstep

/-! ### One phase a host -/

theorem eq_of_count_le_one {α β : Type*} [DecidableEq β] {f : α → β} {l : List α} {b : β}
    (h : (l.map f).count b ≤ 1) {x y : α} (hx : x ∈ l) (hy : y ∈ l) (hxb : f x = b)
    (hyb : f y = b) : x = y := by
  induction l with
  | nil => exact absurd hx List.not_mem_nil
  | cons z l ih =>
    rw [List.map_cons, List.count_cons] at h
    have hrest : ∀ w ∈ l, f w = b → 1 ≤ (l.map f).count b := fun w hw hwb =>
      List.one_le_count_iff.mpr (hwb ▸ List.mem_map_of_mem hw)
    rcases List.mem_cons.mp hx with rfl | hxl
    · rcases List.mem_cons.mp hy with rfl | hyl
      · rfl
      · have hmore := hrest y hyl hyb
        simp only [hxb, BEq.rfl, if_true] at h
        omega
    · rcases List.mem_cons.mp hy with rfl | hyl
      · have hmore := hrest x hxl hxb
        simp only [hyb, BEq.rfl, if_true] at h
        omega
      · exact ih (by omega) hxl hyl

/-- The hosts of a phase that is behind have different nodes. -/
theorem Passed.nodup_nodes {s : Rack} {k : ℕ} (h : Passed job config s k) :
    (job.workloadHosts.map fun host => (config host).nodeId).Nodup :=
  h.nodes.nodup_iff.mp (nodup_phaseRowsOf job s.job.store k)

/-- A host runs a phase once, once some phase is behind. -/
theorem phase_unique {s : Rack} (h : Once job s) {j : ℕ} (hpassed : Passed job config s j)
    {host : String} {p q : PhaseRun} (hp : p ∈ (s.runners host).phases)
    (hq : q ∈ (s.runners host).phases) {k : ℕ} (hpk : p.request.phaseIndex = k)
    (hqk : q.request.phaseIndex = k) : p = q := by
  have hnodup : job.workloadHosts.Nodup := List.Nodup.of_map _ hpassed.nodup_nodes
  have hone : job.workloadHosts.count host ≤ 1 := List.nodup_iff_count_le_one.mp hnodup host
  have hposts := (h.bound host k).trans hone
  rw [posts] at hposts
  have hcount : ((s.runners host).phases.map (·.request.phaseIndex)).count (k : ℤ) ≤ 1 := by omega
  exact eq_of_count_le_one hcount hp hq hpk hqk

/-! ### The durations -/

/-- What the runner of a host has measured of a phase that ended well. -/
def measured (config : String → Config) (s : Rack) (k : ℕ) (host : String) :
    Option (String × ℤ) :=
  ((s.runners host).phases.find? fun p : PhaseRun => p.request.phaseIndex = (k : ℤ)).bind fun p =>
    match p.stage with
    | .reported .ok _ endMonoNs => some ((config host).nodeId, endMonoNs - p.startMonoNs)
    | _ => none

/-- The row of a report has the status of the phase and its duration. -/
theorem row_of_done {config : Config} {p : PhaseRun} {row : PhaseEventRow} (hdone : PhaseDone p)
    (hrow : (p.phaseEvent config).map phaseEventRow = some row) :
    ∃ status endTsNs endMonoNs, p.stage = .reported status endTsNs endMonoNs ∧
      row.status = status.text ∧ row.nodeId = config.nodeId ∧
      row.phaseEndMonoNs - row.phaseStartMonoNs = endMonoNs - p.startMonoNs := by
  obtain ⟨event, hevent, rfl⟩ := Option.map_eq_some_iff.mp hrow
  rw [PhaseDone] at hdone
  split at hdone
  · next status endTsNs endMonoNs hstage =>
    rw [PhaseRun.phaseEvent, hstage] at hevent
    simp only [reportPhaseEvent, Option.ite_none_right_eq_some, Option.some_inj] at hevent
    obtain ⟨_, rfl⟩ := hevent
    exact ⟨status, endTsNs, endMonoNs, hstage, rfl, rfl, rfl⟩
  · exact hdone.elim

/-- What a host that is through has measured. -/
theorem measured_eq {s : Rack} (h : Once job s) {k : ℕ} (hpassed : Passed job config s k)
    {host : String} {row : PhaseEventRow} (hdone : DoneAs config s k host row) :
    measured config s k host = if row.status = "ok" then
      some (row.nodeId, row.phaseEndMonoNs - row.phaseStartMonoNs) else none := by
  obtain ⟨p, hp, hpdone, hpk, hprow⟩ := hdone
  obtain ⟨status, endTsNs, endMonoNs, hstage, hstatus, hnode, hduration⟩ := row_of_done hpdone hprow
  have hfind : (s.runners host).phases.find?
      (fun p : PhaseRun => p.request.phaseIndex = (k : ℤ)) = some p := by
    cases hf : (s.runners host).phases.find?
        fun p : PhaseRun => p.request.phaseIndex = (k : ℤ) with
    | none => exact absurd hpk (by simpa using List.find?_eq_none.mp hf p hp)
    | some q =>
      have hqk : q.request.phaseIndex = k := of_decide_eq_true (List.find?_some hf :)
      rw [phase_unique h hpassed (List.mem_of_find?_eq_some hf) hp hqk hpk]
  rw [measured, hfind, Option.bind_some, hstage, hstatus, hnode, hduration]
  cases status with
  | ok => exact (if_pos rfl).symm
  | error => exact (if_neg (by decide)).symm

theorem okReports_phaseRowsOf (job : Job) (store : TSDBStore) (k : ℕ) :
    Api.okReports store job.jobId k = (phaseRowsOf job store k).filter (·.status = "ok") := by
  rw [Api.okReports, phaseRowsOf_eq]

theorem map_fst_filterMap_sublist {α β γ : Type*} {g : α → Option (β × γ)} {f : α → β}
    (h : ∀ x y, g x = some y → y.1 = f x) (l : List α) :
    ((l.filterMap g).map Prod.fst).Sublist (l.map f) := by
  induction l with
  | nil => exact List.Sublist.slnil
  | cons x l ih =>
    rw [List.filterMap_cons, List.map_cons]
    cases hx : g x with
    | none => exact ih.cons _
    | some y =>
      rw [List.map_cons, h x y hx]
      exact ih.cons_cons _

theorem fst_of_measured {s : Rack} {k : ℕ} {host : String} {y : String × ℤ}
    (h : measured config s k host = some y) : y.1 = (config host).nodeId := by
  rw [measured, Option.bind_eq_some_iff] at h
  obtain ⟨p, _, hp⟩ := h
  split at hp
  · injection hp with hp
    rw [← hp]
  · cases hp

/-- The durations a completed job is ranked by are those its runners have
measured, of every host whose phase ended well, and no others. -/
theorem durationsNs_completed {workloadHosts : List String} {jobId : String} {createdTsNs : ℤ}
    {before store : TSDBStore} {request : Api.StartJobRequest} {tr : List (Rack × RackAction)}
    {s : Rack}
    (hstart : Api.startJob workloadHosts jobId createdTsNs before request = .ok (store, job))
    (hfresh : ∀ row ∈ before.phaseEvents.rows, row.jobId ≠ jobId)
    (hrun : Run (RackStep job config) (Rack.start job store) tr s)
    (hcompleted : jobStatus s.job.store job.jobId = some .completed) {k : ℕ}
    (hk : k < job.phaseCount) :
    (Api.durationsNs s.job.store job.jobId k).rows.Perm
      (job.workloadHosts.filterMap (measured config s k)) := by
  have hbarred : Barred job config s := barred_of_startJob hstart hfresh hrun
  have honce : Once job s := once_of_run hrun
  have hpassed : Passed job config s k := completed_passed hstart hfresh hrun hcompleted hk
  have hleft := (Api.durationsNs s.job.store job.jobId k).keys_nodup
  have hright := (map_fst_filterMap_sublist (fun _ _ => fst_of_measured (s := s) (k := k))
    job.workloadHosts).nodup hpassed.nodup_nodes
  refine (List.perm_ext_iff_of_nodup (List.Nodup.of_map _ hleft)
    (List.Nodup.of_map _ hright)).mpr fun y => ?_
  rw [Api.durationsNs_rows, List.mem_map, List.mem_filterMap]
  constructor
  · rintro ⟨row, hrow, rfl⟩
    rw [(List.perm_insertionSort _ _).mem_iff, okReports_phaseRowsOf, List.mem_filter] at hrow
    obtain ⟨host, hhost, _, hdone⟩ := hbarred.exists_host hrow.1
    refine ⟨host, hhost, ?_⟩
    rw [measured_eq honce hpassed hdone, if_pos (of_decide_eq_true hrow.2)]
  · rintro ⟨host, hhost, hy⟩
    obtain ⟨row, hrow, hdone⟩ := hpassed.done host hhost
    rw [measured_eq honce hpassed hdone, Option.ite_none_right_eq_some, Option.some_inj] at hy
    obtain ⟨hok, rfl⟩ := hy
    refine ⟨row, ?_, rfl⟩
    rw [(List.perm_insertionSort _ _).mem_iff, okReports_phaseRowsOf, List.mem_filter]
    exact ⟨hrow, decide_eq_true hok⟩

/-! ### A completed job -/

/-- The second host does not know the type of the fault in its second phase.  The
job completes all the same. -/
theorem reachable_completed : ∃ s : Rack,
    Reachable (CalmStep (faultyJob "reboot") hostConfig)
      (Rack.start (faultyJob "reboot") (faultyStore "reboot")) s ∧
      jobStatus s.job.store "j" = some .completed ∧
      (s.runners "a").phases = [faultyPhase "reboot" "a" 0 (.reported .ok 20 2),
        faultyPhase "reboot" "a" 1 (.reported .ok 20 3)] ∧
      (s.runners "b").phases = [faultyPhase "reboot" "b" 0 (.reported .ok 20 5),
        faultyPhase "reboot" "b" 1 (.reported .error 20 4)] := by
  obtain ⟨log, hsecond⟩ := reachable_secondPhase "reboot"
  have hserved := @reachable_served _ _ _ _ _ _ [] [faultyPost "reboot" "b" 1]
    (faultyPost "reboot" "a" 1) 10 1 20 3 hsecond rfl (Nat.one_lt_two_pow (by omega))
  have harrived := hserved.snoc
    ⟨@RackStep.arrive _ _ _ [] [] (faultyPost "reboot" "b" 1) 10 1 rfl, trivial⟩
  have hrefused := reachable_run harrived
    (@PhaseMove.unknownFault (hostConfig "b") _ "unknown fault_type: reboot" rfl rfl) trivial
  have hreported := reachable_reported 20 4 hrefused rfl
    (reportPhaseEvent_natCast (k := 1) (Nat.one_lt_two_pow (by omega)))
  have hstored := (hreported.snoc ⟨@RackStep.ingest _ _ _ [] [hostEvent "b" 1 4 "error"]
    (hostEvent "a" 1 3 "ok") rfl, trivial⟩).snoc
    ⟨@RackStep.ingest _ _ _ [] [] (hostEvent "b" 1 4 "error") rfl, trivial⟩
  have hsettled := reachable_orchestrate (reachable_orchestrate hstored
    (@JobStep.settle _ _ [] [faultyPost "reboot" "b" 1] (faultyPost "reboot" "a" 1) .returned rfl)
    trivial) (@JobStep.settle _ _ [] [] (faultyPost "reboot" "b" 1) .returned rfl) trivial
  have hpolled := reachable_orchestrate (reachable_orchestrate hsettled
    (@JobStep.gathered _ _ 1 7 rfl rfl rfl) trivial)
    (@JobStep.poll _ _ 1 (7 + 30) 8 rfl) trivial
  exact ⟨_, hpolled, rfl, rfl, rfl⟩

/-- Both hosts are ranked by their first phase, and one of them by its second. -/
theorem durationsNs_completed_example : ∃ s : Rack,
    jobStatus s.job.store "j" = some .completed ∧
      (Api.durationsNs s.job.store "j" 0).rows.Perm [("a", 1), ("b", 4)] ∧
      (Api.durationsNs s.job.store "j" 1).rows.Perm [("a", 2)] := by
  obtain ⟨s, hreach, hcompleted, ha, hb⟩ := reachable_completed
  obtain ⟨tr, hrun, _⟩ := run_of_calm hreach
  have hperm : ∀ k < 2, (Api.durationsNs s.job.store "j" k).rows.Perm
      (["a", "b"].filterMap (measured hostConfig s k)) := fun k hk =>
    durationsNs_completed (startJob_secondPhaseFault "reboot")
      (fun row hrow => absurd hrow List.not_mem_nil) hrun hcompleted hk
  refine ⟨s, hcompleted, (hperm 0 Nat.two_pos).trans (.of_eq ?_),
    (hperm 1 Nat.one_lt_two).trans (.of_eq ?_)⟩
  · simp only [List.filterMap_cons, List.filterMap_nil, measured, ha, hb]
    rfl
  · simp only [List.filterMap_cons, List.filterMap_nil, measured, ha, hb]
    rfl

end Fleet
