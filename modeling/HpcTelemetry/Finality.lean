/-
How long a straggler ranking stands.

The endpoint ranks whatever `ok` reports are stored, as soon as there are three.
A ranking therefore stands as long as no further one is stored, and no longer.

* `StoreAction`, `applyAction` — what changes the store between two requests;
  `readStep_actions` says that every round of a connection's read loop is a
  sequence of them;
* `okReports_run` — the `ok` reports of a phase after a run;
* `ranking_final_iff` — when a ranking is final;
* `ranking_final_of_reported` — it is when all nodes have reported.
-/
import HpcTelemetry.StoreEffects
import HpcTelemetry.StragglerReport

namespace Api

open Ingest Analysis Wire

/-! ### Runs of the store -/

inductive StoreAction where
  /-- Some connection handles a frame. -/
  | ingest (env : Env) (task : Task) (frame : DecodedFrame)
  | createJob (jobId : String) (phaseCount : ℕ) (nodeIds : List String) (createdTsNs : ℤ)
      (faultManifest : Option FaultManifest)
  | setJobStatus (jobId : String) (status : JobStatus)

def applyAction (store : TSDBStore) : StoreAction → TSDBStore
  | .ingest env task frame => (handleFrame env frame (task, store)).2
  | .createJob jobId phaseCount nodeIds createdTsNs faultManifest =>
    (store.createJob jobId phaseCount nodeIds createdTsNs faultManifest).getD store
  | .setJobStatus jobId status => store.setJobStatus jobId status

/-- The store after some actions. -/
def applyActions (store : TSDBStore) (actions : List StoreAction) : TSDBStore :=
  actions.foldl applyAction store

/-- The row of the phase event a frame carries, if it carries one. -/
def reportRow (codec : Codec) (frame : DecodedFrame) : Option PhaseEventRow :=
  if frame.tag = frameTagPhaseEvent then (codec.parsePhaseEvent frame.payload).map phaseEventRow
  else none

/-- The action stores the first report of some node for the phase, and it is
`ok`. -/
def LateReport (jobId : String) (phaseIndex : ℕ) (store : TSDBStore) : StoreAction → Prop
  | .ingest env _ frame => ∃ row, reportRow env.codec frame = some row ∧
      (row.jobId = jobId ∧ row.phaseIndex = phaseIndex) ∧ row.status = "ok" ∧
      row.key ∉ store.phaseEvents.keys
  | .createJob _ _ _ _ _ => False
  | .setJobStatus _ _ => False

/-- The two reports rank the same nodes in the same way. -/
structure SameRanking (report report' : StragglerReport) : Prop where
  rankedNodes : report'.rankedNodes = report.rankedNodes
  topCandidate : report'.topCandidate = report.topCandidate
  naiveBaselineCandidate : report'.naiveBaselineCandidate = report.naiveBaselineCandidate

/-! ### Frames and reads -/

/-- Handling a frame inserts samples and the report it carries. -/
theorem handleFrame_store (env : Env) (frame : DecodedFrame) (task : Task) :
    ∃ srows, ∀ store, (handleFrame env frame (task, store)).2
      = store.insertRows srows (reportRow env.codec frame).toList := by
  by_cases hk : frame.Known
  · obtain ⟨_, srows, he, _⟩ := handleFrame_effect hk task
    refine ⟨srows, fun store => ?_⟩
    rw [he store]
    show store.insertRows srows (phaseRows env.codec frame) = _
    rw [phaseRows, reportRow]
    by_cases hs : frame.tag = frameTagSampleBatch
    · have hp : frame.tag ≠ frameTagPhaseEvent := by
        rw [hs]
        decide
      rw [if_pos hs, if_neg hp]
      rfl
    · have hp : frame.tag = frameTagPhaseEvent := by
        simpa [DecodedFrame.Known, knownTags, hs] using hk
      rw [if_neg hs, if_pos hp]
      cases env.codec.parsePhaseEvent frame.payload with
      | none => rfl
      | some event => rfl
  · have hs : frame.tag ≠ frameTagSampleBatch := by
      intro hs
      simp [DecodedFrame.Known, knownTags, hs] at hk
    have hp : frame.tag ≠ frameTagPhaseEvent := by
      intro hp
      simp [DecodedFrame.Known, knownTags, hp] at hk
    refine ⟨[], fun store => ?_⟩
    rw [handleFrame, reportRow, if_neg hs, if_neg hp, if_neg hp]
    rfl

theorem drainFrames_actions (env : Env) (buffer : Bytes) :
    ∀ task : Task, task.status = .reading → ∃ actions, ∀ store,
      (drainFrames env buffer (task, store)).2.2 = applyActions store actions := by
  induction buffer using frameDecoder.scan_induction with
  | incomplete buffer h =>
    intro task _
    refine ⟨[], fun store => ?_⟩
    rw [drainFrames_eq, ← frameDecoder_decode, h]
    rfl
  | invalid buffer h =>
    intro task _
    refine ⟨[], fun store => ?_⟩
    rw [drainFrames_eq, ← frameDecoder_decode, h]
    rfl
  | item buffer frame n h ih =>
    intro task _
    obtain ⟨task₁, srows₁, he₁, _⟩ := handleFrame_effect (known_of_decode h) task
    by_cases hr : task₁.status = .reading
    · obtain ⟨actions, ha⟩ := ih task₁ hr
      refine ⟨.ingest env task frame :: actions, fun store => ?_⟩
      show _ = applyActions (handleFrame env frame (task, store)).2 actions
      rw [drainFrames_eq, ← frameDecoder_decode, h]
      simp only
      rw [he₁ store, if_pos hr, ha]
    · -- the handler raised, and the rest of the buffer is not looked at
      refine ⟨[.ingest env task frame], fun store => ?_⟩
      show _ = (handleFrame env frame (task, store)).2
      rw [drainFrames_eq, ← frameDecoder_decode, h]
      simp only
      rw [he₁ store, if_neg hr]

/-- A round of a read loop is a sequence of actions. -/
theorem readStep_actions (env : Env) (c : Connection) (read : ReadResult) :
    ∃ actions, ∀ store, (readStep env (c, store) read).2 = applyActions store actions := by
  by_cases hs : c.task.status = .reading
  · cases read with
    | chunk bs =>
      by_cases hbs : bs = []
      · refine ⟨[], fun store => ?_⟩
        rw [readStep, if_pos hs, hbs]
        rfl
      · obtain ⟨actions, ha⟩ := drainFrames_actions env (c.buffer ++ bs) c.task hs
        refine ⟨actions, fun store => ?_⟩
        rw [readStep_chunk hs hbs]
        exact ha store
    | reset =>
      refine ⟨[], fun store => ?_⟩
      rw [readStep, if_pos hs]
      rfl
  · refine ⟨[], fun store => ?_⟩
    rw [readStep_of_ended hs]
    rfl

/-! ### The reports of a phase in a run -/

theorem okReports_insertPhaseEvent (store : TSDBStore) (row : PhaseEventRow) (jobId : String)
    (phaseIndex : ℕ) :
    okReports (store.insertPhaseEvent row) jobId phaseIndex = okReports store jobId phaseIndex ++
      if (row.jobId = jobId ∧ row.phaseIndex = phaseIndex) ∧ row.status = "ok" ∧
        row.key ∉ store.phaseEvents.keys then [row] else [] := by
  rw [okReports, okReports, TSDBStore.insertPhaseEvent]
  by_cases hk : row.key ∈ store.phaseEvents.keys
  · rw [KeyedTable.insertIgnore_of_mem hk]
    simp [hk]
  · simp only
    rw [KeyedTable.rows_insertIgnore_of_notMem hk, List.filter_append, List.filter_append]
    by_cases hphase : row.jobId = jobId ∧ row.phaseIndex = phaseIndex
    · by_cases hok : row.status = "ok" <;> simp [hphase, hok, hk]
    · simp [hphase]

/-- An action adds a report to the `ok` reports of a phase if it is late for it,
and nothing else. -/
theorem okReports_step (jobId : String) (phaseIndex : ℕ) (store : TSDBStore) (a : StoreAction) :
    ∃ new, okReports (applyAction store a) jobId phaseIndex
        = okReports store jobId phaseIndex ++ new ∧
      (new = [] ↔ ¬ LateReport jobId phaseIndex store a) := by
  cases a with
  | ingest env task frame =>
    obtain ⟨srows, he⟩ := handleFrame_store env frame task
    rw [applyAction, he store, LateReport]
    cases hrow : reportRow env.codec frame with
    | none =>
      refine ⟨[], (List.append_nil _).symm, ?_⟩
      simp
    | some row =>
      refine ⟨_, okReports_insertPhaseEvent store row jobId phaseIndex, ?_⟩
      simp
  | createJob jobId' phaseCount nodeIds createdTsNs faultManifest =>
    refine ⟨[], ?_, ?_⟩
    · rw [List.append_nil, applyAction, TSDBStore.createJob]
      split_ifs
      · rfl
      · rfl
    · simp [LateReport]
  | setJobStatus jobId' status =>
    -- `jobs` is another table
    refine ⟨[], (List.append_nil _).symm, ?_⟩
    simp [LateReport]

theorem okReports_run (jobId : String) (phaseIndex : ℕ) (store : TSDBStore)
    (actions : List StoreAction) :
    ∃ new, okReports (applyActions store actions) jobId phaseIndex
        = okReports store jobId phaseIndex ++ new ∧
      (new = [] ↔ ∀ before a after, actions = before ++ a :: after →
        ¬ LateReport jobId phaseIndex (applyActions store before) a) := by
  induction actions generalizing store with
  | nil =>
    refine ⟨[], (List.append_nil _).symm, ?_⟩
    simp
  | cons a actions ih =>
    obtain ⟨new₁, h₁, hiff₁⟩ := okReports_step jobId phaseIndex store a
    obtain ⟨new₂, h₂, hiff₂⟩ := ih (applyAction store a)
    refine ⟨new₁ ++ new₂, ?_, ?_⟩
    · show okReports (applyActions (applyAction store a) actions) jobId phaseIndex = _
      rw [h₂, h₁, List.append_assoc]
    · rw [List.append_eq_nil_iff, hiff₁, hiff₂]
      constructor
      · rintro ⟨hfirst, hrest⟩ before a' after heq
        -- the late report would be the first action or one of the others
        cases before with
        | nil =>
          injection heq with ha _
          rw [← ha]
          exact hfirst
        | cons b before =>
          injection heq with hb heq
          rw [← hb]
          exact hrest before a' after heq
      · intro h
        refine ⟨h [] a actions rfl, fun before a' after heq => ?_⟩
        exact h (a :: before) a' after (congrArg (a :: ·) heq)

/-- Jobs are never deleted. -/
theorem mem_jobs_applyAction {jobId : String} {store : TSDBStore} (h : jobId ∈ store.jobs.keys)
    (a : StoreAction) : jobId ∈ (applyAction store a).jobs.keys := by
  cases a with
  | ingest env task frame =>
    obtain ⟨srows, he⟩ := handleFrame_store env frame task
    rw [applyAction, he store]
    exact h
  | createJob jobId' phaseCount nodeIds createdTsNs faultManifest =>
    rw [applyAction, TSDBStore.createJob]
    split_ifs
    · exact h
    · exact KeyedTable.mem_keys_insertIgnore.mpr (.inl h)
  | setJobStatus jobId' status =>
    rw [applyAction, TSDBStore.setJobStatus, KeyedTable.keys_mapRows]
    exact h

theorem mem_jobs_applyActions {jobId : String} {store : TSDBStore} (h : jobId ∈ store.jobs.keys)
    (actions : List StoreAction) : jobId ∈ (applyActions store actions).jobs.keys := by
  induction actions generalizing store with
  | nil => exact h
  | cons a actions ih => exact ih (mem_jobs_applyAction h a)

/-! ### Finality -/

/-- A later ranking has more nodes exactly if more `ok` reports are stored. -/
theorem length_rankedNodes_of_ranked {store : TSDBStore} {jobId : String} {phaseIndex : ℕ}
    (h : minReportingNodes ≤ (okReports store jobId phaseIndex).length) :
    (rankStragglers jobId phaseIndex (durationsNs store jobId phaseIndex)).rankedNodes.length
      = (okReports store jobId phaseIndex).length := by
  rw [← length_durationsNs] at h ⊢
  rw [rankStragglers, if_neg (by omega)]
  exact length_rankedNodes _

/-- The same reports give the same durations, and these the ranking. -/
theorem sameRanking_of_okReports {store : TSDBStore} {jobId : String} {phaseIndex : ℕ}
    {report : StragglerReport} (h : getStragglerReport store jobId phaseIndex = .ok report)
    {actions : List StoreAction} (hsame : okReports (applyActions store actions) jobId phaseIndex
      = okReports store jobId phaseIndex) :
    ∃ report', getStragglerReport (applyActions store actions) jobId phaseIndex = .ok report' ∧
      SameRanking report report' := by
  obtain ⟨hjob, rfl⟩ := getStragglerReport_ok.mp h
  refine ⟨_, getStragglerReport_ok.mpr ⟨mem_jobs_applyActions hjob actions, rfl⟩, ?_⟩
  rw [durationsNs_congr hsame]
  exact ⟨rfl, rfl, rfl⟩

/-- A ranking is final exactly if no `ok` report of a further node is stored. -/
theorem ranking_final_iff {store : TSDBStore} {jobId : String} {phaseIndex : ℕ}
    {report : StragglerReport} (h : getStragglerReport store jobId phaseIndex = .ok report)
    (hranked : report.status = .ranked) (actions : List StoreAction) :
    (∃ report', getStragglerReport (applyActions store actions) jobId phaseIndex = .ok report' ∧
      SameRanking report report')
      ↔ ∀ before a after, actions = before ++ a :: after →
        ¬ LateReport jobId phaseIndex (applyActions store before) a := by
  obtain ⟨new, hnew, hiff⟩ := okReports_run jobId phaseIndex store actions
  rw [← hiff]
  constructor
  · -- a ranking has a node for each report, so the same nodes mean no report more
    rintro ⟨report', h', hsame⟩
    obtain ⟨_, rfl⟩ := getStragglerReport_ok.mp h
    obtain ⟨_, rfl⟩ := getStragglerReport_ok.mp h'
    have hthree : minReportingNodes ≤ (okReports store jobId phaseIndex).length := by
      rw [← length_durationsNs]
      exact rankStragglers_ranked.mp hranked
    have hlength := congrArg List.length hsame.rankedNodes
    have hthree' : minReportingNodes
        ≤ (okReports (applyActions store actions) jobId phaseIndex).length := by
      rw [hnew, List.length_append]
      omega
    simp only at hlength
    rw [length_rankedNodes_of_ranked hthree, length_rankedNodes_of_ranked hthree', hnew,
      List.length_append] at hlength
    exact List.eq_nil_of_length_eq_zero (by omega)
  · rintro rfl
    rw [List.append_nil] at hnew
    exact sameRanking_of_okReports h hnew

/-- The reports of the phase that the action brings are reports of these nodes. -/
def ReportsOf (nodeIds : List String) (jobId : String) (phaseIndex : ℕ) : StoreAction → Prop
  | .ingest env _ frame => ∀ row, reportRow env.codec frame = some row →
      row.jobId = jobId ∧ row.phaseIndex = phaseIndex → row.nodeId ∈ nodeIds
  | .createJob _ _ _ _ _ => True
  | .setJobStatus _ _ => True

/-- Reports are never deleted. -/
theorem mem_phaseEvents_applyAction {key : PhaseKey} {store : TSDBStore}
    (h : key ∈ store.phaseEvents.keys) (a : StoreAction) :
    key ∈ (applyAction store a).phaseEvents.keys := by
  cases a with
  | ingest env task frame =>
    obtain ⟨srows, he⟩ := handleFrame_store env frame task
    rw [applyAction, he store]
    cases reportRow env.codec frame with
    | none => exact h
    | some row => exact KeyedTable.mem_keys_insertIgnore.mpr (.inl h)
  | createJob jobId' phaseCount nodeIds createdTsNs faultManifest =>
    rw [applyAction, TSDBStore.createJob]
    split_ifs
    · exact h
    · exact h
  | setJobStatus jobId' status => exact h

theorem mem_phaseEvents_applyActions {key : PhaseKey} {store : TSDBStore}
    (h : key ∈ store.phaseEvents.keys) (actions : List StoreAction) :
    key ∈ (applyActions store actions).phaseEvents.keys := by
  induction actions generalizing store with
  | nil => exact h
  | cons a actions ih => exact ih (mem_phaseEvents_applyAction h a)

/-- Once all nodes that take part in a phase have reported it, its ranking is
final. -/
theorem ranking_final_of_reported {store : TSDBStore} {jobId : String} {phaseIndex : ℕ}
    {report : StragglerReport} (h : getStragglerReport store jobId phaseIndex = .ok report)
    {nodeIds : List String}
    (hall : ∀ nodeId ∈ nodeIds, (jobId, nodeId, phaseIndex) ∈ store.phaseEvents.keys)
    {actions : List StoreAction} (hnodes : ∀ a ∈ actions, ReportsOf nodeIds jobId phaseIndex a) :
    ∃ report', getStragglerReport (applyActions store actions) jobId phaseIndex = .ok report' ∧
      SameRanking report report' := by
  obtain ⟨new, hnew, hiff⟩ := okReports_run jobId phaseIndex store actions
  refine sameRanking_of_okReports h ?_
  rw [hnew, hiff.mpr, List.append_nil]
  rintro before a after rfl hlate
  have ha := hnodes a (List.mem_append_right _ List.mem_cons_self)
  cases a with
  | ingest env task frame =>
    obtain ⟨row, hrow, ⟨rfl, rfl⟩, _, hfresh⟩ := hlate
    exact hfresh (mem_phaseEvents_applyActions (hall row.nodeId (ha row hrow ⟨rfl, rfl⟩)) before)
  | createJob _ _ _ _ _ => exact hlate
  | setJobStatus _ _ => exact hlate

/-- The payload of a report of phase 0 of job `j`, from the start of the clocks
to the given end. -/
def reportBytes (node : UInt8) (phaseEnd : Bytes) : Bytes :=
  [0x0a, 0x01, 0x6a, 0x12, 0x01, node, 0x38] ++ phaseEnd ++ [0x42, 0x02, 0x6f, 0x6b]

/-- 10 ms and 1 s in nanoseconds, as varints. -/
def tenMsBytes : Bytes := [0x80, 0xad, 0xe2, 0x04]
def oneSecondBytes : Bytes := [0x80, 0x94, 0xeb, 0xdc, 0x03]

/-- What the generated parsers do with the reports of four nodes. -/
def fourReportsCodec : Codec where
  parseSampleBatch _ := none
  parsePhaseEvent payload :=
    [(reportBytes 0x61 tenMsBytes, ⟨"j", "a", 0, 0, 0, 0, 10000000, "ok"⟩),
      (reportBytes 0x62 tenMsBytes, ⟨"j", "b", 0, 0, 0, 0, 10000000, "ok"⟩),
      (reportBytes 0x63 tenMsBytes, ⟨"j", "c", 0, 0, 0, 0, 10000000, "ok"⟩),
      (reportBytes 0x64 oneSecondBytes,
        (⟨"j", "d", 0, 0, 0, 0, 1000000000, "ok"⟩ : PhaseEvent))].lookup payload

/-- A report arrives on a connection of its own. -/
def reportArrives (node : UInt8) (phaseEnd : Bytes) : StoreAction :=
  .ingest ⟨fourReportsCodec, fun _ => ⟨0, 0⟩, "('127.0.0.1', 9)"⟩
    (connected "('127.0.0.1', 9)").task ⟨frameTagPhaseEvent, reportBytes node phaseEnd⟩

/-- A job on four hosts, three of which have reported. -/
def threeReportsStore : TSDBStore :=
  applyActions .empty [.createJob "j" 1 ["a", "b", "c", "d"] 0 none,
    reportArrives 0x61 tenMsBytes, reportArrives 0x62 tenMsBytes, reportArrives 0x63 tenMsBytes]

/-- A retransmission and the end of the job leave the ranking as it is. -/
theorem ranking_final_iff_example :
    ∃ report, getStragglerReport threeReportsStore "j" 0 = .ok report ∧
      ((∃ report', getStragglerReport (applyActions threeReportsStore
          [reportArrives 0x61 tenMsBytes, .setJobStatus "j" .timedOut]) "j" 0 = .ok report' ∧
        SameRanking report report')
        ↔ ∀ before a after,
          [reportArrives 0x61 tenMsBytes, .setJobStatus "j" .timedOut] = before ++ a :: after →
          ¬ LateReport "j" 0 (applyActions threeReportsStore before) a) :=
  ⟨_, rfl, ranking_final_iff rfl (by decide) _⟩

/-- The three hosts that are done are ranked while the job is running; the
fourth, which is the straggler, changes the ranking. -/
theorem ranking_final_counterexample :
    ∃ report report', getStragglerReport threeReportsStore "j" 0 = .ok report ∧
      report.status = .ranked ∧
      (threeReportsStore.getJob "j").map (·.status) = some .running ∧
      getStragglerReport (applyActions threeReportsStore [reportArrives 0x64 oneSecondBytes]) "j" 0
        = .ok report' ∧
      (report.topCandidate = none ∧ report'.topCandidate = some "d") ∧
      (report.naiveBaselineCandidate = some "c" ∧ report'.naiveBaselineCandidate = some "d") ∧
      ¬ SameRanking report report' := by
  have htop : (rankStragglers "j" 0 (durationsNs threeReportsStore "j" 0)).topCandidate = none := by
    decide +kernel
  have htop' : (rankStragglers "j" 0 (durationsNs (applyActions threeReportsStore
      [reportArrives 0x64 oneSecondBytes]) "j" 0)).topCandidate = some "d" := by
    decide +kernel
  refine ⟨_, _, rfl, by decide, by decide, rfl, ⟨htop, htop'⟩, by decide +kernel, fun hsame => ?_⟩
  have hsame := hsame.topCandidate
  simp only [htop, htop'] at hsame
  cases hsame

end Api
