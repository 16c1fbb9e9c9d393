/-
What a ranking depends on.

Frames of many jobs, phases and agents reach the store in whatever order the
network delivers them, some of them more than once.  The ranking of a phase is
a function of the set of reports of that phase.

* `reportsOf` — the phase events of one phase in a history;
* `mem_reports_applyActions` — the rows stored for the phase are those, as a
  set;
* `arrival_order` — two histories with the same reports of a phase give the same
  ranking.
-/
import HpcTelemetry.Finality

namespace Api

open Ingest Analysis OrderStatistics

/-- The row of the phase event an action carries. -/
def actionRow : StoreAction → Option PhaseEventRow
  | .ingest env _ frame => reportRow env.codec frame
  | .createJob _ _ _ _ _ => none
  | .setJobStatus _ _ => none

/-- The phase events of one phase, in the order they arrive and with
repetitions. -/
def reportsOf (actions : List StoreAction) (jobId : String) (phaseIndex : ℕ) :
    List PhaseEventRow :=
  (actions.filterMap actionRow).filter fun r => r.jobId = jobId ∧ r.phaseIndex = phaseIndex

/-- No node reports the phase in two ways. -/
def OnePerNode (reports : List PhaseEventRow) : Prop :=
  ∀ row ∈ reports, ∀ row' ∈ reports, row.nodeId = row'.nodeId → row = row'

/-! ### What is stored -/

theorem phaseEvents_applyAction (store : TSDBStore) (a : StoreAction) :
    (applyAction store a).phaseEvents = store.phaseEvents.insertAll (actionRow a).toList := by
  cases a with
  | ingest env task frame =>
    obtain ⟨srows, he⟩ := handleFrame_store env frame task
    rw [applyAction, he store]
    rfl
  | createJob jobId phaseCount nodeIds createdTsNs faultManifest =>
    rw [applyAction, TSDBStore.createJob]
    split_ifs
    · rfl
    · rfl
  | setJobStatus jobId status => rfl

theorem phaseEvents_applyActions (store : TSDBStore) (actions : List StoreAction) :
    (applyActions store actions).phaseEvents
      = store.phaseEvents.insertAll (actions.filterMap actionRow) := by
  induction actions generalizing store with
  | nil => rfl
  | cons a actions ih =>
    show (applyActions (applyAction store a) actions).phaseEvents = _
    rw [ih, phaseEvents_applyAction, ← KeyedTable.insertAll_append, List.filterMap_cons]
    cases actionRow a with
    | none => rfl
    | some row => rfl

/-- Where no node reports a phase in two ways, the rows stored for it are its
reports. -/
theorem mem_reports_applyActions {actions : List StoreAction} {jobId : String} {phaseIndex : ℕ}
    (h : OnePerNode (reportsOf actions jobId phaseIndex)) (row : PhaseEventRow) :
    row ∈ ((applyActions .empty actions).phaseEvents.rows.filter fun r =>
        r.jobId = jobId ∧ r.phaseIndex = phaseIndex)
      ↔ row ∈ reportsOf actions jobId phaseIndex := by
  rw [phaseEvents_applyActions, reportsOf, List.mem_filter, List.mem_filter]
  constructor
  · rintro ⟨hrow, hphase⟩
    rcases KeyedTable.mem_rows_of_insertAll hrow with hold | hnew
    · exact absurd hold List.not_mem_nil
    · exact ⟨hnew, hphase⟩
  · rintro ⟨hrow, hphase⟩
    refine ⟨KeyedTable.mem_rows_insertAll hrow List.not_mem_nil fun row' hrow' hkey => ?_, hphase⟩
    -- a row with this key is a report of the same phase by the same node
    injection hkey with hjob hkey
    injection hkey with hnode hindex
    have hphase' : row'.jobId = jobId ∧ row'.phaseIndex = phaseIndex := by
      rw [hjob, hindex]
      exact of_decide_eq_true hphase
    exact h row' (List.mem_filter.mpr ⟨hrow', decide_eq_true hphase'⟩) row
      (List.mem_filter.mpr ⟨hrow, hphase⟩) hnode

/-! ### Two histories -/

section TwoHistories

variable {actions actions' : List StoreAction} {jobId : String} {phaseIndex : ℕ}
  (hsame : ∀ row, row ∈ reportsOf actions jobId phaseIndex
    ↔ row ∈ reportsOf actions' jobId phaseIndex)
  (hone : OnePerNode (reportsOf actions jobId phaseIndex))

include hsame hone

theorem listPhaseEvents_eq :
    (applyActions .empty actions).listPhaseEvents jobId phaseIndex
      = (applyActions .empty actions').listPhaseEvents jobId phaseIndex := by
  have hone' : OnePerNode (reportsOf actions' jobId phaseIndex) := fun row hrow row' hrow' =>
    hone row ((hsame row).mpr hrow) row' ((hsame row').mpr hrow')
  refine insertionSort_eq_of_mem_iff (TSDBStore.nodup_nodeIds _ _ _)
    (TSDBStore.nodup_nodeIds _ _ _) fun row => ?_
  rw [mem_reports_applyActions hone, mem_reports_applyActions hone', hsame]

/-- The ranking of a phase is a function of the set of its reports, whatever
order they arrive in and whatever else arrives. -/
theorem arrival_order {report report' : StragglerReport}
    (h : getStragglerReport (applyActions .empty actions) jobId phaseIndex = .ok report)
    (h' : getStragglerReport (applyActions .empty actions') jobId phaseIndex = .ok report') :
    report'.status = report.status ∧ SameRanking report report' := by
  have hdurations : durationsNs (applyActions .empty actions) jobId phaseIndex
      = durationsNs (applyActions .empty actions') jobId phaseIndex := by
    apply KeyedTable.ext
    show List.map _ (List.filter _ _) = List.map _ (List.filter _ _)
    rw [listPhaseEvents_eq hsame hone]
  obtain ⟨_, rfl⟩ := getStragglerReport_ok.mp h
  obtain ⟨_, rfl⟩ := getStragglerReport_ok.mp h'
  rw [hdurations]
  exact ⟨rfl, rfl, rfl, rfl⟩

end TwoHistories

/-- Four nodes report a phase. -/
def fourReports : List StoreAction :=
  [.createJob "j" 1 ["a", "b", "c", "d"] 0 none, reportArrives 0x61 tenMsBytes,
    reportArrives 0x62 tenMsBytes, reportArrives 0x63 tenMsBytes,
    reportArrives 0x64 oneSecondBytes]

/-- The same reports in another order, one of them before the job is stored and
once more later on. -/
def fourReportsReordered : List StoreAction :=
  [reportArrives 0x64 oneSecondBytes, .createJob "j" 1 ["a", "b", "c", "d"] 0 none,
    reportArrives 0x62 tenMsBytes, reportArrives 0x64 oneSecondBytes,
    reportArrives 0x63 tenMsBytes, reportArrives 0x61 tenMsBytes, .setJobStatus "j" .completed]

theorem arrival_order_example :
    ∃ report report',
      getStragglerReport (applyActions .empty fourReports) "j" 0 = .ok report ∧
      getStragglerReport (applyActions .empty fourReportsReordered) "j" 0 = .ok report' ∧
      (report'.status = report.status ∧ SameRanking report report') := by
  have hjob : "j" ∈ (applyActions .empty fourReports).jobs.keys := by decide
  have hjob' : "j" ∈ (applyActions .empty fourReportsReordered).jobs.keys := by decide
  obtain ⟨report, h⟩ := exists_report hjob 0
  obtain ⟨report', h'⟩ := exists_report hjob' 0
  refine ⟨report, report', h, h', arrival_order (fun row => ⟨?_, ?_⟩) ?_ h h'⟩
  · revert row
    decide
  · revert row
    decide
  · unfold OnePerNode
    decide

end Api
