/-
The straggler report of a phase (`get_straggler_report` in `hpctel/api.py`).

* `durationsNs` — the durations of the `ok` reports of a phase, by node;
* `nearestSampleValue`, `baselineMeanValue`, `relativeDelta` — the readings the
  root cause is judged by;
* `getStragglerReport` — the endpoint;
* `getStragglerReport_ok` — when it answers, and with which ranking;
* `length_durationsNs`, `durationsNs_congr` — the durations are those of the
  stored `ok` reports, and nothing else of the store matters.
-/
import HpcTelemetry.Store
import HpcTelemetry.Straggler

namespace Api

open Ingest Analysis OrderStatistics Wire

/-! ### The endpoint -/

/-- FastAPI's `HTTPException`. -/
structure HTTPException where
  statusCode : ℕ
  detail : String
  deriving DecidableEq

def rootCauseBaselineWindowNs : ℤ := 30000000000
def rootCauseSearchRadiusNs : ℤ := 3000000000

/-- `_nearest_sample_value`. -/
def nearestSampleValue (store : TSDBStore) (nodeId : String) (metricId : ℕ) (targetTsNs : ℤ) :
    Option Double :=
  let series := store.querySeries nodeId metricId 50
  let candidates := series.filter fun s => |s.1 - targetTsNs| ≤ rootCauseSearchRadiusNs
  (firstBest (fun a b => |a.1 - targetTsNs| < |b.1 - targetTsNs|) candidates).map (·.2.val)

/-- `_baseline_mean_value`. -/
def baselineMeanValue (store : TSDBStore) (nodeId : String) (metricId : ℕ) (phaseStartTsNs : ℤ) :
    Option Double :=
  let series := store.querySeries nodeId metricId 200
  let window := (series.filter fun s =>
    phaseStartTsNs - rootCauseBaselineWindowNs ≤ s.1 ∧ s.1 < phaseStartTsNs).map (·.2.val)
  if window = [] then none else some ((Double.sum window).div (.finite window.length))

/-- `_relative_delta`. -/
def relativeDelta (baseline during : Option Double) : Option Double :=
  match baseline, during with
  | some baseline, some during =>
    if baseline = .finite 0 then
      if during = .finite 0 then none else some .posInf
    else some ((during.sub baseline).div baseline.abs)
  | _, _ => none

/-- The relative delta of one metric of a node during a phase.  The names asked
for are in `METRIC_NAME_TO_ID`. -/
def metricDelta (store : TSDBStore) (nodeId metricName : String)
    (phaseStartTsNs phaseMidTsNs : ℤ) : Option Double :=
  (metricNameToId.lookup metricName).bind fun metricId =>
    relativeDelta (baselineMeanValue store nodeId metricId phaseStartTsNs)
      (nearestSampleValue store nodeId metricId phaseMidTsNs)

/-- The durations of the reports with status `ok`.  A node reports a phase once,
so no item of the comprehension overwrites another. -/
def durationsNs (store : TSDBStore) (jobId : String) (phaseIndex : ℕ) : Durations :=
  ⟨((store.listPhaseEvents jobId phaseIndex).filter (·.status = "ok")).map fun e =>
    (e.nodeId, e.phaseEndMonoNs - e.phaseStartMonoNs), by
    rw [List.map_map]
    refine (List.filter_sublist.map _).nodup ?_
    exact ((List.perm_insertionSort _ _).map _).nodup_iff.mpr
      (store.nodup_nodeIds jobId phaseIndex)⟩

/-- The root cause reported with a ranking; `none` if there is no candidate. -/
def rootCauseOf (store : TSDBStore) (jobId : String) (phaseIndex : ℕ)
    (report : StragglerReport) : Option RootCause :=
  report.topCandidate.bind fun topCandidate =>
    ((store.listPhaseEvents jobId phaseIndex).find? (·.nodeId = topCandidate)).map fun topEvent =>
      let phaseStartTsNs := topEvent.phaseStartTsNs
      let phaseMidTsNs := (topEvent.phaseStartTsNs + topEvent.phaseEndTsNs) / 2
      tagRootCause (metricDelta store topCandidate "cpu_pct" phaseStartTsNs phaseMidTsNs)
        (metricDelta store topCandidate "iowait_pct" phaseStartTsNs phaseMidTsNs)
        (metricDelta store topCandidate "net_rx_bytes_s" phaseStartTsNs phaseMidTsNs)

/-- `get_straggler_report`. -/
def getStragglerReport (store : TSDBStore) (jobId : String) (phaseIndex : ℕ) :
    Except HTTPException StragglerReport :=
  match store.getJob jobId with
  | none => .error ⟨404, "unknown job_id: " ++ jobId⟩
  | some _ =>
    let report := rankStragglers jobId phaseIndex (durationsNs store jobId phaseIndex)
    .ok { report with rootCause := rootCauseOf store jobId phaseIndex report }

/-! ### What it depends on -/

/-- The stored reports of a phase with status `ok`, in the order they came. -/
def okReports (store : TSDBStore) (jobId : String) (phaseIndex : ℕ) : List PhaseEventRow :=
  (store.phaseEvents.rows.filter fun r => r.jobId = jobId ∧ r.phaseIndex = phaseIndex).filter
    (·.status = "ok")

theorem isSome_getJob {store : TSDBStore} {jobId : String} :
    (store.getJob jobId).isSome ↔ jobId ∈ store.jobs.keys := by
  rw [TSDBStore.getJob, List.find?_isSome, KeyedTable.mem_keys]
  simp

/-- The endpoint answers for the jobs there are, with the ranking of the phase's
durations. -/
theorem getStragglerReport_ok {store : TSDBStore} {jobId : String} {phaseIndex : ℕ}
    {report : StragglerReport} :
    getStragglerReport store jobId phaseIndex = .ok report ↔ jobId ∈ store.jobs.keys ∧
      report = { rankStragglers jobId phaseIndex (durationsNs store jobId phaseIndex) with
        rootCause := rootCauseOf store jobId phaseIndex
          (rankStragglers jobId phaseIndex (durationsNs store jobId phaseIndex)) } := by
  rw [getStragglerReport, ← isSome_getJob]
  cases store.getJob jobId with
  | none =>
    constructor
    · intro h
      cases h
    · rintro ⟨h, _⟩
      cases h
  | some job =>
    constructor
    · intro h
      injection h with h
      exact ⟨rfl, h.symm⟩
    · rintro ⟨_, rfl⟩
      rfl

theorem exists_report {store : TSDBStore} {jobId : String} (h : jobId ∈ store.jobs.keys)
    (phaseIndex : ℕ) : ∃ report, getStragglerReport store jobId phaseIndex = .ok report :=
  ⟨_, getStragglerReport_ok.mpr ⟨h, rfl⟩⟩

theorem durationsNs_rows (store : TSDBStore) (jobId : String) (phaseIndex : ℕ) :
    (durationsNs store jobId phaseIndex).rows
      = ((okReports store jobId phaseIndex).insertionSort fun r r' => r.nodeId ≤ r'.nodeId).map
        fun e => (e.nodeId, e.phaseEndMonoNs - e.phaseStartMonoNs) := by
  have htotal : Std.Total fun r r' : PhaseEventRow => r.nodeId ≤ r'.nodeId :=
    ⟨fun r r' => le_total r.nodeId r'.nodeId⟩
  have htrans : IsTrans PhaseEventRow fun r r' => r.nodeId ≤ r'.nodeId :=
    ⟨fun _ _ _ => le_trans⟩
  show ((store.listPhaseEvents jobId phaseIndex).filter (·.status = "ok")).map _ = _
  rw [TSDBStore.listPhaseEvents, filter_insertionSort, okReports]

theorem length_durationsNs (store : TSDBStore) (jobId : String) (phaseIndex : ℕ) :
    (durationsNs store jobId phaseIndex).rows.length
      = (okReports store jobId phaseIndex).length := by
  rw [durationsNs_rows, List.length_map, List.length_insertionSort]

theorem durationsNs_congr {store store' : TSDBStore} {jobId : String} {phaseIndex : ℕ}
    (h : okReports store jobId phaseIndex = okReports store' jobId phaseIndex) :
    durationsNs store jobId phaseIndex = durationsNs store' jobId phaseIndex := by
  apply KeyedTable.ext
  rw [durationsNs_rows, durationsNs_rows, h]

end Api
