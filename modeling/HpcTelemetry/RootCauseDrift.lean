/-
How long a root cause stands.

The root cause of a phase compares two readings of each metric: the sample
nearest to the middle of the phase, of the newest 50 of the series, and the mean
of the 30 s before the phase, of the newest 200.  Whatever the node goes on
reporting pushes these samples out of the two limits.

* `LaterSamples` — samples that belong to neither window;
* `metricDelta_insertSamples` — a metric after such samples: the windows have
  lost their oldest rows, and how many depends on the number of new rows only;
* `rootCause_drift_iff` — when no later samples change the root cause.
-/
import HpcTelemetry.SeriesWindows
import HpcTelemetry.StragglerReport

namespace Api

open Ingest Analysis OrderStatistics Wire

/-! ### A metric and later samples -/

/-- The ids of the three metrics a root cause is judged by. -/
def rootCauseMetricIds : List ℕ :=
  ["cpu_pct", "iowait_pct", "net_rx_bytes_s"].filterMap fun name => metricNameToId.lookup name

/-- Samples of a node and the cpu, iowait and net metrics that ingestion accepts and
that are later than both windows. -/
def LaterSamples (nodeId : String) (phaseStartTsNs phaseMidTsNs : ℤ)
    (later : List TSDBStore.SampleParams) : Prop :=
  ∀ p ∈ later, p.nodeId = nodeId ∧
    (∃ name ∈ ["cpu_pct", "iowait_pct", "net_rx_bytes_s", "net_tx_bytes_s"],
      metricNameToId.lookup name = some p.metricId) ∧
    0 ≤ p.tsNs ∧ phaseMidTsNs + rootCauseSearchRadiusNs < p.tsNs ∧ phaseStartTsNs ≤ p.tsNs

/-- The samples around the middle of the phase, newest first. -/
def surrounding (store : TSDBStore) (nodeId : String) (metricId : ℕ) (phaseMidTsNs : ℤ) :
    List (ℤ × RealColumn) :=
  store.readings nodeId metricId (phaseMidTsNs - rootCauseSearchRadiusNs)
    (phaseMidTsNs + rootCauseSearchRadiusNs + 1)

/-- How many of them `n` more rows leave among the newest 50. -/
def surroundingLeft (store : TSDBStore) (nodeId : String) (metricId : ℕ) (phaseMidTsNs : ℤ)
    (n : ℕ) : ℕ :=
  50 - (store.rowsFrom nodeId metricId (phaseMidTsNs + rootCauseSearchRadiusNs + 1) + n)

/-- The samples of the 30 s before the phase, newest first. -/
def preceding (store : TSDBStore) (nodeId : String) (metricId : ℕ) (phaseStartTsNs : ℤ) :
    List (ℤ × RealColumn) :=
  store.readings nodeId metricId (phaseStartTsNs - rootCauseBaselineWindowNs) phaseStartTsNs

/-- How many of them `n` more rows leave among the newest 200. -/
def precedingLeft (store : TSDBStore) (nodeId : String) (metricId : ℕ) (phaseStartTsNs : ℤ)
    (n : ℕ) : ℕ :=
  200 - (store.rowsFrom nodeId metricId phaseStartTsNs + n)

/-- The value nearest to a time. -/
def nearestOf (target : ℤ) (readings : List (ℤ × RealColumn)) : Option Double :=
  (firstBest (fun a b => |a.1 - target| < |b.1 - target|) readings).map (·.2.val)

/-- The mean of the values. -/
def meanOf (values : List Double) : Option Double :=
  if values = [] then none else some ((Double.sum values).div (.finite values.length))

/-- The relative delta of a metric once `n` more rows have pushed the windows' oldest
rows out of the limits. -/
def deltaAfter (store : TSDBStore) (nodeId : String) (phaseStartTsNs phaseMidTsNs : ℤ)
    (metricId n : ℕ) : Option Double :=
  relativeDelta
    (meanOf (((preceding store nodeId metricId phaseStartTsNs).take
      (precedingLeft store nodeId metricId phaseStartTsNs n)).map (·.2.val)))
    (nearestOf phaseMidTsNs ((surrounding store nodeId metricId phaseMidTsNs).take
      (surroundingLeft store nodeId metricId phaseMidTsNs n)))

/-- `n` more rows push no row of the windows out of the limits that is within them. -/
structure KeepsVisible (store : TSDBStore) (nodeId : String) (phaseStartTsNs phaseMidTsNs : ℤ)
    (metricId n : ℕ) : Prop where
  surrounding : min (surrounding store nodeId metricId phaseMidTsNs).length
      (surroundingLeft store nodeId metricId phaseMidTsNs 0)
    ≤ surroundingLeft store nodeId metricId phaseMidTsNs n
  preceding : min (preceding store nodeId metricId phaseStartTsNs).length
      (precedingLeft store nodeId metricId phaseStartTsNs 0)
    ≤ precedingLeft store nodeId metricId phaseStartTsNs n

/-- The delta is above the threshold. -/
def Rises (delta : Option Double) : Prop :=
  ∃ d, delta = some d ∧ (Double.finite rootCauseRelativeThreshold).lt d = true

section Metric

variable {store : TSDBStore} {nodeId : String} {phaseStartTsNs phaseMidTsNs : ℤ}
  {later : List TSDBStore.SampleParams}

theorem nearestSampleValue_insertSamples
    (h : LaterSamples nodeId phaseStartTsNs phaseMidTsNs later) (metricId : ℕ) :
    nearestSampleValue (store.insertSamples later).1 nodeId metricId phaseMidTsNs
      = nearestOf phaseMidTsNs ((surrounding store nodeId metricId phaseMidTsNs).take
          (surroundingLeft store nodeId metricId phaseMidTsNs
            (store.added later nodeId metricId))) := by
  have hlater : ∀ p ∈ later, phaseMidTsNs + rootCauseSearchRadiusNs + 1 ≤ p.tsNs := fun p hp =>
    (h p hp).2.2.2.1
  have hwindow : ∀ series : List (ℤ × RealColumn),
      (series.filter fun s => |s.1 - phaseMidTsNs| ≤ rootCauseSearchRadiusNs)
        = series.filter fun s => phaseMidTsNs - rootCauseSearchRadiusNs ≤ s.1 ∧
            s.1 < phaseMidTsNs + rootCauseSearchRadiusNs + 1 := by
    intro series
    refine List.filter_congr fun s _ => decide_eq_decide.mpr ?_
    rw [abs_le]
    omega
  rw [nearestSampleValue, hwindow, show (50 : ℤ) = ((50 : ℕ) : ℤ) from rfl,
    TSDBStore.filter_querySeries, TSDBStore.readings_insertSamples hlater,
    TSDBStore.rowsFrom_insertSamples hlater]
  rfl

theorem baselineMeanValue_insertSamples
    (h : LaterSamples nodeId phaseStartTsNs phaseMidTsNs later) (metricId : ℕ) :
    baselineMeanValue (store.insertSamples later).1 nodeId metricId phaseStartTsNs
      = meanOf (((preceding store nodeId metricId phaseStartTsNs).take
          (precedingLeft store nodeId metricId phaseStartTsNs
            (store.added later nodeId metricId))).map (·.2.val)) := by
  have hlater : ∀ p ∈ later, phaseStartTsNs ≤ p.tsNs := fun p hp => (h p hp).2.2.2.2
  rw [baselineMeanValue, show (200 : ℤ) = ((200 : ℕ) : ℤ) from rfl, TSDBStore.filter_querySeries,
    TSDBStore.readings_insertSamples hlater, TSDBStore.rowsFrom_insertSamples hlater]
  rfl

/-- What later samples do to a metric. -/
theorem metricDelta_insertSamples
    (h : LaterSamples nodeId phaseStartTsNs phaseMidTsNs later) {metricName : String}
    {metricId : ℕ} (hname : metricNameToId.lookup metricName = some metricId) :
    metricDelta (store.insertSamples later).1 nodeId metricName phaseStartTsNs phaseMidTsNs
      = deltaAfter store nodeId phaseStartTsNs phaseMidTsNs metricId
          (store.added later nodeId metricId) := by
  rw [metricDelta, hname, Option.bind_some, nearestSampleValue_insertSamples h,
    baselineMeanValue_insertSamples h]
  rfl

theorem deltaAfter_of_keepsVisible {metricId n : ℕ}
    (h : KeepsVisible store nodeId phaseStartTsNs phaseMidTsNs metricId n) :
    deltaAfter store nodeId phaseStartTsNs phaseMidTsNs metricId n
      = deltaAfter store nodeId phaseStartTsNs phaseMidTsNs metricId 0 := by
  have hsurrounding : surroundingLeft store nodeId metricId phaseMidTsNs n
      ≤ surroundingLeft store nodeId metricId phaseMidTsNs 0 := by
    rw [surroundingLeft, surroundingLeft]
    omega
  have hpreceding : precedingLeft store nodeId metricId phaseStartTsNs n
      ≤ precedingLeft store nodeId metricId phaseStartTsNs 0 := by
    rw [precedingLeft, precedingLeft]
    omega
  rw [deltaAfter, deltaAfter, take_eq_take_of_min_le hsurrounding h.surrounding,
    take_eq_take_of_min_le hpreceding h.preceding]

/-- With 200 rows more nothing is left of the windows. -/
theorem deltaAfter_of_le {metricId n : ℕ} (h : 200 ≤ n) :
    deltaAfter store nodeId phaseStartTsNs phaseMidTsNs metricId n = none := by
  have hnone : precedingLeft store nodeId metricId phaseStartTsNs n = 0 := by
    rw [precedingLeft]
    omega
  rw [deltaAfter, hnone, List.take_zero]
  rfl

end Metric

/-! ### The tag -/

/-- The tag once more rows have come, so many for each metric. -/
def tagAfter (store : TSDBStore) (nodeId : String) (phaseStartTsNs phaseMidTsNs : ℤ)
    (n : ℕ → ℕ) : RootCause :=
  tagRootCause (deltaAfter store nodeId phaseStartTsNs phaseMidTsNs 1 (n 1))
    (deltaAfter store nodeId phaseStartTsNs phaseMidTsNs 5 (n 5))
    (deltaAfter store nodeId phaseStartTsNs phaseMidTsNs 8 (n 8))

theorem tagRootCause_eq_unknown {cpu iowait net : Option Double} (hcpu : ¬ Rises cpu)
    (hiowait : ¬ Rises iowait) (hnet : ¬ Rises net) : tagRootCause cpu iowait net = .unknown := by
  rw [tagRootCause]
  split
  · rfl
  · rename_i bestTag bestDelta hbest
    obtain ⟨⟨tag, delta⟩, hmem, hdelta⟩ := List.mem_filterMap.mp (mem_of_firstBest hbest)
    obtain ⟨d, hd, hpair⟩ := Option.map_eq_some_iff.mp hdelta
    obtain ⟨_, rfl⟩ := Prod.mk.inj hpair
    refine if_neg fun hlt => ?_
    have hrises : Rises delta := ⟨d, hd, hlt⟩
    simp only [List.mem_cons, List.not_mem_nil, or_false, Prod.mk.injEq] at hmem
    rcases hmem with ⟨_, rfl⟩ | ⟨_, rfl⟩ | ⟨_, rfl⟩
    · exact hcpu hrises
    · exact hiowait hrises
    · exact hnet hrises

/-- A metric that rises on its own is the root cause. -/
theorem tagRootCause_of_rises {delta : Option Double} (h : Rises delta) :
    tagRootCause delta none none = .cpuContention ∧ tagRootCause none delta none = .ioStall ∧
      tagRootCause none none delta = .network := by
  obtain ⟨d, rfl, hd⟩ := h
  exact ⟨if_pos hd, if_pos hd, if_pos hd⟩

/-- The event the endpoint takes the times of the phase from. -/
def TopEvent (store : TSDBStore) (jobId : String) (phaseIndex : ℕ) (top : String)
    (e : PhaseEventRow) : Prop :=
  (store.listPhaseEvents jobId phaseIndex).find? (·.nodeId = top) = some e

/-- `phase_mid_ts_ns`. -/
def midTsNs (e : PhaseEventRow) : ℤ := (e.phaseStartTsNs + e.phaseEndTsNs) / 2

/-- Both stores answer, with the same root cause. -/
def SameRootCause (store store' : TSDBStore) (jobId : String) (phaseIndex : ℕ) : Prop :=
  ∃ report report', getStragglerReport store jobId phaseIndex = .ok report ∧
    getStragglerReport store' jobId phaseIndex = .ok report' ∧
    report'.rootCause = report.rootCause

section Report

variable {store : TSDBStore} {jobId : String} {phaseIndex : ℕ} {report : StragglerReport}
  {top : String} {e : PhaseEventRow}

/-- There is such an event, since the candidate has a duration. -/
theorem exists_topEvent (h : getStragglerReport store jobId phaseIndex = .ok report)
    (htop : report.topCandidate = some top) : ∃ e, TopEvent store jobId phaseIndex top e := by
  obtain ⟨_, rfl⟩ := getStragglerReport_ok.mp h
  have hranked : ∃ node ∈ rankedNodes (durationsNs store jobId phaseIndex), node.nodeId = top := by
    simp only [rankStragglers] at htop
    split_ifs at htop
    obtain ⟨node, hnode, hid⟩ := Option.map_eq_some_iff.mp htop
    exact ⟨node, (List.mem_filter.mp (List.mem_of_mem_head? hnode)).1, hid⟩
  obtain ⟨node, hnode, rfl⟩ := hranked
  rw [rankedNodes, List.mem_insertionSort] at hnode
  obtain ⟨item, hitem, rfl⟩ := List.mem_map.mp hnode
  obtain ⟨e, he, rfl⟩ := List.mem_map.mp hitem
  refine Option.isSome_iff_exists.mp (List.find?_isSome.mpr ⟨e, (List.mem_filter.mp he).1, ?_⟩)
  exact decide_eq_true rfl

variable {later : List TSDBStore.SampleParams}

theorem rootCauseOf_insertSamples (htop : report.topCandidate = some top)
    (he : TopEvent store jobId phaseIndex top e)
    (hlater : LaterSamples top e.phaseStartTsNs (midTsNs e) later) :
    rootCauseOf (store.insertSamples later).1 jobId phaseIndex report
      = some (tagAfter store top e.phaseStartTsNs (midTsNs e) (store.added later top)) := by
  -- the phase events are another table
  have he' : ((store.insertSamples later).1.listPhaseEvents jobId phaseIndex).find?
      (·.nodeId = top) = some e := he
  rw [rootCauseOf, htop, Option.bind_some, he', Option.map_some, tagAfter,
    ← metricDelta_insertSamples hlater (show metricNameToId.lookup "cpu_pct" = some 1 from rfl),
    ← metricDelta_insertSamples hlater (show metricNameToId.lookup "iowait_pct" = some 5 from rfl),
    ← metricDelta_insertSamples hlater
      (show metricNameToId.lookup "net_rx_bytes_s" = some 8 from rfl)]
  rfl

/-- The report after later samples. -/
theorem getStragglerReport_insertSamples
    (h : getStragglerReport store jobId phaseIndex = .ok report)
    (htop : report.topCandidate = some top) (he : TopEvent store jobId phaseIndex top e)
    (hlater : LaterSamples top e.phaseStartTsNs (midTsNs e) later) :
    ∃ report', getStragglerReport (store.insertSamples later).1 jobId phaseIndex = .ok report' ∧
      report'.rootCause
        = some (tagAfter store top e.phaseStartTsNs (midTsNs e) (store.added later top)) := by
  obtain ⟨hjob, rfl⟩ := getStragglerReport_ok.mp h
  exact ⟨_, getStragglerReport_ok.mpr ⟨hjob, rfl⟩, rootCauseOf_insertSamples htop he hlater⟩

end Report

/-! ### Samples to come -/

/-- A node goes on sampling: `n metricId` zeros for each metric, from `ts` on. -/
def samplesToCome (nodeId : String) (ts : ℤ) (n : ℕ → ℕ) : List TSDBStore.SampleParams :=
  rootCauseMetricIds.flatMap fun metricId => (List.range (n metricId)).map fun i : ℕ =>
    ⟨nodeId, metricId, ts + i, 0, 0, .finite 0, "hpctel-agent-0.1"⟩

theorem laterSamples_samplesToCome {nodeId : String} {ts phaseStartTsNs phaseMidTsNs : ℤ}
    (hpos : 0 ≤ ts) (hmid : phaseMidTsNs + rootCauseSearchRadiusNs < ts)
    (hstart : phaseStartTsNs ≤ ts) (n : ℕ → ℕ) :
    LaterSamples nodeId phaseStartTsNs phaseMidTsNs (samplesToCome nodeId ts n) := by
  intro p hp
  obtain ⟨metricId, hmetric, hp⟩ := List.mem_flatMap.mp hp
  obtain ⟨i, _, rfl⟩ := List.mem_map.mp hp
  obtain ⟨name, hname, hlookup⟩ := List.mem_filterMap.mp hmetric
  refine ⟨rfl, ⟨name, ?_, hlookup⟩, ?_, ?_, ?_⟩
  · exact List.mem_append_left ["net_tx_bytes_s"] hname
  · show 0 ≤ ts + i
    omega
  · show phaseMidTsNs + rootCauseSearchRadiusNs < ts + i
    omega
  · show phaseStartTsNs ≤ ts + i
    omega

theorem mem_keys_samplesToCome {nodeId : String} {ts : ℤ} {n : ℕ → ℕ} {k : SampleKey} :
    k ∈ ((samplesToCome nodeId ts n).filterMap TSDBStore.SampleParams.toRow).map SampleRow.key
      ↔ ∃ metricId ∈ rootCauseMetricIds, ∃ i < n metricId,
        k = (nodeId, metricId, ts + (i : ℤ)) := by
  constructor
  · intro hk
    obtain ⟨r, hr, rfl⟩ := List.mem_map.mp hk
    obtain ⟨p, hp, hrow⟩ := List.mem_filterMap.mp hr
    obtain ⟨metricId, hmetric, hp⟩ := List.mem_flatMap.mp hp
    obtain ⟨i, hi, rfl⟩ := List.mem_map.mp hp
    exact ⟨metricId, hmetric, i, List.mem_range.mp hi, TSDBStore.SampleParams.key_of_toRow hrow⟩
  · rintro ⟨metricId, hmetric, i, hi, rfl⟩
    refine List.mem_map.mpr ⟨⟨nodeId, metricId, ts + i, 0, 0, ⟨.finite 0, Double.noConfusion⟩,
      "hpctel-agent-0.1"⟩, List.mem_filterMap.mpr ⟨_, List.mem_flatMap.mpr ⟨metricId, hmetric,
        List.mem_map.mpr ⟨i, List.mem_range.mpr hi, rfl⟩⟩, rfl⟩, rfl⟩

/-- All of these samples are stored if they are later than everything else. -/
theorem added_samplesToCome {store : TSDBStore} {nodeId : String} {ts : ℤ} {n : ℕ → ℕ}
    (hfree : ∀ r ∈ store.samples.rows, r.tsNs < ts) {metricId : ℕ}
    (hmetric : metricId ∈ rootCauseMetricIds) :
    store.added (samplesToCome nodeId ts n) nodeId metricId = n metricId := by
  have hnodup : ((List.range (n metricId)).map fun i : ℕ =>
      ((nodeId, metricId, ts + (i : ℤ)) : SampleKey)).Nodup := by
    refine List.nodup_range.map fun i j hij => ?_
    simpa using hij
  have hperm := (List.perm_ext_iff_of_nodup ((List.nodup_dedup
    (((samplesToCome nodeId ts n).filterMap TSDBStore.SampleParams.toRow).map
      SampleRow.key)).filter fun k =>
        k ∉ store.samples.keys ∧ k.1 = nodeId ∧ k.2.1 = metricId) hnodup).mpr fun k => ?_
  · rw [TSDBStore.added, hperm.length_eq, List.length_map, List.length_range]
  · rw [List.mem_filter, List.mem_dedup, mem_keys_samplesToCome, decide_eq_true_iff, List.mem_map]
    constructor
    · rintro ⟨⟨metricId', _, i, hi, rfl⟩, _, _, rfl⟩
      exact ⟨i, List.mem_range.mpr hi, rfl⟩
    · rintro ⟨i, hi, rfl⟩
      refine ⟨⟨metricId, hmetric, i, List.mem_range.mp hi, rfl⟩, fun hkey => ?_, rfl, rfl⟩
      obtain ⟨r, hr, hkey⟩ := KeyedTable.mem_keys.mp hkey
      have hts : r.tsNs = ts + i := congrArg (fun k => k.2.2) hkey
      have hlt := hfree r hr
      omega

/-- There is always a time to go on from. -/
theorem exists_time_to_come (store : TSDBStore) (lo : ℤ) :
    ∃ ts, lo ≤ ts ∧ ∀ r ∈ store.samples.rows, r.tsNs < ts := by
  obtain ⟨m, hm⟩ := (lo :: store.samples.rows.map SampleRow.tsNs).toFinset.exists_le
  refine ⟨m + 1, ?_, fun r hr => ?_⟩
  · have hlo := hm lo (List.mem_toFinset.mpr List.mem_cons_self)
    omega
  · have hr := hm r.tsNs (List.mem_toFinset.mpr (List.mem_cons_of_mem _ (List.mem_map_of_mem hr)))
    omega

/-! ### Drift -/

/-- When the root cause of a phase stays what it is.  A relative delta is what
`_relative_delta` makes of the two readings: over a mean of zero it is infinite,
whatever the sign of the other one. -/
structure RootCauseDrift (store : TSDBStore) (jobId : String) (phaseIndex : ℕ) (top : String)
    (phaseStartTsNs phaseMidTsNs : ℤ) : Prop where
  /-- Later samples leave it as it is if they leave all the rows that are visible. -/
  keeping : ∀ later, LaterSamples top phaseStartTsNs phaseMidTsNs later →
    (∀ metricId ∈ rootCauseMetricIds, KeepsVisible store top phaseStartTsNs phaseMidTsNs metricId
      (store.added later top metricId)) →
    SameRootCause store (store.insertSamples later).1 jobId phaseIndex
  /-- All later samples do if no metric rises, whatever is cut off its windows. -/
  all : (∀ later, LaterSamples top phaseStartTsNs phaseMidTsNs later →
      SameRootCause store (store.insertSamples later).1 jobId phaseIndex)
    ↔ ∀ metricId ∈ rootCauseMetricIds, ∀ n,
      ¬ Rises (deltaAfter store top phaseStartTsNs phaseMidTsNs metricId n)

section Drift

variable {store : TSDBStore} {nodeId : String} {phaseStartTsNs phaseMidTsNs : ℤ}

theorem tagAfter_congr {n n' : ℕ → ℕ} (h : ∀ metricId ∈ rootCauseMetricIds,
      deltaAfter store nodeId phaseStartTsNs phaseMidTsNs metricId (n metricId)
        = deltaAfter store nodeId phaseStartTsNs phaseMidTsNs metricId (n' metricId)) :
    tagAfter store nodeId phaseStartTsNs phaseMidTsNs n
      = tagAfter store nodeId phaseStartTsNs phaseMidTsNs n' := by
  rw [tagAfter, tagAfter, h 1 (by decide), h 5 (by decide), h 8 (by decide)]

theorem tagAfter_eq_unknown {n : ℕ → ℕ} (h : ∀ metricId ∈ rootCauseMetricIds,
      ¬ Rises (deltaAfter store nodeId phaseStartTsNs phaseMidTsNs metricId (n metricId))) :
    tagAfter store nodeId phaseStartTsNs phaseMidTsNs n = .unknown :=
  tagRootCause_eq_unknown (h 1 (by decide)) (h 5 (by decide)) (h 8 (by decide))

/-- With nothing left of the windows of the other metrics, one that rises is the
root cause. -/
theorem tagAfter_ne_unknown {metricId k : ℕ} (hmetric : metricId ∈ rootCauseMetricIds)
    (h : Rises (deltaAfter store nodeId phaseStartTsNs phaseMidTsNs metricId k)) :
    tagAfter store nodeId phaseStartTsNs phaseMidTsNs
      (fun id => if id = metricId then k else 200) ≠ .unknown := by
  have hgone : ∀ id, deltaAfter store nodeId phaseStartTsNs phaseMidTsNs id 200 = none :=
    fun id => deltaAfter_of_le le_rfl
  obtain ⟨hcpu, hiowait, hnet⟩ := tagRootCause_of_rises h
  have hids : metricId = 1 ∨ metricId = 5 ∨ metricId = 8 := by
    rw [show rootCauseMetricIds = [1, 5, 8] from rfl] at hmetric
    simpa using hmetric
  rcases hids with rfl | rfl | rfl
  · rw [tagAfter, if_pos rfl, if_neg (by decide), if_neg (by decide), hgone, hgone, hcpu]
    decide
  · rw [tagAfter, if_neg (by decide), if_pos rfl, if_neg (by decide), hgone, hgone, hiowait]
    decide
  · rw [tagAfter, if_neg (by decide), if_neg (by decide), if_pos rfl, hgone, hgone, hnet]
    decide

section TopEvent

variable {jobId : String} {phaseIndex : ℕ} {report : StragglerReport} {top : String}
  {e : PhaseEventRow} (h : getStragglerReport store jobId phaseIndex = .ok report)
  (htop : report.topCandidate = some top) (he : TopEvent store jobId phaseIndex top e)

include h htop he

theorem rootCause_eq_tagAfter : report.rootCause
    = some (tagAfter store top e.phaseStartTsNs (midTsNs e) fun _ => 0) := by
  -- no samples are later samples, too
  have hnone : LaterSamples top e.phaseStartTsNs (midTsNs e) [] := fun p hp =>
    absurd hp List.not_mem_nil
  obtain ⟨report', h', hcause⟩ := getStragglerReport_insertSamples h htop he hnone
  have hsame : Except.ok report' = Except.ok report := h'.symm.trans h
  injection hsame with hsame
  rw [← hsame, hcause]
  rfl

theorem sameRootCause_iff {later : List TSDBStore.SampleParams}
    (hlater : LaterSamples top e.phaseStartTsNs (midTsNs e) later) :
    SameRootCause store (store.insertSamples later).1 jobId phaseIndex
      ↔ tagAfter store top e.phaseStartTsNs (midTsNs e) (store.added later top)
        = tagAfter store top e.phaseStartTsNs (midTsNs e) fun _ => 0 := by
  have hnow := rootCause_eq_tagAfter h htop he
  obtain ⟨report', h', hcause⟩ := getStragglerReport_insertSamples h htop he hlater
  constructor
  · rintro ⟨r, r', hr, hr', hsame⟩
    rw [h, Except.ok.injEq] at hr
    rw [h', Except.ok.injEq] at hr'
    rw [← hr, ← hr', hcause, hnow, Option.some_inj] at hsame
    exact hsame
  · intro htag
    refine ⟨report, report', h, h', ?_⟩
    rw [hcause, hnow, htag]

/-- If no later samples change the tag, the tag is what it is after any numbers of
them. -/
theorem tagAfter_eq_of_forall
    (hall : ∀ later, LaterSamples top e.phaseStartTsNs (midTsNs e) later →
      SameRootCause store (store.insertSamples later).1 jobId phaseIndex) (n : ℕ → ℕ) :
    tagAfter store top e.phaseStartTsNs (midTsNs e) n
      = tagAfter store top e.phaseStartTsNs (midTsNs e) fun _ => 0 := by
  obtain ⟨ts, hlo, hfree⟩ := exists_time_to_come store
    (max 0 (max (midTsNs e + rootCauseSearchRadiusNs + 1) e.phaseStartTsNs))
  obtain ⟨hpos, hlo⟩ := max_le_iff.mp hlo
  obtain ⟨hmid, hstart⟩ := max_le_iff.mp hlo
  have hlater : LaterSamples top e.phaseStartTsNs (midTsNs e) (samplesToCome top ts n) :=
    laterSamples_samplesToCome hpos hmid hstart n
  rw [← (sameRootCause_iff h htop he hlater).mp (hall _ hlater)]
  refine tagAfter_congr fun id hid => ?_
  rw [added_samplesToCome hfree hid]

theorem rootCauseDrift_of_topEvent :
    RootCauseDrift store jobId phaseIndex top e.phaseStartTsNs (midTsNs e) := by
  refine ⟨fun later hlater hkeeps => ?_, ?_⟩
  · refine (sameRootCause_iff h htop he hlater).mpr (tagAfter_congr fun metricId hmetric => ?_)
    exact deltaAfter_of_keepsVisible (hkeeps metricId hmetric)
  · constructor
    · intro hall metricId hmetric k hrises
      -- so many samples that the windows of all metrics are lost, or of all but this one
      have hlost : tagAfter store top e.phaseStartTsNs (midTsNs e) (fun _ => 200) = .unknown := by
        refine tagAfter_eq_unknown fun id _ hc => ?_
        obtain ⟨d, hd, _⟩ := hc
        rw [deltaAfter_of_le le_rfl] at hd
        cases hd
      have hkept := tagAfter_ne_unknown hmetric hrises
      rw [tagAfter_eq_of_forall h htop he hall,
        ← tagAfter_eq_of_forall h htop he hall fun _ => 200] at hkept
      exact hkept hlost
    · intro hnever later hlater
      refine (sameRootCause_iff h htop he hlater).mpr ?_
      rw [tagAfter_eq_unknown fun id hid => hnever id hid _,
        tagAfter_eq_unknown fun id hid => hnever id hid _]

end TopEvent

end Drift

/-- Four nodes report a phase from 40 s to 41 s.  The cpu of `d`, which takes 1 s, is
at 10 % before and at 90 % in the middle of the phase. -/
def busyNodeStore : TSDBStore :=
  let reported (store : TSDBStore) (nodeId : String) (durationNs : ℤ) :=
    store.insertPhaseEvent ⟨"j", nodeId, 0, 40000000000, 0, 41000000000, durationNs, "ok"⟩
  let store := (TSDBStore.empty.createJob "j" 1 ["a", "b", "c", "d"] 0 none).getD .empty
  let store := reported (reported (reported (reported store "a" 10000000) "b" 10000000) "c"
    10000000) "d" 1000000000
  (store.insertSamples [⟨"d", 1, 39000000000, 0, 0, .finite 10, "hpctel-agent-0.1"⟩,
    ⟨"d", 1, 40500000000, 0, 0, .finite 90, "hpctel-agent-0.1"⟩]).1

/-- The agent of `d` goes on for 50 s. -/
def fiftySeconds : List TSDBStore.SampleParams :=
  (List.range 50).map fun i : ℕ =>
    ⟨"d", 1, 44000000000 + 1000000000 * i, 0, 0, .finite 10, "hpctel-agent-0.1"⟩

def busyEvent : PhaseEventRow := ⟨"j", "d", 0, 40000000000, 0, 41000000000, 1000000000, "ok"⟩

theorem busyNodeStore_top : ∃ report, getStragglerReport busyNodeStore "j" 0 = .ok report ∧
    report.topCandidate = some "d" ∧ report.rootCause = some .cpuContention := by
  refine ⟨_, rfl, ?_, ?_⟩
  · decide +kernel
  · decide +kernel

end Api
