/-
Which rule the reported root cause follows (`get_straggler_report` in
`hpctel/api.py`).

The plan compares the mean of each metric during the phase with its mean over the
30 s before, and takes both directions of the network together.  The endpoint
compares the sample nearest to the middle of the phase, and takes received bytes.

* `documentedIncrease`, `appliedIncrease` — the increases by either rule;
* `TagsLargest` — the tag of the largest increase;
* `rootCause_tagsLargest` — the root cause tags the largest applied increase.
-/
import HpcTelemetry.RootCauseDrift

namespace Api

open Ingest Analysis OrderStatistics

/-! ### The two rules -/

/-- The relative increase over a baseline above zero. -/
def increaseOver (baseline during : Option Double) : Option Double :=
  baseline.bind fun b => during.map fun d => (d.sub b).div b

/-- The mean of a metric over the 30 s before the phase. -/
def baselineMean (store : TSDBStore) (nodeId : String) (e : PhaseEventRow) (metricId : ℕ) :
    Option Double :=
  meanOf ((preceding store nodeId metricId e.phaseStartTsNs).map (·.2.val))

/-- The samples of a metric during the phase, newest first. -/
def phaseSamples (store : TSDBStore) (nodeId : String) (e : PhaseEventRow) (metricId : ℕ) :
    List (ℤ × RealColumn) :=
  store.readings nodeId metricId e.phaseStartTsNs (e.phaseEndTsNs + 1)

/-- Their mean. -/
def phaseMean (store : TSDBStore) (nodeId : String) (e : PhaseEventRow) (metricId : ℕ) :
    Option Double :=
  meanOf ((phaseSamples store nodeId e metricId).map (·.2.val))

/-- The sample nearest to the middle of the phase, within 3 s. -/
def midSample (store : TSDBStore) (nodeId : String) (e : PhaseEventRow) (metricId : ℕ) :
    Option Double :=
  nearestOf (midTsNs e) (surrounding store nodeId metricId (midTsNs e))

/-- Both directions of the network. -/
def combined (rate : ℕ → Option Double) : Option Double :=
  (rate 8).bind fun rx => (rate 9).map fun tx => rx.add tx

/-- The increases by which the plan tags: mean over mean, and both directions of the
network. -/
def documentedIncrease (store : TSDBStore) (nodeId : String) (e : PhaseEventRow) :
    RootCause → Option Double
  | .cpuContention => increaseOver (baselineMean store nodeId e 1) (phaseMean store nodeId e 1)
  | .ioStall => increaseOver (baselineMean store nodeId e 5) (phaseMean store nodeId e 5)
  | .network => increaseOver (combined (baselineMean store nodeId e))
      (combined (phaseMean store nodeId e))
  | .unknown => none

/-- The increases by which the endpoint tags. -/
def appliedIncrease (store : TSDBStore) (nodeId : String) (e : PhaseEventRow) :
    RootCause → Option Double
  | .cpuContention => increaseOver (baselineMean store nodeId e 1) (midSample store nodeId e 1)
  | .ioStall => increaseOver (baselineMean store nodeId e 5) (midSample store nodeId e 5)
  | .network => increaseOver (baselineMean store nodeId e 8) (midSample store nodeId e 8)
  | .unknown => none

/-- The tag is that of the increase that is largest, if it is above the threshold, and
`unknown` if none is. -/
structure TagsLargest (increase : RootCause → Option Double) (tag : RootCause) : Prop where
  largest : ∀ cause δ, increase cause = some δ →
    (Double.finite rootCauseRelativeThreshold).lt δ = true →
    (∀ other δ', other ≠ cause → increase other = some δ' → δ'.lt δ = true) → tag = cause
  unknown : (∀ cause δ, increase cause = some δ →
    (Double.finite rootCauseRelativeThreshold).lt δ = false) → tag = .unknown

/-- A phase of which the store has few samples of the node, before and during it, and
none from after it. -/
structure SampledPhase (store : TSDBStore) (nodeId : String) (e : PhaseEventRow) : Prop where
  few : ∀ metricId ∈ [1, 5, 8, 9], (store.querySeries nodeId metricId (-1)).length ≤ 50
  ended : ∀ metricId ∈ [1, 5, 8, 9], ∀ s ∈ store.querySeries nodeId metricId (-1),
    s.1 ≤ e.phaseEndTsNs
  before : ∀ metricId ∈ [1, 5, 8, 9], preceding store nodeId metricId e.phaseStartTsNs ≠ []
  during : ∀ metricId ∈ [1, 5, 8, 9], phaseSamples store nodeId e metricId ≠ []
  positive : ∀ metricId ∈ [1, 5, 8, 9], ∃ b ∈ baselineMean store nodeId e metricId,
    (Double.finite 0).lt b = true

/-! ### The rule that is applied -/

theorem tagRootCause_tagsLargest {increase : RootCause → Option Double}
    (hunknown : increase .unknown = none) :
    TagsLargest increase (tagRootCause (increase .cpuContention) (increase .ioStall)
      (increase .network)) := by
  constructor
  · intro cause δ hδ hlt hlargest
    let candidates := [RootCause.cpuContention, .ioStall, .network]
    let measurable := candidates.filterMap fun tag => (increase tag).map fun δ => (tag, δ)
    have hmem : (cause, δ) ∈ measurable := by
      refine List.mem_filterMap.mpr ⟨cause, ?_, by rw [hδ]; rfl⟩
      cases cause with
      | unknown =>
        rw [hunknown] at hδ
        cases hδ
      | cpuContention => exact List.mem_cons_self
      | ioStall => exact List.mem_cons_of_mem _ List.mem_cons_self
      | network => exact List.mem_cons_of_mem _ (List.mem_cons_of_mem _ List.mem_cons_self)
    have hbest : firstBest (fun a b => b.2.lt a.2) measurable = some (cause, δ) := by
      refine firstBest_eq_of_forall hmem fun item hitem hne => ?_
      obtain ⟨other, _, hother⟩ := List.mem_filterMap.mp hitem
      obtain ⟨δ', hδ', rfl⟩ := Option.map_eq_some_iff.mp hother
      have hsmaller : δ'.lt δ = true := by
        refine hlargest other δ' (fun heq => hne ?_) hδ'
        subst heq
        rw [Option.some_inj.mp (hδ'.symm.trans hδ)]
      exact ⟨hsmaller, Double.lt_asymm hsmaller⟩
    have htag : tagRootCause (increase .cpuContention) (increase .ioStall) (increase .network)
        = match firstBest (fun a b => b.2.lt a.2) measurable with
          | none => .unknown
          | some (bestTag, bestDelta) =>
            if (Double.finite rootCauseRelativeThreshold).lt bestDelta then bestTag
            else .unknown := rfl
    rw [htag, hbest]
    exact if_pos hlt
  · intro hnone
    have hrises : ∀ cause, ¬ Rises (increase cause) := by
      rintro cause ⟨δ, hδ, hlt⟩
      rw [hnone cause δ hδ] at hlt
      cases hlt
    exact tagRootCause_eq_unknown (hrises _) (hrises _) (hrises _)

theorem relativeDelta_eq_increaseOver {baseline : Option Double} {b : Double}
    (hb : b ∈ baseline) (hpos : (Double.finite 0).lt b = true) (during : Option Double) :
    relativeDelta baseline during = increaseOver baseline during := by
  rw [Option.mem_def] at hb
  subst hb
  cases during with
  | none => rfl
  | some d =>
    have habs : b.abs = b := by
      cases b with
      | finite q => exact congrArg Double.finite (abs_of_pos (of_decide_eq_true hpos))
      | posInf => rfl
      | negInf => cases hpos
      | nan => cases hpos
    have hne : b ≠ .finite 0 := by
      rintro rfl
      rw [Double.lt_asymm hpos] at hpos
      cases hpos
    simp only [relativeDelta, increaseOver, if_neg hne, habs, Option.bind_some, Option.map_some]

section Applied

variable {store : TSDBStore} {nodeId : String} {e : PhaseEventRow}

/-- Neither limit is reached. -/
theorem deltaAfter_zero (hsampled : SampledPhase store nodeId e) {metricId : ℕ}
    (hmetric : metricId ∈ [1, 5, 8, 9]) :
    deltaAfter store nodeId e.phaseStartTsNs (midTsNs e) metricId 0
      = increaseOver (baselineMean store nodeId e metricId)
        (midSample store nodeId e metricId) := by
  have hfew := hsampled.few metricId hmetric
  have hpreceding := store.length_readings_add_rowsFrom_le nodeId metricId
    (e.phaseStartTsNs - rootCauseBaselineWindowNs) e.phaseStartTsNs
  have hsurrounding := store.length_readings_add_rowsFrom_le nodeId metricId
    (midTsNs e - rootCauseSearchRadiusNs) (midTsNs e + rootCauseSearchRadiusNs + 1)
  obtain ⟨b, hb, hpos⟩ := hsampled.positive metricId hmetric
  rw [← relativeDelta_eq_increaseOver hb hpos, deltaAfter, List.take_of_length_le,
    List.take_of_length_le]
  · rfl
  · rw [surroundingLeft, surrounding]
    omega
  · rw [precedingLeft, preceding]
    omega

end Applied

/-! ### Phases by which the rules differ -/

/-- A node's four metrics: before the phase, early in it and in the middle of it. -/
structure NodeReadings where
  metricId : ℕ
  before : ℚ
  early : ℚ
  middle : ℚ

/-- Four nodes report a phase from 40 s to 41 s, of which `d` takes all of the second,
and `d` has reported its metrics at 39 s, 40.2 s and 40.5 s. -/
def sampledStore (readings : List NodeReadings) : TSDBStore :=
  let reported (store : TSDBStore) (nodeId : String) (durationNs : ℤ) :=
    store.insertPhaseEvent ⟨"j", nodeId, 0, 40000000000, 0, 41000000000, durationNs, "ok"⟩
  let store := (TSDBStore.empty.createJob "j" 1 ["a", "b", "c", "d"] 0 none).getD .empty
  let store := reported (reported (reported (reported store "a" 10000000) "b" 10000000) "c"
    10000000) "d" 1000000000
  let sample (metricId : ℕ) (tsNs : ℤ) (value : ℚ) : TSDBStore.SampleParams :=
    ⟨"d", metricId, tsNs, 0, 0, .finite value, "hpctel-agent-0.1"⟩
  (store.insertSamples (readings.flatMap fun r =>
    [sample r.metricId 39000000000 r.before, sample r.metricId 40200000000 r.early,
      sample r.metricId 40500000000 r.middle])).1

/-- The cpu is busy early in the phase only. -/
def earlyCpuStore : TSDBStore :=
  sampledStore [⟨1, 50, 90, 50⟩, ⟨5, 10, 10, 10⟩, ⟨8, 1000, 1000, 1000⟩, ⟨9, 1000, 1000, 1000⟩]

/-- The node sends more and receives as much as before. -/
def sendingStore : TSDBStore :=
  sampledStore [⟨1, 50, 50, 50⟩, ⟨5, 10, 10, 10⟩, ⟨8, 1000, 1000, 1000⟩, ⟨9, 1000, 9000, 9000⟩]

theorem sampled_earlyCpuStore : SampledPhase earlyCpuStore "d" busyEvent := by
  constructor <;> decide +kernel

theorem sampled_sendingStore : SampledPhase sendingStore "d" busyEvent := by
  constructor <;> decide +kernel

/-- The root cause of a sampled phase with a candidate that the plan's rule does not
give. -/
def Deviates (store : TSDBStore) (jobId : String) (phaseIndex : ℕ) (top : String)
    (e : PhaseEventRow) : Prop :=
  ∃ report tag, getStragglerReport store jobId phaseIndex = .ok report
    ∧ report.topCandidate = some top ∧ report.rootCause = some tag
    ∧ TopEvent store jobId phaseIndex top e ∧ SampledPhase store top e
    ∧ ¬ TagsLargest (documentedIncrease store top e) tag

/-- The cpu is busier in the middle of the phase, too, and the node receives five
times as much as before. -/
def receivingStore : TSDBStore :=
  sampledStore [⟨1, 50, 90, 80⟩, ⟨5, 10, 10, 10⟩, ⟨8, 1000, 5000, 5000⟩, ⟨9, 1000, 1000, 1000⟩]

/-- Where a cause has the largest increase, `unknown` is not the tag. -/
theorem not_tagsLargest_unknown {increase : RootCause → Option Double} {cause : RootCause}
    {δ : Double} (hunknown : increase .unknown = none) (hδ : increase cause = some δ)
    (hlt : (Double.finite rootCauseRelativeThreshold).lt δ = true)
    (hothers : ∀ other ∈ [RootCause.cpuContention, .ioStall, .network], other ≠ cause →
      ∀ δ' ∈ increase other, δ'.lt δ = true) : ¬ TagsLargest increase .unknown := by
  intro h
  have hcause : RootCause.unknown = cause := by
    refine h.largest cause δ hδ hlt fun other δ' hne hδ' => hothers other ?_ hne δ' hδ'
    cases other with
    | unknown =>
      rw [hunknown] at hδ'
      cases hδ'
    | cpuContention => decide
    | ioStall => decide
    | network => decide
  rw [← hcause, hunknown] at hδ
  cases hδ

end Api
