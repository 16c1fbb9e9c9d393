/-
The summary of a batch of trials (`_summarize`).

The counts of the estimands come from the results that exist, by different
filters, and each goes into `_decide` with a number of trials of its own.

* `decide_total` — when `_decide` returns;
* `summarize_eq_error` — without a detection the conditional estimand divides by
  zero;
* `summarize_total_iff` — the summary exists exactly if some trial is a
  detection.
-/
import HpcTelemetry.Decisions
import HpcTelemetry.Trials

namespace Eval

open Analysis Analysis.Stats

structure Manifest where
  faultTrials : List Trial
  noFaultTrials : List Trial

/-- `DETECTION_LOWER_BOUND_THRESHOLD`. -/
noncomputable def detectionLowerBoundThreshold : ℝ := 0.75

/-- `FP_UPPER_BOUND_THRESHOLD`. -/
noncomputable def fpUpperBoundThreshold : ℝ := 0.15

/-- `NO_FAULT_FP_UPPER_BOUND_THRESHOLD`. -/
noncomputable def noFaultFpUpperBoundThreshold : ℝ := 0.10

/-- `_EXPECTED_TAG.get`. -/
def expectedTag (faultType : Option String) : Option RootCause :=
  if faultType = some "cpu_contention" then some .cpuContention
  else if faultType = some "io_stall" then some .ioStall
  else none

/-- `_load_results`, where `results` are the files that exist. -/
def loadResults (results : String → Option TrialResult) (trialIds : List String) :
    List TrialResult :=
  trialIds.filterMap results

/-- `fault_results`. -/
def Manifest.faultResults (manifest : Manifest) (results : String → Option TrialResult) :
    List TrialResult :=
  loadResults results (manifest.faultTrials.map (·.trialId))

/-- `no_fault_results`. -/
def Manifest.noFaultResults (manifest : Manifest) (results : String → Option TrialResult) :
    List TrialResult :=
  loadResults results (manifest.noFaultTrials.map (·.trialId))

structure TrialOutcomes where
  completed : ℤ
  aborted : ℤ
  notYetRun : ℤ

def trialOutcomes (trialIds : List String) (results : List TrialResult) : TrialOutcomes :=
  { completed := (completedTrials results).length
    aborted := results.length - (completedTrials results).length
    notYetRun := trialIds.length - results.length }

structure Summary where
  estimand1Top1DetectionRate : Decision
  estimand2TrialLevelFalsePositiveRate : Decision
  estimand3NoFaultFalseFlagRate : Decision
  estimand4RootCauseTagAccuracy : Decision
  estimand4Note : String
  naiveBaselineTop1DetectionRate : Decision
  detectionRateByFaultType : List (String × Decision)
  primaryClaimSupported : Bool
  faultTrialOutcomes : TrialOutcomes
  noFaultTrialOutcomes : TrialOutcomes

/-! ### Counts -/

/-- The report names the node that the fault was for. -/
def IsDetection (r : CompletedTrial) : Prop :=
  r.stragglerStatus = .ranked ∧ r.topCandidate = r.expectedTargetNodeId

instance (r : CompletedTrial) : Decidable (IsDetection r) := inferInstanceAs (Decidable (_ ∧ _))

/-- `fault_false_positive_trials`. -/
def faultFalsePositiveTrials (completedFault : List CompletedTrial) : ℕ :=
  (completedFault.filter fun r => r.stragglerStatus = .ranked ∧
    r.rankedNodes.any fun n => n.flagged ∧ some n.nodeId ≠ r.expectedTargetNodeId).length

/-- `no_fault_false_flags`. -/
def noFaultFalseFlags (completedNoFault : List CompletedTrial) : ℕ :=
  (completedNoFault.filter fun r => r.stragglerStatus = .ranked ∧
    r.rankedNodes.any fun n => n.flagged).length

/-- `true_positives`. -/
def truePositives (completedFault : List CompletedTrial) : List CompletedTrial :=
  completedFault.filter fun r => IsDetection r

/-- `tag_matches`. -/
def tagMatches (truePositives : List CompletedTrial) : ℕ :=
  (truePositives.filter fun r => r.rootCause = expectedTag r.faultType).length

/-- `naive_detections`. -/
def naiveDetections (completedFault : List CompletedTrial) : ℕ :=
  (completedFault.filter fun r => r.naiveBaselineCandidate = r.expectedTargetNodeId).length

/-- The decision of one fault type. -/
noncomputable def decideFaultType (completedFault : List CompletedTrial) (faultType : String) :
    Except StatsError (String × Decision) := do
  let subset := completedFault.filter fun r => r.faultType = some faultType
  let subsetDetections := (subset.filter fun r => r.topCandidate = r.expectedTargetNodeId).length
  let decision ← Decision.decide subsetDetections subset.length 40 false
    detectionLowerBoundThreshold
  return (faultType, decision)

/-- `_summarize`. -/
noncomputable def summarize (manifest : Manifest) (results : String → Option TrialResult) :
    Except StatsError Summary := do
  let faultTrialIds := manifest.faultTrials.map (·.trialId)
  let noFaultTrialIds := manifest.noFaultTrials.map (·.trialId)
  let faultResults := manifest.faultResults results
  let noFaultResults := manifest.noFaultResults results
  let completedFault := completedTrials faultResults
  let completedNoFault := completedTrials noFaultResults
  let estimand1 ← Decision.decide (detections faultResults) completedFault.length
    faultTrialIds.length false detectionLowerBoundThreshold
  let estimand2 ← Decision.decide (faultFalsePositiveTrials completedFault) completedFault.length
    faultTrialIds.length true fpUpperBoundThreshold
  let estimand3 ← Decision.decide (noFaultFalseFlags completedNoFault) completedNoFault.length
    noFaultTrialIds.length true noFaultFpUpperBoundThreshold
  let truePositives := truePositives completedFault
  let estimand4 ← Decision.decide (tagMatches truePositives) truePositives.length
    truePositives.length false 0
  let naiveBaseline ← Decision.decide (naiveDetections completedFault) completedFault.length
    faultTrialIds.length false detectionLowerBoundThreshold
  let cpuContention ← decideFaultType completedFault "cpu_contention"
  let ioStall ← decideFaultType completedFault "io_stall"
  return {
    estimand1Top1DetectionRate := estimand1
    estimand2TrialLevelFalsePositiveRate := estimand2
    estimand3NoFaultFalseFlagRate := estimand3
    estimand4RootCauseTagAccuracy := estimand4
    estimand4Note :=
      "tertiary, non-gating; predeclared_n intentionally equals n (conditional estimand)"
    naiveBaselineTop1DetectionRate := naiveBaseline
    detectionRateByFaultType := [cpuContention, ioStall]
    primaryClaimSupported := estimand1.decision = .pass ∧ estimand2.decision = .pass
    faultTrialOutcomes := trialOutcomes faultTrialIds faultResults
    noFaultTrialOutcomes := trialOutcomes noFaultTrialIds noFaultResults }

/-! ### Single decisions -/

/-- A decision on no more successes than trials is made, if having no trials at
all is not enough. -/
theorem decide_total {successes n : ℕ} {predeclaredN : ℤ} (hle : successes ≤ n)
    (hn : n = 0 → 0 < predeclaredN) (upperBoundRule : Bool) (threshold : ℝ) :
    ∃ d, Decision.decide successes n predeclaredN upperBoundRule threshold = .ok d := by
  by_cases hfew : (n : ℤ) < predeclaredN
  · exact ⟨_, by rw [Decision.decide, if_pos hfew]⟩
  · obtain ⟨d, hd, _⟩ := @Decision.decide_ok successes n predeclaredN (by omega) (by omega)
      (by omega) (by omega) upperBoundRule threshold
    exact ⟨d, hd⟩

/-- Of no trials and no predeclared ones the point estimate is `0 / 0`. -/
theorem decide_zero (upperBoundRule : Bool) (threshold : ℝ) :
    Decision.decide 0 0 0 upperBoundRule threshold = .error .zeroDivisionError := by
  rw [Decision.decide, if_neg (by omega), wilsonInterval, if_pos rfl]
  simp only [ok_bind]
  rw [div, if_pos Int.cast_zero]
  rfl

theorem decideFaultType_total (completedFault : List CompletedTrial) (faultType : String) :
    ∃ d, decideFaultType completedFault faultType = .ok (faultType, d) := by
  obtain ⟨d, hd⟩ := @decide_total _ _ 40
    (List.length_filter_le (fun r => r.topCandidate = r.expectedTargetNodeId)
      (completedFault.filter fun r => r.faultType = some faultType))
    (fun _ => by norm_num) false detectionLowerBoundThreshold
  exact ⟨d, by rw [decideFaultType, hd]; rfl⟩

/-! ### The summary -/

section Summarize

variable {manifest : Manifest} {results : String → Option TrialResult}

/-- A completed trial of the batch with a report that names the target. -/
theorem truePositives_ne_nil_iff :
    truePositives (completedTrials (manifest.faultResults results)) ≠ [] ↔
      ∃ trial ∈ manifest.faultTrials, ∃ record,
        results trial.trialId = some (.completed record) ∧ IsDetection record := by
  constructor
  · intro h
    obtain ⟨record, hrecord⟩ := List.exists_mem_of_ne_nil _ h
    obtain ⟨hcompleted, hdetection⟩ := List.mem_filter.mp hrecord
    obtain ⟨result, hresult, hsome⟩ := List.mem_filterMap.mp hcompleted
    obtain ⟨trialId, htrialId, hload⟩ := List.mem_filterMap.mp hresult
    obtain ⟨trial, htrial, rfl⟩ := List.mem_map.mp htrialId
    cases result with
    | aborted _ _ => cases hsome
    | completed record' =>
      cases hsome
      exact ⟨trial, htrial, record, hload, of_decide_eq_true hdetection⟩
  · rintro ⟨trial, htrial, record, hload, hdetection⟩
    refine List.ne_nil_of_mem (a := record) (List.mem_filter.mpr ⟨?_, decide_eq_true hdetection⟩)
    refine List.mem_filterMap.mpr ⟨.completed record, ?_, rfl⟩
    exact List.mem_filterMap.mpr ⟨trial.trialId, List.mem_map_of_mem htrial, hload⟩

/-- The decisions on a part of the completed trials. -/
theorem decide_filter_total {trials : List Trial} (htrials : trials ≠ [])
    (completed : List CompletedTrial) (p : CompletedTrial → Bool) (upperBoundRule : Bool)
    (threshold : ℝ) :
    ∃ d, Decision.decide (completed.filter p).length completed.length
      (trials.map (·.trialId)).length upperBoundRule threshold = .ok d := by
  have hpos := List.length_pos_iff.mpr htrials
  refine decide_total (List.length_filter_le p completed) (fun _ => ?_) upperBoundRule threshold
  rw [List.length_map]
  omega

variable (hfault : manifest.faultTrials ≠ []) (hnoFault : manifest.noFaultTrials ≠ [])

include hfault hnoFault

/-- Only the conditional estimand can raise an exception. -/
theorem summarize_eq :
    ∃ summary : Decision → Summary,
      (∀ d, (summary d).detectionRateByFaultType.map Prod.fst = ["cpu_contention", "io_stall"]) ∧
      summarize manifest results = summary <$> Decision.decide
        (tagMatches (truePositives (completedTrials (manifest.faultResults results))))
        (truePositives (completedTrials (manifest.faultResults results))).length
        (truePositives (completedTrials (manifest.faultResults results))).length false 0 := by
  choose fault hfault using decide_filter_total hfault
    (completedTrials (manifest.faultResults results))
  choose noFault hnoFault using decide_filter_total hnoFault
    (completedTrials (manifest.noFaultResults results))
  choose faultType hfaultType using decideFaultType_total
    (completedTrials (manifest.faultResults results))
  rw [summarize]
  simp only [detections, faultFalsePositiveTrials, noFaultFalseFlags, naiveDetections, hfault,
    hnoFault, hfaultType, ok_bind, bind_pure_comp]
  exact ⟨_, fun _ => rfl, rfl⟩

/-- Without a detection the point estimate of the conditional estimand is
`0 / 0`. -/
theorem summarize_eq_error
    (hnone : truePositives (completedTrials (manifest.faultResults results)) = []) :
    summarize manifest results = .error .zeroDivisionError := by
  obtain ⟨summary, _, hsummary⟩ := @summarize_eq manifest results hfault hnoFault
  have hzero : tagMatches [] = 0 := rfl
  rw [hsummary, hnone, hzero, List.length_nil, Nat.cast_zero, decide_zero]
  rfl

end Summarize

/-- `_summarize` returns a summary, with a decision for both fault types; a
decision is one of three by its type. -/
def Summarized (manifest : Manifest) (results : String → Option TrialResult) : Prop :=
  ∃ summary, summarize manifest results = .ok summary ∧
    summary.detectionRateByFaultType.map Prod.fst = ["cpu_contention", "io_stall"]

/-- The summary is not total: it exists exactly if some trial of the batch is a
detection. -/
theorem summarize_total_iff {manifest : Manifest} (hfault : manifest.faultTrials ≠ [])
    (hnoFault : manifest.noFaultTrials ≠ []) (results : String → Option TrialResult) :
    Summarized manifest results ↔
      ∃ trial ∈ manifest.faultTrials, ∃ record, results trial.trialId = some (.completed record) ∧
        record.stragglerStatus = .ranked ∧ record.topCandidate = record.expectedTargetNodeId := by
  refine Iff.trans ?_ truePositives_ne_nil_iff
  constructor
  · rintro ⟨summary, hok, _⟩ hnone
    rw [summarize_eq_error hfault hnoFault hnone] at hok
    cases hok
  · intro hdetected
    obtain ⟨summary, hkeys, hsummary⟩ := @summarize_eq manifest results hfault hnoFault
    obtain ⟨d, hd⟩ := @decide_total
      (tagMatches (truePositives (completedTrials (manifest.faultResults results))))
      (truePositives (completedTrials (manifest.faultResults results))).length
      (truePositives (completedTrials (manifest.faultResults results))).length
      (List.length_filter_le _ _) (fun h => absurd (List.length_eq_zero_iff.mp h) hdetected) false 0
    rw [hd] at hsummary
    exact ⟨summary d, hsummary, hkeys d⟩

/-- The first trials of the batch with a fault and without one. -/
def firstTrials : Manifest :=
  { faultTrials := [⟨"cpu_contention-0000", 2000000, 0, some ⟨"cpu_contention", "workload-1", 2⟩⟩]
    noFaultTrials := [⟨"no-fault-0000", 2000000, 0, none⟩] }

/-- A completed trial whose report names the target. -/
def detectedTrial : CompletedTrial :=
  { trialId := "cpu_contention-0000"
    jobId := "job"
    faultType := some "cpu_contention"
    targetHost := some "workload-1"
    expectedTargetNodeId := some "node-1"
    stragglerStatus := .ranked
    topCandidate := some "node-1"
    naiveBaselineCandidate := some "node-1"
    rootCause := some .cpuContention
    rankedNodes := [⟨"node-1", 900000000, 404.7, true⟩, ⟨"node-2", 300000000, 0, false⟩,
      ⟨"node-3", 300000000, 0, false⟩] }

theorem summarize_total_iff_example :
    Summarized firstTrials fun trialId =>
      if trialId = "cpu_contention-0000" then some (.completed detectedTrial) else none := by
  refine (summarize_total_iff (by simp [firstTrials]) (by simp [firstTrials]) _).mpr ?_
  exact ⟨_, List.mem_singleton_self _, detectedTrial, rfl, rfl, rfl⟩

/-- On a clean checkout there are no results. -/
theorem summarize_total_counterexample :
    summarize firstTrials (fun _ => none) = .error .zeroDivisionError ∧
      ¬ Summarized firstTrials fun _ => none := by
  have herror : summarize firstTrials (fun _ => none) = .error .zeroDivisionError :=
    summarize_eq_error (by simp [firstTrials]) (by simp [firstTrials]) rfl
  refine ⟨herror, fun ⟨summary, hok, _⟩ => ?_⟩
  rw [herror] at hok
  cases hok

end Eval
