/-
Schema and temporal validation (`hpctel/validation.py`).

`validateBatch` walks a decoded batch once and sorts its samples into accepted
ones and reason codes.  The walk is a fold with two accumulators; what it
computes is a classification of each sample on its own
(`validateBatch_accepted`, `validateBatch_droppedReasonCodes`), and that
classification reads the metric id and the timestamp only (`fault_congr`).
-/
import HpcTelemetry.Wire

namespace Ingest

open Wire

/-- The `reason_code` texts of the fault-oracle contract. -/
inductive ReasonCode where
  | partialFrame
  | truncatedFrame
  | unknownFrameTag
  | schemaMismatch
  | unknownMetricId
  | invalidTimestamp
  deriving DecidableEq

/-- `_ONE_DAY_NS`. -/
def oneDayNs : ℤ := 24 * 60 * 60 * 1000000000

/-- `ValidSample`. -/
structure ValidSample where
  nodeId : String
  metricId : ℕ
  tsNs : ℤ
  monoNs : ℤ
  value : Double
  deriving DecidableEq

/-- `ValidationResult`. -/
structure ValidationResult where
  accepted : List ValidSample
  droppedReasonCodes : List ReasonCode
  batchRejectedReasonCode : Option ReasonCode
  deriving DecidableEq

/-- A `(node_id, metric_id, ts_ns, mono_ns, value)` tuple. -/
abbrev SampleTuple := String × ℕ × ℤ × ℤ × Double

/-- The body of the validation loop. -/
def validateSample (nowNs : ℤ) (acc : ValidationResult) : SampleTuple → ValidationResult
  | (nodeId, metricId, tsNs, monoNs, value) =>
    if metricId ∉ metricIdToName.map Prod.fst then
      { acc with droppedReasonCodes := acc.droppedReasonCodes ++ [.unknownMetricId] }
    else if tsNs < 0 ∨ tsNs > nowNs + oneDayNs then
      { acc with droppedReasonCodes := acc.droppedReasonCodes ++ [.invalidTimestamp] }
    else
      { acc with accepted := acc.accepted ++ [⟨nodeId, metricId, tsNs, monoNs, value⟩] }

/-- `validate_batch`; `nowNs` is the clock reading made when no `now_ns` is
passed. -/
def validateBatch (schemaVersion : ℕ) (_producerVersion : String) (samples : List SampleTuple)
    (nowNs : ℤ) : ValidationResult :=
  if schemaVersion ∉ supportedSchemaVersions then ⟨[], [], some .schemaMismatch⟩
  else samples.foldl (validateSample nowNs) ⟨[], [], none⟩

/-! ### Sample by sample -/

/-- The reason code a sample is dropped with, if it is dropped. -/
def fault (nowNs : ℤ) (s : SampleTuple) : Option ReasonCode :=
  if s.2.1 ∉ metricIdToName.map Prod.fst then some .unknownMetricId
  else if s.2.2.1 < 0 ∨ s.2.2.1 > nowNs + oneDayNs then some .invalidTimestamp
  else none

/-- The sample handed on if it is accepted. -/
def toValidSample (s : SampleTuple) : ValidSample := ⟨s.1, s.2.1, s.2.2.1, s.2.2.2.1, s.2.2.2.2⟩

/-- The primary key a sample will be stored under. -/
def sampleKey (s : SampleTuple) : String × ℕ × ℤ := (s.1, s.2.1, s.2.2.1)

/-- Validation looks at nothing but the key. -/
theorem fault_congr {nowNs : ℤ} {s s' : SampleTuple} (h : sampleKey s = sampleKey s') :
    fault nowNs s = fault nowNs s' := by
  obtain ⟨_, hm⟩ := Prod.mk.inj h
  obtain ⟨hmetric, hts⟩ := Prod.mk.inj hm
  rw [fault, fault, hmetric, hts]

theorem validateSample_eq (nowNs : ℤ) (acc : ValidationResult) (s : SampleTuple) :
    validateSample nowNs acc s =
      { acc with
        accepted := acc.accepted ++ (if fault nowNs s = none then [toValidSample s] else [])
        droppedReasonCodes := acc.droppedReasonCodes ++ (fault nowNs s).toList } := by
  obtain ⟨nodeId, metricId, tsNs, monoNs, value⟩ := s
  rw [validateSample, fault]
  simp only
  split_ifs <;> simp_all [toValidSample]

theorem foldl_validateSample (nowNs : ℤ) (samples : List SampleTuple) (acc : ValidationResult) :
    samples.foldl (validateSample nowNs) acc =
      { acc with
        accepted := acc.accepted ++
          (samples.filter fun s => fault nowNs s = none).map toValidSample
        droppedReasonCodes := acc.droppedReasonCodes ++ samples.filterMap (fault nowNs) } := by
  induction samples generalizing acc with
  | nil => simp
  | cons s samples ih =>
    rw [List.foldl_cons, ih, validateSample_eq]
    cases hf : fault nowNs s with
    | none => simp [hf]
    | some code => simp [hf]

section Supported

variable {schemaVersion : ℕ} (h : schemaVersion ∈ supportedSchemaVersions)
  (producerVersion : String) (samples : List SampleTuple) (nowNs : ℤ)

include h

theorem validateBatch_eq : validateBatch schemaVersion producerVersion samples nowNs =
    ⟨(samples.filter fun s => fault nowNs s = none).map toValidSample,
      samples.filterMap (fault nowNs), none⟩ := by
  rw [validateBatch, if_neg (not_not.mpr h), foldl_validateSample]
  simp

end Supported

end Ingest
