/-
The wire contract (`proto/telemetry.proto`, `hpctel/constants.py`).

The messages the agents, the workload runners and the ingestion service
exchange, the doubles they carry, and the constants both sides agree on.  The
serialised form of a message is protobuf's and is taken as a parameter
(`Codec`); the framing around it is modelled in `Framing.lean`.
-/
import Mathlib.Tactic

/-- A byte string. -/
abbrev Bytes := List UInt8

/-- A `double` in exact arithmetic: a rational, or one of the special values. -/
inductive Double where
  | finite (q : ℚ)
  | posInf
  | negInf
  | nan
  deriving DecidableEq

namespace Wire

/-- One observation of one metric on one node. -/
structure Sample where
  nodeId : String
  metricId : ℕ
  tsNs : ℤ
  monoNs : ℤ
  serverRecvTsNs : ℤ
  value : Double
  deriving DecidableEq

/-- A batch of samples sent by one agent in one framed message. -/
structure SampleBatch where
  schemaVersion : ℕ
  producerVersion : String
  samples : List Sample
  deriving DecidableEq

/-- One node's report of one phase of one job. -/
structure PhaseEvent where
  jobId : String
  nodeId : String
  phaseIndex : ℕ
  phaseStartTsNs : ℤ
  phaseStartMonoNs : ℤ
  phaseEndTsNs : ℤ
  phaseEndMonoNs : ℤ
  status : String
  deriving DecidableEq

/-- The generated `ParseFromString` of the two messages; `none` is a raised
`DecodeError`. -/
structure Codec where
  parseSampleBatch : Bytes → Option SampleBatch
  parsePhaseEvent : Bytes → Option PhaseEvent

/-! ### Constants -/

/-- `METRIC_ID_TO_NAME`. -/
def metricIdToName : List (ℕ × String) :=
  [(1, "cpu_pct"), (2, "mem_used_bytes"), (3, "mem_total_bytes"), (4, "load1"),
   (5, "iowait_pct"), (6, "disk_read_bytes_s"), (7, "disk_write_bytes_s"),
   (8, "net_rx_bytes_s"), (9, "net_tx_bytes_s"), (10, "proc_count")]

/-- `METRIC_NAME_TO_ID`, the inverted dictionary. -/
def metricNameToId : List (String × ℕ) := metricIdToName.map fun p => (p.2, p.1)

/-- `SUPPORTED_SCHEMA_VERSIONS`. -/
def supportedSchemaVersions : List ℕ := [1]

/-- `FRAME_TAG_SAMPLE_BATCH`. -/
def frameTagSampleBatch : UInt8 := 0x01

/-- `FRAME_TAG_PHASE_EVENT`. -/
def frameTagPhaseEvent : UInt8 := 0x02

end Wire
