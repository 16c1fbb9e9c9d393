/-
From the sender's queue to the server's handlers.

A connection is a reliable pipe: the server reads, in chunks of any size, some
first part of the bytes the agent's kernel accepted.  The frames it handles are
then the first ones of the batches that `SendBatch` reported as sent on that
connection (`delivery`).
-/
import HpcTelemetry.Sender
import HpcTelemetry.StreamDecoding

namespace Agent

open Transitions Ingest

/-- The frame `SendBatch` writes for a payload. -/
def batchFrame (payload : Bytes) : Frame := ⟨.kSampleBatch, payload⟩

/-- Delivered batches are exact: in every run of the sender, with every pattern
of `connect` and `send()` results, and however much of a pipe arrives in
whatever chunks, the frames handled are a first part of the batches that were
sent on this pipe, and the server meets no unknown tag. -/
theorem delivery (config : AgentConfig) (serialize : Serializer) {s : RunLoop}
    (hreach : Reachable (LoopStep config serialize) .init s) (pipe : Pipe) (hpipe : pipe ∈ s.pipes)
    (hsmall : ∀ a ∈ pipe.attempts, ∀ payload,
      serialize (protoBatch config a.1) = some payload → payload.length < 2 ^ 32)
    (chunks : List Bytes) (hne : ∀ c ∈ chunks, c ≠ []) (harrived : chunks.flatten <+: pipe.accepted)
    (ending : StreamEnd) (env : Env) (store : TSDBStore) :
    let task := (handleConnection env (streamReads chunks ending) store).1.task
    ∃ payloads : List Bytes,
      (pipe.attempts.filter (·.2)).map (fun a => serialize (protoBatch config a.1))
        = payloads.map some ∧
      task.handled <+: payloads.map (fun payload => ⟨Wire.frameTagSampleBatch, payload⟩) ∧
      .unknownFrameTag ∉ recordedCodes task.events := by
  obtain ⟨payloads, rest, hcarries, hleaves⟩ := carries_of_mem_pipes hreach hpipe
  have hsized : ∀ f ∈ payloads.map batchFrame, f.Sized := by
    intro f hf
    obtain ⟨payload, hp, rfl⟩ := List.mem_map.mp hf
    have hsent : some payload ∈ (pipe.attempts.filter (·.2)).map
        (fun a => serialize (protoBatch config a.1)) := by
      rw [hcarries.sent]
      exact List.mem_map_of_mem hp
    obtain ⟨a, ha, hser⟩ := List.mem_map.mp hsent
    exact hsmall a (List.mem_filter.mp ha).1 payload hser
  -- what is left over is a strict prefix of a frame
  obtain ⟨last, hlast, q, hq, hlastq⟩ : ∃ last : Frame, last.Sized ∧
      ∃ q, q ≠ [] ∧ last.encode = rest ++ q := by
    rcases hleaves with rfl | ⟨a, ha, payload, hser, q, hq, hframe⟩
    · exact ⟨batchFrame [], by decide, _, Frame.encode_ne_nil _, rfl⟩
    · exact ⟨batchFrame payload, hsmall a ha payload hser, q, hq, hframe⟩
  have hflat : chunks.flatten <+: (payloads.map batchFrame).flatMap Frame.encode ++ rest := by
    rw [hcarries.bytes] at harrived
    rw [List.flatMap_map]
    exact harrived
  obtain ⟨hhandled, hcodes⟩ :=
    handleConnection_cut env store hsized hlast hlastq hq hne hflat ending
  rw [List.map_map] at hhandled
  exact ⟨payloads, hcarries.sent, hhandled, hcodes⟩

/-! ### Records of `cpu_pct` -/

def recordAt (tsNs : ℤ) : SampleRecord := ⟨1, tsNs, 0, .finite 1⟩

/-- The payload protobuf makes of a batch of one of them. -/
def recordPayload (node tsNs : UInt8) : Bytes :=
  [0x08, 0x01, 0x12, 0x10, 0x68, 0x70, 0x63, 0x74, 0x65, 0x6c, 0x2d, 0x61, 0x67, 0x65, 0x6e, 0x74,
    0x2d, 0x30, 0x2e, 0x31, 0x1a, 0x10, 0x0a, 0x01, node, 0x10, 0x01, 0x18, tsNs, 0x31, 0x00, 0x00,
    0x00, 0x00, 0x00, 0x00, 0xf0, 0x3f]

def oneRecord : SampleRecord := recordAt 1

def oneRecordPayload : Bytes := recordPayload 0x6e 1

def oneRecordSerializer (batch : Wire.SampleBatch) : Option Bytes :=
  if batch = protoBatch ⟨"n", 512⟩ [oneRecord] then some oneRecordPayload else none

/-- Two records of one node and one of another. -/
def recordsSerializer (batch : Wire.SampleBatch) : Option Bytes :=
  if batch = protoBatch ⟨"n", 512⟩ [recordAt 1] then some (recordPayload 0x6e 1)
  else if batch = protoBatch ⟨"n", 512⟩ [recordAt 2] then some (recordPayload 0x6e 2)
  else if batch = protoBatch ⟨"m", 512⟩ [recordAt 1] then some (recordPayload 0x6d 1)
  else none

theorem length_recordPayload_of_serializer {batch : Wire.SampleBatch} {payload : Bytes}
    (h : recordsSerializer batch = some payload) : payload.length = 38 := by
  rw [recordsSerializer] at h
  split_ifs at h
  all_goals
    rw [← Option.some_inj.mp h]
    rfl

def recordFrame (tsNs : UInt8) : Bytes := encodeFrame .kSampleBatch (recordPayload 0x6e tsNs)

/-- The first connection, which breaks in the second frame. -/
def brokenPipe : Pipe :=
  ⟨recordFrame 1 ++ (recordFrame 2).take 20, [([recordAt 1], true), ([recordAt 2], false)]⟩

/-- The sender once it has sent both records, the second one over a new
connection. -/
def recordsSent : RunLoop :=
  ⟨⟨⟨[], 0⟩, none, [(0, recordAt 1), (1, recordAt 2)], [[(0, recordAt 1)], [(1, recordAt 2)]], []⟩,
    some ⟨recordFrame 2, [([recordAt 2], true)]⟩, [brokenPipe]⟩

theorem reachable_recordsSent :
    Reachable (LoopStep ⟨"n", 512⟩ recordsSerializer) .init recordsSent := by
  have hstart : Reachable (LoopStep ⟨"n", 512⟩ recordsSerializer) .init .init := .refl
  have hfirst := ((hstart.snoc (@LoopStep.enqueue _ _ _ (recordAt 1) _ (.enqueue rfl))).snoc
    (.snapshot (.snapshot rfl))).snoc
    (@LoopStep.finish _ _ _ [(0, recordAt 1)] ⟨true, fun _ => 30⟩ rfl)
  have hbroken := ((hfirst.snoc (@LoopStep.enqueue _ _ _ (recordAt 2) _ (.enqueue rfl))).snoc
    (.snapshot (.snapshot rfl))).snoc
    (@LoopStep.finish _ _ _ [(1, recordAt 2)] ⟨true, fun k => if k = 0 then 20 else -1⟩ rfl)
  exact (hbroken.snoc (.snapshot (.snapshot rfl))).snoc
    (@LoopStep.finish _ _ _ [(1, recordAt 2)] ⟨true, fun _ => 30⟩ rfl)

/-- Some bytes of the second frame arrive, and no more. -/
theorem delivery_example :
    let chunks := [(recordFrame 1).take 20, (recordFrame 1).drop 20 ++ (recordFrame 2).take 9]
    let task := (handleConnection sampleEnv (streamReads chunks .reset) .empty).1.task
    ∃ payloads : List Bytes,
      (brokenPipe.attempts.filter (·.2)).map
          (fun a => recordsSerializer (protoBatch ⟨"n", 512⟩ a.1)) = payloads.map some ∧
      task.handled <+: payloads.map (fun payload => ⟨Wire.frameTagSampleBatch, payload⟩) ∧
      .unknownFrameTag ∉ recordedCodes task.events :=
  delivery ⟨"n", 512⟩ recordsSerializer reachable_recordsSent brokenPipe (by decide)
    (fun _ _ payload hser => by
      rw [length_recordPayload_of_serializer hser]
      decide)
    [(recordFrame 1).take 20, (recordFrame 1).drop 20 ++ (recordFrame 2).take 9]
    (by decide) (by decide) .reset sampleEnv .empty

end Agent
