/-
The ingestion server (`hpctel/ingest_server.py`).

One task serves one connection: it reads chunks into a buffer, takes frames
off its front and calls a handler for each.  A handler that raises ends the
task; a byte that is no tag does not, it only clears the buffer.

The state of a task is its buffer, what became of it, and the events it has
produced so far: handler calls and log records, in order.  The store is shared
with the other tasks and is passed in and out.

* `drainFrames` — `_drain_frames`, with `drainFrames_eq` saying that its fuel
  is never used up;
* `readStep`, `handleConnection` — the read loop;
* `drainFrames_spec` — draining a buffer is handling the frames of its scan,
  one after the other, until a handler raises.
-/
import HpcTelemetry.Framing
import HpcTelemetry.Store
import HpcTelemetry.Validation

namespace Ingest

open Wire

/-! ### Log records and events -/

inductive LogLevel where
  | info
  | warning
  deriving DecidableEq

/-- A log call: its level, its message, and the keys of `extra`. -/
structure LogRecord where
  level : LogLevel
  message : String
  reasonCode : Option ReasonCode := none
  nodeId : Option String := none
  jobId : Option String := none
  deriving DecidableEq

/-- What a connection's task does that can be seen from outside. -/
inductive Event where
  /-- A call of `_handle_sample_batch` or `_handle_phase_event`. -/
  | handle (frame : DecodedFrame)
  | log (record : LogRecord)
  deriving DecidableEq

/-- What can end a task before its connection does. -/
inductive TaskError where
  /-- protobuf's `DecodeError`, out of a handler. -/
  | decodeError
  /-- A failed `reader.read`. -/
  | connectionReset
  deriving DecidableEq

inductive TaskStatus where
  | reading
  | finished
  | failed (error : TaskError)
  deriving DecidableEq

structure Task where
  status : TaskStatus
  events : List Event
  deriving DecidableEq

/-- The frames a handler was called for, in order. -/
def handledFrames (events : List Event) : List DecodedFrame :=
  events.filterMap fun
    | .handle frame => some frame
    | .log _ => none

/-- The reason codes that were recorded, in order. -/
def recordedCodes (events : List Event) : List ReasonCode :=
  events.filterMap fun
    | .handle _ => none
    | .log record => record.reasonCode

def Task.handled (task : Task) : List DecodedFrame := handledFrames task.events

def Task.log (task : Task) (records : List LogRecord) : Task :=
  { task with events := task.events ++ records.map .log }

/-! ### Handlers -/

/-- The two `time.time_ns()` readings of one handler call. -/
structure ClockReadings where
  nowNs : ℤ
  serverRecvTsNs : ℤ

/-- What a connection's task gets from outside: the generated parsers, the
clock readings of its successive handler calls, and `str(peer)`. -/
structure Env where
  codec : Codec
  clock : ℕ → ClockReadings
  peer : String

/-- The tuples `_handle_sample_batch` passes to the validator. -/
def sampleTuples (batch : SampleBatch) : List SampleTuple :=
  batch.samples.map fun s => (s.nodeId, s.metricId, s.tsNs, s.monoNs, s.value)

/-- The parameter tuple built for one accepted sample. -/
def sampleParams (producerVersion : String) (serverRecvTsNs : ℤ) (s : ValidSample) :
    TSDBStore.SampleParams :=
  ⟨s.nodeId, s.metricId, s.tsNs, s.monoNs, serverRecvTsNs, s.value, producerVersion⟩

/-- `_handle_sample_batch` once the batch is parsed: the store afterwards and
the log records. -/
def ingestSampleBatch (batch : SampleBatch) (readings : ClockReadings) (store : TSDBStore) :
    TSDBStore × List LogRecord :=
  let result := validateBatch batch.schemaVersion batch.producerVersion (sampleTuples batch)
    readings.nowNs
  match result.batchRejectedReasonCode with
  | some code =>
    (store, [{ level := .warning, message := "batch_rejected", reasonCode := some code }])
  | none =>
    let dropped := result.droppedReasonCodes.map fun code =>
      { level := .warning, message := "sample_dropped", reasonCode := some code : LogRecord }
    if result.accepted = [] then (store, dropped)
    else
      let rows := result.accepted.map (sampleParams batch.producerVersion readings.serverRecvTsNs)
      ((store.insertSamples rows).1, dropped ++
        [{ level := .info, message := "sample_batch_ingested",
           nodeId := rows.head?.map (·.nodeId) }])

/-- `_handle_sample_batch`, or the exception of `ParseFromString`. -/
def handleSampleBatch (codec : Codec) (readings : ClockReadings) (payload : Bytes)
    (store : TSDBStore) : Except TaskError (TSDBStore × List LogRecord) :=
  match codec.parseSampleBatch payload with
  | none => .error .decodeError
  | some batch => .ok (ingestSampleBatch batch readings store)

/-- The row `_handle_phase_event` stores. -/
def phaseEventRow (event : PhaseEvent) : PhaseEventRow :=
  ⟨event.jobId, event.nodeId, event.phaseIndex, event.phaseStartTsNs, event.phaseStartMonoNs,
    event.phaseEndTsNs, event.phaseEndMonoNs, event.status⟩

/-- `_handle_phase_event`. -/
def handlePhaseEvent (codec : Codec) (payload : Bytes) (store : TSDBStore) :
    Except TaskError (TSDBStore × List LogRecord) :=
  match codec.parsePhaseEvent payload with
  | none => .error .decodeError
  | some event =>
    .ok (store.insertPhaseEvent (phaseEventRow event),
      [{ level := .info, message := "phase_event_ingested", nodeId := some event.nodeId,
         jobId := some event.jobId }])

/-! ### The connection -/

def agentConnected (peer : String) : LogRecord :=
  { level := .info, message := "agent_connected", nodeId := some peer }

def agentDisconnected (peer : String) : LogRecord :=
  { level := .info, message := "agent_disconnected", nodeId := some peer }

/-- A warning named like its reason code. -/
def connectionWarning (message : String) (code : ReasonCode) (peer : String) : LogRecord :=
  { level := .warning, message := message, reasonCode := some code, nodeId := some peer }

def unknownFrameTag (peer : String) : LogRecord :=
  connectionWarning "unknown_frame_tag" .unknownFrameTag peer

/-- The end of a handler call: its records, or the exception, which runs the
`finally` of the read loop and ends the task. -/
def endCall (peer : String) (task : Task) (store : TSDBStore) :
    Except TaskError (TSDBStore × List LogRecord) → Task × TSDBStore
  | .ok (store', records) => (task.log records, store')
  | .error e => ({ task.log [agentDisconnected peer] with status := .failed e }, store)

/-- The dispatch on the tag of a decoded frame. -/
def handleFrame (env : Env) (frame : DecodedFrame) (s : Task × TSDBStore) : Task × TSDBStore :=
  let readings := env.clock s.1.handled.length
  let task : Task := { s.1 with events := s.1.events ++ [.handle frame] }
  if frame.tag = frameTagSampleBatch then
    endCall env.peer task s.2 (handleSampleBatch env.codec readings frame.payload s.2)
  else if frame.tag = frameTagPhaseEvent then
    endCall env.peer task s.2 (handlePhaseEvent env.codec frame.payload s.2)
  else s

/-- The loop of `_drain_frames`: the buffer it leaves, and its effects. -/
def drainFramesFuel (env : Env) : ℕ → Bytes → Task × TSDBStore → Bytes × (Task × TSDBStore)
  | 0, buffer, s => (buffer, s)
  | fuel + 1, buffer, s =>
    match decodeFrame buffer with
    -- `buffer.clear()`; the read loop goes on
    | .error _ => ([], (s.1.log [unknownFrameTag env.peer], s.2))
    | .ok (none, _) => (buffer, s)
    | .ok (some frame, consumed) =>
      let s' := handleFrame env frame s
      -- an exception out of the handler leaves this loop, too
      if s'.1.status = .reading then drainFramesFuel env fuel (buffer.drop consumed) s'
      else (buffer.drop consumed, s')

/-- `_drain_frames`.  Every frame takes at least a byte off the buffer. -/
def drainFrames (env : Env) (buffer : Bytes) (s : Task × TSDBStore) :
    Bytes × (Task × TSDBStore) :=
  drainFramesFuel env buffer.length buffer s

/-- What `await reader.read(_READ_CHUNK_SIZE)` yields. -/
inductive ReadResult where
  /-- A chunk; the empty one is the end of the stream. -/
  | chunk (bs : Bytes)
  /-- A raised `ConnectionResetError`. -/
  | reset
  deriving DecidableEq

/-- A connection between two reads. -/
structure Connection where
  buffer : Bytes
  task : Task
  deriving DecidableEq

/-- The warnings of the end of the stream. -/
def eofRecords (peer : String) (buffer : Bytes) : List LogRecord :=
  if buffer.length ≥ frameHeaderLength then
    [connectionWarning "partial_frame" .partialFrame peer]
  else if buffer.length > 0 then
    [connectionWarning "truncated_frame" .truncatedFrame peer]
  else []

/-- One round of the read loop.  A task that has ended reads nothing. -/
def readStep (env : Env) (s : Connection × TSDBStore) (read : ReadResult) :
    Connection × TSDBStore :=
  if s.1.task.status = .reading then
    match read with
    | .chunk bs =>
      if bs = [] then
        let task := s.1.task.log (eofRecords env.peer s.1.buffer ++ [agentDisconnected env.peer])
        ({ s.1 with task := { task with status := .finished } }, s.2)
      else
        let r := drainFrames env (s.1.buffer ++ bs) (s.1.task, s.2)
        (⟨r.1, r.2.1⟩, r.2.2)
    | .reset =>
      let task := s.1.task.log [agentDisconnected env.peer]
      ({ s.1 with task := { task with status := .failed .connectionReset } }, s.2)
  else s

/-- A connection as `handle_connection` starts it. -/
def connected (peer : String) : Connection := ⟨[], ⟨.reading, [.log (agentConnected peer)]⟩⟩

/-- `handle_connection` on the reads it makes. -/
def handleConnection (env : Env) (reads : List ReadResult) (store : TSDBStore) :
    Connection × TSDBStore :=
  reads.foldl (readStep env) (connected env.peer, store)

/-- How a byte stream ends: not yet, closed by the peer, or reset. -/
inductive StreamEnd where
  | stillOpen
  | eof
  | reset
  deriving DecidableEq

def StreamEnd.reads : StreamEnd → List ReadResult
  | .stillOpen => []
  | .eof => [.chunk []]
  | .reset => [.reset]

/-- The reads of a byte stream that arrives in the given chunks. -/
def streamReads (chunks : List Bytes) (ending : StreamEnd) : List ReadResult :=
  chunks.map .chunk ++ ending.reads

/-! ### One handler call -/

@[simp] theorem Task.log_events (task : Task) (records : List LogRecord) :
    (task.log records).events = task.events ++ records.map .log := rfl

@[simp] theorem handledFrames_append (es es' : List Event) :
    handledFrames (es ++ es') = handledFrames es ++ handledFrames es' := List.filterMap_append

@[simp] theorem handledFrames_log (records : List LogRecord) :
    handledFrames (records.map .log) = [] := by
  rw [handledFrames, List.filterMap_map]
  simp

@[simp] theorem recordedCodes_append (es es' : List Event) :
    recordedCodes (es ++ es') = recordedCodes es ++ recordedCodes es' := List.filterMap_append

@[simp] theorem recordedCodes_log (records : List LogRecord) :
    recordedCodes (records.map .log) = records.filterMap (·.reasonCode) := by
  rw [recordedCodes, List.filterMap_map]
  rfl

/-- Whether `ParseFromString` returns in the handler the frame goes to. -/
def Accepted (codec : Codec) (frame : DecodedFrame) : Prop :=
  if frame.tag = frameTagSampleBatch then (codec.parseSampleBatch frame.payload).isSome
  else (codec.parsePhaseEvent frame.payload).isSome

instance (codec : Codec) (frame : DecodedFrame) : Decidable (Accepted codec frame) := by
  unfold Accepted
  infer_instance

/-- A frame with one of the two tags. -/
def DecodedFrame.Known (frame : DecodedFrame) : Prop := frame.tag ∈ knownTags

/-- The result of the handler a known frame goes to. -/
def callHandler (env : Env) (frame : DecodedFrame) (readings : ClockReadings)
    (store : TSDBStore) : Except TaskError (TSDBStore × List LogRecord) :=
  if frame.tag = frameTagSampleBatch then
    handleSampleBatch env.codec readings frame.payload store
  else handlePhaseEvent env.codec frame.payload store

theorem handleFrame_of_known (env : Env) {frame : DecodedFrame} (hk : frame.Known)
    (s : Task × TSDBStore) :
    handleFrame env frame s
      = endCall env.peer { s.1 with events := s.1.events ++ [.handle frame] } s.2
          (callHandler env frame (env.clock s.1.handled.length) s.2) := by
  rw [handleFrame, callHandler]
  by_cases h1 : frame.tag = frameTagSampleBatch
  · rw [if_pos h1, if_pos h1]
  · have h2 : frame.tag = frameTagPhaseEvent := by
      simpa [DecodedFrame.Known, knownTags, h1] using hk
    rw [if_neg h1, if_neg h1, if_pos h2]

/-- A handler raises exactly on the payloads `ParseFromString` refuses, before
it has done anything. -/
theorem callHandler_of_not_accepted {env : Env} {frame : DecodedFrame}
    (h : ¬ Accepted env.codec frame) (readings : ClockReadings) (store : TSDBStore) :
    callHandler env frame readings store = .error .decodeError := by
  rw [Accepted] at h
  rw [callHandler]
  split_ifs at h ⊢ with htag
  · rw [handleSampleBatch, Option.not_isSome_iff_eq_none.mp h]
  · rw [handlePhaseEvent, Option.not_isSome_iff_eq_none.mp h]

/-- The reason codes a handler can record are the validator's. -/
def FromHandler (records : List LogRecord) : Prop :=
  ∀ r ∈ records, r.reasonCode ∈ [none, some .schemaMismatch, some .unknownMetricId,
    some .invalidTimestamp]

theorem fault_mem {nowNs : ℤ} {s : SampleTuple} {code : ReasonCode}
    (h : fault nowNs s = some code) : code = .unknownMetricId ∨ code = .invalidTimestamp := by
  rw [fault] at h
  split_ifs at h
  · exact Or.inr (Option.some_inj.mp h).symm
  · exact Or.inl (Option.some_inj.mp h).symm

/-- The parameters of the rows a batch asks to insert: its accepted samples. -/
def acceptedParams (batch : SampleBatch) (readings : ClockReadings) :
    List TSDBStore.SampleParams :=
  ((sampleTuples batch).filter fun s => fault readings.nowNs s = none).map fun s =>
    sampleParams batch.producerVersion readings.serverRecvTsNs (toValidSample s)

/-- A batch of a supported version: the accepted samples are inserted in order,
and each dropped one is recorded in order. -/
theorem ingestSampleBatch_supported {batch : SampleBatch}
    (hv : batch.schemaVersion ∈ supportedSchemaVersions) (readings : ClockReadings) :
    ∃ records : List LogRecord, (∀ store, ingestSampleBatch batch readings store =
        ((store.insertSamples (acceptedParams batch readings)).1,
          ((sampleTuples batch).filterMap (fault readings.nowNs)).map (fun code =>
            { level := .warning, message := "sample_dropped", reasonCode := some code })
            ++ records)) ∧
      ∀ r ∈ records, r.reasonCode = none := by
  unfold ingestSampleBatch acceptedParams
  simp only [validateBatch_eq hv]
  by_cases hnil : ((sampleTuples batch).filter fun s => fault readings.nowNs s = none) = []
  · -- nothing is accepted, and the handler returns before the insertion
    refine ⟨[], fun store => ?_, by simp⟩
    rw [hnil]
    simp [TSDBStore.insertSamples]
  · have hmap : ((sampleTuples batch).filter fun s => fault readings.nowNs s = none).map
        toValidSample ≠ [] := fun hc => hnil (List.map_eq_nil_iff.mp hc)
    refine ⟨?records, ?result, ?codes⟩
    case result =>
      intro store
      rw [if_neg hmap, List.map_map]
      rfl
    case codes =>
      intro r hr
      rw [List.mem_singleton] at hr
      rw [hr]

/-- A batch of another version is rejected as a whole. -/
theorem ingestSampleBatch_unsupported {batch : SampleBatch}
    (hv : batch.schemaVersion ∉ supportedSchemaVersions) (readings : ClockReadings)
    (store : TSDBStore) : ingestSampleBatch batch readings store = (store,
      [{ level := .warning, message := "batch_rejected",
         reasonCode := some .schemaMismatch }]) := by
  rw [ingestSampleBatch]
  simp only [validateBatch, if_pos hv]

theorem fromHandler_ingestSampleBatch (batch : SampleBatch) (readings : ClockReadings)
    (store : TSDBStore) : FromHandler (ingestSampleBatch batch readings store).2 := by
  intro r hr
  by_cases hv : batch.schemaVersion ∈ supportedSchemaVersions
  · obtain ⟨records, he, hrecords⟩ := ingestSampleBatch_supported hv readings
    rw [he store] at hr
    rcases List.mem_append.mp hr with hr | hr
    · obtain ⟨code, hcode, rfl⟩ := List.mem_map.mp hr
      obtain ⟨s, _, hs⟩ := List.mem_filterMap.mp hcode
      rcases fault_mem hs with rfl | rfl <;> simp
    · rw [hrecords r hr]
      simp
  · rw [ingestSampleBatch_unsupported hv, List.mem_singleton] at hr
    rw [hr]
    simp

/-- A handler that accepts its payload returns. -/
theorem callHandler_of_accepted {env : Env} {frame : DecodedFrame}
    (h : Accepted env.codec frame) (readings : ClockReadings) (store : TSDBStore) :
    ∃ store' records, callHandler env frame readings store = .ok (store', records) ∧
      FromHandler records := by
  rw [Accepted] at h
  rw [callHandler]
  split_ifs at h ⊢ with htag
  · obtain ⟨batch, hb⟩ := Option.isSome_iff_exists.mp h
    rw [handleSampleBatch, hb]
    exact ⟨_, _, rfl, fromHandler_ingestSampleBatch batch readings store⟩
  · obtain ⟨event, he⟩ := Option.isSome_iff_exists.mp h
    rw [handlePhaseEvent, he]
    refine ⟨_, _, rfl, fun r hr => ?_⟩
    rw [List.mem_singleton] at hr
    rw [hr]
    simp

/-- An accepted frame leaves the task reading and logs after the call. -/
theorem handleFrame_accepted {env : Env} {frame : DecodedFrame} (hk : frame.Known)
    (h : Accepted env.codec frame) (s : Task × TSDBStore) :
    ∃ store' records, handleFrame env frame s
        = (⟨s.1.status, s.1.events ++ .handle frame :: records.map .log⟩, store') ∧
      FromHandler records := by
  obtain ⟨store', records, he, hr⟩ :=
    callHandler_of_accepted h (env.clock s.1.handled.length) s.2
  refine ⟨store', records, ?_, hr⟩
  rw [handleFrame_of_known env hk, he, endCall, Task.log]
  simp

/-- A refused frame ends the task and changes nothing else. -/
theorem handleFrame_not_accepted {env : Env} {frame : DecodedFrame} (hk : frame.Known)
    (h : ¬ Accepted env.codec frame) (s : Task × TSDBStore) :
    handleFrame env frame s = (⟨.failed .decodeError,
      s.1.events ++ [.handle frame, .log (agentDisconnected env.peer)]⟩, s.2) := by
  rw [handleFrame_of_known env hk, callHandler_of_not_accepted h, endCall, Task.log]
  simp

/-- Every call is an event of its own. -/
theorem handled_handleFrame {env : Env} {frame : DecodedFrame} (hk : frame.Known)
    (s : Task × TSDBStore) : (handleFrame env frame s).1.handled = s.1.handled ++ [frame] := by
  by_cases h : Accepted env.codec frame
  · obtain ⟨store', records, he, _⟩ := handleFrame_accepted hk h s
    rw [he]
    show handledFrames (s.1.events ++ ([.handle frame] ++ records.map .log)) = _
    rw [handledFrames_append, handledFrames_append, handledFrames_log]
    rfl
  · rw [handleFrame_not_accepted hk h]
    show handledFrames (s.1.events ++ _) = _
    rw [handledFrames_append]
    rfl

/-! ### Draining a buffer -/

/-- Whether the task has ended. -/
def stopped (s : Task × TSDBStore) : Bool := s.1.status ≠ .reading

/-- Handle frames in order until a handler raises. -/
def serve (env : Env) (fs : List DecodedFrame) (s : Task × TSDBStore) : Task × TSDBStore :=
  consume stopped (handleFrame env) fs s

theorem serve_append (env : Env) (fs fs' : List DecodedFrame) (s : Task × TSDBStore) :
    serve env (fs ++ fs') s = serve env fs' (serve env fs s) := consume_append fs fs' s

theorem stopped_eq_false {s : Task × TSDBStore} : stopped s = false ↔ s.1.status = .reading := by
  simp [stopped]

theorem stopped_eq_true {s : Task × TSDBStore} : stopped s = true ↔ s.1.status ≠ .reading := by
  simp [stopped]

theorem serve_cons {env : Env} {s : Task × TSDBStore} (hs : s.1.status = .reading)
    (f : DecodedFrame) (fs : List DecodedFrame) :
    serve env (f :: fs) s = serve env fs (handleFrame env f s) :=
  consume_cons_of_running (stopped_eq_false.mpr hs) f fs

theorem serve_of_ended {env : Env} {s : Task × TSDBStore} (hs : s.1.status ≠ .reading)
    (fs : List DecodedFrame) : serve env fs s = s :=
  consume_of_stopped (stopped_eq_true.mpr hs) fs

/-- Serving frames handles a first part of them. -/
theorem serve_handled (env : Env) {fs : List DecodedFrame} (hk : ∀ f ∈ fs, f.Known) :
    ∀ s : Task × TSDBStore,
      ∃ new, new <+: fs ∧ (serve env fs s).1.handled = s.1.handled ++ new := by
  induction fs with
  | nil => exact fun s => ⟨[], List.prefix_rfl, (List.append_nil _).symm⟩
  | cons f fs ih =>
    intro s
    by_cases hs : s.1.status = .reading
    · obtain ⟨new, hnew, hhandled⟩ :=
        ih (fun g hg => hk g (List.mem_cons_of_mem f hg)) (handleFrame env f s)
      refine ⟨f :: new, List.cons_prefix_cons.mpr ⟨rfl, hnew⟩, ?_⟩
      rw [serve_cons hs, hhandled, handled_handleFrame (hk f List.mem_cons_self),
        List.append_assoc]
      rfl
    · exact ⟨[], List.nil_prefix, by rw [serve_of_ended hs, List.append_nil]⟩

/-- One round of `_drain_frames`, by the verdict on the buffer: the fuel is
never used up. -/
theorem drainFrames_eq (env : Env) (buffer : Bytes) (s : Task × TSDBStore) :
    drainFrames env buffer s =
      match verdict buffer with
      | .invalid => ([], (s.1.log [unknownFrameTag env.peer], s.2))
      | .incomplete => (buffer, s)
      | .item frame n =>
        if (handleFrame env frame s).1.status = .reading then
          drainFrames env (buffer.drop n) (handleFrame env frame s)
        else (buffer.drop n, handleFrame env frame s) := by
  -- fuel beyond the length of the buffer changes nothing
  have hfuel : ∀ (fuel fuel' : ℕ) (buffer : Bytes) (s : Task × TSDBStore),
      buffer.length ≤ fuel → buffer.length ≤ fuel' →
      drainFramesFuel env fuel buffer s = drainFramesFuel env fuel' buffer s := by
    intro fuel
    induction fuel with
    | zero =>
      intro fuel' buffer s h _
      have hnil : buffer = [] := List.length_eq_zero_iff.mp (Nat.le_zero.mp h)
      subst hnil
      rcases fuel' with _ | fuel'
      · rfl
      · rfl
    | succ fuel ih =>
      intro fuel' buffer s h h'
      rcases fuel' with _ | fuel'
      · have hnil : buffer = [] := List.length_eq_zero_iff.mp (Nat.le_zero.mp h')
        subst hnil
        rfl
      · rw [drainFramesFuel, drainFramesFuel]
        have hitem := @StreamDecoder.item_pos _ _ frameDecoder buffer
        have hle := @StreamDecoder.item_le _ _ frameDecoder buffer
        simp only [frameDecoder_decode, verdict] at hitem hle
        rcases hd : decodeFrame buffer with e | ⟨_ | frame, consumed⟩
        · rfl
        · rfl
        · rw [hd] at hitem hle
          have hpos := hitem rfl
          have hlen := hle rfl
          have hdrop : (buffer.drop consumed).length = buffer.length - consumed :=
            List.length_drop ..
          -- a frame takes at least a byte, so both runs have fuel for the rest
          simp only
          rw [ih fuel' _ _ (by omega) (by omega)]
  rcases buffer with _ | ⟨b, bs⟩
  · rfl
  · have hle := @StreamDecoder.item_le _ _ frameDecoder (b :: bs)
    have hpos := @StreamDecoder.item_pos _ _ frameDecoder (b :: bs)
    simp only [frameDecoder_decode, verdict] at hle hpos ⊢
    rw [drainFrames, List.length_cons, drainFramesFuel]
    rcases hd : decodeFrame (b :: bs) with e | ⟨_ | frame, consumed⟩
    · rfl
    · rfl
    · rw [hd] at hle hpos
      have h1 := hpos rfl
      have h2 := hle rfl
      have hdrop : ((b :: bs).drop consumed).length = (b :: bs).length - consumed :=
        List.length_drop ..
      rw [List.length_cons] at h2 hdrop
      simp only
      rw [hfuel bs.length _ _ _ (by omega) le_rfl]
      rfl

/-- What `_drain_frames` does to a buffer is to serve the frames of its scan;
the buffer it leaves and the last log record are the scan's leftover. -/
theorem drainFrames_spec (env : Env) (buffer : Bytes) :
    ∀ s : Task × TSDBStore, s.1.status = .reading →
      let r := serve env (frameDecoder.scan buffer).1 s
      (r.1.status ≠ .reading → (drainFrames env buffer s).2 = r) ∧
      (r.1.status = .reading → ∀ b, (frameDecoder.scan buffer).2 = .pending b →
        drainFrames env buffer s = (b, r)) ∧
      (r.1.status = .reading → (frameDecoder.scan buffer).2 = .invalid →
        drainFrames env buffer s = ([], (r.1.log [unknownFrameTag env.peer], r.2))) := by
  induction buffer using frameDecoder.scan_induction with
  | incomplete buffer h =>
    intro s hs
    rw [frameDecoder.scan_of_incomplete h, drainFrames_eq, ← frameDecoder_decode, h]
    refine ⟨fun hc => absurd hs hc, fun _ b hb => ?_, fun _ hi => (by cases hi)⟩
    injection hb with hb
    rw [hb]
    rfl
  | invalid buffer h =>
    intro s hs
    rw [frameDecoder.scan_of_invalid h, drainFrames_eq, ← frameDecoder_decode, h]
    exact ⟨fun hc => absurd hs hc, fun _ b hb => (by cases hb), fun _ _ => rfl⟩
  | item buffer frame n h ih =>
    intro s hs
    rw [frameDecoder.scan_of_item h, drainFrames_eq, ← frameDecoder_decode, h]
    simp only
    rw [serve_cons hs]
    by_cases hr : (handleFrame env frame s).1.status = .reading
    · rw [if_pos hr]
      exact ih _ hr
    · rw [if_neg hr, serve_of_ended hr]
      exact ⟨fun _ => rfl, fun hc => absurd hc hr, fun hc => absurd hc hr⟩

/-- Only known frames are decoded. -/
theorem known_of_decode {buffer : Bytes} {frame : DecodedFrame} {n : ℕ}
    (h : frameDecoder.decode buffer = .item frame n) : frame.Known := by
  rcases buffer with _ | ⟨tag, bs⟩
  · cases h
  · rw [frameDecoder_decode, verdict_cons] at h
    split_ifs at h with htag
    injection h with hx _
    rw [← hx]
    exact htag

theorem known_of_mem_scan (buffer : Bytes) :
    ∀ frame ∈ (frameDecoder.scan buffer).1, frame.Known := by
  induction buffer using frameDecoder.scan_induction with
  | incomplete buffer h =>
    rw [frameDecoder.scan_of_incomplete h]
    exact fun frame hf => absurd hf List.not_mem_nil
  | invalid buffer h =>
    rw [frameDecoder.scan_of_invalid h]
    exact fun frame hf => absurd hf List.not_mem_nil
  | item buffer x n h ih =>
    rw [frameDecoder.scan_of_item h]
    intro frame hf
    rcases List.mem_cons.mp hf with rfl | hf
    · exact known_of_decode h
    · exact ih frame hf

/-! ### The read loop -/

/-- What holds of a task's effects before a frame of a buffer is handled and is
kept by every handler call and every log record of its own holds after draining
the buffer. -/
theorem drainFrames_invariant {env : Env} (Inv : Task × TSDBStore → Prop)
    (hhandle : ∀ frame, frame.Known → ∀ s, Inv s → Inv (handleFrame env frame s))
    (hlog : ∀ s, Inv s → Inv (s.1.log [unknownFrameTag env.peer], s.2))
    (buffer : Bytes) {s : Task × TSDBStore} (hs : s.1.status = .reading) (h : Inv s) :
    Inv (drainFrames env buffer s).2 := by
  obtain ⟨hstop, hpending, hinvalid⟩ := drainFrames_spec env buffer s hs
  have hserve : Inv (serve env (frameDecoder.scan buffer).1 s) :=
    consume_invariant Inv (fun frame hf => hhandle frame (known_of_mem_scan buffer frame hf)) h
  by_cases hr : (serve env (frameDecoder.scan buffer).1 s).1.status = .reading
  · cases hleft : (frameDecoder.scan buffer).2 with
    | pending b =>
      rw [hpending hr b hleft]
      exact hserve
    | invalid =>
      rw [hinvalid hr hleft]
      exact hlog _ hserve
  · rw [hstop hr]
    exact hserve

theorem readStep_of_ended {env : Env} {s : Connection × TSDBStore}
    (h : s.1.task.status ≠ .reading) (read : ReadResult) : readStep env s read = s := if_neg h

theorem readStep_chunk {env : Env} {s : Connection × TSDBStore}
    (h : s.1.task.status = .reading) {bs : Bytes} (hbs : bs ≠ []) :
    readStep env s (.chunk bs) =
      (⟨(drainFrames env (s.1.buffer ++ bs) (s.1.task, s.2)).1,
        (drainFrames env (s.1.buffer ++ bs) (s.1.task, s.2)).2.1⟩,
        (drainFrames env (s.1.buffer ++ bs) (s.1.task, s.2)).2.2) := by
  rw [readStep, if_pos h]
  simp only [if_neg hbs]

/-- What holds of the frames handled and the store, and is kept by every handler
call, is kept by a read. -/
theorem readStep_invariant {env : Env} (Inv : List DecodedFrame → TSDBStore → Prop)
    (hhandle : ∀ frame, frame.Known → ∀ s : Task × TSDBStore, Inv s.1.handled s.2 →
      Inv (s.1.handled ++ [frame]) (handleFrame env frame s).2)
    {s : Connection × TSDBStore} (h : Inv s.1.task.handled s.2) (read : ReadResult) :
    Inv (readStep env s read).1.task.handled (readStep env s read).2 := by
  have hlog : ∀ (task : Task) (records : List LogRecord),
      (task.log records).handled = task.handled := by
    intro task records
    rw [Task.handled, Task.log_events, handledFrames_append, handledFrames_log, List.append_nil]
    rfl
  by_cases hs : s.1.task.status = .reading
  · cases read with
    | chunk bs =>
      by_cases hbs : bs = []
      · rw [readStep, if_pos hs, hbs]
        exact (hlog s.1.task _).symm ▸ h
      · rw [readStep_chunk hs hbs]
        refine drainFrames_invariant (fun s => Inv s.1.handled s.2) (fun frame hk s' hs' => ?_)
          (fun s' hs' => ?_) _ hs h
        · rw [handled_handleFrame hk]
          exact hhandle frame hk s' hs'
        · rw [hlog]
          exact hs'
    | reset =>
      rw [readStep, if_pos hs]
      exact (hlog s.1.task _).symm ▸ h
  · rw [readStep_of_ended hs]
    exact h

theorem foldl_readStep_of_ended {env : Env} {s : Connection × TSDBStore}
    (h : s.1.task.status ≠ .reading) (reads : List ReadResult) :
    reads.foldl (readStep env) s = s := by
  induction reads with
  | nil => rfl
  | cons read reads ih => rw [List.foldl_cons, readStep_of_ended h, ih]

/-- Reading the chunks of a stream one by one. -/
def feed (env : Env) (chunks : List Bytes) (s : Connection × TSDBStore) :
    Connection × TSDBStore :=
  (chunks.map ReadResult.chunk).foldl (readStep env) s

theorem feed_cons (env : Env) (c : Bytes) (chunks : List Bytes) (s : Connection × TSDBStore) :
    feed env (c :: chunks) s = feed env chunks (readStep env s (.chunk c)) := rfl

theorem feed_append (env : Env) (chunks chunks' : List Bytes) (s : Connection × TSDBStore) :
    feed env (chunks ++ chunks') s = feed env chunks' (feed env chunks s) := by
  rw [feed, List.map_append, List.foldl_append]
  rfl

theorem handleConnection_streamReads (env : Env) (chunks : List Bytes) (ending : StreamEnd)
    (store : TSDBStore) :
    handleConnection env (streamReads chunks ending) store
      = ending.reads.foldl (readStep env) (feed env chunks (connected env.peer, store)) := by
  rw [handleConnection, streamReads, List.foldl_append]
  rfl

/-- Reading a stream chunk by chunk is serving the frames of its scan: where
the chunks were cut plays no role, as long as a handler raises before the first
byte that is no tag, or there is no such byte. -/
theorem feed_spec (env : Env) {chunks : List Bytes} (hne : ∀ c ∈ chunks, c ≠ []) :
    ∀ s : Connection × TSDBStore, s.1.task.status = .reading →
      frameDecoder.decode s.1.buffer = .incomplete →
      let r := serve env (frameDecoder.scan (s.1.buffer ++ chunks.flatten)).1 (s.1.task, s.2)
      (r.1.status ≠ .reading → ((feed env chunks s).1.task, (feed env chunks s).2) = r) ∧
      (r.1.status = .reading →
        ∀ b, (frameDecoder.scan (s.1.buffer ++ chunks.flatten)).2 = .pending b →
          feed env chunks s = (⟨b, r.1⟩, r.2)) := by
  induction chunks with
  | nil =>
    intro s hs hbuf
    rw [List.flatten_nil, List.append_nil, frameDecoder.scan_of_incomplete hbuf]
    refine ⟨fun hc => absurd hs hc, fun _ b hb => ?_⟩
    injection hb with hb
    subst hb
    rfl
  | cons c chunks ih =>
    intro s hs hbuf
    have hc : c ≠ [] := hne c List.mem_cons_self
    have hchunks : ∀ c ∈ chunks, c ≠ [] := fun x hx => hne x (List.mem_cons_of_mem c hx)
    obtain ⟨hstop, hpending, _⟩ := drainFrames_spec env (s.1.buffer ++ c) (s.1.task, s.2) hs
    set s₁ := serve env (frameDecoder.scan (s.1.buffer ++ c)).1 (s.1.task, s.2) with hs₁
    rw [feed_cons, readStep_chunk hs hc, List.flatten_cons, ← List.append_assoc]
    by_cases hr : s₁.1.status = .reading
    · cases hleft : (frameDecoder.scan (s.1.buffer ++ c)).2 with
      | pending b₁ =>
        -- the chunk leaves an unfinished frame, and the rest is read from it
        rw [hpending hr b₁ hleft, frameDecoder.scan_append_pending _ hleft, serve_append]
        exact ih hchunks (⟨b₁, s₁.1⟩, s₁.2) hr (frameDecoder.decode_of_scan_pending hleft)
      | invalid =>
        -- nothing is said about a connection past a byte that is no tag
        rw [frameDecoder.scan_append_invalid _ hleft]
        refine ⟨fun hc => absurd hr hc, fun _ b hb => ?_⟩
        rw [hleft] at hb
        cases hb
    · -- a handler has raised: the rest of the stream is not read
      have hall : serve env (frameDecoder.scan (s.1.buffer ++ c ++ chunks.flatten)).1
          (s.1.task, s.2) = s₁ := by
        obtain ⟨fs, hfs⟩ := frameDecoder.scan_prefix (s.1.buffer ++ c) chunks.flatten
        rw [← hfs, serve_append]
        exact serve_of_ended hr fs
      rw [hstop hr, hall, feed, foldl_readStep_of_ended hr]
      exact ⟨fun _ => rfl, fun hc => absurd hc hr⟩

/-- Accepted frames are all handled and leave the task reading. -/
theorem serve_accepted {env : Env} {fs : List DecodedFrame} (hk : ∀ f ∈ fs, f.Known)
    (h : ∀ f ∈ fs, Accepted env.codec f) (s : Task × TSDBStore) (hs : s.1.status = .reading) :
    (serve env fs s).1.status = .reading ∧
      (serve env fs s).1.handled = s.1.handled ++ fs := by
  induction fs generalizing s with
  | nil => exact ⟨hs, (List.append_nil _).symm⟩
  | cons f fs ih =>
    obtain ⟨store', records, he, _⟩ :=
      handleFrame_accepted (hk f List.mem_cons_self) (h f List.mem_cons_self) s
    rw [serve_cons hs, he]
    obtain ⟨h₁, h₂⟩ := ih (fun g hg => hk g (List.mem_cons_of_mem f hg))
      (fun g hg => h g (List.mem_cons_of_mem f hg))
      (⟨s.1.status, s.1.events ++ .handle f :: records.map .log⟩, store') hs
    refine ⟨h₁, h₂.trans ?_⟩
    rw [Task.handled, Task.handled, handledFrames_append]
    change handledFrames s.1.events ++ (f :: handledFrames (records.map .log)) ++ fs = _
    rw [handledFrames_log, List.append_assoc]
    rfl

/-- The first refused frame ends the task: no frame behind it is handled. -/
theorem serve_refused {env : Env} {good : List DecodedFrame} {bad : DecodedFrame}
    (rest : List DecodedFrame) (hk : ∀ f ∈ good, f.Known)
    (h : ∀ f ∈ good, Accepted env.codec f) (hbk : bad.Known) (hbad : ¬ Accepted env.codec bad)
    (s : Task × TSDBStore) (hs : s.1.status = .reading) :
    serve env (good ++ bad :: rest) s = (⟨.failed .decodeError,
      (serve env good s).1.events ++ [.handle bad, .log (agentDisconnected env.peer)]⟩,
      (serve env good s).2) := by
  obtain ⟨hr, _⟩ := serve_accepted hk h s hs
  rw [serve_append, serve_cons hr, handleFrame_not_accepted hbk hbad,
    serve_of_ended (by simp)]

end Ingest
