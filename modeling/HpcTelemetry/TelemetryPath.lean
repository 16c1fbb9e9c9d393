/-
From the sampling loops to the store.

Agents enqueue and send at their own pace, each over one connection after
another; the service reads all connections as they come, in any chunks, and
each of them may be closed or reset.  The `k`-th handler call of a connection
gets the `k`-th batch that was sent on it, and judges it by the clock it reads.
A row of the store is then a record some agent enqueued and sent, and once the
service has read all an agent's connections accepted, every record it sent has
been judged, and is stored if it can be.

* `Telemetry`, `TelemetryStep` — the agents, the connections and the store;
* `frameRows`, `samples_handleFrame` — the rows a frame asks to insert;
* `Tracks`, `handled_prefix_sent`, `handled_eq_sent` — what a task has handled of
  its connection;
* `Judged`, `batch_of_handled` — the batch of each handler call;
* `stored_endToEnd` — the result, for every run.
-/
import HpcTelemetry.Accounting
import HpcTelemetry.Delivery
import HpcTelemetry.Isolation
import HpcTelemetry.ReportStreams
import HpcTelemetry.Transmission

namespace Fleet

open Ingest Agent Transitions

/-! ### The system -/

/-- A connection of an agent, as the service serves it. -/
structure Link where
  host : String
  /-- Which of the agent's connections it is. -/
  pipe : ℕ
  served : Served
  /-- The chunks read so far. -/
  arrived : List Bytes

/-- The agents by host, and the service. -/
structure Telemetry where
  agents : String → RunLoop
  links : List Link
  store : TSDBStore

/-- The agents have just been started. -/
def Telemetry.start (store : TSDBStore) : Telemetry := ⟨fun _ => .init, [], store⟩

inductive TelemetryAction where
  | agent (host : String) (a : LoopAction)
  | accept (host : String) (pipe : ℕ) (env : Env)
  | read (host : String) (pipe : ℕ) (bs : Bytes)
  | finish (host : String) (pipe : ℕ) (read : ReadResult)
  /-- Whatever else changes the store. -/
  | other (store : TSDBStore)

section Steps

variable (config : String → AgentConfig) (serialize : Serializer) (codec : Wire.Codec)

inductive TelemetryStep : Telemetry → TelemetryAction → Telemetry → Prop where
  | agent {s : Telemetry} {host : String} {a : LoopAction} {loop : RunLoop} :
      LoopStep (config host) serialize (s.agents host) a loop →
      TelemetryStep s (.agent host a) { s with agents := Function.update s.agents host loop }
  | accept {s : Telemetry} {host : String} {pipe : ℕ} {env : Env} :
      pipe < (s.agents host).pipes.length →
      (∀ link ∈ s.links, ¬ (link.host = host ∧ link.pipe = pipe)) → env.codec = codec →
      TelemetryStep s (.accept host pipe env) { s with
        links := s.links ++ [⟨host, pipe, ⟨env, connected env.peer⟩, []⟩] }
  | read {s : Telemetry} {before after : List Link} {link : Link} {pipe : Pipe} {bs : Bytes} :
      s.links = before ++ link :: after → (s.agents link.host).pipes[link.pipe]? = some pipe →
      link.served.connection.task.status = .reading → bs ≠ [] →
      link.arrived.flatten ++ bs <+: pipe.accepted →
      TelemetryStep s (.read link.host link.pipe bs) { s with
        links := before ++ { link with
          served := ⟨link.served.env, (readStep link.served.env
            (link.served.connection, s.store) (.chunk bs)).1⟩
          arrived := link.arrived ++ [bs] } :: after
        store := (readStep link.served.env (link.served.connection, s.store) (.chunk bs)).2 }
  | finish {s : Telemetry} {before after : List Link} {link : Link} {read : ReadResult} :
      s.links = before ++ link :: after → link.served.connection.task.status = .reading →
      read = .chunk [] ∨ read = .reset →
      TelemetryStep s (.finish link.host link.pipe read) { s with
        links := before ++ { link with served := ⟨link.served.env, (readStep link.served.env
          (link.served.connection, s.store) read).1⟩ } :: after
        store := (readStep link.served.env (link.served.connection, s.store) read).2 }
  | other {s : Telemetry} {store : TSDBStore} : store.samples = s.store.samples →
      TelemetryStep s (.other store) { s with store := store }

end Steps

/-! ### The rows of a frame -/

/-- The rows a frame asks to insert. -/
def frameRows (codec : Wire.Codec) (readings : ClockReadings) (frame : DecodedFrame) :
    List SampleRow :=
  if frame.tag = Wire.frameTagSampleBatch then
    match codec.parseSampleBatch frame.payload with
    | some batch =>
      if batch.schemaVersion ∈ Wire.supportedSchemaVersions then
        (acceptedParams batch readings).filterMap TSDBStore.SampleParams.toRow
      else []
    | none => []
  else []

theorem samples_handleFrame {env : Env} {frame : DecodedFrame} (hk : frame.Known)
    (s : Task × TSDBStore) : (handleFrame env frame s).2.samples
      = s.2.samples.insertAll (frameRows env.codec (env.clock s.1.handled.length) frame) := by
  rw [handleFrame_of_known env hk, callHandler, frameRows]
  by_cases htag : frame.tag = Wire.frameTagSampleBatch
  · rw [if_pos htag, if_pos htag, handleSampleBatch]
    cases env.codec.parseSampleBatch frame.payload with
    | none => rfl
    | some batch =>
      simp only
      by_cases hv : batch.schemaVersion ∈ Wire.supportedSchemaVersions
      · rw [if_pos hv]
        exact samples_ingestSampleBatch hv _ _
      · rw [if_neg hv, ingestSampleBatch_unsupported hv]
        rfl
  · rw [if_neg htag, if_neg htag, handlePhaseEvent]
    cases env.codec.parsePhaseEvent frame.payload with
    | none => rfl
    | some event => rfl

/-! ### Batches of records -/

/-- The generated parser reads back what the generated serializer writes, and it
writes less than 4 GiB. -/
structure Protobuf (serialize : Serializer) (codec : Wire.Codec) : Prop where
  parsed : ∀ batch payload, serialize batch = some payload →
    codec.parseSampleBatch payload = some batch
  short : ∀ batch payload, serialize batch = some payload → payload.length < 2 ^ 32

/-- A record that is stored by a handler call that reads these clocks. -/
structure Storable (readings : ClockReadings) (record : SampleRecord) : Prop where
  known : record.metricId ∈ Wire.metricIdToName.map Prod.fst
  positive : 0 ≤ record.tsNs
  timely : record.tsNs ≤ readings.nowNs + oneDayNs
  number : record.value ≠ .nan

/-- The columns of its row. -/
structure StoredAs (config : AgentConfig) (readings : ClockReadings) (record : SampleRecord)
    (row : SampleRow) : Prop where
  key : row.key = (config.nodeId, record.metricId, record.tsNs)
  monoNs : row.monoNs = record.monoNs
  serverRecvTsNs : row.serverRecvTsNs = readings.serverRecvTsNs
  value : row.value.val = record.value
  producerVersion : row.producerVersion = kProducerVersion

/-- The tuple the validator sees. -/
def recordTuple (config : AgentConfig) (record : SampleRecord) : SampleTuple :=
  (config.nodeId, record.metricId, record.tsNs, record.monoNs, record.value)

theorem sampleTuples_protoBatch (config : AgentConfig) (records : List SampleRecord) :
    sampleTuples (protoBatch config records) = records.map (recordTuple config) := by
  rw [sampleTuples, protoBatch, List.map_map]
  rfl

theorem fault_recordTuple {config : AgentConfig} {record : SampleRecord} {nowNs : ℤ} :
    fault nowNs (recordTuple config record) = none ↔
      record.metricId ∈ Wire.metricIdToName.map Prod.fst ∧ 0 ≤ record.tsNs ∧
        record.tsNs ≤ nowNs + oneDayNs := by
  have hfault : fault nowNs (recordTuple config record)
      = if record.metricId ∉ Wire.metricIdToName.map Prod.fst then some .unknownMetricId
        else if record.tsNs < 0 ∨ record.tsNs > nowNs + oneDayNs then some .invalidTimestamp
        else none := rfl
  rw [hfault]
  split_ifs with hknown hts
  · exact iff_of_false (fun hc => (by cases hc)) fun hc => (by omega)
  · exact iff_of_true rfl ⟨hknown, by omega, by omega⟩
  · exact iff_of_false (fun hc => (by cases hc)) fun hc => hknown hc.1

section Rows

variable {config : AgentConfig} {codec : Wire.Codec} {payload : Bytes}
  {records : List SampleRecord} {readings : ClockReadings}
  (hparsed : codec.parseSampleBatch payload = some (protoBatch config records))

include hparsed

theorem frameRows_protoBatch : frameRows codec readings (received (batchFrame payload))
    = (acceptedParams (protoBatch config records) readings).filterMap
        TSDBStore.SampleParams.toRow := by
  have hversion : (protoBatch config records).schemaVersion ∈ Wire.supportedSchemaVersions := by
    show kSchemaVersion ∈ Wire.supportedSchemaVersions
    decide
  have htag : (received (batchFrame payload)).tag = Wire.frameTagSampleBatch := rfl
  have hpayload : (received (batchFrame payload)).payload = payload := rfl
  rw [frameRows, if_pos htag, hpayload, hparsed]
  exact if_pos hversion

theorem record_of_mem_frameRows {row : SampleRow}
    (h : row ∈ frameRows codec readings (received (batchFrame payload))) :
    ∃ record ∈ records, Storable readings record ∧ StoredAs config readings record row := by
  rw [frameRows_protoBatch hparsed] at h
  obtain ⟨params, hparams, hrow⟩ := List.mem_filterMap.mp h
  obtain ⟨s, hs, rfl⟩ := List.mem_map.mp hparams
  obtain ⟨hs, hfault⟩ := List.mem_filter.mp hs
  rw [sampleTuples_protoBatch] at hs
  obtain ⟨record, hrecord, rfl⟩ := List.mem_map.mp hs
  replace hfault := of_decide_eq_true hfault
  have hnumber : record.value ≠ .nan := by
    intro hnan
    rw [TSDBStore.SampleParams.toRow_eq_none.mpr hnan] at hrow
    cases hrow
  have hparams' := TSDBStore.SampleParams.ofRow_of_toRow hrow
  obtain ⟨hknown, hpositive, htimely⟩ := fault_recordTuple.mp hfault
  refine ⟨record, hrecord, ⟨hknown, hpositive, htimely, hnumber⟩, ?_⟩
  exact ⟨TSDBStore.SampleParams.key_of_toRow hrow,
    congrArg TSDBStore.SampleParams.monoNs hparams',
    congrArg TSDBStore.SampleParams.serverRecvTsNs hparams',
    congrArg TSDBStore.SampleParams.value hparams',
    congrArg TSDBStore.SampleParams.producerVersion hparams'⟩

theorem mem_frameRows_of_record {record : SampleRecord} (hrecord : record ∈ records)
    (hstorable : Storable readings record) :
    ∃ row ∈ frameRows codec readings (received (batchFrame payload)),
      row.key = (config.nodeId, record.metricId, record.tsNs) := by
  have hfault : fault readings.nowNs (recordTuple config record) = none :=
    fault_recordTuple.mpr ⟨hstorable.known, hstorable.positive, hstorable.timely⟩
  have hmem : recordTuple config record ∈ sampleTuples (protoBatch config records) := by
    rw [sampleTuples_protoBatch]
    exact List.mem_map_of_mem hrecord
  set params := sampleParams kProducerVersion readings.serverRecvTsNs
    (toValidSample (recordTuple config record)) with hparams
  have hmem' : params ∈ acceptedParams (protoBatch config records) readings :=
    List.mem_map_of_mem (List.mem_filter.mpr ⟨hmem, decide_eq_true hfault⟩)
  have hnumber : params.value ≠ .nan := hstorable.number
  obtain ⟨row, hrow⟩ := Option.ne_none_iff_exists'.mp
    (mt TSDBStore.SampleParams.toRow_eq_none.mp hnumber)
  rw [frameRows_protoBatch hparsed]
  exact ⟨row, List.mem_filterMap.mpr ⟨_, hmem', hrow⟩,
    TSDBStore.SampleParams.key_of_toRow hrow⟩

end Rows

/-! ### What a task has handled -/

def Link.handled (link : Link) : List DecodedFrame := link.served.connection.task.handled

/-- The task has read a first part of its connection. -/
structure Tracks (codec : Wire.Codec) (agents : String → RunLoop) (link : Link) : Prop where
  parser : link.served.env.codec = codec
  pipe : ∃ pipe, (agents link.host).pipes[link.pipe]? = some pipe ∧
    link.arrived.flatten <+: pipe.accepted
  chunks : ∀ c ∈ link.arrived, c ≠ []
  connection : ∃ ending : StreamEnd,
    (link.served.connection.task.status = .reading → ending = .stillOpen) ∧
    ∀ store, (handleConnection link.served.env (streamReads link.arrived ending) store).1
      = link.served.connection

variable {config : String → AgentConfig} {serialize : Serializer} {codec : Wire.Codec}

theorem Tracks.grows {agents agents' : String → RunLoop} {link : Link}
    (h : Tracks codec agents link) (hgrows : ∀ host, Grows (agents host) (agents' host)) :
    Tracks codec agents' link := by
  obtain ⟨pipe, hpipe, harrived⟩ := h.pipe
  obtain ⟨pipe', hpipe', hgrown⟩ := hgrows link.host link.pipe pipe hpipe
  exact ⟨h.parser, ⟨pipe', hpipe', harrived.trans hgrown⟩, h.chunks, h.connection⟩

theorem readStep_fst (env : Env) (c : Connection) (read : ReadResult) (store store' : TSDBStore) :
    (readStep env (c, store) read).1 = (readStep env (c, store') read).1 := by
  obtain ⟨c', srows, new, heffect, _⟩ := readStep_effect env c read
  rw [heffect store, heffect store']

/-- One more read of a connection that has not ended. -/
theorem handleConnection_snoc {env : Env} {c : Connection} {chunks : List Bytes}
    (h : ∀ store, (handleConnection env (streamReads chunks .stillOpen) store).1 = c)
    (read : ReadResult) (store store' : TSDBStore) :
    (handleConnection env (chunks.map .chunk ++ [read]) store).1
      = (readStep env (c, store') read).1 := by
  have hfold : handleConnection env (chunks.map .chunk ++ [read]) store
      = readStep env (handleConnection env (streamReads chunks .stillOpen) store) read := by
    rw [handleConnection, List.foldl_append, handleConnection, streamReads, StreamEnd.reads,
      List.append_nil]
    rfl
  rw [hfold, ← h store]
  exact readStep_fst env _ read _ _

/-- A connection of an agent carries the frames of batches that were sent, and
then at most a strict prefix of a frame. -/
structure Framed (config : AgentConfig) (serialize : Serializer) (pipe : Pipe)
    (payloads : List Bytes) (last : Frame) (rest : Bytes) : Prop where
  bytes : pipe.accepted = (payloads.map batchFrame).flatMap Frame.encode ++ rest
  sized : ∀ f ∈ payloads.map batchFrame, f.Sized
  unfinished : last.Sized
  cut : ∃ q, last.encode = rest ++ q ∧ q ≠ []
  sent : (pipe.attempts.filter (·.2)).map (fun a => serialize (protoBatch config a.1))
    = payloads.map some

theorem framed_of_reachable (hproto : Protobuf serialize codec) {config : AgentConfig}
    {loop : RunLoop} (h : Reachable (LoopStep config serialize) .init loop) {pipe : Pipe}
    (hpipe : pipe ∈ loop.pipes) :
    ∃ payloads last rest, Framed config serialize pipe payloads last rest := by
  obtain ⟨payloads, rest, hcarries, hleaves⟩ := carries_of_mem_pipes h hpipe
  have hsized : ∀ f ∈ payloads.map batchFrame, f.Sized := by
    intro f hf
    obtain ⟨payload, hpayload, rfl⟩ := List.mem_map.mp hf
    have hsome : some payload ∈ payloads.map some := List.mem_map_of_mem hpayload
    rw [← hcarries.sent] at hsome
    obtain ⟨a, _, hser⟩ := List.mem_map.mp hsome
    exact hproto.short _ payload hser
  have hbytes : pipe.accepted = (payloads.map batchFrame).flatMap Frame.encode ++ rest := by
    rw [hcarries.bytes, List.flatMap_map]
    rfl
  rcases hleaves with rfl | ⟨a, _, payload, hser, q, hq, hframe⟩
  · exact ⟨payloads, batchFrame [], [], hbytes, hsized, by decide,
      ⟨_, rfl, Frame.encode_ne_nil _⟩, hcarries.sent⟩
  · exact ⟨payloads, batchFrame payload, rest, hbytes, hsized, hproto.short _ payload hser,
      ⟨q, hframe, hq⟩, hcarries.sent⟩

section Handled

variable {config : AgentConfig} {agents : String → RunLoop} {link : Link} {pipe : Pipe}
  {payloads : List Bytes} {last : Frame} {rest : Bytes}
  (hframed : Framed config serialize pipe payloads last rest)
  (htracks : Tracks codec agents link)

include hframed htracks

/-- The frames handled are a first part of those sent. -/
theorem handled_prefix_sent (harrived : link.arrived.flatten <+: pipe.accepted) :
    link.handled <+: (payloads.map batchFrame).map received := by
  obtain ⟨ending, _, hconnection⟩ := htracks.connection
  obtain ⟨q, hcut, hq⟩ := hframed.cut
  rw [hframed.bytes] at harrived
  have hprefix := (handleConnection_cut link.served.env .empty hframed.sized hframed.unfinished
    hcut hq htracks.chunks harrived ending).1
  rw [hconnection .empty] at hprefix
  exact hprefix

/-- Once all of the connection has been read, they are all of those sent. -/
theorem handled_eq_sent (hproto : Protobuf serialize codec)
    (harrived : link.arrived.flatten = pipe.accepted) :
    link.handled = (payloads.map batchFrame).map received := by
  obtain ⟨ending, _, hconnection⟩ := htracks.connection
  obtain ⟨q, hcut, hq⟩ := hframed.cut
  have haccepted : ∀ f ∈ payloads.map batchFrame, Accepted link.served.env.codec (received f) := by
    intro f hf
    obtain ⟨payload, hpayload, rfl⟩ := List.mem_map.mp hf
    have hsome : some payload ∈ payloads.map some := List.mem_map_of_mem hpayload
    rw [← hframed.sent] at hsome
    obtain ⟨a, _, hser⟩ := List.mem_map.mp hsome
    have htag : (received (batchFrame payload)).tag = Wire.frameTagSampleBatch := rfl
    rw [Accepted, if_pos htag, htracks.parser]
    exact Option.isSome_iff_exists.mpr ⟨_, hproto.parsed _ payload hser⟩
  rw [hframed.bytes] at harrived
  obtain ⟨task, store, hfeed, _, hhandled, _⟩ := feed_encoded link.served.env .empty hframed.sized
    haccepted hframed.unfinished hcut hq htracks.chunks harrived
  obtain ⟨records, hevents, _⟩ := events_ending link.served.env ending
    (feed link.served.env link.arrived (connected link.served.env.peer, .empty))
  rw [Link.handled, ← hconnection .empty, handleConnection_streamReads, Task.handled, hevents,
    handledFrames_append, handledFrames_log, List.append_nil, hfeed]
  exact hhandled

end Handled

/-! ### Reads and rows -/

theorem getElem?_append_of_some {α : Type*} {l : List α} {k : ℕ} {x : α} (h : l[k]? = some x)
    (l' : List α) : (l ++ l')[k]? = some x := by
  rw [List.getElem?_append_left (List.getElem?_eq_some_iff.mp h).1, h]

section Reads

variable (env : Env) (c : Connection) (store : TSDBStore) (read : ReadResult)

/-- A row that is stored was stored before, or is of a frame that has been
handled, by the clock of its own handler call. -/
theorem stems_readStep :
    ∀ row ∈ (readStep env (c, store) read).2.samples.rows, row ∈ store.samples.rows ∨
      ∃ k frame, (readStep env (c, store) read).1.task.handled[k]? = some frame ∧
        row ∈ frameRows env.codec (env.clock k) frame := by
  refine readStep_invariant (fun handled store' => ∀ row ∈ store'.samples.rows,
    row ∈ store.samples.rows ∨ ∃ k frame, handled[k]? = some frame ∧
      row ∈ frameRows env.codec (env.clock k) frame) (fun frame hk s h row hrow => ?_)
    (fun row hrow => .inl hrow) read
  rw [samples_handleFrame hk] at hrow
  rcases KeyedTable.mem_rows_of_insertAll hrow with hrow | hrow
  · exact (h row hrow).imp_right fun ⟨k, frame', hget, hrow'⟩ =>
      ⟨k, frame', getElem?_append_of_some hget _, hrow'⟩
  · exact .inr ⟨s.1.handled.length, frame, List.getElem?_concat_length, hrow⟩

theorem keys_readStep {key : SampleKey} (h : key ∈ store.samples.keys) :
    key ∈ (readStep env (c, store) read).2.samples.keys := by
  obtain ⟨c', srows, new, heffect, _⟩ := readStep_effect env c read
  rw [heffect store]
  exact KeyedTable.mem_keys_insertAll.mpr (.inl h)

/-- The rows of the frames handled have their keys in the store. -/
def Kept (env : Env) (handled : List DecodedFrame) (store : TSDBStore) : Prop :=
  ∀ k frame, handled[k]? = some frame → ∀ row ∈ frameRows env.codec (env.clock k) frame,
    row.key ∈ store.samples.keys

variable {env store}

theorem Kept.mono {env : Env} {handled : List DecodedFrame} {store store' : TSDBStore}
    (h : Kept env handled store)
    (hkeys : ∀ key ∈ store.samples.keys, key ∈ store'.samples.keys) : Kept env handled store' :=
  fun k frame hget row hrow => hkeys _ (h k frame hget row hrow)

variable {c} in
theorem kept_readStep (h : Kept env c.task.handled store) :
    Kept env (readStep env (c, store) read).1.task.handled (readStep env (c, store) read).2 := by
  refine readStep_invariant (Kept env) (fun frame hknown s hs k frame' hget row hrow => ?_) h read
  rw [samples_handleFrame hknown, KeyedTable.mem_keys_insertAll]
  rw [List.getElem?_append] at hget
  split_ifs at hget with hk
  · exact .inl (hs k frame' hget row hrow)
  · -- the frame that has just been handled
    rw [List.getElem?_singleton, Option.ite_none_right_eq_some, Option.some_inj] at hget
    obtain ⟨hzero, rfl⟩ := hget
    obtain rfl : k = s.1.handled.length := by omega
    exact .inr ⟨row, hrow, rfl⟩

end Reads

/-! ### Every run -/

variable (config serialize codec) in
/-- What holds in every run that starts with `store₀`. -/
structure Paths (store₀ : TSDBStore) (s : Telemetry) : Prop where
  agents : ∀ host, Reachable (LoopStep (config host) serialize) .init (s.agents host)
  tracks : ∀ link ∈ s.links, Tracks codec s.agents link
  stems : ∀ row ∈ s.store.samples.rows, row ∈ store₀.samples.rows ∨
    ∃ link ∈ s.links, ∃ k frame, link.handled[k]? = some frame ∧
      row ∈ frameRows codec (link.served.env.clock k) frame
  kept : ∀ link ∈ s.links, Kept link.served.env link.handled s.store

theorem paths_start (store₀ : TSDBStore) :
    Paths config serialize codec store₀ (.start store₀) where
  agents := fun _ => .refl
  tracks := fun _ hlink => absurd hlink List.not_mem_nil
  stems := fun _ hrow => .inl hrow
  kept := fun _ hlink => absurd hlink List.not_mem_nil

/-- A connection is read. -/
theorem paths_read {store₀ : TSDBStore} {s : Telemetry}
    (h : Paths config serialize codec store₀ s) {before after : List Link} {link : Link}
    (hlinks : s.links = before ++ link :: after) (read : ReadResult) {link' : Link}
    (hserved : link'.served = ⟨link.served.env,
      (readStep link.served.env (link.served.connection, s.store) read).1⟩)
    (htracks : Tracks codec s.agents link') :
    Paths config serialize codec store₀ { s with
      links := before ++ link' :: after
      store := (readStep link.served.env (link.served.connection, s.store) read).2 } := by
  set r := readStep link.served.env (link.served.connection, s.store) read with hr
  have hold : ∀ {x : Link}, x ∈ before ++ link' :: after → x = link' ∨ x ∈ s.links := by
    intro x hx
    rw [hlinks]
    rcases List.mem_append.mp hx with hx | hx
    · exact .inr (List.mem_append_left _ hx)
    · exact (List.mem_cons.mp hx).imp_right fun hx =>
        List.mem_append_right _ (List.mem_cons_of_mem _ hx)
  have hmem' : link' ∈ before ++ link' :: after := List.mem_append_right _ List.mem_cons_self
  have hhandled' : link'.handled = r.1.task.handled := by rw [Link.handled, hserved]
  have hparser : link.served.env.codec = codec :=
    (h.tracks link (hlinks ▸ List.mem_append_right _ List.mem_cons_self)).parser
  refine ⟨h.agents, fun x hx => ?tracks, fun row hrow => ?stems, fun x hx => ?kept⟩
  case tracks =>
    rcases hold hx with rfl | hx
    · exact htracks
    · exact h.tracks x hx
  case stems =>
    rcases stems_readStep link.served.env link.served.connection s.store read row hrow with
      hrow | ⟨k, frame, hget, hrow⟩
    · rcases h.stems row hrow with hrow | ⟨x, hx, k, frame, hget, hrows⟩
      · exact .inl hrow
      · -- what `link` had handled it still has
        refine .inr ?_
        rw [hlinks] at hx
        rcases List.mem_append.mp hx with hx | hx
        · exact ⟨x, List.mem_append_left _ hx, k, frame, hget, hrows⟩
        · rcases List.mem_cons.mp hx with rfl | hx
          · obtain ⟨new, hnew⟩ :=
              handled_prefix_readStep x.served.env (x.served.connection, s.store) read
            refine ⟨link', hmem', k, frame, ?_, ?_⟩
            · rw [hhandled', ← hnew]
              exact getElem?_append_of_some hget new
            · rw [hserved]
              exact hrows
          · exact ⟨x, List.mem_append_right _ (List.mem_cons_of_mem _ hx), k, frame, hget, hrows⟩
    · rw [hparser] at hrow
      rw [← hr, ← hhandled'] at hget
      refine .inr ⟨link', hmem', k, frame, hget, ?_⟩
      rw [hserved]
      exact hrow
  case kept =>
    rcases hold hx with rfl | hx
    · have hkept := kept_readStep read
        (h.kept link (hlinks ▸ List.mem_append_right _ List.mem_cons_self))
      rw [hhandled', hserved]
      exact hkept
    · exact (h.kept x hx).mono fun key hkey =>
        keys_readStep link.served.env link.served.connection s.store read hkey

theorem paths_step {store₀ : TSDBStore} {s s' : Telemetry} {a : TelemetryAction}
    (h : Paths config serialize codec store₀ s)
    (hstep : TelemetryStep config serialize codec s a s') :
    Paths config serialize codec store₀ s' := by
  cases hstep with
  | @agent host a loop hloop =>
    have hgrows : ∀ host', Grows (s.agents host') (Function.update s.agents host loop host') := by
      intro host'
      by_cases heq : host' = host
      · subst heq
        rw [Function.update_self]
        exact grows_step hloop
      · rw [Function.update_of_ne heq]
        exact fun i pipe hpipe => ⟨pipe, hpipe, List.prefix_rfl⟩
    refine ⟨fun host' => ?_, fun link hlink => (h.tracks link hlink).grows hgrows, h.stems, h.kept⟩
    by_cases heq : host' = host
    · subst heq
      simp only [Function.update_self]
      exact (h.agents host').snoc hloop
    · simp only [Function.update_of_ne heq]
      exact h.agents host'
  | @accept host pipe env hpipe hfree hparser =>
    refine ⟨h.agents, fun link hlink => ?_, fun row hrow => ?_, fun link hlink => ?_⟩
    · rcases List.mem_append.mp hlink with hlink | hlink
      · exact h.tracks link hlink
      · rw [List.mem_singleton.mp hlink]
        exact ⟨hparser, ⟨_, List.getElem?_eq_getElem hpipe, List.nil_prefix⟩,
          fun c hc => absurd hc List.not_mem_nil, .stillOpen, fun _ => rfl, fun _ => rfl⟩
    · exact (h.stems row hrow).imp_right fun ⟨link, hlink, hrest⟩ =>
        ⟨link, List.mem_append_left _ hlink, hrest⟩
    · rcases List.mem_append.mp hlink with hlink | hlink
      · exact h.kept link hlink
      · rw [List.mem_singleton.mp hlink]
        exact fun k frame hget => (by cases hget)
  | @read before after link pipe bs hlinks hpipe hreading hbs harrived =>
    have htracks := h.tracks link (hlinks ▸ List.mem_append_right _ List.mem_cons_self)
    refine paths_read h hlinks (.chunk bs) rfl ⟨htracks.parser, ⟨pipe, hpipe, ?_⟩,
      fun c hc => ?_, ?_⟩
    · rw [List.flatten_append, List.flatten_singleton]
      exact harrived
    · rcases List.mem_append.mp hc with hc | hc
      · exact htracks.chunks c hc
      · rw [List.mem_singleton.mp hc]
        exact hbs
    · obtain ⟨ending, hopen, hconnection⟩ := htracks.connection
      obtain rfl := hopen hreading
      refine ⟨.stillOpen, fun _ => rfl, fun store => ?_⟩
      rw [streamReads, List.map_append, StreamEnd.reads, List.append_nil]
      exact handleConnection_snoc hconnection _ _ _
  | @finish before after link read hlinks hreading hread =>
    have htracks := h.tracks link (hlinks ▸ List.mem_append_right _ List.mem_cons_self)
    refine paths_read h hlinks read rfl ⟨htracks.parser, htracks.pipe, htracks.chunks, ?_⟩
    obtain ⟨ending, hopen, hconnection⟩ := htracks.connection
    obtain rfl := hopen hreading
    rcases hread with rfl | rfl
    · refine ⟨.eof, fun hc => ?_, fun store => handleConnection_snoc hconnection _ _ _⟩
      rw [readStep, if_pos hreading] at hc
      cases hc
    · refine ⟨.reset, fun hc => ?_, fun store => handleConnection_snoc hconnection _ _ _⟩
      rw [readStep, if_pos hreading] at hc
      cases hc
  | other hsame =>
    refine ⟨h.agents, h.tracks, ?_, fun link hlink => ?_⟩
    · rw [hsame]
      exact h.stems
    · exact (h.kept link hlink).mono fun key hkey => hsame ▸ hkey

/-! ### End to end -/

/-- The service has read all the bytes of an agent's connections. -/
def Drained (s : Telemetry) (host : String) : Prop :=
  ∀ (i : ℕ) (pipe : Pipe), (s.agents host).pipes[i]? = some pipe →
    ∃ link ∈ s.links, link.host = host ∧ link.pipe = i ∧ link.arrived.flatten = pipe.accepted

/-- The record was sent in the `k`-th of the batches sent on a connection, and the
task of this connection has handled so many frames. -/
def Judged (agents : String → RunLoop) (link : Link) (k : ℕ) (record : SampleRecord) : Prop :=
  k < link.handled.length ∧ ∃ pipe records, (agents link.host).pipes[link.pipe]? = some pipe ∧
    (pipe.attempts.filter (·.2))[k]? = some (records, true) ∧ record ∈ records

variable (config codec) in
/-- The `k`-th handler call of a connection reads the clocks `clock k` of its
task. -/
structure EndToEnd (store₀ : TSDBStore) (s : Telemetry) : Prop where
  /-- The `k`-th frame handled is that of the `k`-th batch sent on the connection. -/
  batches : ∀ link ∈ s.links, ∀ k < link.handled.length, ∃ pipe records frame,
    (s.agents link.host).pipes[link.pipe]? = some pipe ∧
      (pipe.attempts.filter (·.2))[k]? = some (records, true) ∧
      link.handled[k]? = some frame ∧
      codec.parseSampleBatch frame.payload = some (protoBatch (config link.host) records)
  /-- What has been stored was sent by an agent, as it is, and was judged valid. -/
  sound : ∀ row ∈ s.store.samples.rows, row ∈ store₀.samples.rows ∨
    ∃ link ∈ s.links, ∃ k, ∃ p ∈ (s.agents link.host).state.sent.flatten,
      Judged s.agents link k p.2 ∧ Storable (link.served.env.clock k) p.2 ∧
        StoredAs (config link.host) (link.served.env.clock k) p.2 row
  /-- What was sent was enqueued, and sent once and in order. -/
  once : ∀ host, (s.agents host).state.sent.flatten.Sublist (s.agents host).state.enqueued
  /-- What was judged valid is stored. -/
  stored : ∀ link ∈ s.links, ∀ k record, Judged s.agents link k record →
    Storable (link.served.env.clock k) record →
      ((config link.host).nodeId, record.metricId, record.tsNs) ∈ s.store.samples.keys
  /-- What was sent is judged once it has been read. -/
  complete : ∀ host, Drained s host → ∀ p ∈ (s.agents host).state.sent.flatten,
    ∃ link ∈ s.links, link.host = host ∧ ∃ k, Judged s.agents link k p.2

theorem sublist_of_reachable {config : AgentConfig} {loop : RunLoop}
    (h : Reachable (LoopStep config serialize) .init loop) :
    loop.state.sent.flatten.Sublist loop.state.enqueued := by
  have hadvancing := (reachable_refines h).invariant SenderState.Advancing
    SenderState.advancing_init fun _ _ _ ha hstep => SenderState.advancing_step ha hstep
  obtain ⟨gone, hgone, hsent, _⟩ := hadvancing.queued
  rw [hgone]
  exact hsent.trans (List.sublist_append_left _ _)

section Judgement

variable {config : AgentConfig} {agents : String → RunLoop} {link : Link} {pipe : Pipe}
  {payloads : List Bytes} {last : Frame} {rest : Bytes} (hproto : Protobuf serialize codec)
  (hframed : Framed config serialize pipe payloads last rest)
  (htracks : Tracks codec agents link)

include hproto hframed htracks

/-- The `k`-th frame handled is that of the `k`-th batch sent on the connection. -/
theorem batch_of_handled (harrived : link.arrived.flatten <+: pipe.accepted) {k : ℕ}
    (hk : k < link.handled.length) :
    ∃ records payload, (pipe.attempts.filter (·.2))[k]? = some (records, true) ∧
      link.handled[k]? = some (received (batchFrame payload)) ∧
      codec.parseSampleBatch payload = some (protoBatch config records) := by
  have hprefix := handled_prefix_sent hframed htracks harrived
  have hlength : k < payloads.length := by
    have hle := hprefix.length_le
    rw [List.length_map, List.length_map] at hle
    omega
  have hcount : (pipe.attempts.filter (·.2)).length = payloads.length := by
    have hlengths := congrArg List.length hframed.sent
    rw [List.length_map, List.length_map] at hlengths
    exact hlengths
  obtain ⟨⟨records, ok⟩, hattempt⟩ : ∃ a, (pipe.attempts.filter (·.2))[k]? = some a :=
    ⟨_, List.getElem?_eq_getElem (hcount ▸ hlength)⟩
  obtain rfl : ok = true := (List.mem_filter.mp (List.mem_of_getElem? hattempt)).2
  refine ⟨records, payloads[k], hattempt, ?_, hproto.parsed _ _ ?_⟩
  · obtain ⟨new, hnew⟩ := hprefix
    have hget : (link.handled ++ new)[k]? = link.handled[k]? := List.getElem?_append_left hk
    rw [← hget, hnew, List.getElem?_map, List.getElem?_map, List.getElem?_eq_getElem hlength]
    rfl
  · have hsent := congrArg (fun l => l[k]?) hframed.sent
    simp only [List.getElem?_map, hattempt, List.getElem?_eq_getElem hlength, Option.map_some,
      Option.some_inj] at hsent
    exact hsent

/-- Once all of a connection has been read, all batches sent on it have been
handled. -/
theorem length_handled (harrived : link.arrived.flatten = pipe.accepted) :
    link.handled.length = (pipe.attempts.filter (·.2)).length := by
  have hlengths := congrArg List.length hframed.sent
  rw [List.length_map, List.length_map] at hlengths
  rw [handled_eq_sent hframed htracks hproto harrived, List.length_map, List.length_map, hlengths]

end Judgement

/-- The batch that a handler call judges, and the connection it was sent on. -/
theorem Paths.batch {store₀ : TSDBStore} {s : Telemetry}
    (h : Paths config serialize codec store₀ s) (hproto : Protobuf serialize codec) {link : Link}
    (hlink : link ∈ s.links) {k : ℕ} (hk : k < link.handled.length) :
    ∃ pipe records payload, (s.agents link.host).pipes[link.pipe]? = some pipe ∧
      (pipe.attempts.filter (·.2))[k]? = some (records, true) ∧
      link.handled[k]? = some (received (batchFrame payload)) ∧
      codec.parseSampleBatch payload = some (protoBatch (config link.host) records) := by
  have htracks := h.tracks link hlink
  obtain ⟨pipe, hpipe, harrived⟩ := htracks.pipe
  obtain ⟨payloads, last, rest, hframed⟩ :=
    framed_of_reachable hproto (h.agents link.host) (List.mem_of_getElem? hpipe)
  obtain ⟨records, payload, hattempt, hget, hparsed⟩ :=
    batch_of_handled hproto hframed htracks harrived hk
  exact ⟨pipe, records, payload, hpipe, hattempt, hget, hparsed⟩

/-- In every run of agents and service, with every interleaving of queues, sends,
failures and reads, the rows stored are records sent, and the records sent are
judged once they have been read, and then stored if they are valid. -/
theorem stored_endToEnd (hproto : Protobuf serialize codec) {store₀ : TSDBStore} {s : Telemetry}
    (hreach : Reachable (TelemetryStep config serialize codec) (.start store₀) s) :
    EndToEnd config codec store₀ s := by
  have h : Paths config serialize codec store₀ s :=
    hreach.invariant _ (paths_start store₀) fun _ _ _ => paths_step
  refine ⟨fun link hlink k hk => ?batches, fun row hrow => ?sound, fun host => sublist_of_reachable (h.agents host),
    fun link hlink k record hjudged hstorable => ?stored, fun host hdrained p hp => ?complete⟩
  case batches =>
    obtain ⟨pipe, records, payload, hpipe, hattempt, hget, hparsed⟩ := h.batch hproto hlink hk
    exact ⟨pipe, records, _, hpipe, hattempt, hget, hparsed⟩
  case sound =>
    rcases h.stems row hrow with hrow | ⟨link, hlink, k, frame, hget, hrow⟩
    · exact .inl hrow
    · have hk : k < link.handled.length := (List.getElem?_eq_some_iff.mp hget).1
      obtain ⟨pipe, records, payload, hpipe, hattempt, hget', hparsed⟩ := h.batch hproto hlink hk
      obtain rfl : frame = received (batchFrame payload) :=
        Option.some_inj.mp (hget.symm.trans hget')
      obtain ⟨record, hrecord, hstorable, hstored⟩ := record_of_mem_frameRows hparsed hrow
      -- the batch is one of those the agent remembers
      obtain ⟨hattempted, hok⟩ := List.mem_filter.mp (List.mem_of_getElem? hattempt)
      obtain ⟨batch, hbatch, hbatch'⟩ :=
        (sentOn_of_reachable (h.agents link.host)).batches pipe (List.mem_of_getElem? hpipe) _
          hattempted hok
      obtain rfl : records = batch.map Prod.snd := hbatch'
      obtain ⟨p, hp, rfl⟩ := List.mem_map.mp hrecord
      exact .inr ⟨link, hlink, k, p, List.mem_flatten.mpr ⟨batch, hbatch, hp⟩,
        ⟨hk, pipe, _, hpipe, hattempt, hrecord⟩, hstorable, hstored⟩
  case stored =>
    obtain ⟨hk, pipe, records, hpipe, hattempt, hrecord⟩ := hjudged
    obtain ⟨pipe', records', payload, hpipe', hattempt', hget, hparsed⟩ :=
      h.batch hproto hlink hk
    obtain rfl : pipe = pipe' := Option.some_inj.mp (hpipe.symm.trans hpipe')
    obtain rfl : records = records' :=
      congrArg Prod.fst (Option.some_inj.mp (hattempt.symm.trans hattempt'))
    obtain ⟨row, hrow, hkey⟩ := mem_frameRows_of_record hparsed hrecord hstorable
    rw [← hkey]
    refine h.kept link hlink k _ hget row ?_
    rw [(h.tracks link hlink).parser]
    exact hrow
  case complete =>
    obtain ⟨batch, hbatch, hmem⟩ := List.mem_flatten.mp hp
    obtain ⟨pipe, hpipe, hattempt⟩ := (sentOn_of_reachable (h.agents host)).attempts batch hbatch
    obtain ⟨i, hi⟩ := List.mem_iff_getElem?.mp hpipe
    obtain ⟨link, hlink, rfl, rfl, harrived⟩ := hdrained i pipe hi
    obtain ⟨payloads, last, rest, hframed⟩ :=
      framed_of_reachable hproto (h.agents link.host) hpipe
    obtain ⟨k, hk⟩ := List.mem_iff_getElem?.mp (List.mem_filter.mpr ⟨hattempt, rfl⟩ :
      (batch.map Prod.snd, true) ∈ pipe.attempts.filter (·.2))
    refine ⟨link, hlink, rfl, k, ?_, pipe, _, hi, hk, List.mem_map_of_mem hmem⟩
    rw [length_handled hproto hframed (h.tracks link hlink) harrived]
    exact (List.getElem?_eq_some_iff.mp hk).1

/-! ### Two agents -/

/-- An agent can take many steps in a row. -/
theorem reachable_agent {store₀ : TSDBStore} {s : Telemetry}
    (h : Reachable (TelemetryStep config serialize codec) (.start store₀) s) {host : String}
    {loop : RunLoop} (hloop : Reachable (LoopStep (config host) serialize) (s.agents host) loop) :
    Reachable (TelemetryStep config serialize codec) (.start store₀)
      { s with agents := Function.update s.agents host loop } := by
  refine hloop.invariant (fun loop => Reachable (TelemetryStep config serialize codec)
    (.start store₀) { s with agents := Function.update s.agents host loop }) ?_
    fun loop a loop' hreach hstep => ?_
  · rw [Function.update_eq_self]
    exact h
  · have hagent : (Function.update s.agents host loop) host = loop := Function.update_self _ _ _
    rw [← hagent] at hstep
    have hnext := hreach.snoc (.agent hstep)
    rw [Function.update_idem] at hnext
    exact hnext

def recordsCodec : Wire.Codec where
  parseSampleBatch bs :=
    if bs = recordPayload 0x6e 1 then some (protoBatch ⟨"n", 512⟩ [recordAt 1])
    else if bs = recordPayload 0x6e 2 then some (protoBatch ⟨"n", 512⟩ [recordAt 2])
    else if bs = recordPayload 0x6d 1 then some (protoBatch ⟨"m", 512⟩ [recordAt 1])
    else none
  parsePhaseEvent _ := none

theorem protobuf_records : Protobuf recordsSerializer recordsCodec where
  parsed := by
    intro batch payload hser
    rw [recordsSerializer] at hser
    split_ifs at hser with h₁ h₂ h₃
    · rw [← Option.some_inj.mp hser, h₁]
      rfl
    · rw [← Option.some_inj.mp hser, h₂]
      rfl
    · rw [← Option.some_inj.mp hser, h₃]
      rfl
  short := by
    intro batch payload hser
    rw [length_recordPayload_of_serializer hser]
    omega

/-- A sender that has sent its record. -/
def recordSent : RunLoop :=
  ⟨⟨⟨[], 0⟩, none, [(0, recordAt 1)], [[(0, recordAt 1)]], []⟩,
    some ⟨encodeFrame .kSampleBatch (recordPayload 0x6d 1), [([recordAt 1], true)]⟩, []⟩

theorem reachable_recordSent :
    Reachable (LoopStep ⟨"m", 512⟩ recordsSerializer) .init recordSent := by
  have hstart : Reachable (LoopStep ⟨"m", 512⟩ recordsSerializer) .init .init := .refl
  exact ((hstart.snoc (@LoopStep.enqueue _ _ _ (recordAt 1) _ (.enqueue rfl))).snoc
    (.snapshot (.snapshot rfl))).snoc
    (@LoopStep.finish _ _ _ [(0, recordAt 1)] ⟨true, fun _ => 30⟩ rfl)

def recordsEnv : Env := ⟨recordsCodec, fun _ => ⟨0, 0⟩, "n"⟩

/-- One agent has lost a connection and sent its second record over another one,
which is read while the only connection of the other agent is read. -/
theorem stored_endToEnd_example : ∃ s : Telemetry, s.agents "n" = recordsSent ∧
    EndToEnd (fun host => ⟨host, 512⟩) recordsCodec .empty s ∧
      s.store.samples.keys = [("n", 1, 1), ("m", 1, 1), ("n", 1, 2)] := by
  have hstart : Reachable (TelemetryStep (fun host => ⟨host, 512⟩) recordsSerializer recordsCodec)
    (.start .empty) (.start .empty) := .refl
  have hsent := @reachable_agent _ _ _ _ _ (@reachable_agent _ _ _ _ _ hstart "n" _
    reachable_recordsSent) "m" _ reachable_recordSent
  have haccepted := ((hsent.snoc
    (@TelemetryStep.accept _ _ _ _ "n" 0 recordsEnv (by decide) (by decide) rfl)).snoc
    (@TelemetryStep.accept _ _ _ _ "m" 0 recordsEnv (by decide) (by decide) rfl)).snoc
    (@TelemetryStep.accept _ _ _ _ "n" 1 recordsEnv (by decide) (by decide) rfl)
  have hbroken := (haccepted.snoc
    (@TelemetryStep.read _ _ _ _ [] _ _ brokenPipe brokenPipe.accepted
      rfl rfl rfl (by decide) (by decide))).snoc
    (@TelemetryStep.finish _ _ _ _ [] _ _ (.chunk []) rfl rfl (.inl rfl))
  -- the frame of the second record arrives in two chunks
  have hpart := hbroken.snoc
    (@TelemetryStep.read _ _ _ _ [_, _] [] _ ⟨recordFrame 2, [([recordAt 2], true)]⟩
      ((recordFrame 2).take 20) rfl rfl rfl (by decide) (by decide))
  have hother := hpart.snoc
    (@TelemetryStep.read _ _ _ _ [_] [_] _
      ⟨encodeFrame .kSampleBatch (recordPayload 0x6d 1), [([recordAt 1], true)]⟩
      (encodeFrame .kSampleBatch (recordPayload 0x6d 1)) rfl rfl rfl (by decide) (by decide))
  have hstored := hother.snoc
    (@TelemetryStep.read _ _ _ _ [_, _] [] _ ⟨recordFrame 2, [([recordAt 2], true)]⟩
      ((recordFrame 2).drop 20) rfl rfl rfl (by decide) (by decide))
  refine ⟨_, ?_, stored_endToEnd protobuf_records hstored, ?_⟩
  · rfl
  · decide

end Fleet
