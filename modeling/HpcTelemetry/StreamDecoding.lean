/-
What one connection does with its byte stream.

The handler calls and the reason codes of a connection as a function of the
bytes it receives, for every way TCP can cut them into chunks.

* `handleConnection_exact` — a well-formed stream cut off anywhere is decoded
  exactly, and the reason code at its end tells where it was cut;
* `handleConnection_cut` — one that stops anywhere yields a first part of its
  frames;
* `rejectsOwnFrameOnly_iff` — a payload that does not parse ends the
  connection, without a reason code.
-/
import HpcTelemetry.IngestServer

namespace Ingest

open Wire

/-! ### Reason codes about the stream itself -/

/-- The reason codes the read loop and the drain loop record; the others are
the validator's. -/
def ReasonCode.ofStream : ReasonCode → Bool
  | .partialFrame | .truncatedFrame | .unknownFrameTag => true
  | .schemaMismatch | .unknownMetricId | .invalidTimestamp => false

def streamCodes (events : List Event) : List ReasonCode :=
  (recordedCodes events).filter ReasonCode.ofStream

@[simp] theorem streamCodes_append (es es' : List Event) :
    streamCodes (es ++ es') = streamCodes es ++ streamCodes es' := by
  rw [streamCodes, recordedCodes_append, List.filter_append]
  rfl

/-- No handler records a reason code about the stream. -/
theorem streamCodes_of_fromHandler {records : List LogRecord} (h : FromHandler records) :
    streamCodes (records.map .log) = [] := by
  rw [streamCodes, recordedCodes_log, List.filter_eq_nil_iff]
  intro code hcode
  obtain ⟨r, hr, hrc⟩ := List.mem_filterMap.mp hcode
  have := h r hr
  rw [hrc] at this
  simp only [List.mem_cons, Option.some_inj, List.not_mem_nil, or_false, reduceCtorEq,
    false_or] at this
  rcases this with rfl | rfl | rfl <;> decide

theorem streamCodes_handleFrame {env : Env} {frame : DecodedFrame} (hk : frame.Known)
    (s : Task × TSDBStore) :
    streamCodes (handleFrame env frame s).1.events = streamCodes s.1.events := by
  by_cases h : Accepted env.codec frame
  · obtain ⟨store', records, he, hr⟩ := handleFrame_accepted hk h s
    rw [he, streamCodes_append]
    change _ ++ streamCodes (records.map .log) = _
    rw [streamCodes_of_fromHandler hr, List.append_nil]
  · rw [handleFrame_not_accepted hk h, streamCodes_append]
    exact List.append_nil _

theorem streamCodes_serve {env : Env} {fs : List DecodedFrame} (hk : ∀ f ∈ fs, f.Known)
    (s : Task × TSDBStore) :
    streamCodes (serve env fs s).1.events = streamCodes s.1.events :=
  consume_invariant (fun s' => streamCodes s'.1.events = streamCodes s.1.events)
    (fun f hf s' hs' => (streamCodes_handleFrame (hk f hf) s').trans hs') rfl

/-! ### Well-formed streams -/

theorem known_received (f : Agent.Frame) : (received f).Known := toByte_mem_knownTags f.tag

theorem known_of_mem_map_received {fs : List Agent.Frame} :
    ∀ f ∈ fs.map received, f.Known := by
  intro f hf
  obtain ⟨g, _, rfl⟩ := List.mem_map.mp hf
  exact known_received g

/-- The state in which a well-formed stream leaves its connection before the
end of the stream is seen. -/
theorem feed_encoded (env : Env) (store : TSDBStore) {fs : List Agent.Frame}
    (hsized : ∀ f ∈ fs, f.Sized) (haccepted : ∀ f ∈ fs, Accepted env.codec (received f))
    {last : Agent.Frame} (hlast : last.Sized) {p q : Bytes} (hpq : last.encode = p ++ q)
    (hq : q ≠ []) {chunks : List Bytes} (hne : ∀ c ∈ chunks, c ≠ [])
    (hflat : chunks.flatten = fs.flatMap Agent.Frame.encode ++ p) :
    ∃ task store', feed env chunks (connected env.peer, store) = (⟨p, task⟩, store') ∧
      task.status = .reading ∧ task.handled = fs.map received ∧
      streamCodes task.events = [] := by
  have hscan : frameDecoder.scan ((connected env.peer).buffer ++ chunks.flatten)
      = (fs.map received, .pending p) := by
    rw [connected, List.nil_append, hflat]
    exact frameDecoder_encodes.scan_encoded hsized hlast hpq hq
  have hacc : ∀ f ∈ fs.map received, Accepted env.codec f := by
    intro f hf
    obtain ⟨g, hg, rfl⟩ := List.mem_map.mp hf
    exact haccepted g hg
  obtain ⟨_, hfeed⟩ := feed_spec env hne (connected env.peer, store) rfl rfl
  rw [hscan] at hfeed
  obtain ⟨hstatus, hhandled⟩ := serve_accepted known_of_mem_map_received hacc
    ((connected env.peer).task, store) rfl
  refine ⟨_, _, hfeed hstatus p rfl, hstatus, hhandled.trans rfl, ?_⟩
  rw [streamCodes_serve known_of_mem_map_received]
  rfl

/-- The reason codes of the end of the stream, by what is left in the buffer. -/
theorem streamCodes_eof (peer : String) (buffer : Bytes) :
    streamCodes ((eofRecords peer buffer ++ [agentDisconnected peer]).map .log) =
      if 5 ≤ buffer.length then [.partialFrame]
      else if 1 ≤ buffer.length then [.truncatedFrame] else [] := by
  have hr : agentDisconnected peer = ⟨.info, "agent_disconnected", none, some peer, none⟩ := rfl
  rw [streamCodes, recordedCodes_log, eofRecords]
  split_ifs with h1 h2 h3
  all_goals first | rfl | (rw [frameHeaderLength] at h1; omega)

/-- The end of a stream calls no handler and records no unknown tag. -/
theorem events_ending (env : Env) (ending : StreamEnd) (s : Connection × TSDBStore) :
    ∃ records : List LogRecord, (ending.reads.foldl (readStep env) s).1.task.events
        = s.1.task.events ++ records.map .log ∧
      ∀ r ∈ records, r.reasonCode ≠ some .unknownFrameTag := by
  by_cases hs : s.1.task.status = .reading
  · cases ending with
    | stillOpen => exact ⟨[], (List.append_nil _).symm, by simp⟩
    | eof =>
      refine ⟨eofRecords env.peer s.1.buffer ++ [agentDisconnected env.peer], ?_, ?_⟩
      · change (readStep env s (.chunk [])).1.task.events = _
        rw [readStep, if_pos hs]
        rfl
      · rw [eofRecords]
        split_ifs <;> simp [connectionWarning, agentDisconnected]
    | reset =>
      refine ⟨[agentDisconnected env.peer], ?_, by simp [agentDisconnected]⟩
      change (readStep env s .reset).1.task.events = _
      rw [readStep, if_pos hs]
      rfl
  · rw [foldl_readStep_of_ended hs]
    exact ⟨[], (List.append_nil _).symm, by simp⟩

/-- A well-formed stream that stops anywhere: the frames handled are the first
ones that were sent, and no byte is refused. -/
theorem handleConnection_cut (env : Env) (store : TSDBStore) {fs : List Agent.Frame}
    (hsized : ∀ f ∈ fs, f.Sized) {last : Agent.Frame} (hlast : last.Sized) {p q : Bytes}
    (hpq : last.encode = p ++ q) (hq : q ≠ []) {chunks : List Bytes}
    (hne : ∀ c ∈ chunks, c ≠ [])
    (hflat : chunks.flatten <+: fs.flatMap Agent.Frame.encode ++ p) (ending : StreamEnd) :
    let task := (handleConnection env (streamReads chunks ending) store).1.task
    task.handled <+: fs.map received ∧ .unknownFrameTag ∉ recordedCodes task.events := by
  obtain ⟨b, hleft, hitems⟩ := frameDecoder_encodes.scan_cut hsized hlast hpq hq hflat
  set items := (frameDecoder.scan chunks.flatten).1 with hitemsDef
  set r := serve env items ((connected env.peer).task, store) with hr
  have hknown : ∀ f ∈ items, f.Known := known_of_mem_scan chunks.flatten
  have hfeed : (feed env chunks (connected env.peer, store)).1.task = r.1 := by
    obtain ⟨hstop, hpending⟩ := feed_spec env hne (connected env.peer, store) rfl rfl
    by_cases hs : r.1.status = .reading
    · rw [hpending hs b hleft]
      rfl
    · exact congrArg Prod.fst (hstop hs)
  have hhandled : r.1.handled <+: fs.map received := by
    obtain ⟨new, hnew, hh⟩ := serve_handled env hknown ((connected env.peer).task, store)
    rw [hr, hh]
    exact hnew.trans hitems
  -- no handler records that code, and the end of the stream does not either
  have hcodes : .unknownFrameTag ∉ recordedCodes r.1.events := by
    intro hc
    have hmem : .unknownFrameTag ∈ streamCodes r.1.events := List.mem_filter.mpr ⟨hc, rfl⟩
    rw [streamCodes_serve hknown] at hmem
    cases hmem
  obtain ⟨records, hrec, hnot⟩ :=
    events_ending env ending (feed env chunks (connected env.peer, store))
  rw [hfeed] at hrec
  rw [handleConnection_streamReads]
  constructor
  · rw [Task.handled, hrec, handledFrames_append, handledFrames_log, List.append_nil]
    exact hhandled
  · rw [hrec, recordedCodes_append, recordedCodes_log, List.mem_append, not_or]
    refine ⟨hcodes, fun hc => ?_⟩
    obtain ⟨record, hrecord, hcode⟩ := List.mem_filterMap.mp hc
    exact hnot record hrecord hcode

/-- Stream decoding is exact: frames followed by a strict prefix `p` of one
more are handled each once and in order, no handler raises, and the reason code
at the end of the stream tells a cut header from a cut payload from a clean
end. -/
theorem handleConnection_exact (env : Env) (store : TSDBStore) (fs : List Agent.Frame)
    (hsized : ∀ f ∈ fs, f.Sized) (haccepted : ∀ f ∈ fs, Accepted env.codec (received f))
    (last : Agent.Frame) (hlast : last.Sized) (p q : Bytes) (hpq : last.encode = p ++ q)
    (hq : q ≠ []) (chunks : List Bytes) (hne : ∀ c ∈ chunks, c ≠ [])
    (hflat : chunks.flatten = fs.flatMap Agent.Frame.encode ++ p) :
    let task := (handleConnection env (streamReads chunks .eof) store).1.task
    task.handled = fs.map received ∧ task.status = .finished ∧
      (streamCodes task.events = [.partialFrame] ↔ 5 ≤ p.length) ∧
      (streamCodes task.events = [.truncatedFrame] ↔ 1 ≤ p.length ∧ p.length ≤ 4) ∧
      (streamCodes task.events = [] ↔ p = []) := by
  obtain ⟨task, store', hfeed, hstatus, hhandled, hcodes⟩ :=
    feed_encoded env store hsized haccepted hlast hpq hq hne hflat
  -- the empty read looks at the strict prefix that is left in the buffer
  have hfinal : (handleConnection env (streamReads chunks .eof) store).1.task
      = ⟨.finished, task.events ++
          (eofRecords env.peer p ++ [agentDisconnected env.peer]).map .log⟩ := by
    rw [handleConnection_streamReads, hfeed]
    change (readStep env (⟨p, task⟩, store') (.chunk [])).1.task = _
    rw [readStep, if_pos hstatus]
    rfl
  have hall : streamCodes ((handleConnection env (streamReads chunks .eof) store).1.task.events)
      = if 5 ≤ p.length then [.partialFrame] else if 1 ≤ p.length then [.truncatedFrame]
        else [] := by
    rw [hfinal, streamCodes_append, hcodes, List.nil_append, streamCodes_eof]
  refine ⟨?_, by rw [hfinal], ?_⟩
  · rw [hfinal, Task.handled, handledFrames_append, handledFrames_log, List.append_nil]
    exact hhandled
  · rw [hall, ← List.length_eq_zero_iff (l := p)]
    generalize p.length = n
    split_ifs with h5 h1
    · exact ⟨by simp [h5], by simp; omega, by simp; omega⟩
    · exact ⟨by simp [h5], by simp; omega, by simp; omega⟩
    · exact ⟨by simp [h5], by simp; omega, by simp; omega⟩

/-- protobuf's verdicts on two payloads: the empty one encodes the message of
default fields, and `ff` is a truncated tag.  Nothing else is asked of it. -/
def sampleCodec : Codec where
  parseSampleBatch payload := if payload = [] then some ⟨0, "", []⟩ else none
  parsePhaseEvent payload := if payload = [] then some ⟨"", "", 0, 0, 0, 0, 0, ""⟩ else none

/-- A connection that uses it. -/
def sampleEnv : Env := ⟨sampleCodec, fun _ => ⟨0, 0⟩, "('127.0.0.1', 9)"⟩

theorem handleConnection_exact_example :
    let task := (handleConnection sampleEnv
      (streamReads [[1, 0], [0, 0, 0, 2], [0]] .eof) .empty).1.task
    task.handled = [⟨1, []⟩] ∧ task.status = .finished ∧
      (streamCodes task.events = [.partialFrame] ↔ 5 ≤ 2) ∧
      (streamCodes task.events = [.truncatedFrame] ↔ 1 ≤ 2 ∧ 2 ≤ 4) ∧
      (streamCodes task.events = [] ↔ [2, 0] = ([] : Bytes)) :=
  handleConnection_exact sampleEnv .empty [⟨.kSampleBatch, []⟩] (by decide) (by decide)
    ⟨.kPhaseEvent, []⟩ (by decide) [2, 0] [0, 0, 0] (by decide) (by decide)
    [[1, 0], [0, 0, 0, 2], [0]] (by decide) (by decide)

/-! ### Malformed payloads -/

/-- The log records up to the next handler call. -/
def leadingRecords : List Event → List LogRecord
  | .log r :: es => r :: leadingRecords es
  | _ => []

/-- The handler calls, each with the log records made until the next one. -/
def handlerCalls : List Event → List (DecodedFrame × List LogRecord)
  | [] => []
  | .log _ :: es => handlerCalls es
  | .handle f :: es => (f, leadingRecords es) :: handlerCalls es

theorem leadingRecords_append_handle (es : List Event) (f : DecodedFrame) (tl : List Event) :
    leadingRecords (es ++ .handle f :: tl) = leadingRecords es := by
  induction es with
  | nil => rfl
  | cons e es ih =>
    cases e with
    | handle g => rfl
    | log r => rw [List.cons_append, leadingRecords, leadingRecords, ih]

theorem handlerCalls_append_handle (es : List Event) (f : DecodedFrame) (tl : List Event) :
    handlerCalls (es ++ .handle f :: tl)
      = handlerCalls es ++ (f, leadingRecords tl) :: handlerCalls tl := by
  induction es with
  | nil => rfl
  | cons e es ih =>
    cases e with
    | handle g =>
      rw [List.cons_append, handlerCalls, handlerCalls, leadingRecords_append_handle, ih]
      rfl
    | log r =>
      rw [List.cons_append, handlerCalls, handlerCalls, ih]

theorem map_fst_handlerCalls (es : List Event) :
    (handlerCalls es).map Prod.fst = handledFrames es := by
  induction es with
  | nil => rfl
  | cons e es ih =>
    cases e with
    | handle g => rw [handlerCalls, List.map_cons, ih]; rfl
    | log r => rw [handlerCalls, ih]; rfl

/-- The number of reason codes recorded in a handler call. -/
def codeCount (call : DecodedFrame × List LogRecord) : ℕ :=
  (call.2.filterMap (·.reasonCode)).length

/-- A malformed payload rejects only its own frame: the well-formed frames are
all handled, in order, and each malformed one gets one recorded reason code. -/
def RejectsOwnFrameOnly (codec : Codec) (fs : List DecodedFrame) (events : List Event) : Prop :=
  (handledFrames events).filter (fun f => Accepted codec f)
      = fs.filter (fun f => Accepted codec f) ∧
    ((handlerCalls events).filter fun c => ¬ Accepted codec c.1).map
        (fun c => (c.1, codeCount c))
      = (fs.filter fun f => ¬ Accepted codec f).map fun f => (f, 1)

instance (codec : Codec) (fs : List DecodedFrame) (events : List Event) :
    Decidable (RejectsOwnFrameOnly codec fs events) :=
  inferInstanceAs (Decidable (_ ∧ _))

/-- What the first malformed payload does: the task ends in its handler, having
logged no reason code for it, and the frames behind it are never handled. -/
theorem handleConnection_malformed (env : Env) (store : TSDBStore) {good rest : List Agent.Frame}
    {bad : Agent.Frame} (hsized : ∀ f ∈ good ++ bad :: rest, f.Sized)
    (hgood : ∀ f ∈ good, Accepted env.codec (received f))
    (hbad : ¬ Accepted env.codec (received bad)) {chunks : List Bytes}
    (hne : ∀ c ∈ chunks, c ≠ [])
    (hflat : chunks.flatten = (good ++ bad :: rest).flatMap Agent.Frame.encode)
    (ending : StreamEnd) :
    ∃ events, (handleConnection env (streamReads chunks ending) store).1.task
        = ⟨.failed .decodeError,
            events ++ [.handle (received bad), .log (agentDisconnected env.peer)]⟩ ∧
      handledFrames events = good.map received := by
  have hscan : frameDecoder.scan ((connected env.peer).buffer ++ chunks.flatten)
      = (good.map received ++ received bad :: rest.map received, .pending []) := by
    rw [connected, List.nil_append, hflat, frameDecoder_encodes.scan_whole hsized,
      List.map_append, List.map_cons]
  have hacc : ∀ f ∈ good.map received, Accepted env.codec f := by
    intro f hf
    obtain ⟨g, hg, rfl⟩ := List.mem_map.mp hf
    exact hgood g hg
  obtain ⟨hstop, _⟩ := feed_spec env hne (connected env.peer, store) rfl rfl
  have hserve := serve_refused (rest.map received) known_of_mem_map_received hacc
    (known_received bad) hbad ((connected env.peer).task, store) rfl
  rw [hscan, hserve] at hstop
  obtain ⟨htask, _⟩ := Prod.mk.inj (hstop (by simp))
  -- a task that has ended does not see the end of the stream
  have hended : (feed env chunks (connected env.peer, store)).1.task.status ≠ .reading := by
    rw [htask]
    simp
  refine ⟨_, ?_, (serve_accepted known_of_mem_map_received hacc
    ((connected env.peer).task, store) rfl).2⟩
  rw [handleConnection_streamReads, foldl_readStep_of_ended hended, htask]

/-- A malformed payload rejects only its own frame exactly when there is no
malformed payload: its handler raises out of the read loop. -/
theorem rejectsOwnFrameOnly_iff (env : Env) (store : TSDBStore) (fs : List Agent.Frame)
    (hsized : ∀ f ∈ fs, f.Sized) (chunks : List Bytes) (hne : ∀ c ∈ chunks, c ≠ [])
    (hflat : chunks.flatten = fs.flatMap Agent.Frame.encode) (ending : StreamEnd) :
    RejectsOwnFrameOnly env.codec (fs.map received)
        (handleConnection env (streamReads chunks ending) store).1.task.events
      ↔ ∀ f ∈ fs, Accepted env.codec (received f) := by
  constructor
  · rintro ⟨_, hcodes⟩
    by_contra hc
    -- split the frames at the first malformed one
    have hsome : (fs.find? fun f => ¬ Accepted env.codec (received f)).isSome := by
      rw [List.find?_isSome]
      push Not at hc
      simpa using hc
    obtain ⟨bad, hfind⟩ := Option.isSome_iff_exists.mp hsome
    obtain ⟨hbad, good, rest, hfs, hgood⟩ := List.find?_eq_some_iff_append.mp hfind
    replace hbad : ¬ Accepted env.codec (received bad) := by simpa using hbad
    replace hgood : ∀ f ∈ good, Accepted env.codec (received f) := by simpa using hgood
    subst hfs
    obtain ⟨events, hevents, _⟩ :=
      handleConnection_malformed env store hsized hgood hbad hne hflat ending
    rw [hevents] at hcodes
    -- its call is recorded with no reason code, where one is due
    have hcall : (received bad, [agentDisconnected env.peer]) ∈ handlerCalls
        (events ++ [.handle (received bad), .log (agentDisconnected env.peer)]) := by
      rw [handlerCalls_append_handle]
      exact List.mem_append_right _ List.mem_cons_self
    have hmem : (received bad, 0) ∈ ((handlerCalls
        (events ++ [.handle (received bad), .log (agentDisconnected env.peer)])).filter
          fun c => ¬ Accepted env.codec c.1).map fun c => (c.1, codeCount c) :=
      List.mem_map.mpr ⟨_, List.mem_filter.mpr ⟨hcall, by simpa using hbad⟩, rfl⟩
    rw [hcodes] at hmem
    obtain ⟨_, _, heq⟩ := List.mem_map.mp hmem
    simp at heq
  · intro hacc
    obtain ⟨task, store', hfeed, _, hhandled, _⟩ :=
      feed_encoded (p := []) env store hsized hacc (show Agent.Frame.Sized ⟨.kPhaseEvent, []⟩ by
        decide) rfl (Agent.Frame.encode_ne_nil _) hne (by rw [hflat, List.append_nil])
    obtain ⟨records, hrec, _⟩ := events_ending env ending
      (feed env chunks (connected env.peer, store))
    -- without a malformed payload every frame is handled and none is refused
    have hall : handledFrames
        (handleConnection env (streamReads chunks ending) store).1.task.events
        = fs.map received := by
      rw [handleConnection_streamReads, hrec, handledFrames_append, handledFrames_log,
        List.append_nil, hfeed]
      exact hhandled
    have hmap : ∀ f ∈ fs.map received, Accepted env.codec f := by
      intro f hf
      obtain ⟨g, hg, rfl⟩ := List.mem_map.mp hf
      exact hacc g hg
    refine ⟨by rw [hall], ?_⟩
    rw [List.filter_eq_nil_iff.mpr fun c hc => ?_, List.filter_eq_nil_iff.mpr fun f hf => ?_]
    · rfl
    · simpa using hmap f hf
    · have : c.1 ∈ handledFrames
          (handleConnection env (streamReads chunks ending) store).1.task.events := by
        rw [← map_fst_handlerCalls]
        exact List.mem_map_of_mem hc
      rw [hall] at this
      simpa using hmap _ this

theorem rejectsOwnFrameOnly_iff_example :
    RejectsOwnFrameOnly sampleCodec [⟨1, []⟩]
        (handleConnection sampleEnv (streamReads [[1, 0, 0], [0, 0]] .eof) .empty).1.task.events
      ↔ ∀ f ∈ [(⟨.kSampleBatch, []⟩ : Agent.Frame)], Accepted sampleCodec (received f) :=
  rejectsOwnFrameOnly_iff sampleEnv .empty [⟨.kSampleBatch, []⟩] (by decide)
    [[1, 0, 0], [0, 0]] (by decide) (by decide) .eof

/-- A frame whose payload does not parse, followed by one whose payload does:
no reason code is recorded and the second frame is never handled. -/
theorem rejectsOwnFrameOnly_counterexample :
    ¬ RejectsOwnFrameOnly sampleCodec [⟨1, [0xff]⟩, ⟨1, []⟩]
        (handleConnection sampleEnv
          (streamReads [[1, 0, 0, 0, 1, 0xff, 1, 0, 0, 0, 0]] .eof) .empty).1.task.events ∧
      (handleConnection sampleEnv
        (streamReads [[1, 0, 0, 0, 1, 0xff, 1, 0, 0, 0, 0]] .eof) .empty).1.task.handled
          = [⟨1, [0xff]⟩] := by
  decide

end Ingest
