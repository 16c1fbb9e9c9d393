/-
What happens to a connection after a byte that is no tag.

`_drain_frames` promises to drop the connection.  It clears the buffer and
returns, and the read loop goes on: the next chunk is decoded from its first
byte, as if the stream began there.

* `FailStop` — the promise: no handler is called after the error;
* `resync` — the bytes that are decoded as a new stream after the error: the
  chunks that follow, from the first one on that begins with a tag;
* `failStop_iff` — the promise is kept exactly when those bytes do not start
  with a whole frame, and then what is handled does not depend on the chunks.
-/
import HpcTelemetry.StreamDecoding

namespace Ingest

/-! ### Events are only appended -/

theorem events_prefix_handleFrame {env : Env} {frame : DecodedFrame} (hk : frame.Known)
    (s : Task × TSDBStore) : s.1.events <+: (handleFrame env frame s).1.events := by
  by_cases h : Accepted env.codec frame
  · obtain ⟨store', records, he, _⟩ := handleFrame_accepted hk h s
    rw [he]
    exact List.prefix_append _ _
  · rw [handleFrame_not_accepted hk h]
    exact List.prefix_append _ _

theorem events_prefix_drainFrames (env : Env) (buffer : Bytes) {s : Task × TSDBStore}
    (hs : s.1.status = .reading) : s.1.events <+: (drainFrames env buffer s).2.1.events :=
  drainFrames_invariant (fun s' => s.1.events <+: s'.1.events)
    (fun _ hk s' h => h.trans (events_prefix_handleFrame hk s'))
    (fun _ h => h.trans (List.prefix_append _ _)) buffer hs List.prefix_rfl

theorem events_prefix_readStep (env : Env) (s : Connection × TSDBStore) (read : ReadResult) :
    s.1.task.events <+: (readStep env s read).1.task.events := by
  by_cases hs : s.1.task.status = .reading
  · cases read with
    | chunk bs =>
      by_cases hbs : bs = []
      · subst hbs
        rw [readStep, if_pos hs]
        exact List.prefix_append _ _
      · rw [readStep_chunk hs hbs]
        exact events_prefix_drainFrames env _ (s := (s.1.task, s.2)) hs
    | reset =>
      rw [readStep, if_pos hs]
      exact List.prefix_append _ _
  · rw [readStep_of_ended hs]

theorem events_prefix_feed (env : Env) (chunks : List Bytes) (s : Connection × TSDBStore) :
    s.1.task.events <+: (feed env chunks s).1.task.events := by
  induction chunks generalizing s with
  | nil => exact List.prefix_rfl
  | cons c chunks ih => exact (events_prefix_readStep env s (.chunk c)).trans (ih _)

/-! ### The stream after the error -/

/-- The bytes decoded as a new stream after the error.  A chunk that begins
with no tag is refused and dropped on its own. -/
def resync (chunks : List Bytes) : Bytes :=
  (chunks.dropWhile fun c => decide (verdict c = .invalid)).flatten

/-- Reading chunks that make up a whole frame calls a handler for it. -/
theorem handled_of_item (env : Env) {chunks : List Bytes} (hne : ∀ c ∈ chunks, c ≠ []) :
    ∀ s : Connection × TSDBStore, s.1.task.status = .reading →
      verdict s.1.buffer = .incomplete → ∀ frame n,
      verdict (s.1.buffer ++ chunks.flatten) = .item frame n →
      s.1.task.events ++ [.handle frame] <+: (feed env chunks s).1.task.events := by
  induction chunks with
  | nil =>
    intro s _ hbuf frame n h
    rw [List.flatten_nil, List.append_nil, hbuf] at h
    cases h
  | cons c chunks ih =>
    intro s hs hbuf frame n h
    have hc : c ≠ [] := hne c List.mem_cons_self
    have hchunks : ∀ c ∈ chunks, c ≠ [] := fun x hx => hne x (List.mem_cons_of_mem c hx)
    rw [List.flatten_cons, ← List.append_assoc] at h
    rw [feed_cons]
    cases hv : verdict (s.1.buffer ++ c) with
    | incomplete =>
      have hstep : readStep env s (.chunk c) = (⟨s.1.buffer ++ c, s.1.task⟩, s.2) := by
        rw [readStep_chunk hs hc, drainFrames_eq, hv]
      rw [hstep]
      exact ih hchunks (⟨s.1.buffer ++ c, s.1.task⟩, s.2) hs hv frame n h
    | invalid =>
      have := frameDecoder.invalid_append hv chunks.flatten
      rw [frameDecoder_decode, h] at this
      cases this
    | item frame' n' =>
      have := frameDecoder.item_append hv chunks.flatten
      rw [frameDecoder_decode, h] at this
      injection this with hframe hn
      subst hframe
      have hk : frame.Known := known_of_mem_scan (s.1.buffer ++ c) frame (by
        rw [frameDecoder.scan_of_item hv]
        exact List.mem_cons_self)
      have hcall : s.1.task.events ++ [.handle frame]
          <+: (handleFrame env frame (s.1.task, s.2)).1.events := by
        by_cases ha : Accepted env.codec frame
        · obtain ⟨store', records, he, _⟩ := handleFrame_accepted hk ha (s.1.task, s.2)
          rw [he]
          exact ⟨records.map .log, by simp⟩
        · rw [handleFrame_not_accepted hk ha]
          exact ⟨[.log (agentDisconnected env.peer)], by simp⟩
      refine (hcall.trans ?_).trans (events_prefix_feed env chunks _)
      rw [readStep_chunk hs hc, drainFrames_eq, hv]
      simp only
      split_ifs with hr
      · exact events_prefix_drainFrames env _ hr
      · exact List.prefix_rfl

/-- From an empty buffer, a handler is called again exactly when `resync`
starts with a whole frame. -/
theorem handled_feed_resync (env : Env) {chunks : List Bytes} (hne : ∀ c ∈ chunks, c ≠ []) :
    ∀ s : Connection × TSDBStore, s.1.task.status = .reading → s.1.buffer = [] →
      (handledFrames (feed env chunks s).1.task.events = handledFrames s.1.task.events
        ↔ verdict (resync chunks) = .incomplete) := by
  induction chunks with
  | nil => exact fun s _ _ => ⟨fun _ => rfl, fun _ => rfl⟩
  | cons c chunks ih =>
    intro s hs hbuf
    have hc : c ≠ [] := hne c List.mem_cons_self
    have hchunks : ∀ c ∈ chunks, c ≠ [] := fun x hx => hne x (List.mem_cons_of_mem c hx)
    by_cases hv : verdict c = .invalid
    · -- the chunk is dropped and decoding starts over with the next one
      have hstep : readStep env s (.chunk c)
          = (⟨[], s.1.task.log [unknownFrameTag env.peer]⟩, s.2) := by
        rw [readStep_chunk hs hc, hbuf, List.nil_append, drainFrames_eq, hv]
      have hres : resync (c :: chunks) = resync chunks := by
        rw [resync, List.dropWhile_cons_of_pos (by simpa using hv), resync]
      rw [feed_cons, hstep, hres,
        ← ih hchunks (⟨[], s.1.task.log [unknownFrameTag env.peer]⟩, s.2) hs rfl,
        Task.log_events, handledFrames_append, handledFrames_log, List.append_nil]
    · have hres : resync (c :: chunks) = (c :: chunks).flatten := by
        rw [resync, List.dropWhile_cons_of_neg (by simpa using hv)]
      rw [hres]
      cases hall : verdict (c :: chunks).flatten with
      | incomplete =>
        refine ⟨fun _ => rfl, fun _ => ?_⟩
        obtain ⟨_, hfeed⟩ := feed_spec env hne s hs (by rw [hbuf]; rfl)
        rw [hbuf, List.nil_append, frameDecoder.scan_of_incomplete hall] at hfeed
        rw [hfeed hs _ rfl]
        rfl
      | invalid =>
        -- a first chunk that begins with a tag keeps doing so
        exfalso
        obtain ⟨b, bs, rfl⟩ := List.exists_cons_of_ne_nil hc
        rw [List.flatten_cons, List.cons_append, verdict_cons_invalid_iff] at hall
        exact hv ((verdict_cons_invalid_iff b bs).mpr hall)
      | item frame n =>
        refine ⟨fun hsame => ?_, fun h => by cases h⟩
        have hpre := handled_of_item env hne s hs (by rw [hbuf]; rfl) frame n
          (by rw [hbuf, List.nil_append]; exact hall)
        obtain ⟨tl, htl⟩ := hpre
        rw [← htl, List.append_assoc, handledFrames_append] at hsame
        have := congrArg List.length hsame
        rw [List.length_append, List.singleton_append] at this
        change _ + (frame :: handledFrames tl).length = _ at this
        rw [List.length_cons] at this
        omega

/-! ### Fail-stop -/

/-- `pre` and `c` are the chunks of a connection up to the one in which
`decode_frame` first raises, no handler having raised before. -/
structure FirstUnknownTag (codec : Wire.Codec) (pre : List Bytes) (c : Bytes) : Prop where
  before : ∃ b, (frameDecoder.scan pre.flatten).2 = .pending b
  at_chunk : (frameDecoder.scan (pre.flatten ++ c)).2 = .invalid
  accepted : ∀ f ∈ (frameDecoder.scan (pre.flatten ++ c)).1, Accepted codec f

/-- Once `decode_frame` has raised, no handler is called any more. -/
def FailStop (events : List Event) : Prop :=
  ∀ pre record post, events = pre ++ .log record :: post →
    record.reasonCode = some .unknownFrameTag → handledFrames post = []

/-- After the chunk in which `decode_frame` first raises, what is decoded as a
new stream does not start with a whole frame. -/
def QuietAfterError (codec : Wire.Codec) (chunks : List Bytes) : Prop :=
  ∀ pre c rest, chunks = pre ++ c :: rest → FirstUnknownTag codec pre c →
    verdict (resync rest) = .incomplete

/-- The chunk in which the error occurs. -/
theorem exists_firstUnknownTag {codec : Wire.Codec} {chunks : List Bytes}
    (hinvalid : (frameDecoder.scan chunks.flatten).2 = .invalid)
    (hacc : ∀ f ∈ (frameDecoder.scan chunks.flatten).1, Accepted codec f) :
    ∃ pre c rest, chunks = pre ++ c :: rest ∧ FirstUnknownTag codec pre c := by
  induction chunks using List.reverseRecOn with
  | nil => simp at hinvalid
  | append_singleton chunks c ih =>
    -- the last chunk is the one, unless the error came before it
    rw [List.flatten_append, List.flatten_singleton] at hinvalid hacc
    cases hpre : (frameDecoder.scan chunks.flatten).2 with
    | pending b => exact ⟨chunks, c, [], rfl, ⟨b, hpre⟩, hinvalid, hacc⟩
    | invalid =>
      rw [frameDecoder.scan_append_invalid c hpre] at hacc
      obtain ⟨pre, c', rest, rfl, h⟩ := ih hpre hacc
      exact ⟨pre, c', rest ++ [c], by simp, h⟩

/-- The events of a connection that desynchronises: those of the frames before
the error, the log record of the error, and what comes after it, in which a
handler is called exactly when `resync` starts with a whole frame. -/
theorem events_of_firstUnknownTag (env : Env) (store : TSDBStore) {pre rest : List Bytes}
    {c : Bytes} (hne : ∀ x ∈ pre ++ c :: rest, x ≠ []) (h : FirstUnknownTag env.codec pre c)
    (ending : StreamEnd) :
    ∃ after,
      (handleConnection env (streamReads (pre ++ c :: rest) ending) store).1.task.events
        = (serve env (frameDecoder.scan (pre.flatten ++ c)).1
            ((connected env.peer).task, store)).1.events
          ++ .log (unknownFrameTag env.peer) :: after ∧
      (handledFrames after = [] ↔ verdict (resync rest) = .incomplete) := by
  have hpre : ∀ x ∈ pre, x ≠ [] := fun x hx => hne x (List.mem_append_left _ hx)
  have hc : c ≠ [] := hne c (List.mem_append_right _ List.mem_cons_self)
  have hrest : ∀ x ∈ rest, x ≠ [] := fun x hx =>
    hne x (List.mem_append_right _ (List.mem_cons_of_mem c hx))
  obtain ⟨⟨b, hb⟩, hinvalid, hacc⟩ := h
  rw [frameDecoder.scan_append_pending c hb] at hinvalid hacc ⊢
  simp only [serve_append]
  -- up to the chunk with the error
  have hknown := known_of_mem_scan pre.flatten
  obtain ⟨hr, _⟩ := serve_accepted hknown
    (fun f hf => hacc f (List.mem_append_left _ hf)) ((connected env.peer).task, store) rfl
  obtain ⟨_, hfeed⟩ := feed_spec env hpre (connected env.peer, store) rfl rfl
  set s₁ := serve env (frameDecoder.scan pre.flatten).1 ((connected env.peer).task, store)
    with hs₁
  have hfeed₁ : feed env pre (connected env.peer, store) = (⟨b, s₁.1⟩, s₁.2) :=
    hfeed hr b hb
  -- the chunk with the error
  obtain ⟨hr₂, _⟩ := serve_accepted (known_of_mem_scan (b ++ c))
    (fun f hf => hacc f (List.mem_append_right _ hf)) s₁ hr
  obtain ⟨_, _, hdrain⟩ := drainFrames_spec env (b ++ c) s₁ hr
  set s₂ := serve env (frameDecoder.scan (b ++ c)).1 s₁ with hs₂
  have hstep : readStep env (⟨b, s₁.1⟩, s₁.2) (.chunk c)
      = (⟨[], s₂.1.log [unknownFrameTag env.peer]⟩, s₂.2) := by
    rw [readStep_chunk hr hc]
    simp only [hdrain hr₂ hinvalid]
  -- the chunks behind it
  set s₃ : Connection × TSDBStore := (⟨[], s₂.1.log [unknownFrameTag env.peer]⟩, s₂.2) with hs₃
  have hres := handled_feed_resync env hrest s₃ hr₂ rfl
  obtain ⟨tl, htl⟩ := events_prefix_feed env rest s₃
  obtain ⟨records, hrec, _⟩ := events_ending env ending (feed env rest s₃)
  have hevents : s₃.1.task.events = s₂.1.events ++ [.log (unknownFrameTag env.peer)] := rfl
  refine ⟨tl ++ records.map .log, ?_, ?_⟩
  · rw [handleConnection_streamReads, feed_append, feed_cons, hfeed₁, hstep, hrec, ← htl,
      hevents]
    simp
  · rw [← hres, ← htl, handledFrames_append, handledFrames_append, handledFrames_log,
      List.append_nil]
    simp

/-- A stream without an error, or with a handler that raises before it, leaves
exactly the events of serving its frames. -/
theorem events_of_no_error (env : Env) (store : TSDBStore) {chunks : List Bytes}
    (hne : ∀ c ∈ chunks, c ≠ [])
    (h : (∃ b, (frameDecoder.scan chunks.flatten).2 = .pending b) ∨
      (serve env (frameDecoder.scan chunks.flatten).1
        ((connected env.peer).task, store)).1.status ≠ .reading)
    (ending : StreamEnd) :
    ∃ records : List LogRecord, (∀ r ∈ records, r.reasonCode ≠ some .unknownFrameTag) ∧
      (handleConnection env (streamReads chunks ending) store).1.task.events
        = (serve env (frameDecoder.scan chunks.flatten).1
            ((connected env.peer).task, store)).1.events ++ records.map .log := by
  obtain ⟨hstop, hpending⟩ := feed_spec env hne (connected env.peer, store) rfl rfl
  set r := serve env (frameDecoder.scan chunks.flatten).1 ((connected env.peer).task, store)
    with hr
  have hfeed : (feed env chunks (connected env.peer, store)).1.task = r.1 := by
    by_cases hs : r.1.status = .reading
    · obtain ⟨b, hb⟩ := h.resolve_right (not_not.mpr hs)
      rw [hpending hs b hb]
      rfl
    · exact (Prod.mk.inj (hstop hs)).1
  obtain ⟨records, hrec, hcodes⟩ := events_ending env ending
    (feed env chunks (connected env.peer, store))
  refine ⟨records, hcodes, ?_⟩
  rw [handleConnection_streamReads, hrec, hfeed]

/-- No record of an unknown tag comes out of serving frames. -/
theorem no_unknownTag_serve {env : Env} {fs : List DecodedFrame} (hk : ∀ f ∈ fs, f.Known)
    (store : TSDBStore) (r : LogRecord)
    (hr : .log r ∈ (serve env fs ((connected env.peer).task, store)).1.events) :
    r.reasonCode ≠ some .unknownFrameTag := by
  intro hcode
  have hmem : ReasonCode.unknownFrameTag ∈
      streamCodes (serve env fs ((connected env.peer).task, store)).1.events := by
    rw [streamCodes, List.mem_filter]
    exact ⟨List.mem_filterMap.mpr ⟨_, hr, hcode⟩, rfl⟩
  rw [streamCodes_serve hk] at hmem
  cases hmem

/-- The cases a stream falls into: decoded to its end or stopped by a handler,
or desynchronised. -/
theorem stream_cases (env : Env) (store : TSDBStore) (chunks : List Bytes) :
    ((∃ b, (frameDecoder.scan chunks.flatten).2 = .pending b) ∨
      (serve env (frameDecoder.scan chunks.flatten).1
        ((connected env.peer).task, store)).1.status ≠ .reading) ∨
    ∃ pre c rest, chunks = pre ++ c :: rest ∧ FirstUnknownTag env.codec pre c := by
  cases hleft : (frameDecoder.scan chunks.flatten).2 with
  | pending b => exact Or.inl (Or.inl ⟨b, rfl⟩)
  | invalid =>
    by_cases hacc : ∀ f ∈ (frameDecoder.scan chunks.flatten).1, Accepted env.codec f
    · exact Or.inr (exists_firstUnknownTag hleft hacc)
    · refine Or.inl (Or.inr ?_)
      have hknown := known_of_mem_scan chunks.flatten
      have hsome : ((frameDecoder.scan chunks.flatten).1.find? fun f =>
          ¬ Accepted env.codec f).isSome := by
        rw [List.find?_isSome]
        push Not at hacc
        simpa using hacc
      obtain ⟨bad, hfind⟩ := Option.isSome_iff_exists.mp hsome
      obtain ⟨hbad, good, rest, hfs, hgood⟩ := List.find?_eq_some_iff_append.mp hfind
      rw [hfs] at hknown ⊢
      rw [serve_refused rest (fun f hf => hknown f (List.mem_append_left _ hf))
        (by simpa using hgood) (hknown bad (List.mem_append_right _ List.mem_cons_self))
        (by simpa using hbad) _ rfl]
      simp

/-- Under the condition, the handled frames are those of the byte stream. -/
theorem handledFrames_of_quiet (env : Env) (store : TSDBStore) {chunks : List Bytes}
    (hne : ∀ c ∈ chunks, c ≠ []) (ending : StreamEnd)
    (hquiet : QuietAfterError env.codec chunks) :
    handledFrames (handleConnection env (streamReads chunks ending) store).1.task.events
      = handledFrames (serve env (frameDecoder.scan chunks.flatten).1
          ((connected env.peer).task, store)).1.events := by
  rcases stream_cases env store chunks with h | ⟨pre, c, rest, rfl, h⟩
  · obtain ⟨records, _, hevents⟩ := events_of_no_error env store hne h ending
    rw [hevents, handledFrames_append, handledFrames_log, List.append_nil]
  · obtain ⟨after, hevents, hafter⟩ := events_of_firstUnknownTag env store hne h ending
    have hflat : (pre ++ c :: rest).flatten = pre.flatten ++ c ++ rest.flatten := by simp
    rw [hevents, hflat, frameDecoder.scan_append_invalid _ h.at_chunk, handledFrames_append]
    change _ ++ handledFrames after = _
    rw [hafter.mpr (hquiet pre c rest rfl h), List.append_nil]

/-- The connection stops at an unknown tag exactly when the chunks after the
error, decoded as a new stream, do not start with a whole frame. -/
theorem failStop_iff_quiet (env : Env) (store : TSDBStore) {chunks : List Bytes}
    (hne : ∀ c ∈ chunks, c ≠ []) (ending : StreamEnd) :
    FailStop (handleConnection env (streamReads chunks ending) store).1.task.events
      ↔ QuietAfterError env.codec chunks := by
  constructor
  · rintro hstop pre c rest rfl h
    obtain ⟨after, hevents, hafter⟩ := events_of_firstUnknownTag env store hne h ending
    exact hafter.mp (hstop _ _ _ hevents rfl)
  · intro hquiet pre record post hsplit hcode
    rcases stream_cases env store chunks with h | ⟨pre', c, rest, rfl, h⟩
    · -- there is no such record
      exfalso
      obtain ⟨records, hrec, hevents⟩ := events_of_no_error env store hne h ending
      have hmem : Event.log record
          ∈ (handleConnection env (streamReads chunks ending) store).1.task.events := by
        rw [hsplit]
        exact List.mem_append_right _ List.mem_cons_self
      rw [hevents] at hmem
      rcases List.mem_append.mp hmem with hmem | hmem
      · exact no_unknownTag_serve (known_of_mem_scan _) store record hmem hcode
      · obtain ⟨r, hr, heq⟩ := List.mem_map.mp hmem
        injection heq with heq
        exact hrec r hr (heq ▸ hcode)
    · -- the record is the one of the first error or a later one
      obtain ⟨after, hevents, hafter⟩ := events_of_firstUnknownTag env store hne h ending
      have hnone := hafter.mpr (hquiet pre' c rest rfl h)
      rw [hevents] at hsplit
      rcases List.append_eq_append_iff.mp hsplit with ⟨mid, hpre, hpost⟩ | ⟨mid, hpre, hpost⟩
      · -- `pre` reaches up to the first error at least
        rcases mid with _ | ⟨e, mid⟩
        · injection hpost with _ hpost
          rw [← hpost]
          exact hnone
        · rw [List.cons_append] at hpost
          injection hpost with _ hpost
          rw [hpost, handledFrames_append] at hnone
          change _ ++ handledFrames post = [] at hnone
          exact (List.append_eq_nil_iff.mp hnone).2
      · rcases mid with _ | ⟨e, mid⟩
        · injection hpost with _ hpost
          rw [hpost]
          exact hnone
        · exfalso
          injection hpost with he _
          have hmem : Event.log record ∈ (serve env (frameDecoder.scan (pre'.flatten ++ c)).1
              ((connected env.peer).task, store)).1.events := by
            rw [hpre, he]
            exact List.mem_append_right _ List.mem_cons_self
          exact no_unknownTag_serve (known_of_mem_scan _) store record hmem hcode

/-- When a connection is fail-stop, and that what it handles is then a function
of its bytes. -/
theorem failStop_iff (env : Env) (store : TSDBStore) (chunks : List Bytes)
    (hne : ∀ c ∈ chunks, c ≠ []) (ending : StreamEnd) :
    (FailStop (handleConnection env (streamReads chunks ending) store).1.task.events
      ↔ QuietAfterError env.codec chunks) ∧
    ∀ chunks' ending', (∀ c ∈ chunks', c ≠ []) → chunks'.flatten = chunks.flatten →
      QuietAfterError env.codec chunks → QuietAfterError env.codec chunks' →
      (handleConnection env (streamReads chunks' ending') store).1.task.handled
        = (handleConnection env (streamReads chunks ending) store).1.task.handled := by
  refine ⟨failStop_iff_quiet env store hne ending, fun chunks' ending' hne' hflat hq hq' => ?_⟩
  rw [Task.handled, Task.handled, handledFrames_of_quiet env store hne ending hq,
    handledFrames_of_quiet env store hne' ending' hq', hflat]

theorem failStop_iff_example :
    (FailStop (handleConnection sampleEnv
        (streamReads [[1, 0, 0], [0, 0, 7], [9, 1]] .eof) .empty).1.task.events
      ↔ QuietAfterError sampleCodec [[1, 0, 0], [0, 0, 7], [9, 1]]) ∧
    ∀ chunks' ending', (∀ c ∈ chunks', c ≠ []) →
      chunks'.flatten = [[1, 0, 0], [0, 0, 7], [9, 1]].flatten →
      QuietAfterError sampleCodec [[1, 0, 0], [0, 0, 7], [9, 1]] →
      QuietAfterError sampleCodec chunks' →
      (handleConnection sampleEnv (streamReads chunks' ending') .empty).1.task.handled
        = (handleConnection sampleEnv
            (streamReads [[1, 0, 0], [0, 0, 7], [9, 1]] .eof) .empty).1.task.handled :=
  failStop_iff sampleEnv .empty [[1, 0, 0], [0, 0, 7], [9, 1]] (by decide) .eof

/-- A byte that is no tag, then a frame in the next chunk: the frame is
handled.  In one chunk, the same bytes call no handler. -/
theorem failStop_counterexample :
    ¬ FailStop (handleConnection sampleEnv
        (streamReads [[0], [1, 0, 0, 0, 0]] .eof) .empty).1.task.events ∧
      (handleConnection sampleEnv
        (streamReads [[0], [1, 0, 0, 0, 0]] .eof) .empty).1.task.handled = [⟨1, []⟩] ∧
      (handleConnection sampleEnv
        (streamReads [[0, 1, 0, 0, 0, 0]] .eof) .empty).1.task.handled = [] := by
  refine ⟨fun h => ?_, by decide, by decide⟩
  have hnone := h [.log (agentConnected sampleEnv.peer)] (unknownFrameTag sampleEnv.peer)
    [.handle ⟨1, []⟩, .log ⟨.warning, "batch_rejected", some .schemaMismatch, none, none⟩,
      .log (agentDisconnected sampleEnv.peer)] (by decide) rfl
  cases hnone

end Ingest
