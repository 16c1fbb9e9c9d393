/-
What a connection does to the store.

Neither the control flow of a connection nor the rows it asks to insert depend
on what the store holds: a round of the read loop is a change of the connection
and an insertion of rows, and both are functions of the connection and the
bytes read (`readStep_effect`).  Every row carries a key of a frame handled in
that round.

* `TSDBStore.insertRows` — inserting samples and phase events, skipping taken
  keys;
* `sampleKeys`, `phaseRows` — the sample keys and the phase events a frame
  carries;
* `handleFrame_effect`, `drainFrames_effect`, `readStep_effect` — the effect of a
  frame, of a buffer, and of a read.
-/
import HpcTelemetry.IngestServer

namespace Ingest

open Wire

namespace TSDBStore

/-- Insert samples and phase events, skipping taken keys. -/
def insertRows (store : TSDBStore) (srows : List SampleRow) (prows : List PhaseEventRow) :
    TSDBStore :=
  { store with
    samples := store.samples.insertAll srows
    phaseEvents := store.phaseEvents.insertAll prows }

theorem insertRows_insertRows (store : TSDBStore) (srows srows' : List SampleRow)
    (prows prows' : List PhaseEventRow) :
    (store.insertRows srows prows).insertRows srows' prows'
      = store.insertRows (srows ++ srows') (prows ++ prows') := by
  rw [insertRows, insertRows, insertRows, KeyedTable.insertAll_append, KeyedTable.insertAll_append]

end TSDBStore

/-! ### What a frame carries -/

/-- The primary keys of the samples in a frame. -/
def sampleKeys (codec : Codec) (frame : DecodedFrame) : List SampleKey :=
  if frame.tag = frameTagSampleBatch then
    match codec.parseSampleBatch frame.payload with
    | none => []
    | some batch => (sampleTuples batch).map sampleKey
  else []

/-- The row a frame's phase event would be stored as. -/
def phaseRows (codec : Codec) (frame : DecodedFrame) : List PhaseEventRow :=
  if frame.tag = frameTagSampleBatch then []
  else (codec.parsePhaseEvent frame.payload).toList.map phaseEventRow

/-- Each row has a key of one of the frames. -/
def Carried (codec : Codec) (frames : List DecodedFrame) (srows : List SampleRow) : Prop :=
  ∀ r ∈ srows, ∃ f ∈ frames, r.key ∈ sampleKeys codec f

theorem Carried.append {codec : Codec} {fs fs' : List DecodedFrame} {srows srows' : List SampleRow}
    (h : Carried codec fs srows) (h' : Carried codec fs' srows') :
    Carried codec (fs ++ fs') (srows ++ srows') := by
  intro r hr
  rcases List.mem_append.mp hr with hr | hr
  · obtain ⟨f, hf, hk⟩ := h r hr
    exact ⟨f, List.mem_append_left _ hf, hk⟩
  · obtain ⟨f, hf, hk⟩ := h' r hr
    exact ⟨f, List.mem_append_right _ hf, hk⟩

/-- A refused frame carries nothing. -/
theorem phaseRows_of_not_accepted {codec : Codec} {frame : DecodedFrame}
    (h : ¬ Accepted codec frame) : phaseRows codec frame = [] := by
  rw [Accepted] at h
  rw [phaseRows]
  split_ifs at h ⊢ with htag
  · rfl
  · rw [Option.not_isSome_iff_eq_none.mp h]
    rfl

/-! ### One frame -/

/-- The rows of an accepted batch have the keys of its samples. -/
theorem key_of_acceptedParams {batch : SampleBatch} {readings : ClockReadings} {row : SampleRow}
    (h : row ∈ (acceptedParams batch readings).filterMap TSDBStore.SampleParams.toRow) :
    row.key ∈ (sampleTuples batch).map sampleKey := by
  obtain ⟨p, hp, hrow⟩ := List.mem_filterMap.mp h
  obtain ⟨s, hs, rfl⟩ := List.mem_map.mp hp
  rw [TSDBStore.SampleParams.key_of_toRow hrow]
  exact List.mem_map_of_mem (List.mem_filter.mp hs).1

/-- Ingesting a batch inserts rows with its keys, whatever the store. -/
theorem ingestSampleBatch_effect (batch : SampleBatch) (readings : ClockReadings) :
    ∃ srows records, (∀ store, ingestSampleBatch batch readings store
        = (store.insertRows srows [], records)) ∧
      ∀ r ∈ srows, r.key ∈ (sampleTuples batch).map sampleKey := by
  by_cases hv : batch.schemaVersion ∈ supportedSchemaVersions
  · obtain ⟨records, he, _⟩ := ingestSampleBatch_supported hv readings
    simp only [TSDBStore.insertSamples_fst] at he
    exact ⟨_, _, he, fun r hr => key_of_acceptedParams hr⟩
  · exact ⟨[], _, fun store => ingestSampleBatch_unsupported hv readings store, by simp⟩

/-- The effect of an accepted frame. -/
theorem callHandler_effect {env : Env} {frame : DecodedFrame} (h : Accepted env.codec frame)
    (readings : ClockReadings) :
    ∃ srows records, (∀ store, callHandler env frame readings store
        = .ok (store.insertRows srows (phaseRows env.codec frame), records)) ∧
      Carried env.codec [frame] srows := by
  rw [Accepted] at h
  unfold callHandler Carried phaseRows sampleKeys
  split_ifs at h ⊢ with htag
  · obtain ⟨batch, hb⟩ := Option.isSome_iff_exists.mp h
    obtain ⟨srows, records, he, hkeys⟩ := ingestSampleBatch_effect batch readings
    refine ⟨srows, records, fun store => ?_, fun r hr => ⟨frame, List.mem_singleton_self _, ?_⟩⟩
    · rw [handleSampleBatch, hb]
      exact congrArg Except.ok (he store)
    · rw [if_pos htag, hb]
      exact hkeys r hr
  · obtain ⟨event, he⟩ := Option.isSome_iff_exists.mp h
    refine ⟨[], [⟨.info, "phase_event_ingested", none, some event.nodeId, some event.jobId⟩],
      fun store => ?_, fun r hr => absurd hr List.not_mem_nil⟩
    rw [handlePhaseEvent, he]
    rfl

theorem handleFrame_effect {env : Env} {frame : DecodedFrame} (hk : frame.Known) (task : Task) :
    ∃ task' srows, (∀ store, handleFrame env frame (task, store)
        = (task', store.insertRows srows (phaseRows env.codec frame))) ∧
      task'.handled = task.handled ++ [frame] ∧ Carried env.codec [frame] srows := by
  by_cases h : Accepted env.codec frame
  · obtain ⟨srows, records, he, hkeys⟩ :=
      callHandler_effect h (env.clock task.handled.length)
    refine ⟨Task.log ⟨task.status, task.events ++ [.handle frame]⟩ records, srows,
      fun store => ?_, ?_, hkeys⟩
    · rw [handleFrame_of_known env hk, he store]
      rfl
    · rw [Task.handled, Task.log_events, handledFrames_append, handledFrames_append,
        handledFrames_log, List.append_nil]
      rfl
  · refine ⟨⟨.failed .decodeError,
      task.events ++ [.handle frame, .log (agentDisconnected env.peer)]⟩, [],
      fun store => ?_, ?_, fun r hr => absurd hr List.not_mem_nil⟩
    · rw [handleFrame_not_accepted hk h, phaseRows_of_not_accepted h]
      rfl
    · show handledFrames (task.events ++ [.handle frame, .log (agentDisconnected env.peer)]) = _
      rw [handledFrames_append]
      rfl

/-! ### Buffers and reads -/

theorem drainFrames_effect (env : Env) (buffer : Bytes) :
    ∀ task : Task, task.status = .reading → ∃ buffer' task' srows new,
      (∀ store, drainFrames env buffer (task, store)
        = (buffer', task', store.insertRows srows (new.flatMap (phaseRows env.codec)))) ∧
      task'.handled = task.handled ++ new ∧ Carried env.codec new srows := by
  induction buffer using frameDecoder.scan_induction with
  | incomplete buffer h =>
    intro task hs
    refine ⟨buffer, task, [], [], fun store => ?_, (List.append_nil _).symm,
      fun r hr => absurd hr List.not_mem_nil⟩
    rw [drainFrames_eq, ← frameDecoder_decode, h]
    rfl
  | invalid buffer h =>
    intro task hs
    refine ⟨[], task.log [unknownFrameTag env.peer], [], [], fun store => ?_, ?_,
      fun r hr => absurd hr List.not_mem_nil⟩
    · rw [drainFrames_eq, ← frameDecoder_decode, h]
      rfl
    · rw [Task.handled, Task.log_events, handledFrames_append, handledFrames_log]
      rfl
  | item buffer frame n h ih =>
    intro task hs
    obtain ⟨task₁, srows₁, he₁, hhandled₁, hkeys₁⟩ :=
      handleFrame_effect (known_of_decode h) task
    by_cases hr : task₁.status = .reading
    · -- the frames behind it follow, on the store with its rows
      obtain ⟨buffer', task', srows, new, he, hhandled, hkeys⟩ := ih task₁ hr
      refine ⟨buffer', task', srows₁ ++ srows, frame :: new, fun store => ?_, ?_,
        hkeys₁.append hkeys⟩
      · rw [drainFrames_eq, ← frameDecoder_decode, h]
        simp only
        rw [he₁ store, if_pos hr, he, TSDBStore.insertRows_insertRows, List.flatMap_cons]
      · rw [hhandled, hhandled₁, List.append_assoc]
        rfl
    · -- the handler raised: the rest of the buffer is not looked at
      refine ⟨buffer.drop n, task₁, srows₁, [frame], fun store => ?_, hhandled₁, hkeys₁⟩
      rw [drainFrames_eq, ← frameDecoder_decode, h]
      simp only
      rw [he₁ store, if_neg hr, List.flatMap_singleton]

/-- The effect of a read: it does not depend on the store. -/
theorem readStep_effect (env : Env) (c : Connection) (read : ReadResult) :
    ∃ c' srows new,
      (∀ store, readStep env (c, store) read
        = (c', store.insertRows srows (new.flatMap (phaseRows env.codec)))) ∧
      c'.task.handled = c.task.handled ++ new ∧ Carried env.codec new srows := by
  by_cases hs : c.task.status = .reading
  · cases read with
    | chunk bs =>
      by_cases hbs : bs = []
      · subst hbs
        refine ⟨⟨c.buffer, ⟨.finished, c.task.events ++
          (eofRecords env.peer c.buffer ++ [agentDisconnected env.peer]).map Event.log⟩⟩, [], [],
          fun store => ?_, ?_, fun r hr => absurd hr List.not_mem_nil⟩
        · rw [readStep, if_pos hs]
          rfl
        · rw [Task.handled, handledFrames_append, handledFrames_log]
          rfl
      · obtain ⟨buffer', task', srows, new, he, hhandled, hkeys⟩ :=
          drainFrames_effect env (c.buffer ++ bs) c.task hs
        refine ⟨⟨buffer', task'⟩, srows, new, fun store => ?_, hhandled, hkeys⟩
        rw [readStep_chunk hs hbs, he store]
    | reset =>
      refine ⟨⟨c.buffer, ⟨.failed .connectionReset, c.task.events ++
        [agentDisconnected env.peer].map Event.log⟩⟩, [], [],
        fun store => ?_, ?_, fun r hr => absurd hr List.not_mem_nil⟩
      · rw [readStep, if_pos hs]
        rfl
      · rw [Task.handled, handledFrames_append, handledFrames_log]
        rfl
  · exact ⟨c, [], [], fun store => readStep_of_ended hs read, (List.append_nil _).symm,
      fun r hr => absurd hr List.not_mem_nil⟩

end Ingest
