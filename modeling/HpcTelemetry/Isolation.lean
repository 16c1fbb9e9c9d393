/-
Isolation between connections.

Two tasks share the store and take turns, a read at a time.  A task that sends
no sample key and no phase key of the other one cannot be noticed by it: not in
the frames it handles, and not in the rows that carry its keys.

* `SameRows` — two stores hold the same rows of the keys one looks at;
* `SameRows.insert_hidden`, `SameRows.insert_visible` — the insertions of the
  other connection, and those of one's own;
* `lockstep` — the run of both connections simulates the run of one;
* `isolation` — the result, for every schedule of the two streams.
-/
import HpcTelemetry.StoreEffects
import HpcTelemetry.StreamDecoding

namespace Ingest

open Wire

/-! ### Two connections on one store -/

inductive Side where
  | a
  | b
  deriving DecidableEq

structure Pair where
  connA : Connection
  connB : Connection
  store : TSDBStore

/-- One round of the read loop of one of the two tasks; it awaits nothing else,
so the rounds do not overlap. -/
def serveOne (envA envB : Env) (s : Pair) : Side × ReadResult → Pair
  | (.a, read) =>
    let r := readStep envA (s.connA, s.store) read
    { s with connA := r.1, store := r.2 }
  | (.b, read) =>
    let r := readStep envB (s.connB, s.store) read
    { s with connB := r.1, store := r.2 }

/-- Both connections from their start, with their reads in the given order. -/
def serveBoth (envA envB : Env) (schedule : List (Side × ReadResult)) (store : TSDBStore) : Pair :=
  schedule.foldl (serveOne envA envB) ⟨connected envA.peer, connected envB.peer, store⟩

/-- The reads of one side. -/
def readsOf (side : Side) (schedule : List (Side × ReadResult)) : List ReadResult :=
  (schedule.filter fun x => x.1 = side).map Prod.snd

/-! ### What can be seen through some keys -/

section Visibility

variable (p : SampleKey → Bool) (q : PhaseKey → Bool)

/-- The stores hold the same rows with the keys `p` and `q` let through. -/
def SameRows (store store' : TSDBStore) : Prop :=
  store.samples.restrict p = store'.samples.restrict p ∧
    store.phaseEvents.restrict q = store'.phaseEvents.restrict q

/-- All keys a frame carries are let through (`b = true`), or none is. -/
def KeysAre (codec : Codec) (b : Bool) (frame : DecodedFrame) : Prop :=
  (∀ k ∈ sampleKeys codec frame, p k = b) ∧ ∀ r ∈ phaseRows codec frame, q r.key = b

variable {p q} {codec : Codec} {new : List DecodedFrame} {srows : List SampleRow}

theorem Carried.keys_eq {b : Bool} (hkeys : Carried codec new srows)
    (h : ∀ f ∈ new, KeysAre p q codec b f) :
    (∀ r ∈ srows, p r.key = b) ∧ ∀ r ∈ new.flatMap (phaseRows codec), q r.key = b := by
  constructor
  · intro r hr
    obtain ⟨f, hf, hk⟩ := hkeys r hr
    exact (h f hf).1 _ hk
  · intro r hr
    obtain ⟨f, hf, hrow⟩ := List.mem_flatMap.mp hr
    exact (h f hf).2 r hrow

/-- Insertions under other keys are not seen. -/
theorem SameRows.insert_hidden {store store' : TSDBStore} (hsame : SameRows p q store store')
    (hkeys : Carried codec new srows) (h : ∀ f ∈ new, KeysAre p q codec false f) :
    SameRows p q (store.insertRows srows (new.flatMap (phaseRows codec))) store' := by
  obtain ⟨hs, hp⟩ := hkeys.keys_eq h
  refine ⟨?_, ?_⟩
  · exact (KeyedTable.restrict_insertAll_of_not hs).trans hsame.1
  · exact (KeyedTable.restrict_insertAll_of_not hp).trans hsame.2

/-- Insertions under the keys looked at have the same outcome in both stores. -/
theorem SameRows.insert_visible {store store' : TSDBStore} (hsame : SameRows p q store store')
    (hkeys : Carried codec new srows) (h : ∀ f ∈ new, KeysAre p q codec true f) :
    SameRows p q (store.insertRows srows (new.flatMap (phaseRows codec)))
      (store'.insertRows srows (new.flatMap (phaseRows codec))) := by
  obtain ⟨hs, hp⟩ := hkeys.keys_eq h
  refine ⟨?_, ?_⟩
  · exact KeyedTable.restrict_insertAll_congr hs hsame.1
  · exact KeyedTable.restrict_insertAll_congr hp hsame.2

end Visibility

/-! ### The simulation -/

theorem handled_prefix_readStep (env : Env) (s : Connection × TSDBStore) (read : ReadResult) :
    s.1.task.handled <+: (readStep env s read).1.task.handled := by
  obtain ⟨c', srows, new, he, hhandled, _⟩ := readStep_effect env s.1 read
  rw [he s.2, hhandled]
  exact List.prefix_append _ _

theorem handled_prefix_foldl (env : Env) (reads : List ReadResult) (s : Connection × TSDBStore) :
    s.1.task.handled <+: (reads.foldl (readStep env) s).1.task.handled := by
  induction reads generalizing s with
  | nil => exact List.prefix_rfl
  | cons read reads ih => exact (handled_prefix_readStep env s read).trans (ih _)

theorem handled_prefix_foldl_serveOne (envA envB : Env) (schedule : List (Side × ReadResult))
    (s : Pair) :
    s.connA.task.handled <+: (schedule.foldl (serveOne envA envB) s).connA.task.handled := by
  induction schedule generalizing s with
  | nil => exact List.prefix_rfl
  | cons x schedule ih =>
    obtain ⟨side, read⟩ := x
    cases side with
    | a =>
      exact (handled_prefix_readStep envA (s.connA, s.store) read).trans
        (ih (serveOne envA envB s (.a, read)))
    | b => exact ih (serveOne envA envB s (.b, read))

/-- The run of both connections simulates the run of B alone: B's connection is
the same, and so are the rows seen through B's keys. -/
theorem lockstep {envA envB : Env} {p : SampleKey → Bool} {q : PhaseKey → Bool}
    (schedule : List (Side × ReadResult)) :
    ∀ (s : Pair) (storeB : TSDBStore), SameRows p q s.store storeB →
      (∀ f ∈ (schedule.foldl (serveOne envA envB) s).connA.task.handled,
        KeysAre p q envA.codec false f) →
      (∀ f ∈ ((readsOf .b schedule).foldl (readStep envB) (s.connB, storeB)).1.task.handled,
        KeysAre p q envB.codec true f) →
      (schedule.foldl (serveOne envA envB) s).connB
          = ((readsOf .b schedule).foldl (readStep envB) (s.connB, storeB)).1 ∧
        SameRows p q (schedule.foldl (serveOne envA envB) s).store
          ((readsOf .b schedule).foldl (readStep envB) (s.connB, storeB)).2 := by
  induction schedule with
  | nil => exact fun s storeB hsame _ _ => ⟨rfl, hsame⟩
  | cons x schedule ih =>
    obtain ⟨side, read⟩ := x
    intro s storeB hsame hA hB
    cases side with
    | a =>
      -- A moves: B's connection stands still, and its rows are not touched
      obtain ⟨c', srows, new, he, hhandled, hkeys⟩ := readStep_effect envA s.connA read
      have hstep : serveOne envA envB s (.a, read)
          = ⟨c', s.connB, s.store.insertRows srows (new.flatMap (phaseRows envA.codec))⟩ := by
        rw [serveOne, he s.store]
      have hreads : readsOf .b ((.a, read) :: schedule) = readsOf .b schedule := rfl
      rw [List.foldl_cons, hstep] at hA ⊢
      rw [hreads] at hB ⊢
      have hnew : ∀ f ∈ new, KeysAre p q envA.codec false f := by
        intro f hf
        refine hA f ((handled_prefix_foldl_serveOne envA envB schedule _).subset ?_)
        rw [hhandled]
        exact List.mem_append_right _ hf
      exact ih _ storeB (hsame.insert_hidden hkeys hnew) hA hB
    | b =>
      -- B moves: the same round in both runs, whatever else the stores hold
      obtain ⟨c', srows, new, he, hhandled, hkeys⟩ := readStep_effect envB s.connB read
      have hstep : serveOne envA envB s (.b, read)
          = ⟨s.connA, c', s.store.insertRows srows (new.flatMap (phaseRows envB.codec))⟩ := by
        rw [serveOne, he s.store]
      have hreads : readsOf .b ((.b, read) :: schedule) = read :: readsOf .b schedule := rfl
      rw [List.foldl_cons, hstep] at hA ⊢
      rw [hreads, List.foldl_cons, he storeB] at hB ⊢
      have hnew : ∀ f ∈ new, KeysAre p q envB.codec true f := by
        intro f hf
        refine hB f ((handled_prefix_foldl envB (readsOf .b schedule) _).subset ?_)
        rw [hhandled]
        exact List.mem_append_right _ hf
      exact ih _ _ (hsame.insert_visible hkeys hnew) hA hB

/-! ### Isolation -/

/-- The sample keys and the phase keys of a list of frames. -/
def sampleKeysOf (codec : Codec) (fs : List Agent.Frame) : List SampleKey :=
  fs.flatMap fun f => sampleKeys codec (received f)

def phaseKeysOf (codec : Codec) (fs : List Agent.Frame) : List PhaseKey :=
  fs.flatMap fun f => (phaseRows codec (received f)).map PhaseEventRow.key

/-- Isolation: connection B is served the frames `fs`, in any chunks and cut off
anywhere, connection A anything, in any order of the reads.  If no frame handled
for A carries a key of `fs`, then B's frames are handled as if B were alone, and
the rows with B's keys are those B alone leaves behind. -/
theorem isolation (envA envB : Env) (store : TSDBStore) (fs : List Agent.Frame)
    (hsized : ∀ f ∈ fs, f.Sized) (chunks : List Bytes) (hne : ∀ c ∈ chunks, c ≠ [])
    (hflat : chunks.flatten <+: fs.flatMap Agent.Frame.encode) (ending : StreamEnd)
    (schedule : List (Side × ReadResult))
    (hschedule : readsOf .b schedule = streamReads chunks ending)
    (hdisjoint : ∀ f ∈ (serveBoth envA envB schedule store).connA.task.handled,
      (∀ k ∈ sampleKeys envA.codec f, k ∉ sampleKeysOf envB.codec fs) ∧
        ∀ r ∈ phaseRows envA.codec f, r.key ∉ phaseKeysOf envB.codec fs) :
    let both := serveBoth envA envB schedule store
    let alone := handleConnection envB (streamReads chunks ending) store
    both.connB.task.handled = alone.1.task.handled ∧
      both.store.samples.restrict (· ∈ sampleKeysOf envB.codec fs)
        = alone.2.samples.restrict (· ∈ sampleKeysOf envB.codec fs) ∧
      both.store.phaseEvents.restrict (· ∈ phaseKeysOf envB.codec fs)
        = alone.2.phaseEvents.restrict (· ∈ phaseKeysOf envB.codec fs) := by
  -- what B handles when it is alone is among the frames sent
  obtain ⟨hhandled, _⟩ := handleConnection_cut envB store hsized
    (show Agent.Frame.Sized ⟨.kSampleBatch, []⟩ by decide) (List.nil_append _).symm
    (Agent.Frame.encode_ne_nil _) hne (by rwa [List.append_nil]) ending
  have hB : ∀ f ∈ (handleConnection envB (streamReads chunks ending) store).1.task.handled,
      KeysAre (· ∈ sampleKeysOf envB.codec fs) (· ∈ phaseKeysOf envB.codec fs)
        envB.codec true f := by
    intro f hf
    obtain ⟨g, hg, rfl⟩ := List.mem_map.mp (hhandled.subset hf)
    refine ⟨fun k hk => decide_eq_true ?_, fun r hr => decide_eq_true ?_⟩
    · exact List.mem_flatMap.mpr ⟨g, hg, hk⟩
    · exact List.mem_flatMap.mpr ⟨g, hg, List.mem_map_of_mem hr⟩
  have hA : ∀ f ∈ (serveBoth envA envB schedule store).connA.task.handled,
      KeysAre (· ∈ sampleKeysOf envB.codec fs) (· ∈ phaseKeysOf envB.codec fs)
        envA.codec false f := by
    intro f hf
    obtain ⟨hs, hp⟩ := hdisjoint f hf
    exact ⟨fun k hk => decide_eq_false (hs k hk), fun r hr => decide_eq_false (hp r hr)⟩
  rw [handleConnection, ← hschedule] at hB
  obtain ⟨hconn, hrows⟩ := lockstep schedule ⟨connected envA.peer, connected envB.peer, store⟩
    store ⟨rfl, rfl⟩ hA hB
  intro both alone
  rw [show alone = handleConnection envB (readsOf .b schedule) store by rw [hschedule]]
  exact ⟨congrArg (fun c => c.task.handled) hconn, hrows⟩

/-- A desynchronises, sends a batch and is reset while B's report arrives in two
chunks. -/
theorem isolation_example :
    let both := serveBoth sampleEnv sampleEnv
      [(.a, .chunk [9]), (.b, .chunk [2, 0]), (.a, .chunk [1, 0, 0, 0, 0]),
        (.b, .chunk [0, 0, 0]), (.a, .reset), (.b, .chunk [])] .empty
    let alone := handleConnection sampleEnv (streamReads [[2, 0], [0, 0, 0]] .eof) .empty
    both.connB.task.handled = alone.1.task.handled ∧
      both.store.samples.restrict (· ∈ sampleKeysOf sampleCodec [⟨.kPhaseEvent, []⟩])
        = alone.2.samples.restrict (· ∈ sampleKeysOf sampleCodec [⟨.kPhaseEvent, []⟩]) ∧
      both.store.phaseEvents.restrict (· ∈ phaseKeysOf sampleCodec [⟨.kPhaseEvent, []⟩])
        = alone.2.phaseEvents.restrict (· ∈ phaseKeysOf sampleCodec [⟨.kPhaseEvent, []⟩]) :=
  isolation sampleEnv sampleEnv .empty [⟨.kPhaseEvent, []⟩] (by decide) [[2, 0], [0, 0, 0]]
    (by decide) (by decide) .eof
    [(.a, .chunk [9]), (.b, .chunk [2, 0]), (.a, .chunk [1, 0, 0, 0, 0]),
      (.b, .chunk [0, 0, 0]), (.a, .reset), (.b, .chunk [])]
    (by decide) (by decide)

end Ingest
