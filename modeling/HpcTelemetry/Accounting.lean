/-
What becomes of each sample of a batch.

A ledger says of every sample of a batch, in order, whether it was written,
skipped as a duplicate, or reported with a reason code (`Way`); it is true
(`Accounts`) when the rows the call added are those of the written samples, the
reason codes recorded are those of the reported ones, and the key of each
duplicate was taken before its turn came.

* `wayOf`, `ledger` — the ledger validation and the primary key lead one to
  expect;
* `Accounts.eq_ledger` — no other ledger can be true;
* `accounts_ledger` — it is true when no NaN comes first for its key;
* `accounted_iff` — and otherwise no ledger is: the sample is in none of the
  three classes.
-/
import HpcTelemetry.IngestServer

namespace Ingest

open Wire TSDBStore

/-- The three ways a sample can be accounted for. -/
inductive Way where
  | written
  | duplicate
  | reported
  deriving DecidableEq

/-- The value of a sample tuple. -/
def sampleValue (s : SampleTuple) : Double := s.2.2.2.2

/-- The samples a ledger gives one way to, in order. -/
def disposed (samples : List SampleTuple) (ways : List Way) (way : Way) : List SampleTuple :=
  ((samples.zip ways).filter fun p => p.2 = way).map Prod.fst

/-- The rows a call added. -/
def newRows (store store' : TSDBStore) : List SampleRow :=
  store'.samples.rows.drop store.samples.rows.length

/-- The ledger `ways` is true of a call of `_handle_sample_batch` that found
the store `store`, left `store'` and recorded `codes`. -/
structure Accounts (batch : SampleBatch) (readings : ClockReadings) (store store' : TSDBStore)
    (codes : List ReasonCode) (ways : List Way) : Prop where
  length_eq : ways.length = (sampleTuples batch).length
  kept : store.samples.rows <+: store'.samples.rows
  written : (newRows store store').map SampleParams.ofRow =
    (disposed (sampleTuples batch) ways .written).map fun s =>
      sampleParams batch.producerVersion readings.serverRecvTsNs (toValidSample s)
  reported : codes.map some =
    (disposed (sampleTuples batch) ways .reported).map (fault readings.nowNs)
  duplicate : ∀ before s after, sampleTuples batch = before ++ s :: after →
    ways[before.length]? = some .duplicate →
    sampleKey s ∈ store.samples.keys ∨ sampleKey s ∈ before.map sampleKey

/-! ### The expected ledger -/

/-- What is expected to become of a sample that follows `before`, when the keys
`taken` are in use. -/
def wayOf (nowNs : ℤ) (taken : List SampleKey) (before : List SampleTuple) (s : SampleTuple) :
    Way :=
  if fault nowNs s ≠ none then .reported
  else if sampleKey s ∈ taken ∨ sampleKey s ∈ before.map sampleKey then .duplicate
  else .written

/-- The expected ledger. -/
def ledger (nowNs : ℤ) : List SampleKey → List SampleTuple → List Way
  | _, [] => []
  | taken, s :: samples => wayOf nowNs taken [] s :: ledger nowNs (sampleKey s :: taken) samples

theorem length_ledger (nowNs : ℤ) (taken : List SampleKey) (samples : List SampleTuple) :
    (ledger nowNs taken samples).length = samples.length := by
  induction samples generalizing taken with
  | nil => rfl
  | cons s samples ih => rw [ledger, List.length_cons, ih, List.length_cons]

theorem ledger_getElem? (nowNs : ℤ) (taken : List SampleKey) (before : List SampleTuple)
    (s : SampleTuple) (after : List SampleTuple) :
    (ledger nowNs taken (before ++ s :: after))[before.length]?
      = some (wayOf nowNs taken before s) := by
  induction before generalizing taken with
  | nil => rfl
  | cons b before ih =>
    rw [List.cons_append, ledger, List.length_cons, List.getElem?_cons_succ, ih, Option.some_inj]
    -- the key of `b` moves from the taken ones to those that came before
    have hiff : (sampleKey s ∈ sampleKey b :: taken ∨ sampleKey s ∈ before.map sampleKey)
        ↔ (sampleKey s ∈ taken ∨ sampleKey s ∈ (b :: before).map sampleKey) := by
      rw [List.map_cons, List.mem_cons, List.mem_cons]
      exact or_assoc.trans or_left_comm
    rw [wayOf, wayOf]
    simp only [hiff]

theorem disposed_ledger_cons (nowNs : ℤ) (taken : List SampleKey) (s : SampleTuple)
    (samples : List SampleTuple) (way : Way) :
    disposed (s :: samples) (ledger nowNs taken (s :: samples)) way =
      (if wayOf nowNs taken [] s = way then [s] else []) ++
        disposed samples (ledger nowNs (sampleKey s :: taken) samples) way := by
  rw [disposed, disposed, ledger, List.zip_cons_cons, List.filter_cons]
  by_cases h : wayOf nowNs taken [] s = way <;> simp [h]

/-- The ledger reports the samples validation drops. -/
theorem reported_ledger (nowNs : ℤ) (taken : List SampleKey) (samples : List SampleTuple) :
    (samples.filterMap (fault nowNs)).map some
      = (disposed samples (ledger nowNs taken samples) .reported).map (fault nowNs) := by
  induction samples generalizing taken with
  | nil => rfl
  | cons s samples ih =>
    rw [disposed_ledger_cons, List.map_append, ← ih, wayOf]
    cases hf : fault nowNs s with
    | none =>
      rw [List.filterMap_cons_none hf]
      by_cases hk : sampleKey s ∈ taken <;> simp [hk]
    | some code =>
      rw [List.filterMap_cons_some hf]
      simp [hf]

/-- A NaN is harmless when its key is taken before its turn comes. -/
def NaNsTaken (nowNs : ℤ) (taken : List SampleKey) (samples : List SampleTuple) : Prop :=
  ∀ before s after, samples = before ++ s :: after → fault nowNs s = none →
    sampleValue s = .nan → sampleKey s ∈ taken ∨ sampleKey s ∈ before.map sampleKey

theorem NaNsTaken.head {nowNs : ℤ} {taken : List SampleKey} {s : SampleTuple}
    {samples : List SampleTuple} (h : NaNsTaken nowNs taken (s :: samples))
    (hf : fault nowNs s = none) (hnan : sampleValue s = .nan) : sampleKey s ∈ taken := by
  rcases h [] s samples rfl hf hnan with hk | hk
  · exact hk
  · cases hk

theorem NaNsTaken.tail {nowNs : ℤ} {taken : List SampleKey} {s : SampleTuple}
    {samples : List SampleTuple} (h : NaNsTaken nowNs taken (s :: samples)) :
    NaNsTaken nowNs (sampleKey s :: taken) samples := by
  intro before s' after heq hf hnan
  rcases h (s :: before) s' after (by rw [heq]; rfl) hf hnan with hk | hk
  · exact Or.inl (List.mem_cons_of_mem _ hk)
  · rw [List.map_cons, List.mem_cons] at hk
    rcases hk with hk | hk
    · exact Or.inl (hk ▸ List.mem_cons_self)
    · exact Or.inr hk

/-! ### The rows of the accepted samples -/

section Rows

variable (nowNs serverRecvTsNs : ℤ) (producerVersion : String)

/-- The rows a list of samples asks to insert. -/
def rowsOf (samples : List SampleTuple) : List SampleRow :=
  ((samples.filter fun s => fault nowNs s = none).map fun s =>
    sampleParams producerVersion serverRecvTsNs (toValidSample s)).filterMap SampleParams.toRow

theorem rowsOf_cons (s : SampleTuple) (samples : List SampleTuple) :
    rowsOf nowNs serverRecvTsNs producerVersion (s :: samples) =
      (if fault nowNs s = none then
        (sampleParams producerVersion serverRecvTsNs (toValidSample s)).toRow.toList else []) ++
        rowsOf nowNs serverRecvTsNs producerVersion samples := by
  rw [rowsOf, rowsOf, List.filter_cons]
  by_cases hf : fault nowNs s = none
  · simp only [hf, decide_true, if_true, List.map_cons]
    rw [List.filterMap_cons]
    cases (sampleParams producerVersion serverRecvTsNs (toValidSample s)).toRow <;> rfl
  · simp [hf]

/-- A row to insert is that of an accepted sample. -/
theorem mem_rowsOf {samples : List SampleTuple} {row : SampleRow}
    (h : row ∈ rowsOf nowNs serverRecvTsNs producerVersion samples) :
    ∃ s ∈ samples, fault nowNs s = none ∧ row.key = sampleKey s := by
  obtain ⟨p, hp, hrow⟩ := List.mem_filterMap.mp h
  obtain ⟨s, hs, rfl⟩ := List.mem_map.mp hp
  obtain ⟨hmem, hf⟩ := List.mem_filter.mp hs
  exact ⟨s, hmem, of_decide_eq_true hf, SampleParams.key_of_toRow hrow⟩

/-- Inserting them writes the samples the ledger calls written.  The keys in
the table and the keys taken agree on the accepted samples; a sample of another
metric or time has another key. -/
theorem insertAll_rowsOf (samples : List SampleTuple) :
    ∀ (t : KeyedTable SampleRow.key) (taken : List SampleKey),
      (∀ s, fault nowNs s = none → (sampleKey s ∈ taken ↔ sampleKey s ∈ t.keys)) →
      NaNsTaken nowNs taken samples →
      ∃ rows, (t.insertAll (rowsOf nowNs serverRecvTsNs producerVersion samples)).rows
          = t.rows ++ rows ∧
        rows.map SampleParams.ofRow =
          (disposed samples (ledger nowNs taken samples) .written).map fun s =>
            sampleParams producerVersion serverRecvTsNs (toValidSample s) := by
  induction samples with
  | nil => exact fun t taken _ _ => ⟨[], (List.append_nil _).symm, rfl⟩
  | cons s samples ih =>
    intro t taken hagree hnans
    rw [rowsOf_cons, disposed_ledger_cons]
    by_cases hf : fault nowNs s = none
    · rw [if_pos hf]
      by_cases hk : sampleKey s ∈ taken
      · -- the key is in the table: nothing is written
        have hskip : ∀ row, (sampleParams producerVersion serverRecvTsNs
            (toValidSample s)).toRow = some row → t.insertIgnore row = t := by
          intro row hrow
          refine KeyedTable.insertIgnore_of_mem ?_
          rw [SampleParams.key_of_toRow hrow]
          exact (hagree s hf).mp hk
        have hway : wayOf nowNs taken [] s = .duplicate := by simp [wayOf, hf, hk]
        rw [KeyedTable.insertAll_append, hway]
        have hsame : t.insertAll (sampleParams producerVersion serverRecvTsNs
            (toValidSample s)).toRow.toList = t := by
          cases hrow : (sampleParams producerVersion serverRecvTsNs (toValidSample s)).toRow with
          | none => rfl
          | some row => exact hskip row hrow
        rw [hsame]
        refine ih t (sampleKey s :: taken) (fun s' hf' => ?_) hnans.tail
        rw [List.mem_cons, ← hagree s' hf']
        exact or_iff_right_of_imp fun heq => heq ▸ hk
      · -- the key is new, so the value is a number, and the row is written
        have hnum : sampleValue s ≠ .nan := fun hnan => hk (hnans.head hf hnan)
        obtain ⟨row, hrow⟩ := Option.ne_none_iff_exists'.mp
          (fun hc => hnum (SampleParams.toRow_eq_none.mp hc) :
            (sampleParams producerVersion serverRecvTsNs (toValidSample s)).toRow ≠ none)
        have hkey : row.key = sampleKey s := SampleParams.key_of_toRow hrow
        have hnew : row.key ∉ t.keys := by
          rw [hkey]
          exact fun hc => hk ((hagree s hf).mpr hc)
        have hway : wayOf nowNs taken [] s = .written := by simp [wayOf, hf, hk]
        obtain ⟨rows, hrows, hparams⟩ := ih (t.insertIgnore row) (sampleKey s :: taken)
          (fun s' hf' => by
            rw [List.mem_cons, KeyedTable.mem_keys_insertIgnore, hagree s' hf', hkey, or_comm])
          hnans.tail
        refine ⟨row :: rows, ?_, ?_⟩
        · rw [hrow, Option.toList_some, List.singleton_append, KeyedTable.insertAll_cons, hrows,
            KeyedTable.rows_insertIgnore_of_notMem hnew, List.append_assoc]
          rfl
        · rw [hway, if_pos rfl, List.map_cons, hparams, SampleParams.ofRow_of_toRow hrow]
          rfl
    · -- the sample is dropped, and no accepted one has its key
      have hway : wayOf nowNs taken [] s = .reported := by simp [wayOf, hf]
      rw [if_neg hf, hway]
      refine ih t (sampleKey s :: taken) (fun s' hf' => ?_) hnans.tail
      rw [List.mem_cons, ← hagree s' hf']
      refine or_iff_right_of_imp fun heq => absurd ?_ hf
      rw [← fault_congr heq]
      exact hf'

end Rows

/-! ### True ledgers -/

section Supported

variable {batch : SampleBatch} (hv : batch.schemaVersion ∈ supportedSchemaVersions)
  (readings : ClockReadings) (store : TSDBStore)

/-- The codes a list of log records carries. -/
def codesOf (records : List LogRecord) : List ReasonCode := records.filterMap (·.reasonCode)

include hv

theorem codesOf_ingestSampleBatch :
    codesOf (ingestSampleBatch batch readings store).2
      = (sampleTuples batch).filterMap (fault readings.nowNs) := by
  obtain ⟨records, he, hrecords⟩ := ingestSampleBatch_supported hv readings
  have hrest : records.filterMap (·.reasonCode) = [] := by
    rw [List.filterMap_eq_nil_iff]
    exact hrecords
  rw [he, codesOf, List.filterMap_append, hrest, List.append_nil, List.filterMap_map]
  exact List.filterMap_some

theorem samples_ingestSampleBatch :
    (ingestSampleBatch batch readings store).1.samples
      = store.samples.insertAll (rowsOf readings.nowNs readings.serverRecvTsNs
          batch.producerVersion (sampleTuples batch)) := by
  obtain ⟨records, he, _⟩ := ingestSampleBatch_supported hv readings
  rw [he, insertSamples_samples]
  rfl

/-- When every NaN comes too late for its key, the expected ledger is true. -/
theorem accounts_ledger
    (h : NaNsTaken readings.nowNs store.samples.keys (sampleTuples batch)) :
    Accounts batch readings store (ingestSampleBatch batch readings store).1
      (codesOf (ingestSampleBatch batch readings store).2)
      (ledger readings.nowNs store.samples.keys (sampleTuples batch)) := by
  obtain ⟨rows, hrows, hparams⟩ := insertAll_rowsOf readings.nowNs readings.serverRecvTsNs
    batch.producerVersion (sampleTuples batch) store.samples store.samples.keys
    (fun _ _ => Iff.rfl) h
  rw [← samples_ingestSampleBatch hv] at hrows
  refine ⟨length_ledger _ _ _, ⟨rows, hrows.symm⟩, ?_, ?_, ?_⟩
  · rw [newRows, hrows, List.drop_left]
    exact hparams
  · rw [codesOf_ingestSampleBatch hv]
    exact reported_ledger _ _ _
  · intro before s after heq hdup
    rw [heq, ledger_getElem?, Option.some_inj, wayOf] at hdup
    split_ifs at hdup with _ htaken
    exact htaken

end Supported

section Unique

variable {batch : SampleBatch} {readings : ClockReadings} {store store' : TSDBStore}
  {codes : List ReasonCode} {ways : List Way}

/-- A ledger splits where the batch does. -/
theorem Accounts.split (h : Accounts batch readings store store' codes ways)
    {before after : List SampleTuple} {s : SampleTuple}
    (heq : sampleTuples batch = before ++ s :: after) :
    ∃ ws w ws', ways = ws ++ w :: ws' ∧ ws.length = before.length := by
  have hlen : before.length < ways.length := by
    rw [h.length_eq, heq, List.length_append, List.length_cons]
    omega
  refine ⟨ways.take before.length, ways[before.length], ways.drop (before.length + 1), ?_, ?_⟩
  · rw [List.getElem_cons_drop hlen, List.take_append_drop]
  · rw [List.length_take, min_eq_left hlen.le]

theorem disposed_split {before after : List SampleTuple} {s : SampleTuple}
    {ws ws' : List Way} {w : Way} (hlen : ws.length = before.length) (way : Way) :
    disposed (before ++ s :: after) (ws ++ w :: ws') way =
      disposed before ws way ++ (if w = way then [s] else []) ++ disposed after ws' way := by
  rw [disposed, disposed, disposed, List.zip_append hlen.symm, List.zip_cons_cons,
    List.filter_append, List.filter_cons, List.map_append, List.append_assoc]
  by_cases h : w = way <;> simp [h]

theorem disposed_sublist {samples : List SampleTuple} {ways : List Way}
    (hlen : samples.length ≤ ways.length) (way : Way) :
    (disposed samples ways way).Sublist samples := by
  have hsub : (disposed samples ways way).Sublist ((samples.zip ways).map Prod.fst) :=
    List.filter_sublist.map Prod.fst
  rwa [List.map_fst_zip hlen] at hsub

variable (h : Accounts batch readings store store' codes ways)
  {before after : List SampleTuple} {s : SampleTuple} {ws ws' : List Way} {w : Way}
  (heq : sampleTuples batch = before ++ s :: after) (hways : ways = ws ++ w :: ws')
  (hlen : ws.length = before.length)

include heq hways hlen

omit heq hways hlen in
theorem length_codes_le {D samples : List SampleTuple} (hsub : D.Sublist samples) (nowNs : ℤ) :
    (D.filterMap (fault nowNs)).length ≤ (samples.filterMap (fault nowNs)).length :=
  (hsub.filterMap _).length_le

theorem mem_disposed : s ∈ disposed (sampleTuples batch) ways w := by
  rw [heq, hways, disposed_split hlen, if_pos rfl]
  exact List.mem_append_left _ (List.mem_append_right _ (List.mem_singleton_self s))

include h

/-- A sample called reported was dropped by validation. -/
theorem Accounts.fault_of_reported (hw : w = .reported) : fault readings.nowNs s ≠ none := by
  have hmem := mem_disposed heq hways hlen
  rw [hw] at hmem
  have hcode : fault readings.nowNs s ∈ codes.map some := by
    rw [h.reported]
    exact List.mem_map_of_mem hmem
  obtain ⟨code, _, hc⟩ := List.mem_map.mp hcode
  rw [← hc]
  exact Option.some_ne_none code

/-- A sample called written has a row of its own. -/
theorem Accounts.row_of_written (hw : w = .written) :
    ∃ row ∈ newRows store store', SampleParams.ofRow row
      = sampleParams batch.producerVersion readings.serverRecvTsNs (toValidSample s) := by
  have hmem := mem_disposed heq hways hlen
  rw [hw] at hmem
  refine List.mem_map.mp ?_
  rw [h.written]
  exact List.mem_map_of_mem hmem

/-- A sample that was accepted and is the first of a new key must be called
written. -/
theorem Accounts.written_of_fresh (hf : fault readings.nowNs s = none)
    (hstore : sampleKey s ∉ store.samples.keys) (hbefore : sampleKey s ∉ before.map sampleKey) :
    w = .written := by
  cases hw : w with
  | written => rfl
  | reported => exact absurd hf (h.fault_of_reported heq hways hlen hw)
  | duplicate =>
    have hget : ways[before.length]? = some .duplicate := by
      rw [hways, ← hlen, List.getElem?_append_right le_rfl, hw]
      simp
    rcases h.duplicate before s after heq hget with hk | hk
    · exact absurd hk hstore
    · exact absurd hk hbefore

omit heq hways hlen in
/-- The rows of a call have distinct keys. -/
theorem Accounts.written_keys_nodup :
    ((disposed (sampleTuples batch) ways .written).map sampleKey).Nodup := by
  have hkeys := congrArg (List.map SampleParams.key) h.written
  rw [List.map_map, List.map_map] at hkeys
  have hsub : ((newRows store store').map SampleRow.key).Sublist store'.samples.keys :=
    (List.drop_sublist _ _).map _
  have hnodup := hsub.nodup store'.samples.keys_nodup
  exact (congrArg List.Nodup hkeys).mp hnodup

omit hways hlen in
/-- In a true ledger every NaN comes too late for its key: there is no row to
show for it. -/
theorem Accounts.nan_taken (hf : fault readings.nowNs s = none) (hnan : sampleValue s = .nan) :
    sampleKey s ∈ store.samples.keys ∨ sampleKey s ∈ before.map sampleKey := by
  by_contra hfresh
  rw [not_or] at hfresh
  obtain ⟨ws, w, ws', hways, hlen⟩ := h.split heq
  have hw := h.written_of_fresh heq hways hlen hf hfresh.1 hfresh.2
  obtain ⟨row, _, hrow⟩ := h.row_of_written heq hways hlen hw
  have hvalue : row.value.val = sampleValue s := congrArg SampleParams.value hrow
  exact row.value.property (hvalue.trans hnan)

end Unique

section Exact

variable {batch : SampleBatch} (hv : batch.schemaVersion ∈ supportedSchemaVersions)
  {readings : ClockReadings} {store : TSDBStore} {ways : List Way}
  (h : Accounts batch readings store (ingestSampleBatch batch readings store).1
    (codesOf (ingestSampleBatch batch readings store).2) ways)
  {before after : List SampleTuple} {s : SampleTuple} {ws ws' : List Way} {w : Way}
  (heq : sampleTuples batch = before ++ s :: after) (hways : ways = ws ++ w :: ws')
  (hlen : ws.length = before.length)

include hv h heq hways hlen

/-- A sample validation drops must be called reported: otherwise there is a
code too many. -/
theorem Accounts.reported_of_fault (hf : fault readings.nowNs s ≠ none) : w = .reported := by
  by_contra hw
  obtain ⟨code, hcode⟩ := Option.ne_none_iff_exists'.mp hf
  have hlen' : ws'.length = after.length := by
    have htotal := h.length_eq
    rw [heq, hways, List.length_append, List.length_append, List.length_cons,
      List.length_cons] at htotal
    omega
  -- the codes recorded are those of all samples, and of those called reported
  have hcodes : (sampleTuples batch).filterMap (fault readings.nowNs)
      = (disposed (sampleTuples batch) ways .reported).filterMap (fault readings.nowNs) := by
    have hmap := congrArg (List.filterMap id) h.reported
    rw [codesOf_ingestSampleBatch hv, List.filterMap_map, List.filterMap_map] at hmap
    exact List.filterMap_some.symm.trans hmap
  rw [heq, hways, disposed_split hlen, if_neg hw, List.append_nil, List.filterMap_append,
    List.filterMap_append, List.filterMap_cons_some hcode] at hcodes
  have htotal := congrArg List.length hcodes
  rw [List.length_append, List.length_append, List.length_cons] at htotal
  have hbefore := length_codes_le (disposed_sublist hlen.ge .reported) readings.nowNs
  have hafter := length_codes_le (disposed_sublist hlen'.ge .reported) readings.nowNs
  omega

/-- A sample called written was accepted, and its key was not in the store. -/
theorem Accounts.new_of_written (hw : w = .written) :
    fault readings.nowNs s = none ∧ sampleKey s ∉ store.samples.keys := by
  obtain ⟨row, hrow, hparams⟩ := h.row_of_written heq hways hlen hw
  have hkey : row.key = sampleKey s := congrArg SampleParams.key hparams
  obtain ⟨rows, hrows⟩ := h.kept
  rw [newRows, ← hrows, List.drop_left] at hrow
  -- the row was added by the call, and keys are unique
  have hnew : sampleKey s ∉ store.samples.keys := by
    intro hc
    have hnodup := (ingestSampleBatch batch readings store).1.samples.keys_nodup
    rw [← hrows, List.map_append, List.nodup_append] at hnodup
    exact hnodup.2.2 _ hc _ (List.mem_map_of_mem hrow) hkey.symm
  refine ⟨?_, hnew⟩
  -- its key is that of an accepted sample, and `s` is judged by its key
  have hfinal : sampleKey s ∈ (ingestSampleBatch batch readings store).1.samples.keys := by
    rw [← hkey]
    refine KeyedTable.key_mem_keys ?_
    rw [← hrows]
    exact List.mem_append_right _ hrow
  rw [samples_ingestSampleBatch hv, KeyedTable.mem_keys_insertAll] at hfinal
  rcases hfinal with hc | ⟨row', hrow', hkey'⟩
  · exact absurd hc hnew
  · obtain ⟨s', _, hf, hs'⟩ := mem_rowsOf _ _ _ hrow'
    rw [fault_congr (hkey'.symm.trans hs')]
    exact hf

/-- No two samples of one key are called written. -/
theorem Accounts.first_of_written (hw : w = .written) :
    sampleKey s ∉ before.map sampleKey := by
  intro hmem
  obtain ⟨hf, hstore⟩ := h.new_of_written hv heq hways hlen hw
  -- the first sample of this key is called written, too
  obtain ⟨ks, ks', hks, hfirst⟩ := List.eq_append_cons_of_mem hmem
  obtain ⟨before₁, rest, rfl, rfl, hrest⟩ := List.map_eq_append_iff.mp hks
  obtain ⟨s₁, before₂, rfl, hkey₁, rfl⟩ := List.map_eq_cons_iff.mp hrest
  have heq₁ : sampleTuples batch = before₁ ++ s₁ :: (before₂ ++ s :: after) := by
    rw [heq, List.append_assoc]
    rfl
  obtain ⟨ws₁, w₁, ws₂, hways₁, hlen₁⟩ := h.split heq₁
  have hw₁ : w₁ = .written := by
    refine h.written_of_fresh heq₁ hways₁ hlen₁ ?_ ?_ ?_
    · rw [fault_congr hkey₁]
      exact hf
    · rw [hkey₁]
      exact hstore
    · rw [hkey₁]
      exact hfirst
  -- so the rows of the call carry its key twice
  have hlens : ws.length = ws₁.length + 1 + before₂.length := by
    rw [hlen, List.length_append, List.length_cons, hlen₁]
    omega
  have hws₂ : ws₂ = ws.drop (ws₁.length + 1) ++ w :: ws' := by
    have hdrop := congrArg (List.drop (ws₁.length + 1)) (hways₁.symm.trans hways)
    rw [List.drop_append_of_le_length (show ws₁.length + 1 ≤ ws.length by omega),
      ← List.singleton_append, ← List.append_assoc, List.drop_left' (by simp)] at hdrop
    exact hdrop
  have hlen₂ : (ws.drop (ws₁.length + 1)).length = before₂.length := by
    rw [List.length_drop]
    omega
  have hnodup := h.written_keys_nodup
  rw [heq₁, hways₁, disposed_split hlen₁, if_pos hw₁, hws₂, disposed_split hlen₂, if_pos hw,
    List.map_append, List.map_append, List.nodup_append] at hnodup
  refine hnodup.2.2 (sampleKey s₁) ?_ (sampleKey s) ?_ hkey₁
  · simp
  · simp

/-- Each entry of a true ledger is the expected one. -/
theorem Accounts.eq_wayOf : w = wayOf readings.nowNs store.samples.keys before s := by
  by_cases hf : fault readings.nowNs s = none
  · by_cases htaken : sampleKey s ∈ store.samples.keys ∨ sampleKey s ∈ before.map sampleKey
    · rw [wayOf, if_neg (not_not.mpr hf), if_pos htaken]
      cases hw : w with
      | duplicate => rfl
      | reported => exact absurd hf (h.fault_of_reported heq hways hlen hw)
      | written =>
        rcases htaken with hk | hk
        · exact absurd hk (h.new_of_written hv heq hways hlen hw).2
        · exact absurd hk (h.first_of_written hv heq hways hlen hw)
    · rw [wayOf, if_neg (not_not.mpr hf), if_neg htaken]
      rw [not_or] at htaken
      exact h.written_of_fresh heq hways hlen hf htaken.1 htaken.2
  · rw [wayOf, if_pos hf]
    exact h.reported_of_fault hv heq hways hlen hf

omit heq hways hlen in
/-- No ledger but the expected one can be true. -/
theorem Accounts.eq_ledger :
    ways = ledger readings.nowNs store.samples.keys (sampleTuples batch) := by
  refine List.ext_getElem (by rw [h.length_eq, length_ledger]) fun i hi hi' => ?_
  have hs : i < (sampleTuples batch).length := by rwa [length_ledger] at hi'
  have heq : sampleTuples batch = (sampleTuples batch).take i ++ (sampleTuples batch)[i] ::
      (sampleTuples batch).drop (i + 1) := by
    rw [List.getElem_cons_drop hs, List.take_append_drop]
  have hways : ways = ways.take i ++ ways[i] :: ways.drop (i + 1) := by
    rw [List.getElem_cons_drop hi, List.take_append_drop]
  have hlen : (ways.take i).length = ((sampleTuples batch).take i).length := by
    rw [List.length_take, List.length_take, h.length_eq]
  have hget := ledger_getElem? readings.nowNs store.samples.keys ((sampleTuples batch).take i)
    (sampleTuples batch)[i] ((sampleTuples batch).drop (i + 1))
  rw [← heq, List.length_take, min_eq_left hs.le, List.getElem?_eq_getElem hi',
    Option.some_inj] at hget
  rw [hget]
  exact h.eq_wayOf hv heq hways hlen

end Exact

/-- Sample accounting, exactly: each sample of a batch of a supported version is
written by this call, skipped because its key was taken, or reported, in one
way and no other, if and only if no NaN that validation accepts is the first
sample of a new key.  Such a NaN is bound as `NULL`, and `OR IGNORE` drops its
row without a trace. -/
theorem accounted_iff (codec : Codec) (payload : Bytes) {batch : SampleBatch}
    (hparse : codec.parseSampleBatch payload = some batch)
    (hv : batch.schemaVersion ∈ supportedSchemaVersions) (readings : ClockReadings)
    (store : TSDBStore) :
    ∃ store' records,
      handleSampleBatch codec readings payload store = .ok (store', records) ∧
      ((∃! ways, Accounts batch readings store store' (codesOf records) ways) ↔
        ∀ before s after, sampleTuples batch = before ++ s :: after →
          fault readings.nowNs s = none → sampleValue s = .nan →
          sampleKey s ∈ store.samples.keys ∨ sampleKey s ∈ before.map sampleKey) := by
  refine ⟨(ingestSampleBatch batch readings store).1, (ingestSampleBatch batch readings store).2,
    ?_, ?_, ?_⟩
  · rw [handleSampleBatch, hparse]
  · rintro ⟨ways, h, _⟩ before s after heq hf hnan
    exact h.nan_taken heq hf hnan
  · intro hnans
    exact ⟨_, accounts_ledger hv readings store hnans, fun ways h => h.eq_ledger hv⟩

/-- A batch with one sample of `cpu_pct`, as the wire carries it. -/
def oneSampleBytes (value : Bytes) : Bytes :=
  [0x08, 0x01, 0x1a, 0x10, 0x0a, 0x01, 0x6e, 0x10, 0x01, 0x18, 0x01, 0x31] ++ value

def oneSample (value : Double) : SampleBatch := ⟨1, "", [⟨"n", 1, 1, 0, 0, value⟩]⟩

/-- The bytes of the doubles 1 and NaN. -/
def oneBytes : Bytes := [0, 0, 0, 0, 0, 0, 0xf0, 0x3f]
def nanBytes : Bytes := [0, 0, 0, 0, 0, 0, 0xf8, 0x7f]

/-- What the generated parsers do with these payloads. -/
def oneSampleCodec : Codec where
  parseSampleBatch payload :=
    if payload = oneSampleBytes oneBytes then some (oneSample (.finite 1))
    else if payload = oneSampleBytes nanBytes then some (oneSample .nan)
    else none
  parsePhaseEvent _ := none

/-- The same with three samples: a second value under the key of the first, and
a metric nobody knows. -/
def sampleBytes (metricId : UInt8) (value : Bytes) : Bytes :=
  [0x1a, 0x10, 0x0a, 0x01, 0x6e, 0x10, metricId, 0x18, 0x01, 0x31] ++ value

def mixedBytes : Bytes :=
  [0x08, 0x01] ++ sampleBytes 1 oneBytes ++ sampleBytes 1 nanBytes ++ sampleBytes 99 oneBytes

def mixedBatch : SampleBatch :=
  ⟨1, "", [⟨"n", 1, 1, 0, 0, .finite 1⟩, ⟨"n", 1, 1, 0, 0, .nan⟩, ⟨"n", 99, 1, 0, 0, .finite 1⟩]⟩

def mixedCodec : Codec where
  parseSampleBatch payload := if payload = mixedBytes then some mixedBatch else none
  parsePhaseEvent _ := none

theorem accounted_iff_example :
    ∃ store' records,
      handleSampleBatch mixedCodec ⟨0, 0⟩ mixedBytes .empty = .ok (store', records) ∧
      ∃! ways, Accounts mixedBatch ⟨0, 0⟩ .empty store' (codesOf records) ways ∧
        ways = [.written, .duplicate, .reported] := by
  have hv : mixedBatch.schemaVersion ∈ supportedSchemaVersions := by decide
  obtain ⟨store', records, hok, hiff⟩ :=
    accounted_iff mixedCodec mixedBytes rfl hv ⟨0, 0⟩ .empty
  have hnans : ∀ before s after, sampleTuples mixedBatch = before ++ s :: after →
      fault 0 s = none → sampleValue s = .nan →
      sampleKey s ∈ TSDBStore.empty.samples.keys ∨ sampleKey s ∈ before.map sampleKey := by
    intro before s after heq _ hnan
    rcases before with _ | ⟨b₁, _ | ⟨b₂, _ | ⟨b₃, before⟩⟩⟩
    · injection heq with hs
      subst hs
      cases hnan
    · injection heq with hb heq
      injection heq with hs
      subst hb hs
      exact Or.inr (by decide)
    · injection heq with _ heq
      injection heq with _ heq
      injection heq with hs
      subst hs
      cases hnan
    · have hlen := congrArg List.length heq
      simp [sampleTuples, mixedBatch] at hlen
  obtain ⟨ways, haccounts, hunique⟩ := hiff.mpr hnans
  have hcall : handleSampleBatch mixedCodec ⟨0, 0⟩ mixedBytes .empty
      = .ok (ingestSampleBatch mixedBatch ⟨0, 0⟩ .empty) := rfl
  obtain ⟨rfl, rfl⟩ := Prod.ext_iff.mp (Except.ok.inj (hcall.symm.trans hok))
  have hways : ways = ledger 0 [] (sampleTuples mixedBatch) := haccounts.eq_ledger hv
  exact ⟨_, _, hok, ways, ⟨haccounts, hways.trans (by decide)⟩, fun ways' h => hunique ways' h.1⟩

/-- A single NaN on an empty store is neither written nor a duplicate nor
reported. -/
theorem accounted_counterexample :
    ∃ store' records,
      handleSampleBatch oneSampleCodec ⟨0, 0⟩ (oneSampleBytes nanBytes) .empty
        = .ok (store', records) ∧
      store'.samples.rows = [] ∧ codesOf records = [] ∧
      ¬ ∃ ways, Accounts (oneSample .nan) ⟨0, 0⟩ .empty store' (codesOf records) ways := by
  refine ⟨_, _, rfl, by decide, by decide, ?_⟩
  rintro ⟨ways, h⟩
  have heq : sampleTuples (oneSample .nan) = [] ++ ("n", 1, 1, 0, .nan) :: [] := rfl
  have htaken := h.nan_taken heq (by decide) rfl
  revert htaken
  decide

end Ingest
