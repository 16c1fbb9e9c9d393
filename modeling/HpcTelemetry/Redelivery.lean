/-
Redelivered samples.

An agent that is not sure of a batch sends it again, cut differently or stamped
anew by the server.  Whatever it sends again, the store is the one the first
deliveries alone would have made.

* `insertCalls` — `insert_samples` called again and again;
* `rows_insertCalls` — the table is the fold of all rows in which the first of
  each key wins, so it does not matter how they were cut into calls;
* `length_insertCalls` — the counts returned add up to the growth of the table;
* `redelivery` — calls that repeat keys write nothing and return 0.
-/
import HpcTelemetry.Store

namespace Ingest

open KeyedTable TSDBStore

/-- The store after some `insert_samples` calls, and what they returned. -/
def insertCalls (store : TSDBStore) (calls : List (List SampleParams)) : TSDBStore × List ℕ :=
  calls.foldl
    (fun acc rows => ((acc.1.insertSamples rows).1, acc.2 ++ [(acc.1.insertSamples rows).2]))
    (store, [])

/-- A call of `insert_samples`: with rows for the first time, or with rows under
keys that are known. -/
inductive Call where
  | first (rows : List SampleParams)
  | again (rows : List SampleParams)
  deriving DecidableEq

def Call.rows : Call → List SampleParams
  | .first rows => rows
  | .again rows => rows

/-- The rows of the first deliveries, call by call. -/
def firsts (calls : List Call) : List (List SampleParams) :=
  calls.filterMap fun
    | .first rows => some rows
    | .again _ => none

/-- The keys of the rows of an `again` call were stored at the beginning or
were among those of an earlier call; the other columns are free. -/
def Redelivers (known : List SampleKey) : List Call → Prop
  | [] => True
  | .first rows :: calls => Redelivers (known ++ rows.map SampleParams.key) calls
  | .again rows :: calls => (∀ p ∈ rows, p.key ∈ known) ∧ Redelivers known calls

/-- The rows bind: none of their values is NaN. -/
def Binds (rows : List SampleParams) : Prop := ∀ p ∈ rows, p.value ≠ .nan

/-! ### One call -/

theorem exists_toRow {p : SampleParams} (h : p.value ≠ .nan) : ∃ row, p.toRow = some row :=
  Option.ne_none_iff_exists'.mp fun hnone => h (SampleParams.toRow_eq_none.mp hnone)

/-- One execution returns by how much the table grew. -/
theorem insertOrIgnore_snd (t : KeyedTable SampleRow.key) (p : SampleParams) :
    (insertOrIgnore t p).1.rows.length = t.rows.length + (insertOrIgnore t p).2 := by
  rw [insertOrIgnore]
  cases p.toRow with
  | none => rfl
  | some row =>
    simp only
    by_cases h : row.key ∈ t.keys
    · rw [if_pos h]
      rfl
    · rw [if_neg h, rows_insertIgnore_of_notMem h, List.length_append, List.length_singleton]

/-- `insert_samples` returns by how much the table grew. -/
theorem insertSamples_snd (store : TSDBStore) (rows : List SampleParams) :
    (store.insertSamples rows).1.samples.rows.length
      = store.samples.rows.length + (store.insertSamples rows).2 := by
  have key : ∀ (rows : List SampleParams) (acc : KeyedTable SampleRow.key × ℕ) (n : ℕ),
      acc.1.rows.length = n + acc.2 →
      let r := rows.foldl (fun acc p =>
        ((insertOrIgnore acc.1 p).1, acc.2 + (insertOrIgnore acc.1 p).2)) acc
      r.1.rows.length = n + r.2 := by
    intro rows
    induction rows with
    | nil => exact fun acc n h => h
    | cons p rows ih =>
      intro acc n h
      refine ih _ n ?_
      show (insertOrIgnore acc.1 p).1.rows.length = n + (acc.2 + (insertOrIgnore acc.1 p).2)
      rw [insertOrIgnore_snd, h]
      omega
  exact key rows (store.samples, 0) store.samples.rows.length rfl

/-- A call whose keys are all taken writes nothing. -/
theorem insertSamples_of_taken {store : TSDBStore} {rows : List SampleParams}
    (h : ∀ p ∈ rows, p.key ∈ store.samples.keys) : store.insertSamples rows = (store, 0) := by
  have hfst : (store.insertSamples rows).1 = store := by
    rw [insertSamples_fst, insertAll_of_mem]
    intro row hrow
    obtain ⟨p, hp, hpr⟩ := List.mem_filterMap.mp hrow
    rw [SampleParams.key_of_toRow hpr]
    exact h p hp
  have hsnd := insertSamples_snd store rows
  rw [hfst] at hsnd
  exact Prod.ext hfst (by show _ = 0; omega)

theorem mem_keys_insertSamples {store : TSDBStore} {rows : List SampleParams} (h : Binds rows)
    {k : SampleKey} : k ∈ (store.insertSamples rows).1.samples.keys
      ↔ k ∈ store.samples.keys ∨ k ∈ rows.map SampleParams.key := by
  rw [insertSamples_samples, mem_keys_insertAll, List.mem_map]
  refine or_congr Iff.rfl ⟨?_, ?_⟩
  · rintro ⟨row, hrow, rfl⟩
    obtain ⟨p, hp, hpr⟩ := List.mem_filterMap.mp hrow
    exact ⟨p, hp, (SampleParams.key_of_toRow hpr).symm⟩
  · rintro ⟨p, hp, rfl⟩
    obtain ⟨row, hpr⟩ := exists_toRow (h p hp)
    exact ⟨row, List.mem_filterMap.mpr ⟨p, hp, hpr⟩, SampleParams.key_of_toRow hpr⟩

/-! ### Call after call -/

theorem insertCalls_nil (store : TSDBStore) : insertCalls store [] = (store, []) := rfl

theorem insertCalls_concat (store : TSDBStore) (calls : List (List SampleParams))
    (rows : List SampleParams) : insertCalls store (calls ++ [rows])
      = (((insertCalls store calls).1.insertSamples rows).1,
        (insertCalls store calls).2 ++ [((insertCalls store calls).1.insertSamples rows).2]) := by
  rw [insertCalls, List.foldl_append]
  rfl

theorem samples_insertCalls (store : TSDBStore) (calls : List (List SampleParams)) :
    (insertCalls store calls).1.samples
      = store.samples.insertAll (calls.flatten.filterMap SampleParams.toRow) := by
  induction calls using List.reverseRecOn with
  | nil => rfl
  | append_singleton calls rows ih =>
    rw [insertCalls_concat, insertSamples_samples, ih, ← insertAll_append, List.flatten_append,
      List.flatten_singleton, List.filterMap_append]

/-- The table is the fold of all rows, in order, in which the first row of each
key wins. -/
theorem rows_insertCalls (store : TSDBStore) (calls : List (List SampleParams)) :
    (insertCalls store calls).1.samples.rows
      = firstWins SampleRow.key store.samples.rows
        (calls.flatten.filterMap SampleParams.toRow) := by
  rw [samples_insertCalls, rows_insertAll]

/-- The other tables are not touched. -/
theorem insertCalls_fst (store : TSDBStore) (calls : List (List SampleParams)) :
    (insertCalls store calls).1
      = { store with samples := (insertCalls store calls).1.samples } := by
  induction calls using List.reverseRecOn with
  | nil => rfl
  | append_singleton calls rows ih =>
    rw [insertCalls_concat]
    show ((insertCalls store calls).1.insertSamples rows).1 = { store with
      samples := ((insertCalls store calls).1.insertSamples rows).1.samples }
    rw [insertSamples_fst, ih]

theorem insertCalls_congr (store : TSDBStore) {calls calls' : List (List SampleParams)}
    (h : calls.flatten = calls'.flatten) :
    (insertCalls store calls).1 = (insertCalls store calls').1 := by
  rw [insertCalls_fst, insertCalls_fst store calls', samples_insertCalls, samples_insertCalls, h]

/-- The counts returned add up to the growth of the table. -/
theorem length_insertCalls (store : TSDBStore) (calls : List (List SampleParams)) :
    (insertCalls store calls).1.samples.rows.length
      = store.samples.rows.length + (insertCalls store calls).2.sum := by
  induction calls using List.reverseRecOn with
  | nil => rfl
  | append_singleton calls rows ih =>
    rw [insertCalls_concat, List.sum_append, List.sum_singleton, insertSamples_snd, ih]
    omega

theorem mem_keys_insertCalls {store : TSDBStore} {calls : List (List SampleParams)}
    (h : ∀ rows ∈ calls, Binds rows) {k : SampleKey} :
    k ∈ (insertCalls store calls).1.samples.keys
      ↔ k ∈ store.samples.keys ++ calls.flatten.map SampleParams.key := by
  induction calls using List.reverseRecOn with
  | nil => simp [insertCalls_nil]
  | append_singleton calls rows ih =>
    rw [insertCalls_concat,
      mem_keys_insertSamples (h rows (List.mem_append_right _ (List.mem_singleton_self _))),
      ih fun rows' hrows' => h rows' (List.mem_append_left _ hrows'), List.flatten_append,
      List.flatten_singleton, List.map_append, ← List.append_assoc, List.mem_append (s := _ ++ _)]

/-- The same fold over the parameters of the calls, with all their columns. -/
theorem map_ofRow_firstWins {rows : List SampleParams} (h : Binds rows) (table : List SampleRow) :
    (firstWins SampleRow.key table (rows.filterMap SampleParams.toRow)).map SampleParams.ofRow
      = firstWins SampleParams.key (table.map SampleParams.ofRow) rows := by
  induction rows generalizing table with
  | nil => rfl
  | cons p rows ih =>
    obtain ⟨row, hrow⟩ := exists_toRow (h p List.mem_cons_self)
    have hkeys : (table.map SampleParams.ofRow).map SampleParams.key = table.map SampleRow.key := by
      rw [List.map_map]
      rfl
    have htail : Binds rows := fun q hq => h q (List.mem_cons_of_mem _ hq)
    rw [List.filterMap_cons_some hrow, firstWins, List.foldl_cons, firstWins, List.foldl_cons,
      hkeys, SampleParams.key_of_toRow hrow]
    split_ifs
    · exact ih htail table
    · have hstep := ih htail (table ++ [row])
      rw [List.map_append, List.map_singleton, SampleParams.ofRow_of_toRow hrow] at hstep
      exact hstep

/-! ### Repeated keys -/

theorem firsts_append (calls calls' : List Call) :
    firsts (calls ++ calls') = firsts calls ++ firsts calls' := List.filterMap_append

theorem Redelivers.prefix {known : List SampleKey} {calls calls' : List Call}
    (h : Redelivers known (calls ++ calls')) : Redelivers known calls := by
  induction calls generalizing known with
  | nil => trivial
  | cons call calls ih =>
    cases call with
    | first rows => exact ih h
    | again rows => exact ⟨h.1, ih h.2⟩

/-- What an `again` call may carry. -/
theorem Redelivers.known {known : List SampleKey} {before after : List Call}
    {rows : List SampleParams} (h : Redelivers known (before ++ .again rows :: after)) :
    ∀ p ∈ rows, p.key ∈ known ++ (firsts before).flatten.map SampleParams.key := by
  induction before generalizing known with
  | nil =>
    intro p hp
    exact List.mem_append_left _ (h.1 p hp)
  | cons call before ih =>
    cases call with
    | first rows' =>
      intro p hp
      have hmem := ih h p hp
      rw [List.append_assoc, ← List.map_append] at hmem
      exact hmem
    | again rows' => exact ih h.2

theorem binds_firsts {calls : List Call} (h : ∀ call ∈ calls, Binds call.rows) :
    ∀ rows ∈ firsts calls, Binds rows := by
  intro rows hrows
  obtain ⟨call, hcall, heq⟩ := List.mem_filterMap.mp hrows
  cases call with
  | first rows' =>
    injection heq with heq
    subst heq
    exact h _ hcall
  | again rows' => cases heq

/-- With the first deliveries alone the table is the same. -/
theorem insertCalls_firsts {store : TSDBStore} {calls : List Call}
    (hbinds : ∀ call ∈ calls, Binds call.rows) (h : Redelivers store.samples.keys calls) :
    (insertCalls store (calls.map Call.rows)).1 = (insertCalls store (firsts calls)).1 := by
  induction calls using List.reverseRecOn with
  | nil => rfl
  | append_singleton calls call ih =>
    have hbinds' : ∀ c ∈ calls, Binds c.rows := fun c hc => hbinds c (List.mem_append_left _ hc)
    have ih := ih hbinds' h.prefix
    rw [List.map_append, List.map_singleton, insertCalls_concat, ih, firsts_append]
    cases call with
    | first rows =>
      show _ = (insertCalls store (firsts calls ++ [rows])).1
      rw [insertCalls_concat]
      rfl
    | again rows =>
      show _ = (insertCalls store (firsts calls ++ [])).1
      rw [List.append_nil, Call.rows, insertSamples_of_taken]
      intro p hp
      exact (mem_keys_insertCalls (binds_firsts hbinds')).mpr (h.known p hp)

/-- Deliveries with repetitions store each row once. -/
structure StoredOnce (store : TSDBStore) (calls : List Call) : Prop where
  /-- The store is the one the first deliveries make. -/
  firsts : (insertCalls store (calls.map Call.rows)).1 = (insertCalls store (firsts calls)).1
  /-- The table holds the rows that were there and the first row of each key,
  in order. -/
  firstWins : (insertCalls store (calls.map Call.rows)).1.samples.rows.map SampleParams.ofRow
    = firstWins SampleParams.key (store.samples.rows.map SampleParams.ofRow)
      (calls.flatMap Call.rows)
  /-- It does not matter how the rows were cut into calls. -/
  cut : ∀ calls' : List (List SampleParams), calls'.flatten = calls.flatMap Call.rows →
    (insertCalls store calls').1 = (insertCalls store (calls.map Call.rows)).1
  counted : (insertCalls store (calls.map Call.rows)).1.samples.rows.length
    = store.samples.rows.length + (insertCalls store (calls.map Call.rows)).2.sum
  /-- A repetition leaves the store as it is and returns 0. -/
  again : ∀ before rows after, calls = before ++ .again rows :: after →
    (insertCalls store (before.map Call.rows)).1.insertSamples rows
      = ((insertCalls store (before.map Call.rows)).1, 0)
  /-- Rows stored at any point are still there at the end, as they were. -/
  stays : ∀ before after, calls = before ++ after →
    (insertCalls store (before.map Call.rows)).1.samples.rows
      <+: (insertCalls store (calls.map Call.rows)).1.samples.rows

/-- Redelivery and another cut of the batches do not change the store. -/
theorem redelivery {store : TSDBStore} {calls : List Call}
    (hbinds : ∀ call ∈ calls, Binds call.rows) (hagain : Redelivers store.samples.keys calls) :
    StoredOnce store calls where
  firsts := insertCalls_firsts hbinds hagain
  firstWins := by
    have hall : Binds (calls.flatMap Call.rows) := by
      intro p hp
      obtain ⟨call, hcall, hpc⟩ := List.mem_flatMap.mp hp
      exact hbinds call hcall p hpc
    rw [rows_insertCalls, ← List.flatMap_def, map_ofRow_firstWins hall]
  cut := by
    intro calls' h
    refine insertCalls_congr store ?_
    rw [h, List.flatMap_def]
  counted := length_insertCalls store _
  again := by
    rintro before rows after rfl
    refine insertSamples_of_taken fun p hp => ?_
    have hbefore : ∀ c ∈ before, Binds c.rows := fun c hc => hbinds c (List.mem_append_left _ hc)
    rw [insertCalls_firsts hbefore hagain.prefix, mem_keys_insertCalls (binds_firsts hbefore)]
    exact hagain.known p hp
  stays := by
    rintro before after rfl
    rw [samples_insertCalls, samples_insertCalls, List.map_append, List.flatten_append,
      List.filterMap_append, insertAll_append]
    exact rows_prefix_insertAll _ _

/-- A batch of two rows, one of which is repeated with another value and another
receive time. -/
theorem redelivery_example : StoredOnce .empty
    [.first [⟨"n", 1, 1, 1, 5, .finite 2, "v1"⟩, ⟨"n", 1, 2, 2, 5, .posInf, "v1"⟩],
      .again [⟨"n", 1, 2, 2, 9, .finite 3, "v2"⟩]] :=
  redelivery (by unfold Binds; decide) ⟨by decide, trivial⟩

end Ingest
