/-
Tables with a primary key.

A `KeyedTable` is a list of rows no two of which carry the same key; the
uniqueness is a field, so every operation has to re-establish it and no
theorem has to assume it.  The insertion studied most is the one of
`INSERT OR IGNORE`: a row whose key is taken is skipped.

* `insertIgnore`, `insertAll` — inserting one row, and several in order;
* `rows_prefix_insertAll` — inserting appends: the rows already there are
  untouched;
* `mem_keys_insertAll` — the keys in use afterwards;
* `exists_rows_insertAll` — the rows that come with them;
* `rows_insertAll` — inserting in order is the fold in which the first row of
  each key wins (`firstWins`);
* `restrict_insertAll_congr`, `restrict_insertAll_of_not` — seen through a set
  of keys, insertion depends on that part of the table only;
* `insertUnique_eq_some` — an insertion that is refused when the key is taken;
* `deleteWhere` — a deletion by key;
* `mapRows` — an update in place that keeps the keys;
* `find_insertIgnore`, `find_mapRows` — the row of a key, after an operation;
* `mem_rows_insertAll_iff` — insertion stores the first row of each free key;
* `recode` — the same rows in another form.
-/
import Mathlib.Tactic

/-- A list of rows with pairwise distinct keys. -/
structure KeyedTable {ρ κ : Type*} (key : ρ → κ) where
  rows : List ρ
  keys_nodup : (rows.map key).Nodup

namespace KeyedTable

variable {ρ κ : Type*} {key : ρ → κ}

@[ext] theorem ext {t t' : KeyedTable key} (h : t.rows = t'.rows) : t = t' := by
  cases t
  cases t'
  cases h
  rfl

instance [DecidableEq ρ] : DecidableEq (KeyedTable key) := fun t t' =>
  decidable_of_iff (t.rows = t'.rows) ⟨ext, fun h => h ▸ rfl⟩

/-- The table without rows. -/
def empty : KeyedTable key := ⟨[], List.nodup_nil⟩

/-- The keys in use. -/
def keys (t : KeyedTable key) : List κ := t.rows.map key

theorem mem_keys {t : KeyedTable key} {k : κ} : k ∈ t.keys ↔ ∃ r ∈ t.rows, key r = k :=
  List.mem_map

theorem key_mem_keys {t : KeyedTable key} {r : ρ} (h : r ∈ t.rows) : key r ∈ t.keys :=
  List.mem_map_of_mem h

/-! ### Updates in place -/

/-- Rewrite every row by a function that keeps its key. -/
def mapRows (t : KeyedTable key) (f : ρ → ρ) (hf : ∀ r, key (f r) = key r) :
    KeyedTable key :=
  ⟨t.rows.map f, by
    have hcomp : key ∘ f = key := funext hf
    rw [List.map_map, hcomp]
    exact t.keys_nodup⟩

@[simp] theorem rows_mapRows (t : KeyedTable key) (f : ρ → ρ) (hf : ∀ r, key (f r) = key r) :
    (t.mapRows f hf).rows = t.rows.map f := rfl

@[simp] theorem keys_mapRows (t : KeyedTable key) (f : ρ → ρ) (hf : ∀ r, key (f r) = key r) :
    (t.mapRows f hf).keys = t.keys := by
  have hcomp : key ∘ f = key := funext hf
  rw [keys, rows_mapRows, List.map_map, hcomp]
  rfl

/-! ### Restriction to some keys -/

/-- The rows whose key satisfies `p`. -/
def restrict (t : KeyedTable key) (p : κ → Bool) : List ρ := t.rows.filter fun r => p (key r)

/-- Whether a visible key is taken can be read off the restriction. -/
theorem mem_keys_iff_restrict {t : KeyedTable key} {p : κ → Bool} {k : κ} (h : p k = true) :
    k ∈ t.keys ↔ k ∈ (t.restrict p).map key := by
  rw [mem_keys, restrict, List.mem_map]
  constructor
  · rintro ⟨r, hr, rfl⟩
    exact ⟨r, List.mem_filter.mpr ⟨hr, h⟩, rfl⟩
  · rintro ⟨r, hr, rfl⟩
    exact ⟨r, (List.mem_filter.mp hr).1, rfl⟩

theorem restrict_eq_nil_of_forall {t : KeyedTable key} {p : κ → Bool}
    (h : ∀ r ∈ t.rows, p (key r) = false) : t.restrict p = [] :=
  List.filter_eq_nil_iff.mpr fun r hr hp => Bool.false_ne_true ((h r hr).symm.trans hp)

/-! ### Deletion -/

/-- Delete the rows whose key satisfies `p`. -/
def deleteWhere (t : KeyedTable key) (p : κ → Bool) : KeyedTable key :=
  ⟨t.rows.filter fun r => !p (key r), (List.filter_sublist.map key).nodup t.keys_nodup⟩

theorem key_of_mem_deleteWhere {t : KeyedTable key} {p : κ → Bool} {r : ρ}
    (h : r ∈ (t.deleteWhere p).rows) : p (key r) = false := by
  have hp := (List.mem_filter.mp h).2
  rwa [Bool.not_eq_true'] at hp

theorem restrict_deleteWhere (t : KeyedTable key) (p : κ → Bool) :
    (t.deleteWhere p).restrict p = [] :=
  restrict_eq_nil_of_forall fun _ => key_of_mem_deleteWhere

/-- Rows of other keys stay. -/
theorem restrict_deleteWhere_of_disjoint (t : KeyedTable key) {p q : κ → Bool}
    (h : ∀ k, q k = true → p k = false) : (t.deleteWhere p).restrict q = t.restrict q := by
  rw [restrict, restrict, deleteWhere, List.filter_filter]
  refine List.filter_congr fun r _ => ?_
  cases hq : q (key r) with
  | false => rfl
  | true =>
    rw [h _ hq]
    rfl

/-! ### Insertion that skips taken keys -/

section Insert

variable [DecidableEq κ]

/-- Add `r` unless its key is taken. -/
def insertIgnore (t : KeyedTable key) (r : ρ) : KeyedTable key :=
  if h : key r ∈ t.keys then t
  else ⟨t.rows ++ [r], by
    rw [List.map_append, List.nodup_append]
    refine ⟨t.keys_nodup, List.nodup_singleton _, fun k hk k' hk' => ?_⟩
    rw [List.map_singleton, List.mem_singleton] at hk'
    subst hk'
    exact fun heq => h (heq ▸ hk)⟩

/-- Add the rows in order, skipping those whose key is taken by then. -/
def insertAll (t : KeyedTable key) (rs : List ρ) : KeyedTable key :=
  rs.foldl insertIgnore t

theorem insertIgnore_of_mem {t : KeyedTable key} {r : ρ} (h : key r ∈ t.keys) :
    t.insertIgnore r = t := dif_pos h

theorem rows_insertIgnore_of_notMem {t : KeyedTable key} {r : ρ} (h : key r ∉ t.keys) :
    (t.insertIgnore r).rows = t.rows ++ [r] := by
  rw [insertIgnore, dif_neg h]

@[simp] theorem insertAll_nil (t : KeyedTable key) : t.insertAll [] = t := rfl

@[simp] theorem insertAll_cons (t : KeyedTable key) (r : ρ) (rs : List ρ) :
    t.insertAll (r :: rs) = (t.insertIgnore r).insertAll rs := rfl

theorem insertAll_append (t : KeyedTable key) (rs rs' : List ρ) :
    t.insertAll (rs ++ rs') = (t.insertAll rs).insertAll rs' := by
  rw [insertAll, List.foldl_append]
  rfl

/-- One insertion leaves the stored rows in place. -/
theorem rows_prefix_insertIgnore (t : KeyedTable key) (r : ρ) :
    t.rows <+: (t.insertIgnore r).rows := by
  by_cases h : key r ∈ t.keys
  · rw [insertIgnore_of_mem h]
  · rw [rows_insertIgnore_of_notMem h]
    exact List.prefix_append _ _

/-- Insertion only appends. -/
theorem rows_prefix_insertAll (t : KeyedTable key) (rs : List ρ) :
    t.rows <+: (t.insertAll rs).rows := by
  induction rs generalizing t with
  | nil => exact List.prefix_rfl
  | cons r rs ih => exact (t.rows_prefix_insertIgnore r).trans (ih _)

theorem mem_keys_insertIgnore {t : KeyedTable key} {r : ρ} {k : κ} :
    k ∈ (t.insertIgnore r).keys ↔ k ∈ t.keys ∨ k = key r := by
  by_cases h : key r ∈ t.keys
  · rw [insertIgnore_of_mem h]
    constructor
    · exact Or.inl
    · rintro (hk | rfl)
      · exact hk
      · exact h
  · rw [keys, rows_insertIgnore_of_notMem h, List.map_append, List.mem_append,
      List.map_singleton, List.mem_singleton]
    rfl

theorem mem_keys_insertAll {t : KeyedTable key} {rs : List ρ} {k : κ} :
    k ∈ (t.insertAll rs).keys ↔ k ∈ t.keys ∨ ∃ r ∈ rs, key r = k := by
  induction rs generalizing t with
  | nil => simp
  | cons r rs ih =>
    rw [insertAll_cons, ih, mem_keys_insertIgnore, List.exists_mem_cons_iff, or_assoc]
    exact or_congr Iff.rfl (or_congr eq_comm Iff.rfl)

theorem insertAll_of_mem {t : KeyedTable key} {rs : List ρ} (h : ∀ r ∈ rs, key r ∈ t.keys) :
    t.insertAll rs = t := by
  induction rs with
  | nil => rfl
  | cons r rs ih =>
    rw [insertAll_cons, insertIgnore_of_mem (h r List.mem_cons_self)]
    exact ih fun x hx => h x (List.mem_cons_of_mem r hx)

/-- What is stored was there or was inserted. -/
theorem mem_rows_of_insertAll {t : KeyedTable key} {rs : List ρ} {r : ρ}
    (h : r ∈ (t.insertAll rs).rows) : r ∈ t.rows ∨ r ∈ rs := by
  induction rs generalizing t with
  | nil => exact .inl h
  | cons x rs ih =>
    rcases ih h with h | h
    · by_cases hx : key x ∈ t.keys
      · rw [insertIgnore_of_mem hx] at h
        exact .inl h
      · rw [rows_insertIgnore_of_notMem hx, List.mem_append, List.mem_singleton] at h
        rcases h with h | rfl
        · exact .inl h
        · exact .inr List.mem_cons_self
    · exact .inr (List.mem_cons_of_mem x h)

/-- A row that has its key to itself is stored. -/
theorem mem_rows_insertAll {t : KeyedTable key} {rs : List ρ} {r : ρ} (hr : r ∈ rs)
    (hfree : key r ∉ t.keys) (honly : ∀ x ∈ rs, key x = key r → x = r) :
    r ∈ (t.insertAll rs).rows := by
  have hkeys : key r ∈ (t.insertAll rs).keys := mem_keys_insertAll.mpr (.inr ⟨r, hr, rfl⟩)
  obtain ⟨x, hx, hkey⟩ := mem_keys.mp hkeys
  rcases mem_rows_of_insertAll hx with ht | hrs
  · exact absurd (hkey ▸ key_mem_keys ht) hfree
  · rw [← honly x hrs hkey]
    exact hx

/-- Insertion appends rows of the list, one for each of its keys that is free. -/
theorem exists_rows_insertAll (t : KeyedTable key) (rs : List ρ) :
    ∃ new, (t.insertAll rs).rows = t.rows ++ new ∧ (∀ r ∈ new, r ∈ rs) ∧
      (new.map key).Perm ((rs.map key).dedup.filter (· ∉ t.keys)) := by
  obtain ⟨new, hnew⟩ := t.rows_prefix_insertAll rs
  have hnodup : (t.rows.map key ++ new.map key).Nodup := by
    rw [← List.map_append, hnew]
    exact (t.insertAll rs).keys_nodup
  obtain ⟨_, hnodup', hdisjoint⟩ := List.nodup_append.mp hnodup
  have hfree : ∀ r ∈ new, key r ∉ t.keys := fun r hr hkey =>
    hdisjoint (key r) hkey (key r) (List.mem_map_of_mem hr) rfl
  have hmem : ∀ r ∈ new, r ∈ rs := by
    intro r hr
    have hrow : r ∈ (t.insertAll rs).rows := hnew ▸ List.mem_append_right _ hr
    exact (mem_rows_of_insertAll hrow).resolve_left fun hold => hfree r hr (key_mem_keys hold)
  refine ⟨new, hnew.symm, hmem,
    (List.perm_ext_iff_of_nodup hnodup' ((List.nodup_dedup _).filter _)).mpr fun k => ?_⟩
  rw [List.mem_filter, List.mem_dedup, decide_eq_true_iff]
  constructor
  · intro hk
    obtain ⟨r, hr, rfl⟩ := List.mem_map.mp hk
    exact ⟨List.mem_map_of_mem (hmem r hr), hfree r hr⟩
  · rintro ⟨hk, hknew⟩
    obtain ⟨r, hr, rfl⟩ := List.mem_map.mp hk
    have hkeys : key r ∈ (t.insertAll rs).keys := mem_keys_insertAll.mpr (.inr ⟨r, hr, rfl⟩)
    rw [keys, ← hnew, List.map_append] at hkeys
    exact (List.mem_append.mp hkeys).resolve_left hknew

/-- The rows followed by those new ones that are the first of their key. -/
def firstWins (key : ρ → κ) (rows rs : List ρ) : List ρ :=
  rs.foldl (fun rows r => if key r ∈ rows.map key then rows else rows ++ [r]) rows

theorem rows_insertAll (t : KeyedTable key) (rs : List ρ) :
    (t.insertAll rs).rows = firstWins key t.rows rs := by
  induction rs generalizing t with
  | nil => rfl
  | cons r rs ih =>
    rw [insertAll_cons, ih, firstWins, firstWins, List.foldl_cons]
    by_cases h : key r ∈ t.keys
    · have h' : key r ∈ t.rows.map key := h
      rw [insertIgnore_of_mem h, if_pos h']
    · have h' : key r ∉ t.rows.map key := h
      rw [rows_insertIgnore_of_notMem h, if_neg h']

/-! ### Insertion that refuses taken keys -/

/-- Add `r`; `none` if its key is taken. -/
def insertUnique (t : KeyedTable key) (r : ρ) : Option (KeyedTable key) :=
  if key r ∈ t.keys then none else some (t.insertIgnore r)

theorem insertUnique_eq_some {t t' : KeyedTable key} {r : ρ} :
    t.insertUnique r = some t' ↔ t'.rows = t.rows ++ [r] := by
  rw [insertUnique]
  by_cases h : key r ∈ t.keys
  · rw [if_pos h]
    constructor
    · intro hc
      cases hc
    · intro hrows
      -- a table with this row would have its key twice
      have hnodup := t'.keys_nodup
      rw [hrows, List.map_append, List.nodup_append] at hnodup
      exact absurd rfl (hnodup.2.2 (key r) h (key r) (List.mem_singleton_self _))
  · rw [if_neg h, Option.some_inj]
    constructor
    · rintro rfl
      exact rows_insertIgnore_of_notMem h
    · intro hrows
      apply ext
      rw [hrows, rows_insertIgnore_of_notMem h]

/-! ### Insertion seen through a restriction -/

/-- A row of another key is invisible to the restriction. -/
theorem restrict_insertIgnore_of_not {t : KeyedTable key} {p : κ → Bool} {r : ρ}
    (h : p (key r) = false) : (t.insertIgnore r).restrict p = t.restrict p := by
  by_cases hk : key r ∈ t.keys
  · rw [insertIgnore_of_mem hk]
  · rw [restrict, rows_insertIgnore_of_notMem hk, List.filter_append]
    simp [restrict, h]

/-- Inserting a row of a visible key acts on the restriction alone. -/
theorem restrict_insertIgnore_congr {t t' : KeyedTable key} {p : κ → Bool} {r : ρ}
    (hp : p (key r) = true) (h : t.restrict p = t'.restrict p) :
    (t.insertIgnore r).restrict p = (t'.insertIgnore r).restrict p := by
  have hiff : key r ∈ t.keys ↔ key r ∈ t'.keys := by
    rw [mem_keys_iff_restrict hp, mem_keys_iff_restrict hp, h]
  by_cases hk : key r ∈ t.keys
  · rw [insertIgnore_of_mem hk, insertIgnore_of_mem (hiff.mp hk), h]
  · have hk' : key r ∉ t'.keys := fun hc => hk (hiff.mpr hc)
    rw [restrict, restrict, rows_insertIgnore_of_notMem hk, rows_insertIgnore_of_notMem hk',
      List.filter_append, List.filter_append]
    exact congrArg (· ++ _) h

theorem restrict_insertAll_of_not {t : KeyedTable key} {p : κ → Bool} {rs : List ρ}
    (h : ∀ r ∈ rs, p (key r) = false) : (t.insertAll rs).restrict p = t.restrict p := by
  induction rs generalizing t with
  | nil => rfl
  | cons r rs ih =>
    rw [insertAll_cons, ih fun x hx => h x (List.mem_cons_of_mem r hx),
      restrict_insertIgnore_of_not (h r List.mem_cons_self)]

theorem restrict_insertAll_congr {t t' : KeyedTable key} {p : κ → Bool} {rs : List ρ}
    (hp : ∀ r ∈ rs, p (key r) = true) (h : t.restrict p = t'.restrict p) :
    (t.insertAll rs).restrict p = (t'.insertAll rs).restrict p := by
  induction rs generalizing t t' with
  | nil => exact h
  | cons r rs ih =>
    exact ih (fun x hx => hp x (List.mem_cons_of_mem r hx))
      (restrict_insertIgnore_congr (hp r List.mem_cons_self) h)

end Insert

/-! ### The row of a key -/

section Find

variable [DecidableEq κ]

/-- The row of a key. -/
def find (t : KeyedTable key) (k : κ) : Option ρ := t.rows.find? fun r => key r = k

theorem find_eq_none {t : KeyedTable key} {k : κ} : t.find k = none ↔ k ∉ t.keys := by
  rw [find, List.find?_eq_none, mem_keys, not_exists]
  exact forall_congr' fun r => by rw [not_and, decide_eq_true_iff]

theorem key_of_find {t : KeyedTable key} {k : κ} {r : ρ} (h : t.find k = some r) : key r = k :=
  of_decide_eq_true (List.find?_some h :)

/-- An insertion is seen under its own key only, and only if that was free. -/
theorem find_insertIgnore (t : KeyedTable key) (r : ρ) (k : κ) :
    (t.insertIgnore r).find k = (t.find k).or (if key r = k then some r else none) := by
  by_cases hr : key r ∈ t.keys
  · rw [insertIgnore_of_mem hr]
    by_cases hk : key r = k
    · subst hk
      obtain ⟨r', hr'⟩ := Option.ne_none_iff_exists'.mp fun hnone => find_eq_none.mp hnone hr
      rw [hr']
      rfl
    · rw [if_neg hk, Option.or_none]
  · rw [find, rows_insertIgnore_of_notMem hr, List.find?_append, ← find]
    by_cases hk : key r = k
    · simp [hk]
    · simp [hk]

theorem find_mapRows (t : KeyedTable key) {f : ρ → ρ} (hf : ∀ r, key (f r) = key r) (k : κ) :
    (t.mapRows f hf).find k = (t.find k).map f := by
  have hcomp : (fun r => decide (key r = k)) ∘ f = fun r => decide (key r = k) := by
    funext r
    rw [Function.comp_apply, hf r]
  rw [find, rows_mapRows, List.find?_map, hcomp, find]

/-- `r` is the first of the rows that has its key. -/
def FirstOf (key : ρ → κ) (rs : List ρ) (r : ρ) : Prop :=
  ∃ before after, rs = before ++ r :: after ∧ ∀ x ∈ before, key x ≠ key r

omit [DecidableEq κ] in
theorem firstOf_cons {r x : ρ} {rs : List ρ} :
    FirstOf key (x :: rs) r ↔ r = x ∨ key x ≠ key r ∧ FirstOf key rs r := by
  constructor
  · rintro ⟨before, after, heq, hfirst⟩
    cases before with
    | nil => exact .inl (List.cons_eq_cons.mp heq).1.symm
    | cons y before =>
      obtain ⟨rfl, hrs⟩ := List.cons_eq_cons.mp heq
      exact .inr ⟨hfirst x List.mem_cons_self, before, after, hrs,
        fun z hz => hfirst z (List.mem_cons_of_mem x hz)⟩
  · rintro (rfl | ⟨hne, before, after, rfl, hfirst⟩)
    · exact ⟨[], rs, rfl, fun x hx => absurd hx List.not_mem_nil⟩
    · refine ⟨x :: before, after, rfl, fun z hz => ?_⟩
      rcases List.mem_cons.mp hz with rfl | hz
      · exact hne
      · exact hfirst z hz

/-- Insertion stores the first row of each key that is free. -/
theorem mem_rows_insertAll_iff {t : KeyedTable key} {rs : List ρ} {r : ρ} :
    r ∈ (t.insertAll rs).rows ↔ r ∈ t.rows ∨ key r ∉ t.keys ∧ FirstOf key rs r := by
  induction rs generalizing t with
  | nil => simp [FirstOf]
  | cons x rs ih =>
    rw [insertAll_cons, ih, firstOf_cons, mem_keys_insertIgnore, not_or]
    by_cases hx : key x ∈ t.keys
    · rw [insertIgnore_of_mem hx]
      constructor
      · rintro (hr | ⟨⟨hfree, hne⟩, hfirst⟩)
        · exact .inl hr
        · exact .inr ⟨hfree, .inr ⟨Ne.symm hne, hfirst⟩⟩
      · rintro (hr | ⟨hfree, rfl | ⟨hne, hfirst⟩⟩)
        · exact .inl hr
        · exact absurd hx hfree
        · exact .inr ⟨⟨hfree, Ne.symm hne⟩, hfirst⟩
    · rw [rows_insertIgnore_of_notMem hx, List.mem_append, List.mem_singleton]
      constructor
      · rintro ((hr | rfl) | ⟨⟨hfree, hne⟩, hfirst⟩)
        · exact .inl hr
        · exact .inr ⟨hx, .inl rfl⟩
        · exact .inr ⟨hfree, .inr ⟨Ne.symm hne, hfirst⟩⟩
      · rintro (hr | ⟨hfree, rfl | ⟨hne, hfirst⟩⟩)
        · exact .inl (.inl hr)
        · exact .inl (.inr rfl)
        · exact .inr ⟨⟨hfree, Ne.symm hne⟩, hfirst⟩

end Find

/-! ### The same rows in another form -/

section Recode

variable {σ : Type*} {key' : σ → κ} (t : KeyedTable key) (f : ρ → σ) (hf : ∀ r, key' (f r) = key r)

/-- Every row by a form of it that has the same key. -/
def recode : KeyedTable key' :=
  ⟨t.rows.map f, by
    have hcomp : key' ∘ f = key := funext hf
    rw [List.map_map, hcomp]
    exact t.keys_nodup⟩

theorem keys_recode : (t.recode f hf).keys = t.keys := by
  have hcomp : key' ∘ f = key := funext hf
  rw [keys, recode, List.map_map, hcomp]
  rfl

@[simp] theorem rows_recode : (t.recode f hf).rows = t.rows.map f := rfl

variable [DecidableEq κ]

theorem find_recode (k : κ) : (t.recode f hf).find k = (t.find k).map f := by
  have hcomp : (fun r => decide (key' r = k)) ∘ f = fun r => decide (key r = k) := by
    funext r
    rw [Function.comp_apply, hf r]
  rw [find, rows_recode, List.find?_map, hcomp, find]

theorem recode_insertIgnore (r : ρ) :
    (t.insertIgnore r).recode f hf = (t.recode f hf).insertIgnore (f r) := by
  apply ext
  by_cases hr : key r ∈ t.keys
  · have hr' : key' (f r) ∈ (t.recode f hf).keys := by rwa [keys_recode, hf]
    rw [insertIgnore_of_mem hr, insertIgnore_of_mem hr']
  · have hr' : key' (f r) ∉ (t.recode f hf).keys := by rwa [keys_recode, hf]
    rw [rows_insertIgnore_of_notMem hr', rows_recode, rows_recode, rows_insertIgnore_of_notMem hr,
      List.map_append, List.map_singleton]

end Recode

end KeyedTable
