/-
Memory readings and malformed lines (`ReadMemUsedAndTotalBytes`).

A line is taken apart by `stream >> key >> value`.  When the value cannot be
extracted, the stream fails and the value is zero; the loop looks at the key
alone, so a line without a number counts as one with the number zero.

* `lineKey`, `lineValue` — a line as its key and, if there is one, its number;
* `memUsedAndTotal` — what should be read from a text;
* `scan_eq` — what the loop finds, wherever the two lines stand;
* `readMem_iff` — when the reader returns what it should.
-/
import HpcTelemetry.ProcFiles

namespace Agent

open StreamExtraction

/-! ### Lines -/

def lineKey (line : List Char) : List Char := (memFields line).1

/-- The value field of a line; `none` if it is absent or not a number. -/
def lineValue (line : List Char) : Option ℚ :=
  if (memFields line).2.2.fail then none else some (memFields line).2.1

def memTotalKey : List Char := "MemTotal:".toList
def memAvailableKey : List Char := "MemAvailable:".toList

theorem memTotalKey_ne : memTotalKey ≠ memAvailableKey := by
  decide +kernel

/-- The lines with this key. -/
def linesWith (key : List Char) (lines : List (List Char)) : List (List Char) :=
  lines.filter (lineKey · = key)

/-- The number on the line with this key, if there is such a line and it has a
number. -/
def numberOf (key : List Char) (text : List Char) : Option ℚ :=
  (linesWith key (lines text)).head?.bind lineValue

/-- The bytes in use and in total that a text tells. -/
def memUsedAndTotal (text : List Char) : Option (ℚ × ℚ) :=
  match numberOf memTotalKey text, numberOf memAvailableKey text with
  | some total, some available => some (1024 * (total - available), 1024 * total)
  | _, _ => none

/-! ### The loop -/

/-- What is stored for a line, with a number or without. -/
def storedValue (line : List Char) : ℚ := (memFields line).2.1

theorem storedValue_eq {line : List Char} {x : ℚ} (h : lineValue line = some x) :
    storedValue line = x := by
  rw [lineValue] at h
  split_ifs at h
  exact Option.some_inj.mp h

/-- What is stored for a key. -/
def storedOf (key : List Char) (lines : List (List Char)) : Option ℚ :=
  (linesWith key lines).head?.map storedValue

theorem linesWith_cons (key line : List Char) (rest : List (List Char)) :
    linesWith key (line :: rest) =
      if lineKey line = key then line :: linesWith key rest else linesWith key rest := by
  rw [linesWith, List.filter_cons]
  simp only [decide_eq_true_eq]
  rfl

theorem storedOf_cons (key line : List Char) (rest : List (List Char)) :
    storedOf key (line :: rest) =
      if lineKey line = key then some (storedValue line) else storedOf key rest := by
  rw [storedOf, linesWith_cons]
  split_ifs
  · rfl
  · rfl

theorem storedOf_eq_none {key : List Char} {lines : List (List Char)} :
    storedOf key lines = none ↔ linesWith key lines = [] := by
  rw [storedOf, Option.map_eq_none_iff, List.head?_eq_none_iff]

/-- What one line does to the two values. -/
theorem assign_eq (mem : MemKb) (line : List Char) :
    mem.assign line =
      { memTotalKb := if lineKey line = memTotalKey then some (storedValue line)
          else mem.memTotalKb
        memAvailableKb := if lineKey line = memAvailableKey then some (storedValue line)
          else mem.memAvailableKb } := by
  show (if lineKey line = memTotalKey then { mem with memTotalKb := some (storedValue line) }
    else if lineKey line = memAvailableKey then
      { mem with memAvailableKb := some (storedValue line) }
    else mem) = _
  by_cases htotal : lineKey line = memTotalKey
  · rw [if_pos htotal, if_pos htotal, if_neg]
    rw [htotal]
    exact memTotalKey_ne
  · rw [if_neg htotal, if_neg htotal]
    split_ifs
    · rfl
    · rfl

/-- A value that is stored or still to come is there at most once. -/
def AtMostOnce (key : List Char) (stored : Option ℚ) (lines : List (List Char)) : Prop :=
  (if stored.isSome then 1 else 0) + (linesWith key lines).length ≤ 1

/-- After a line nothing has been stored twice. -/
theorem AtMostOnce.cons {key line : List Char} {stored : Option ℚ} {rest : List (List Char)}
    (h : AtMostOnce key stored (line :: rest)) :
    AtMostOnce key (if lineKey line = key then some (storedValue line) else stored) rest := by
  rw [AtMostOnce, linesWith_cons] at h
  rw [AtMostOnce]
  by_cases hkey : lineKey line = key
  · rw [if_pos hkey, List.length_cons] at h
    rw [if_pos hkey, Option.isSome_some, if_pos rfl]
    omega
  · rw [if_neg hkey] at h ⊢
    exact h

theorem AtMostOnce.or_cons {key line : List Char} {stored : Option ℚ} {rest : List (List Char)}
    (h : AtMostOnce key stored (line :: rest)) :
    (if lineKey line = key then some (storedValue line) else stored).or (storedOf key rest)
      = stored.or (storedOf key (line :: rest)) := by
  rw [AtMostOnce, linesWith_cons] at h
  rw [storedOf_cons]
  by_cases hkey : lineKey line = key
  · cases stored with
    | none => simp [hkey]
    | some x =>
      rw [if_pos hkey, Option.isSome_some, if_pos rfl, List.length_cons] at h
      omega
  · rw [if_neg hkey, if_neg hkey]

/-- Behind a value that is stored there is nothing to come. -/
theorem AtMostOnce.or_eq {key : List Char} {stored : Option ℚ} {lines : List (List Char)}
    (h : AtMostOnce key stored lines) (hstored : stored.isSome) :
    stored.or (storedOf key lines) = stored := by
  rw [AtMostOnce, if_pos hstored] at h
  rw [storedOf_eq_none.mpr (List.length_eq_zero_iff.mp (by omega)), Option.or_none]

/-- The loop finds both lines, wherever they stand, and its early end misses
nothing. -/
theorem scan_eq {mem : MemKb} {lines : List (List Char)}
    (htotal : AtMostOnce memTotalKey mem.memTotalKb lines)
    (havailable : AtMostOnce memAvailableKey mem.memAvailableKb lines) :
    mem.scan lines =
      { memTotalKb := mem.memTotalKb.or (storedOf memTotalKey lines)
        memAvailableKb := mem.memAvailableKb.or (storedOf memAvailableKey lines) } := by
  induction lines generalizing mem with
  | nil =>
    rw [MemKb.scan, storedOf_eq_none.mpr rfl, storedOf_eq_none.mpr rfl, Option.or_none,
      Option.or_none]
  | cons line rest ih =>
    rw [← htotal.or_cons, ← havailable.or_cons]
    have htotal' := htotal.cons
    have havailable' := havailable.cons
    simp only [MemKb.scan, assign_eq]
    by_cases hboth : (if lineKey line = memTotalKey then some (storedValue line)
        else mem.memTotalKb).isSome ∧ (if lineKey line = memAvailableKey
        then some (storedValue line) else mem.memAvailableKb).isSome
    · -- the loop ends here
      rw [if_pos hboth, htotal'.or_eq hboth.1, havailable'.or_eq hboth.2]
    · rw [if_neg hboth, ih htotal' havailable']

/-- What the reader makes of a text in which each key occurs at most once. -/
theorem readMem_eq {text : List Char}
    (htotal : (linesWith memTotalKey (lines text)).length ≤ 1)
    (havailable : (linesWith memAvailableKey (lines text)).length ≤ 1) :
    readMemUsedAndTotalBytes text =
      match storedOf memTotalKey (lines text), storedOf memAvailableKey (lines text) with
      | some total, some available => some ((total - available) * 1024, total * 1024)
      | _, _ => none := by
  have hscan : ({} : MemKb).scan (lines text) =
      ⟨storedOf memTotalKey (lines text), storedOf memAvailableKey (lines text)⟩ :=
    scan_eq (by simpa [AtMostOnce] using htotal) (by simpa [AtMostOnce] using havailable)
  cases hstored : storedOf memTotalKey (lines text) with
  | none => simp [readMemUsedAndTotalBytes, hscan, hstored]
  | some total =>
    cases hstored' : storedOf memAvailableKey (lines text) with
    | none => simp [readMemUsedAndTotalBytes, hscan, hstored, hstored']
    | some available => simp [readMemUsedAndTotalBytes, hscan, hstored, hstored']

/-! ### Numbers and zeros -/

/-- Where a key occurs, the value stored for it is that of its one line. -/
theorem exists_line {key text : List Char} (honce : (linesWith key (lines text)).length ≤ 1)
    (hlines : linesWith key (lines text) ≠ []) :
    ∃ line, linesWith key (lines text) = [line] ∧
      storedOf key (lines text) = some (storedValue line) ∧ numberOf key text = lineValue line := by
  have hpos := List.length_pos_iff.mpr hlines
  obtain ⟨line, hline⟩ := List.length_eq_one_iff.mp (le_antisymm honce hpos)
  exact ⟨line, hline, by simp [storedOf, hline], by simp [numberOf, hline]⟩

/-- Memory readings, exactly: from a text in which each of the two keys occurs at
most once, the reader returns what the text tells if and only if one of the lines
is missing, or both have a number. -/
theorem readMem_iff {text : List Char}
    (htotal : (linesWith memTotalKey (lines text)).length ≤ 1)
    (havailable : (linesWith memAvailableKey (lines text)).length ≤ 1) :
    readMemUsedAndTotalBytes text = memUsedAndTotal text ↔
      linesWith memTotalKey (lines text) = [] ∨ linesWith memAvailableKey (lines text) = [] ∨
        ∀ line ∈ linesWith memTotalKey (lines text) ++ linesWith memAvailableKey (lines text),
          (lineValue line).isSome := by
  rw [readMem_eq htotal havailable, memUsedAndTotal]
  by_cases hnoTotal : linesWith memTotalKey (lines text) = []
  · refine iff_of_true ?_ (Or.inl hnoTotal)
    rw [storedOf_eq_none.mpr hnoTotal]
    simp [numberOf, hnoTotal]
  by_cases hnoAvailable : linesWith memAvailableKey (lines text) = []
  · refine iff_of_true ?_ (Or.inr (Or.inl hnoAvailable))
    rw [storedOf_eq_none.mpr hnoAvailable]
    cases storedOf memTotalKey (lines text) <;> simp [numberOf, hnoAvailable]
  -- both lines are there, and the reader returns their stored values
  obtain ⟨line, hline, hstored, hnumber⟩ := exists_line htotal hnoTotal
  obtain ⟨line', hline', hstored', hnumber'⟩ := exists_line havailable hnoAvailable
  rw [hstored, hstored', hnumber, hnumber', hline, hline']
  cases hvalue : lineValue line with
  | none => simp [hvalue]
  | some total =>
    cases hvalue' : lineValue line' with
    | none => simp [hvalue']
    | some available =>
      rw [storedValue_eq hvalue, storedValue_eq hvalue']
      simp [hvalue, hvalue', mul_comm]

theorem readMem_iff_example :
    readMemUsedAndTotalBytes "MemFree: 1 kB\nMemAvailable: 3 kB\nMemTotal: 8 kB".toList
        = memUsedAndTotal "MemFree: 1 kB\nMemAvailable: 3 kB\nMemTotal: 8 kB".toList ∧
      memUsedAndTotal "MemFree: 1 kB\nMemAvailable: 3 kB\nMemTotal: 8 kB".toList
        = some (5120, 8192) := by
  rw [String.toList_ofList]
  exact ⟨(readMem_iff (by decide +kernel) (by decide +kernel)).mpr
    (Or.inr (Or.inr (by decide +kernel))), by decide +kernel⟩

/-- The value field of the total is empty: the agent reports a total of zero bytes
and a negative number of bytes in use. -/
theorem readMem_counterexample :
    (linesWith memTotalKey (lines "MemTotal:\nMemAvailable: 3 kB".toList)).length = 1 ∧
      (linesWith memAvailableKey (lines "MemTotal:\nMemAvailable: 3 kB".toList)).length = 1 ∧
      memUsedAndTotal "MemTotal:\nMemAvailable: 3 kB".toList = none ∧
      readMemUsedAndTotalBytes "MemTotal:\nMemAvailable: 3 kB".toList = some (-3072, 0) := by
  rw [String.toList_ofList]
  decide +kernel

end Agent
