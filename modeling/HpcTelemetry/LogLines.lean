/-
Log lines of the Python services (`hpctel/logging_utils.py`).

`JsonFormatter` writes each record as one line of JSON, and the handler adds the
newline.  The texts in a record come from outside: the peer's address, node and
job ids, the messages of exceptions.

* `format` — a line;
* `readLine_format` — it is read back, whatever the texts are;
* `readLog_stdout` — so is the log as a whole.
-/
import HpcTelemetry.JsonDumps

namespace Ingest

open JsonText

/-- A float as `float.__repr__` writes it; for a finite one that is a number. -/
abbrev FloatRepr := {literal : List Char // IsNumber literal}

/-- What `format` takes from a `logging.LogRecord`. -/
structure PythonRecord where
  levelname : List Char
  name : List Char
  /-- `getMessage()`. -/
  message : List Char
  nodeId : Option (List Char) := none
  jobId : Option (List Char) := none
  reasonCode : Option (List Char) := none
  trialId : Option (List Char) := none
  /-- `formatException(exc_info)`. -/
  excInfo : Option (List Char) := none
  deriving DecidableEq

/-- The assignments to `payload`, in their order; some are skipped. -/
def fields (ts : FloatRepr) (record : PythonRecord) : List (List Char × Option Json) :=
  [("ts".toList, some (.num ts.val)), ("level".toList, some (.str record.levelname)),
    ("logger".toList, some (.str record.name)), ("message".toList, some (.str record.message)),
    ("node_id".toList, record.nodeId.map .str), ("job_id".toList, record.jobId.map .str),
    ("reason_code".toList, record.reasonCode.map .str),
    ("trial_id".toList, record.trialId.map .str), ("exc_info".toList, record.excInfo.map .str)]

def payload (ts : FloatRepr) (record : PythonRecord) : Json := .obj (present (fields ts record))

/-- `format`; `ts` is the clock. -/
def format (ts : FloatRepr) (record : PythonRecord) : List Char :=
  dumps none true (payload ts record)

/-- What the handler writes for some records. -/
def stdout (records : List (FloatRepr × PythonRecord)) : List Char :=
  records.flatMap fun r => format r.1 r.2 ++ ['\n']

/-! ### Reading a log -/

/-- The lines of a text. -/
def splitLines : List Char → List (List Char)
  | [] => []
  | c :: s =>
    if c = '\n' then [] :: splitLines s
    else
      match splitLines s with
      | [] => [[c]]
      | line :: lines => (c :: line) :: lines

/-- The time and the record a line was written for. -/
def readLine (line : List Char) : Option (List Char × PythonRecord) := do
  let v ← parse line
  let .num ts ← v.get "ts".toList | none
  let levelname ← v.stringAt "level".toList
  let name ← v.stringAt "logger".toList
  let message ← v.stringAt "message".toList
  return (ts, { levelname, name, message
                nodeId := v.stringAt "node_id".toList
                jobId := v.stringAt "job_id".toList
                reasonCode := v.stringAt "reason_code".toList
                trialId := v.stringAt "trial_id".toList
                excInfo := v.stringAt "exc_info".toList })

/-! ### One line -/

theorem mem_fields {ts : FloatRepr} {record : PythonRecord} {f : List Char × Option Json}
    (h : f ∈ fields ts record) :
    f.2 = some (.num ts.val) ∨ ∃ text : Option (List Char), f.2 = text.map .str := by
  simp only [fields, List.mem_cons, List.not_mem_nil, or_false] at h
  rcases h with rfl | rfl | rfl | rfl | rfl | rfl | rfl | rfl | rfl
  · exact .inl rfl
  · exact .inr ⟨some record.levelname, rfl⟩
  · exact .inr ⟨some record.name, rfl⟩
  · exact .inr ⟨some record.message, rfl⟩
  · exact .inr ⟨record.nodeId, rfl⟩
  · exact .inr ⟨record.jobId, rfl⟩
  · exact .inr ⟨record.reasonCode, rfl⟩
  · exact .inr ⟨record.trialId, rfl⟩
  · exact .inr ⟨record.excInfo, rfl⟩

/-- The values of a line are numbers and strings. -/
theorem mem_payload {ts : FloatRepr} {record : PythonRecord} {m : List Char × Json}
    (h : m ∈ present (fields ts record)) : m.2 = .num ts.val ∨ ∃ text, m.2 = .str text := by
  obtain ⟨f, hf, hm⟩ := List.mem_filterMap.mp h
  obtain ⟨v, hv, rfl⟩ := Option.map_eq_some_iff.mp hm
  rcases mem_fields hf with hnum | ⟨text, htext⟩
  · rw [hv, Option.some_inj] at hnum
    exact .inl hnum
  · rw [hv] at htext
    obtain ⟨text', _, heq⟩ := Option.map_eq_some_iff.mp htext.symm
    exact .inr ⟨text', heq.symm⟩

theorem wellFormed_payload (ts : FloatRepr) (record : PythonRecord) :
    WellFormed (payload ts record) := by
  refine .obj fun m hm => ?_
  rcases mem_payload hm with hnum | ⟨text, htext⟩
  · rw [hnum]
    exact .num ts.property
  · rw [htext]
    exact .str

theorem parse_format (ts : FloatRepr) (record : PythonRecord) :
    parse (format ts record) = some (.obj (sortMembers (present (fields ts record)))) := by
  have hflat : sortedValues (present (fields ts record)) = present (fields ts record) := by
    refine sortedValues_of_flat fun m hm => ?_
    rw [Flat]
    rcases mem_payload hm with hnum | ⟨text, htext⟩
    · rw [hnum, sorted]
    · rw [htext, sorted]
  have hgap : Blank [] := fun _ hc => absurd hc List.not_mem_nil
  have hparse := parse_dumps (wellFormed_payload ts record) none true hgap
  rw [List.append_nil, if_pos rfl, payload, sorted, hflat] at hparse
  exact hparse

/-- The keys of a line are distinct. -/
theorem nodup_fields (ts : FloatRepr) (record : PythonRecord) :
    ((fields ts record).map Prod.fst).Nodup := by
  rw [show (fields ts record).map Prod.fst = ["ts".toList, "level".toList, "logger".toList,
    "message".toList, "node_id".toList, "job_id".toList, "reason_code".toList, "trial_id".toList,
    "exc_info".toList] from rfl]
  decide

/-- A field of a line is read back, or its absence is. -/
theorem get_line {ts : FloatRepr} {record : PythonRecord} {key : List Char} {v : Option Json}
    (h : (key, v) ∈ fields ts record) :
    (Json.obj (sortMembers (present (fields ts record)))).get key = v := by
  have hnodup := nodup_fields ts record
  rw [Json.get, lookup_sortMembers ((keys_present _).nodup hnodup), lookup_present hnodup h]

theorem stringAt_line {ts : FloatRepr} {record : PythonRecord} {key : List Char}
    {text : Option (List Char)} (h : (key, text.map .str) ∈ fields ts record) :
    (Json.obj (sortMembers (present (fields ts record)))).stringAt key = text := by
  rw [Json.stringAt, get_line h]
  cases text with
  | none => rfl
  | some text => rfl

/-- A line is read back as the record it was written for. -/
theorem readLine_format (ts : FloatRepr) (record : PythonRecord) :
    readLine (format ts record) = some (ts.val, record) := by
  have hts : (Json.obj (sortMembers (present (fields ts record)))).get "ts".toList
      = some (.num ts.val) := get_line (by simp [fields])
  have htext : ∀ key text, (key, text.map .str) ∈ fields ts record →
      (Json.obj (sortMembers (present (fields ts record)))).stringAt key = text :=
    fun _ _ h => stringAt_line h
  have hlevel := htext "level".toList (some record.levelname) (by simp [fields])
  have hname := htext "logger".toList (some record.name) (by simp [fields])
  have hmessage := htext "message".toList (some record.message) (by simp [fields])
  have hnode := htext "node_id".toList record.nodeId (by simp [fields])
  have hjob := htext "job_id".toList record.jobId (by simp [fields])
  have hreason := htext "reason_code".toList record.reasonCode (by simp [fields])
  have htrial := htext "trial_id".toList record.trialId (by simp [fields])
  have hexc := htext "exc_info".toList record.excInfo (by simp [fields])
  rw [readLine, parse_format, Option.bind_eq_bind, Option.bind_some, hts]
  simp only [hlevel, hname, hmessage, hnode, hjob, hreason, htrial, hexc, Option.bind_eq_bind,
    Option.bind_some, Option.pure_def]

/-! ### The log -/

theorem ascii_format (ts : FloatRepr) (record : PythonRecord) : Ascii (format ts record) :=
  ascii_dumps (wellFormed_payload ts record) true

theorem splitLines_line {line rest : List Char} (h : '\n' ∉ line) :
    splitLines (line ++ '\n' :: rest) = line :: splitLines rest := by
  induction line with
  | nil => exact if_pos rfl
  | cons c line ih =>
    have hc : ¬ c = '\n' := fun hc => h (hc ▸ List.mem_cons_self)
    rw [List.cons_append, splitLines, if_neg hc,
      ih fun hm => h (List.mem_cons_of_mem c hm)]

/-- No text in a record ends its line. -/
theorem newline_notMem_format (ts : FloatRepr) (record : PythonRecord) :
    '\n' ∉ format ts record := by
  intro hmem
  have hchar := ascii_format ts record '\n' hmem
  have hnewline : '\n'.toNat = 10 := rfl
  omega

theorem splitLines_stdout (records : List (FloatRepr × PythonRecord)) :
    splitLines (stdout records) = records.map fun r => format r.1 r.2 := by
  induction records with
  | nil => rfl
  | cons r records ih =>
    have hstdout : stdout (r :: records) = format r.1 r.2 ++ '\n' :: stdout records := by
      rw [stdout, List.flatMap_cons, List.append_assoc]
      rfl
    rw [hstdout, splitLines_line (newline_notMem_format r.1 r.2), ih, List.map_cons]

/-- The log is printable ASCII and has a line for each record, which is read back as
that record.  A text from outside neither ends a line nor adds a field. -/
theorem readLog_stdout (records : List (FloatRepr × PythonRecord)) :
    (∀ c ∈ stdout records, c = '\n' ∨ 0x20 ≤ c.toNat ∧ c.toNat ≤ 0x7E) ∧
      (splitLines (stdout records)).map readLine
        = records.map fun r => some (r.1.val, r.2) := by
  constructor
  · intro c hc
    obtain ⟨r, _, hr⟩ := List.mem_flatMap.mp hc
    rcases List.mem_append.mp hr with hformat | hnewline
    · exact .inr (ascii_format r.1 r.2 c hformat)
    · exact .inl (List.mem_singleton.mp hnewline)
  · rw [splitLines_stdout, List.map_map]
    refine List.map_congr_left fun r _ => ?_
    exact readLine_format r.1 r.2

end Ingest
