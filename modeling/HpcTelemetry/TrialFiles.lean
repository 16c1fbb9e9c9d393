/-
The texts of the result files (`_run_missing_trials`, `_load_results` and `main` of
`eval/run_trials.py`).

A result is written as the JSON text of its dictionary with a newline behind it,
and a kill leaves what has reached the file by then.  What `json.loads` makes of
such a file is the result, or nothing: a file that was cut in front of its last
bracket is torn, and one that lacks its newline only is not.

* `resultCodec` — a result as the dictionary `_run_trial` returns, and back;
* `readFile_resultText` — what is read of a beginning of its text;
* `TextStep` — the invocations, on texts;
* `texts_refine` — on texts, the invocations are those of `BatchStep`, and no result
  is read that was not written.
-/
import HpcTelemetry.JsonCodec
import HpcTelemetry.TrialBatch

namespace Eval

open JsonText Analysis Transitions

/-! ### Results as dictionaries -/

def statusName : ReportStatus → String
  | .ranked => "ranked"
  | .insufficientEvidence => "insufficient_evidence"

def statusCodec : JsonCodec ReportStatus :=
  JsonCodec.string.tagged statusName
    (fun name => [ReportStatus.ranked, .insufficientEvidence].find? (statusName · = name))
    fun status => by cases status <;> decide

def causeName : RootCause → String
  | .cpuContention => "CPU_CONTENTION"
  | .ioStall => "IO_STALL"
  | .network => "NETWORK"
  | .unknown => "UNKNOWN"

def causeCodec : JsonCodec RootCause :=
  JsonCodec.string.tagged causeName
    (fun name => [RootCause.cpuContention, .ioStall, .network, .unknown].find? (causeName · = name))
    fun cause => by cases cause <;> decide

def optionalString : JsonCodec (Option String) :=
  JsonCodec.string.optional fun _ h => by cases h

def optionalCause : JsonCodec (Option RootCause) :=
  causeCodec.optional fun _ h => by cases h

section Codecs

-- `float.__repr__` and what `json.loads` makes of it
variable (float : JsonCodec ℚ)

def nodeMembers (node : RankedNode) : List (List Char × Json) :=
  [("node_id".toList, JsonCodec.string.write node.nodeId),
    ("duration_ns".toList, JsonCodec.int.write node.durationNs),
    ("z_score".toList, float.write node.zScore),
    ("flagged".toList, JsonCodec.bool.write node.flagged)]

def readNode (v : Json) : Option RankedNode := do
  let nodeId ← JsonCodec.string.field "node_id" v
  let durationNs ← JsonCodec.int.field "duration_ns" v
  let zScore ← float.field "z_score" v
  let flagged ← JsonCodec.bool.field "flagged" v
  return ⟨nodeId, durationNs, zScore, flagged⟩

theorem nodup_nodeMembers (node : RankedNode) : ((nodeMembers float node).map Prod.fst).Nodup := by
  simp only [nodeMembers, List.map_cons, List.map_nil]
  repeat rw [String.toList_ofList]
  decide

def nodeCodec : JsonCodec RankedNode where
  write node := .obj (nodeMembers float node)
  read := readNode float
  wellFormed := fun node => .obj (by
    simp [nodeMembers, JsonCodec.wellFormed, -String.reduceToList])
  read_sorted := by
    intro node
    have hnodup := nodup_nodeMembers float node
    rw [readNode, JsonCodec.string.field_sorted hnodup (List.mem_of_getElem? (i := 0) rfl),
      JsonCodec.int.field_sorted hnodup (List.mem_of_getElem? (i := 1) rfl),
      float.field_sorted hnodup (List.mem_of_getElem? (i := 2) rfl),
      JsonCodec.bool.field_sorted hnodup (List.mem_of_getElem? (i := 3) rfl)]
    rfl

/-- The dictionary of a trial that has completed. -/
def completedMembers (r : CompletedTrial) : List (List Char × Json) :=
  [("trial_id".toList, JsonCodec.string.write r.trialId),
    ("outcome".toList, JsonCodec.string.write "COMPLETED"),
    ("job_id".toList, JsonCodec.string.write r.jobId),
    ("fault_type".toList, optionalString.write r.faultType),
    ("target_host".toList, optionalString.write r.targetHost),
    ("expected_target_node_id".toList, optionalString.write r.expectedTargetNodeId),
    ("straggler_status".toList, statusCodec.write r.stragglerStatus),
    ("top_candidate".toList, optionalString.write r.topCandidate),
    ("naive_baseline_candidate".toList, optionalString.write r.naiveBaselineCandidate),
    ("root_cause".toList, optionalCause.write r.rootCause),
    ("ranked_nodes".toList, (nodeCodec float).list.write r.rankedNodes)]

def readCompleted (v : Json) : Option CompletedTrial := do
  let trialId ← JsonCodec.string.field "trial_id" v
  let jobId ← JsonCodec.string.field "job_id" v
  let faultType ← optionalString.field "fault_type" v
  let targetHost ← optionalString.field "target_host" v
  let expectedTargetNodeId ← optionalString.field "expected_target_node_id" v
  let stragglerStatus ← statusCodec.field "straggler_status" v
  let topCandidate ← optionalString.field "top_candidate" v
  let naiveBaselineCandidate ← optionalString.field "naive_baseline_candidate" v
  let rootCause ← optionalCause.field "root_cause" v
  let rankedNodes ← (nodeCodec float).list.field "ranked_nodes" v
  return { trialId, jobId, faultType, targetHost, expectedTargetNodeId, stragglerStatus,
           topCandidate, naiveBaselineCandidate, rootCause, rankedNodes }

theorem nodup_completedMembers (r : CompletedTrial) :
    ((completedMembers float r).map Prod.fst).Nodup := by
  simp only [completedMembers, List.map_cons, List.map_nil]
  repeat rw [String.toList_ofList]
  decide

theorem readCompleted_sorted (r : CompletedTrial) :
    readCompleted float (sorted (.obj (completedMembers float r))) = some r := by
  have hfield : ∀ {α : Type} (c : JsonCodec α) {key : String} {a : α},
      (key.toList, c.write a) ∈ completedMembers float r →
      c.field key (sorted (.obj (completedMembers float r))) = some a :=
    fun c _ _ h => c.field_sorted (nodup_completedMembers float r) h
  rw [readCompleted, hfield _ (a := r.trialId) (List.mem_of_getElem? (i := 0) rfl),
    hfield _ (a := r.jobId) (List.mem_of_getElem? (i := 2) rfl),
    hfield _ (a := r.faultType) (List.mem_of_getElem? (i := 3) rfl),
    hfield _ (a := r.targetHost) (List.mem_of_getElem? (i := 4) rfl),
    hfield _ (a := r.expectedTargetNodeId) (List.mem_of_getElem? (i := 5) rfl),
    hfield _ (a := r.stragglerStatus) (List.mem_of_getElem? (i := 6) rfl),
    hfield _ (a := r.topCandidate) (List.mem_of_getElem? (i := 7) rfl),
    hfield _ (a := r.naiveBaselineCandidate) (List.mem_of_getElem? (i := 8) rfl),
    hfield _ (a := r.rootCause) (List.mem_of_getElem? (i := 9) rfl),
    hfield _ (a := r.rankedNodes) (List.mem_of_getElem? (i := 10) rfl)]
  rfl

/-- The dictionary of a trial that was aborted. -/
def abortedMembers (trialId reason : String) : List (List Char × Json) :=
  [("trial_id".toList, JsonCodec.string.write trialId),
    ("outcome".toList, JsonCodec.string.write "ABORTED"),
    ("reason".toList, JsonCodec.string.write reason)]

def readAborted (v : Json) : Option TrialResult := do
  let trialId ← JsonCodec.string.field "trial_id" v
  let reason ← JsonCodec.string.field "reason" v
  return .aborted trialId reason

theorem nodup_abortedMembers (trialId reason : String) :
    ((abortedMembers trialId reason).map Prod.fst).Nodup := by
  simp only [abortedMembers, List.map_cons, List.map_nil]
  repeat rw [String.toList_ofList]
  decide

theorem readAborted_sorted (trialId reason : String) :
    readAborted (sorted (.obj (abortedMembers trialId reason)))
      = some (.aborted trialId reason) := by
  have hnodup := nodup_abortedMembers trialId reason
  rw [readAborted,
    JsonCodec.string.field_sorted hnodup (List.mem_of_getElem? (i := 0) rfl),
    JsonCodec.string.field_sorted hnodup (List.mem_of_getElem? (i := 2) rfl)]
  rfl

def resultMembers : TrialResult → List (List Char × Json)
  | .completed record => completedMembers float record
  | .aborted trialId reason => abortedMembers trialId reason

/-- The result of a dictionary. -/
def readResult (v : Json) : Option TrialResult := do
  let outcome ← JsonCodec.string.field "outcome" v
  if outcome = "COMPLETED" then (readCompleted float v).map .completed
  else if outcome = "ABORTED" then readAborted v
  else none

def resultCodec : JsonCodec TrialResult where
  write result := .obj (resultMembers float result)
  read := readResult float
  wellFormed := by
    intro result
    cases result with
    | completed record =>
      exact .obj (by simp [resultMembers, completedMembers, JsonCodec.wellFormed,
        -String.reduceToList])
    | aborted trialId reason =>
      exact .obj (by simp [resultMembers, abortedMembers, JsonCodec.wellFormed,
        -String.reduceToList])
  read_sorted := by
    intro result
    cases result with
    | completed record =>
      show readResult float (sorted (.obj (completedMembers float record))) = _
      rw [readResult, JsonCodec.string.field_sorted (nodup_completedMembers float record)
        (List.mem_of_getElem? (i := 1) rfl)]
      simp [readCompleted_sorted]
    | aborted trialId reason =>
      show readResult float (sorted (.obj (abortedMembers trialId reason))) = _
      rw [readResult, JsonCodec.string.field_sorted (nodup_abortedMembers trialId reason)
        (List.mem_of_getElem? (i := 1) rfl)]
      simp [readAborted_sorted]

/-! ### Texts -/

/-- `json.dumps(result, indent=2, sort_keys=True) + "\n"`. -/
def resultText (result : TrialResult) : List Char :=
  dumps (some 2) true (.obj (resultMembers float result)) ++ ['\n']

/-- `json.loads(result_path.read_text())`. -/
def readFile (text : List Char) : ResultFile :=
  match parse text with
  | none => .torn
  | some v =>
    match readResult float v with
    | some result => .result result
    | none => .summary

/-- A text whose value is there as soon as all but the newline is. -/
theorem readFile_of_parse {text left : List Char} {v : Json} {result? : Option TrialResult}
    (hparse : parse text = if left.length ≤ 1 then some v else none)
    (hread : readResult float v = result?) :
    readFile float text
      = if left.length ≤ 1 then result?.elim .summary .result else .torn := by
  rw [readFile, hparse]
  by_cases hleft : left.length ≤ 1
  · rw [if_pos hleft, if_pos hleft]
    simp only [hread]
    cases result? with
    | none => rfl
    | some result => rfl
  · rw [if_neg hleft, if_neg hleft]

/-- A beginning of the text of a result is that result when all but the newline is
there, and nothing before. -/
theorem readFile_resultText {result : TrialResult} {text left : List Char}
    (h : text ++ left = resultText float result) :
    readFile float text = if left.length ≤ 1 then .result result else .torn :=
  readFile_of_parse float (parse_written ((resultCodec float).wellFormed result) h)
    ((resultCodec float).read_sorted result)

end Codecs

/-- The keys of `summary.json`. -/
def summaryKeys : List String :=
  ["estimand_1_top1_detection_rate", "estimand_2_trial_level_false_positive_rate",
    "estimand_3_no_fault_false_flag_rate", "estimand_4_root_cause_tag_accuracy",
    "naive_baseline_top1_detection_rate", "detection_rate_by_fault_type",
    "primary_claim_supported", "fault_trial_outcomes", "no_fault_trial_outcomes"]

theorem nodup_summaryKeys : (summaryKeys.map String.toList).Nodup := by
  simp only [summaryKeys, List.map_cons, List.map_nil]
  repeat rw [String.toList_ofList]
  decide

theorem outcome_notMem_summaryKeys : "outcome".toList ∉ summaryKeys.map String.toList := by
  simp only [summaryKeys, List.map_cons, List.map_nil]
  repeat rw [String.toList_ofList]
  decide

/-- The values in `summary.json`, which nothing reads. -/
structure SummaryValues where
  value : Summary → String → Json
  wellFormed : ∀ summary key, WellFormed (value summary key)

def SummaryValues.members (values : SummaryValues) (summary : Summary) :
    List (List Char × Json) :=
  summaryKeys.map fun key => (key.toList, values.value summary key)

/-- `json.dumps(summary, indent=2, sort_keys=True) + "\n"`. -/
def SummaryValues.text (values : SummaryValues) (summary : Summary) : List Char :=
  dumps (some 2) true (.obj (values.members summary)) ++ ['\n']

theorem SummaryValues.keys (values : SummaryValues) (summary : Summary) :
    (values.members summary).map Prod.fst = summaryKeys.map String.toList := by
  rw [members, List.map_map]
  rfl

theorem SummaryValues.wellFormed_members (values : SummaryValues) (summary : Summary) :
    WellFormed (.obj (values.members summary)) := by
  refine .obj fun m hm => ?_
  obtain ⟨key, _, rfl⟩ := List.mem_map.mp hm
  exact values.wellFormed summary key

theorem readFile_summaryText (float : JsonCodec ℚ) {values : SummaryValues} {summary : Summary}
    {text left : List Char} (h : text ++ left = values.text summary) :
    readFile float text = if left.length ≤ 1 then .summary else .torn := by
  have hnodup : ((values.members summary).map Prod.fst).Nodup := by
    rw [values.keys]
    exact nodup_summaryKeys
  have houtcome : "outcome".toList ∉ (values.members summary).map Prod.fst := by
    rw [values.keys]
    exact outcome_notMem_summaryKeys
  have hread : readResult float (sorted (.obj (values.members summary))) = none := by
    rw [readResult, JsonCodec.string.field_of_notMem hnodup houtcome]
    rfl
  exact readFile_of_parse float (parse_written (values.wellFormed_members summary) h) hread

/-! ### Invocations on texts -/

/-- The files `<name>.json` as texts, by name. -/
abbrev TextsDir := String → Option (List Char)

/-- Where the script stands.  In `write_text` the end of the text has not reached
the file yet. -/
inductive TextScript where
  | notRunning
  | looping (rest : List Trial)
  | running (trial : Trial) (rest : List Trial)
  | writing (trial : Trial) (result : TrialResult) (left : List Char) (rest : List Trial)
  | summarizing
  | writingSummary (left : List Char)

structure TextBatch where
  files : TextsDir
  script : TextScript

inductive TextAction where
  | invoke (replay : Bool)
  | skip
  | begin
  | finish (result : TrialResult)
  /-- So many characters reach the file. -/
  | put (n : ℕ)
  | close
  | loopDone
  | summarize
  | putSummary (n : ℕ)
  | closeSummary
  | interrupt

section Refinement

variable (manifest : Manifest) (float : JsonCodec ℚ) (values : SummaryValues)

/-- What `json.loads` makes of the files. -/
def readDir (files : TextsDir) : ResultsDir := fun name => (files name).map (readFile float)

inductive TextStep : TextBatch → TextAction → TextBatch → Prop where
  | invoke {s : TextBatch} {replay : Bool} : s.script = .notRunning →
      TextStep s (.invoke replay) { s with
        script := if replay then .summarizing else .looping manifest.trials }
  | skip {s : TextBatch} {trial : Trial} {rest : List Trial} :
      s.script = .looping (trial :: rest) → s.files trial.trialId ≠ none →
      TextStep s .skip { s with script := .looping rest }
  | begin {s : TextBatch} {trial : Trial} {rest : List Trial} :
      s.script = .looping (trial :: rest) → s.files trial.trialId = none →
      TextStep s .begin { s with script := .running trial rest }
  | finish {s : TextBatch} {trial : Trial} {rest : List Trial} {result : TrialResult} :
      s.script = .running trial rest → result.trialId = trial.trialId →
      TextStep s (.finish result) ⟨Function.update s.files trial.trialId (some []),
        .writing trial result (resultText float result) rest⟩
  | put {s : TextBatch} {trial : Trial} {result : TrialResult} {left text : List Char}
      {rest : List Trial} {n : ℕ} :
      s.script = .writing trial result left rest → s.files trial.trialId = some text →
      TextStep s (.put n) ⟨Function.update s.files trial.trialId (some (text ++ left.take n)),
        .writing trial result (left.drop n) rest⟩
  | close {s : TextBatch} {trial : Trial} {result : TrialResult} {rest : List Trial} :
      s.script = .writing trial result [] rest →
      TextStep s .close { s with script := .looping rest }
  | loopDone {s : TextBatch} : s.script = .looping [] →
      TextStep s .loopDone { s with script := .summarizing }
  | summarize {s : TextBatch} {summary : Summary} : s.script = .summarizing →
      summarizeFiles manifest (readDir float s.files) = .ok summary →
      TextStep s .summarize ⟨Function.update s.files "summary" (some []),
        .writingSummary (values.text summary)⟩
  | putSummary {s : TextBatch} {left text : List Char} {n : ℕ} :
      s.script = .writingSummary left → s.files "summary" = some text →
      TextStep s (.putSummary n) ⟨Function.update s.files "summary" (some (text ++ left.take n)),
        .writingSummary (left.drop n)⟩
  | closeSummary {s : TextBatch} : s.script = .writingSummary [] →
      TextStep s .closeSummary { s with script := .notRunning }
  | interrupt {s : TextBatch} : TextStep s .interrupt { s with script := .notRunning }

def TextBatch.start (files : TextsDir) : TextBatch := ⟨files, .notRunning⟩

/-- A text this script may have left in a file. -/
def Leftover (text : List Char) : Prop :=
  (∃ result, text <+: resultText float result) ∨ ∃ summary, text <+: values.text summary

/-- Once all but the newline is in the file, the result is as good as written. -/
def TextScript.script : TextScript → ScriptState
  | .notRunning => .notRunning
  | .looping rest => .looping rest
  | .running trial rest => .running trial rest
  | .writing trial result left rest =>
    if left.length ≤ 1 then .looping rest else .writing trial result rest
  | .summarizing => .summarizing
  | .writingSummary left => if left.length ≤ 1 then .notRunning else .writingSummary

/-- The batch the texts stand for. -/
def TextBatch.batch (s : TextBatch) : Batch := ⟨readDir float s.files, s.script.script⟩

/-- The file that is written and what is left of its text are the text. -/
structure Fits (s : TextBatch) : Prop where
  result : ∀ trial result left rest, s.script = .writing trial result left rest →
    ∃ text, s.files trial.trialId = some text ∧ text ++ left = resultText float result
  summary : ∀ left, s.script = .writingSummary left →
    ∃ summary text, s.files "summary" = some text ∧ text ++ left = values.text summary

variable {manifest float values}

theorem readDir_update (files : TextsDir) (name : String) (text : List Char) :
    readDir float (Function.update files name (some text))
      = Function.update (readDir float files) name (some (readFile float text)) := by
  funext other
  by_cases h : other = name
  · subst h
    simp [readDir]
  · simp [readDir, h]

/-- Where nothing is written there is nothing to fit. -/
theorem fits_of_not_writing {s : TextBatch}
    (hresult : ∀ trial result left rest, s.script ≠ .writing trial result left rest)
    (hsummary : ∀ left, s.script ≠ .writingSummary left) : Fits float values s where
  result := fun trial result left rest h => absurd h (hresult trial result left rest)
  summary := fun left h => absurd h (hsummary left)

/-- Some more of the text has reached the file. -/
theorem put_append {text left whole : List Char} (h : text ++ left = whole) (n : ℕ) :
    text ++ left.take n ++ left.drop n = whole := by
  rw [List.append_assoc, List.take_append_drop, h]

/-- An empty file is not read, so there is more than a newline to come. -/
theorem one_lt_length_written {ms : List (List Char × Json)} (h : WellFormed (.obj ms)) :
    1 < (dumps (some 2) true (.obj ms) ++ ['\n']).length := by
  have hread := @parse_written ms h (some 2) [] _ (List.nil_append _)
  by_contra hle
  rw [if_pos (by omega)] at hread
  cases hread

/-! ### One step -/

/-- More of a text reaches its file: either with it the file comes to hold what was
written, or the file is read as before. -/
theorem put_cases {files : TextsDir} {name : String} {whole text left : List Char}
    {file : ResultFile} (hfile : files name = some text) (htext : text ++ left = whole)
    (hread : ∀ {text left}, text ++ left = whole →
      readFile float text = if left.length ≤ 1 then file else .torn) (n : ℕ) :
    (¬ left.length ≤ 1 ∧ (left.drop n).length ≤ 1 ∧
      readDir float (Function.update files name (some (text ++ left.take n)))
        = Function.update (readDir float files) name (some file)) ∨
    (((left.drop n).length ≤ 1 ↔ left.length ≤ 1) ∧
      readDir float (Function.update files name (some (text ++ left.take n)))
        = readDir float files) := by
  have hbefore := hread htext
  have hafter := hread (put_append htext n)
  have hsame : readFile float (text ++ left.take n) = readFile float text →
      readDir float (Function.update files name (some (text ++ left.take n)))
        = readDir float files := by
    intro heq
    rw [readDir_update, heq, Function.update_eq_self_iff, readDir, hfile]
    rfl
  by_cases hle : left.length ≤ 1
  · have hle' : (left.drop n).length ≤ 1 := by
      rw [List.length_drop]
      omega
    rw [if_pos hle] at hbefore
    rw [if_pos hle'] at hafter
    exact .inr ⟨iff_of_true hle' hle, hsame (hafter.trans hbefore.symm)⟩
  · rw [if_neg hle] at hbefore
    by_cases hle' : (left.drop n).length ≤ 1
    · rw [if_pos hle'] at hafter
      exact .inl ⟨hle, hle', by rw [readDir_update, hafter]⟩
    · rw [if_neg hle'] at hafter
      exact .inr ⟨iff_of_false hle' hle, hsame (hafter.trans hbefore.symm)⟩

theorem TextBatch.batch_eq {s s' : TextBatch}
    (hfiles : readDir float s'.files = readDir float s.files)
    (hscript : s'.script.script = s.script.script) : s'.batch float = s.batch float := by
  rw [batch, batch, hfiles, hscript]

/-- Writing has begun. -/
theorem opened_result (files : TextsDir) (trial : Trial) (result : TrialResult)
    (rest : List Trial) :
    TextBatch.batch float ⟨Function.update files trial.trialId (some []),
        .writing trial result (resultText float result) rest⟩
      = ⟨Function.update (readDir float files) trial.trialId (some .torn),
        .writing trial result rest⟩ := by
  have hlong : 1 < (resultText float result).length :=
    one_lt_length_written ((resultCodec float).wellFormed result)
  rw [TextBatch.batch, readDir_update, TextScript.script, if_neg (not_le.mpr hlong)]
  rfl

theorem opened_summary (files : TextsDir) (summary : Summary) :
    TextBatch.batch float ⟨Function.update files "summary" (some []),
        .writingSummary (values.text summary)⟩
      = ⟨Function.update (readDir float files) "summary" (some .torn), .writingSummary⟩ := by
  have hlong : 1 < (values.text summary).length :=
    one_lt_length_written (values.wellFormed_members summary)
  rw [TextBatch.batch, readDir_update, TextScript.script, if_neg (not_le.mpr hlong)]
  rfl

/-- The batch takes a step, or stays as it is. -/
def GoesOn (manifest : Manifest) (b b' : Batch) : Prop :=
  b' = b ∨ ∃ a, BatchStep manifest b a b'

variable {s : TextBatch} {left text : List Char}

/-- More of a result reaches its file. -/
theorem goesOn_put {trial : Trial} {result : TrialResult} {rest : List Trial}
    (hscript : s.script = .writing trial result left rest)
    (hfile : s.files trial.trialId = some text) (htext : text ++ left = resultText float result)
    (n : ℕ) : GoesOn manifest (s.batch float) (TextBatch.batch float
      ⟨Function.update s.files trial.trialId (some (text ++ left.take n)),
        .writing trial result (left.drop n) rest⟩) := by
  rcases put_cases hfile htext (readFile_resultText float) n with
    ⟨hlong, hshort, hfiles⟩ | ⟨hiff, hfiles⟩
  · have hwriting : (s.batch float).script = .writing trial result rest := by
      rw [TextBatch.batch, hscript, TextScript.script, if_neg hlong]
    have hwritten := @BatchStep.written manifest _ _ _ _ hwriting
    refine .inr ⟨.written, ?_⟩
    simp only [TextBatch.batch, hfiles, TextScript.script, if_pos hshort]
    exact hwritten
  · refine .inl (TextBatch.batch_eq hfiles ?_)
    rw [hscript, TextScript.script, TextScript.script]
    simp only [hiff]

/-- More of a summary reaches its file. -/
theorem goesOn_putSummary {summary : Summary} (hscript : s.script = .writingSummary left)
    (hfile : s.files "summary" = some text) (htext : text ++ left = values.text summary)
    (n : ℕ) : GoesOn manifest (s.batch float) (TextBatch.batch float
      ⟨Function.update s.files "summary" (some (text ++ left.take n)),
        .writingSummary (left.drop n)⟩) := by
  rcases put_cases hfile htext (readFile_summaryText float) n with
    ⟨hlong, hshort, hfiles⟩ | ⟨hiff, hfiles⟩
  · have hwriting : (s.batch float).script = .writingSummary := by
      rw [TextBatch.batch, hscript, TextScript.script, if_neg hlong]
    have hwritten := @BatchStep.summaryWritten manifest _ hwriting
    refine .inr ⟨.summaryWritten, ?_⟩
    simp only [TextBatch.batch, hfiles, TextScript.script, if_pos hshort]
    exact hwritten
  · refine .inl (TextBatch.batch_eq hfiles ?_)
    rw [hscript, TextScript.script, TextScript.script]
    simp only [hiff]

/-- A step on texts is a step of the batch, or none. -/
theorem textStep_refines {s s' : TextBatch} {a : TextAction} (hfits : Fits float values s)
    (hstep : TextStep manifest float values s a s') :
    GoesOn manifest (s.batch float) (s'.batch float) := by
  have hscript : ∀ {script}, s.script = script → (s.batch float).script = script.script :=
    fun h => by rw [TextBatch.batch, h]
  have hfile : ∀ trial : Trial, (s.batch float).files trial.trialId ≠ none ↔
      s.files trial.trialId ≠ none := fun trial => by simp [TextBatch.batch, readDir]
  cases hstep with
  | @invoke replay h =>
    have hinvoke := @BatchStep.invoke manifest (s.batch float) replay (hscript h)
    refine .inr ⟨.invoke replay, ?_⟩
    cases replay with
    | true => exact hinvoke
    | false => exact hinvoke
  | @skip trial rest h hsome =>
    exact .inr ⟨.skip, .skip (hscript h) ((hfile trial).mpr hsome)⟩
  | @begin trial rest h hnone =>
    exact .inr ⟨.begin, .begin (hscript h) fun hc => (hfile trial).mp hc hnone⟩
  | @finish trial rest result h hid =>
    rw [opened_result]
    exact .inr ⟨.finish result, .finish (hscript h) hid⟩
  | @put trial result left text rest n h hsome =>
    obtain ⟨text', hsome', htext⟩ := hfits.result trial result left rest h
    obtain rfl := Option.some_inj.mp (hsome'.symm.trans hsome)
    exact goesOn_put h hsome htext n
  | close h =>
    refine .inl (TextBatch.batch_eq rfl ?_)
    rw [h]
    rfl
  | loopDone h => exact .inr ⟨.loopDone, .loopDone (hscript h)⟩
  | @summarize summary h hsummary =>
    rw [opened_summary]
    exact .inr ⟨.summarize, .summarize (hscript h) hsummary⟩
  | @putSummary left text n h hsome =>
    obtain ⟨summary, text', hsome', htext⟩ := hfits.summary left h
    obtain rfl := Option.some_inj.mp (hsome'.symm.trans hsome)
    exact goesOn_putSummary h hsome htext n
  | closeSummary h =>
    refine .inl (TextBatch.batch_eq rfl ?_)
    rw [h]
    rfl
  | interrupt => exact .inr ⟨.interrupt, .interrupt⟩

/-- What is written keeps fitting. -/
theorem fits_step {s s' : TextBatch} {a : TextAction} (hfits : Fits float values s)
    (hstep : TextStep manifest float values s a s') : Fits float values s' := by
  cases hstep with
  | @finish trial rest result _ _ =>
    refine ⟨fun _ _ _ _ hc => ?_, fun _ hc => (by cases hc)⟩
    injection hc with ht hr hleft _
    subst ht hr hleft
    exact ⟨[], Function.update_self _ _ _, List.nil_append _⟩
  | @put trial result left text rest n h hsome =>
    obtain ⟨text', hsome', htext⟩ := hfits.result trial result left rest h
    obtain rfl := Option.some_inj.mp (hsome'.symm.trans hsome)
    refine ⟨fun _ _ _ _ hc => ?_, fun _ hc => (by cases hc)⟩
    injection hc with ht hr hleft _
    subst ht hr hleft
    exact ⟨_, Function.update_self _ _ _, put_append htext n⟩
  | @summarize summary _ _ =>
    refine ⟨fun _ _ _ _ hc => (by cases hc), fun _ hc => ?_⟩
    injection hc with hleft
    subst hleft
    exact ⟨summary, [], by simp, List.nil_append _⟩
  | @putSummary left text n h hsome =>
    obtain ⟨summary, text', hsome', htext⟩ := hfits.summary left h
    obtain rfl := Option.some_inj.mp (hsome'.symm.trans hsome)
    refine ⟨fun _ _ _ _ hc => (by cases hc), fun _ hc => ?_⟩
    injection hc with hleft
    subst hleft
    exact ⟨summary, text' ++ left.take n, by simp, put_append htext n⟩
  | @invoke replay _ =>
    cases replay with
    | true => exact fits_of_not_writing (fun _ _ _ _ => by simp) fun _ => by simp
    | false => exact fits_of_not_writing (fun _ _ _ _ => by simp) fun _ => by simp
  | _ => exact fits_of_not_writing (fun _ _ _ _ => by simp) fun _ => by simp

/-! ### Whole runs -/

/-- The results read are those read at the start and those of trials that have
finished. -/
structure Accounted (float : JsonCodec ℚ) (texts : TextsDir) (tr : List (TextBatch × TextAction))
    (s : TextBatch) : Prop where
  read : ∀ name result, readDir float s.files name = some (.result result) →
    readDir float texts name = some (.result result) ∨
      TextAction.finish result ∈ tr.map Prod.snd ∧ result.trialId = name
  writing : ∀ trial result left rest, s.script = .writing trial result left rest →
    TextAction.finish result ∈ tr.map Prod.snd ∧ result.trialId = trial.trialId

/-- What was so before a step is so behind it. -/
theorem Accounted.later {texts : TextsDir} {tr : List (TextBatch × TextAction)} {s : TextBatch}
    (h : Accounted float texts tr s) (p : TextBatch × TextAction) :
    (∀ name result, readDir float s.files name = some (.result result) →
      readDir float texts name = some (.result result) ∨
        TextAction.finish result ∈ (tr ++ [p]).map Prod.snd ∧ result.trialId = name) ∧
    ∀ trial result left rest, s.script = .writing trial result left rest →
      TextAction.finish result ∈ (tr ++ [p]).map Prod.snd ∧ result.trialId = trial.trialId := by
  have hmem : ∀ {result}, TextAction.finish result ∈ tr.map Prod.snd →
      TextAction.finish result ∈ (tr ++ [p]).map Prod.snd := by
    intro result hresult
    rw [List.map_append]
    exact List.mem_append_left _ hresult
  refine ⟨fun name result hread => ?_, fun trial result left rest hscript => ?_⟩
  · exact (h.read name result hread).imp_right fun hfinish => ⟨hmem hfinish.1, hfinish.2⟩
  · exact ⟨hmem (h.writing trial result left rest hscript).1,
      (h.writing trial result left rest hscript).2⟩

/-- A file that came to be torn, or the file of this result, is accounted for. -/
theorem read_of_update {files : TextsDir} {texts : TextsDir} {name : String} {file : ResultFile}
    {P : String → TrialResult → Prop}
    (hread : ∀ other result, readDir float files other = some (.result result) →
      readDir float texts other = some (.result result) ∨ P other result)
    (hfile : ∀ result, file = .result result → P name result) :
    ∀ other result, Function.update (readDir float files) name (some file) other
      = some (.result result) →
      readDir float texts other = some (.result result) ∨ P other result := by
  intro other result h
  by_cases hname : other = name
  · subst hname
    rw [Function.update_self, Option.some_inj] at h
    exact .inr (hfile result h)
  · rw [Function.update_of_ne hname] at h
    exact hread other result h

theorem accounted_step {texts : TextsDir} {tr : List (TextBatch × TextAction)} {s s' : TextBatch}
    {a : TextAction} (hfits : Fits float values s) (h : Accounted float texts tr s)
    (hstep : TextStep manifest float values s a s') :
    Accounted float texts (tr ++ [(s, a)]) s' := by
  obtain ⟨hread, hwriting⟩ := h.later (s, a)
  cases hstep with
  | @invoke replay _ =>
    refine ⟨hread, fun _ _ _ _ hc => ?_⟩
    cases replay with
    | true => cases hc
    | false => cases hc
  | @finish trial rest result _ hid =>
    constructor
    · rw [readDir_update]
      exact read_of_update hread fun _ hc => (by cases hc)
    · intro _ _ _ _ hc
      injection hc with ht hr _ _
      subst ht hr
      exact ⟨by simp, hid⟩
  | @put trial result left text rest n hscript hsome =>
    obtain ⟨text', hsome', htext⟩ := hfits.result trial result left rest hscript
    obtain rfl := Option.some_inj.mp (hsome'.symm.trans hsome)
    have hresult := hwriting trial result left rest hscript
    constructor
    · rcases put_cases hsome htext (readFile_resultText float) n with
        ⟨_, _, hfiles⟩ | ⟨_, hfiles⟩
      · rw [hfiles]
        refine read_of_update hread fun _ hc => ?_
        injection hc with hc
        subst hc
        exact hresult
      · rw [hfiles]
        exact hread
    · intro _ _ _ _ hc
      injection hc with ht hr _ _
      subst ht hr
      exact hresult
  | summarize _ _ =>
    refine ⟨?_, fun _ _ _ _ hc => (by cases hc)⟩
    rw [readDir_update]
    exact read_of_update hread fun _ hc => (by cases hc)
  | @putSummary left text n hscript hsome =>
    obtain ⟨summary, text', hsome', htext⟩ := hfits.summary left hscript
    obtain rfl := Option.some_inj.mp (hsome'.symm.trans hsome)
    refine ⟨?_, fun _ _ _ _ hc => (by cases hc)⟩
    rcases put_cases hsome htext (readFile_summaryText float) n with
      ⟨_, _, hfiles⟩ | ⟨_, hfiles⟩
    · rw [hfiles]
      exact read_of_update hread fun _ hc => (by cases hc)
    · rw [hfiles]
      exact hread
  | _ => exact ⟨hread, fun _ _ _ _ hc => (by cases hc)⟩

/-- Files hold what the script may leave in them. -/
def Holds (float : JsonCodec ℚ) (values : SummaryValues) (files : TextsDir) : Prop :=
  ∀ name text, files name = some text → Leftover float values text

theorem Holds.update {files : TextsDir} (h : Holds float values files) (name : String)
    {text : List Char} (htext : Leftover float values text) :
    Holds float values (Function.update files name (some text)) := by
  intro other text' h'
  by_cases hname : other = name
  · subst hname
    rw [Function.update_self, Option.some_inj] at h'
    exact h' ▸ htext
  · rw [Function.update_of_ne hname] at h'
    exact h other text' h'

theorem holds_step {s s' : TextBatch} {a : TextAction} (hfits : Fits float values s)
    (h : Holds float values s.files) (hstep : TextStep manifest float values s a s') :
    Holds float values s'.files := by
  cases hstep with
  | @finish trial rest result _ _ => exact h.update _ (.inl ⟨result, List.nil_prefix⟩)
  | @put trial result left text rest n hscript hsome =>
    obtain ⟨text', hsome', htext⟩ := hfits.result trial result left rest hscript
    obtain rfl := Option.some_inj.mp (hsome'.symm.trans hsome)
    exact h.update _ (.inl ⟨result, _, put_append htext n⟩)
  | @summarize summary _ _ => exact h.update _ (.inr ⟨summary, List.nil_prefix⟩)
  | @putSummary left text n hscript hsome =>
    obtain ⟨summary, text', hsome', htext⟩ := hfits.summary left hscript
    obtain rfl := Option.some_inj.mp (hsome'.symm.trans hsome)
    exact h.update _ (.inr ⟨summary, _, put_append htext n⟩)
  | _ => exact h

theorem fits_start (texts : TextsDir) : Fits float values (TextBatch.start texts) :=
  fits_of_not_writing (fun _ _ _ _ => by simp [TextBatch.start]) fun _ => by simp [TextBatch.start]

theorem accounted_of_run {texts : TextsDir} {tr : List (TextBatch × TextAction)} {s : TextBatch}
    (hrun : Run (TextStep manifest float values) (TextBatch.start texts) tr s) :
    Fits float values s ∧ Accounted float texts tr s := by
  induction hrun with
  | nil => exact ⟨fits_start texts, fun _ _ hread => .inl hread, fun _ _ _ _ hc => (by cases hc)⟩
  | snoc _ hstep ih => exact ⟨fits_step ih.1 hstep, accounted_step ih.1 ih.2 hstep⟩

/-- What is read of a file, by what of which text is in it: all but the newline has
to be there. -/
def ReadsPart (float : JsonCodec ℚ) (values : SummaryValues) (text : List Char) : Prop :=
  (∃ result left, text ++ left = resultText float result ∧
    readFile float text = if left.length ≤ 1 then .result result else .torn) ∨
  ∃ summary left, text ++ left = values.text summary ∧
    readFile float text = if left.length ≤ 1 then .summary else .torn

theorem readsPart_of_leftover {text : List Char} (h : Leftover float values text) :
    ReadsPart float values text := by
  rcases h with ⟨result, left, hleft⟩ | ⟨summary, left, hleft⟩
  · exact .inl ⟨result, left, hleft, readFile_resultText float hleft⟩
  · exact .inr ⟨summary, left, hleft, readFile_summaryText float hleft⟩

variable (manifest float values) in
/-- What the invocations have made of the texts. -/
structure TextsRefine (texts : TextsDir) (tr : List (TextBatch × TextAction)) (s : TextBatch) :
    Prop where
  /-- What is read of the files is what a batch may come to. -/
  batch : Reachable (BatchStep manifest) (Batch.start (readDir float texts)) (s.batch float)
  /-- Each file holds a beginning of a text, and is read as that or not at all. -/
  files : ∀ name text, s.files name = some text → ReadsPart float values text
  /-- A result that is read was read at the start, or returned by its trial. -/
  results : ∀ name result, readDir float s.files name = some (.result result) →
    readDir float texts name = some (.result result) ∨
      TextAction.finish result ∈ tr.map Prod.snd ∧ result.trialId = name

/-- The texts refine the files: however much of a text has reached its file
whenever an invocation is killed, the invocations are those of `BatchStep` on what
`json.loads` makes of the files. -/
theorem texts_refine {texts : TextsDir} {tr : List (TextBatch × TextAction)} {s : TextBatch}
    (hstart : Holds float values texts)
    (hrun : Run (TextStep manifest float values) (TextBatch.start texts) tr s) :
    TextsRefine manifest float values texts tr s := by
  have hsimulates := Run.simulates (f := TextBatch.batch float) (fits_start texts)
    (fun _ _ _ hfits (_ : True) hstep => ⟨fits_step hfits hstep, textStep_refines hfits hstep⟩)
    hrun fun _ _ => trivial
  have hholds : Holds float values s.files :=
    hrun.invariant_with (Fits float values) (fun s => Holds float values s.files)
      (fits_start texts) (fun _ _ _ hfits hstep => fits_step hfits hstep) hstart
      fun _ _ _ hfits h hstep => holds_step hfits h hstep
  exact ⟨hsimulates.2, fun name text htext => readsPart_of_leftover (hholds name text htext),
    (accounted_of_run hrun).2.read⟩

end Refinement

/-! ### Two kills -/

/-- Fractions; the results below have none. -/
def fractions : JsonCodec ℚ :=
  JsonCodec.int.list.tagged (fun x => [x.num, (x.den : ℤ)])
    (fun | [n, d] => some (n / d) | _ => none) fun x => congrArg some (Rat.num_div_den x)

def noValues : SummaryValues := ⟨fun _ _ => .null, fun _ _ => .null⟩

def timedOut (trial : Trial) : TrialResult := .aborted trial.trialId "job_poll_timeout"

def timedOutText (trial : Trial) : List Char := resultText fractions (timedOut trial)

/-- The script is killed when only the newline is missing, and killed again in the
text of the next result: the first result stands, and the second file is torn. -/
theorem texts_refine_example :
    ∃ (tr : List (TextBatch × TextAction)) (s : TextBatch),
      TextsRefine firstTrials fractions noValues (fun _ => none) tr s ∧
      readDir fractions s.files cpuTrial.trialId = some (.result (timedOut cpuTrial)) ∧
      readDir fractions s.files quietTrial.trialId = some .torn := by
  have hstart : Run (TextStep firstTrials fractions noValues)
    (TextBatch.start fun _ => none) [] _ :=
    .nil
  have hfirst := ((((hstart.snoc (@TextStep.invoke _ _ _ _ false rfl)).snoc
    (@TextStep.begin _ _ _ _ cpuTrial [quietTrial] rfl rfl)).snoc
    (@TextStep.finish _ _ _ _ cpuTrial [quietTrial] (timedOut cpuTrial) rfl rfl)).snoc
    (@TextStep.put _ _ _ _ cpuTrial (timedOut cpuTrial) (timedOutText cpuTrial) [] [quietTrial]
      ((timedOutText cpuTrial).length - 1) rfl rfl)).snoc .interrupt
  have hsecond := (((((hfirst.snoc (@TextStep.invoke _ _ _ _ false rfl)).snoc
    (@TextStep.skip _ _ _ _ cpuTrial [quietTrial] rfl (Option.some_ne_none _))).snoc
    (@TextStep.begin _ _ _ _ quietTrial [] rfl rfl)).snoc
    (@TextStep.finish _ _ _ _ quietTrial [] (timedOut quietTrial) rfl rfl)).snoc
    (@TextStep.put _ _ _ _ quietTrial (timedOut quietTrial) (timedOutText quietTrial) [] []
      5 rfl rfl)).snoc .interrupt
  refine ⟨_, _, texts_refine (fun _ _ hc => (by cases hc)) hsecond, ?_, ?_⟩
  · have hread := @readFile_resultText fractions (timedOut cpuTrial) _ _
      (put_append (List.nil_append (timedOutText cpuTrial)) ((timedOutText cpuTrial).length - 1))
    rw [if_pos (by rw [List.length_drop]; omega)] at hread
    exact congrArg some hread
  · have hread := @readFile_resultText fractions (timedOut quietTrial) _ _
      (put_append (List.nil_append _) 5)
    rw [if_neg (by decide +kernel)] at hread
    exact congrArg some hread

end Eval
