/-
A batch of trials over many invocations (`_run_missing_trials`, `main`).

The script runs the trials that have no result file, one after the other, and
writes each result as soon as it has it.  It may be killed or raise anywhere and
be invoked again, with or without `--replay`, any number of times; the results
directory is all that lasts.

* `BatchStep` — a step of an invocation, its start and its end;
* `kept_step` — no step touches the result of a trial that has one;
* `torn_of_tears` — a kill between the truncation of a result file and its last
  byte leaves a file that stays;
* `resumed_iff` — apart from that a batch can be resumed: it leaves behind what
  one invocation without interruption leaves behind;
* `aborted_blocks` — a trial that was recorded as aborted is never run again,
  and no later summary supports the primary claim.
-/
import HpcTelemetry.Transitions
import HpcTelemetry.TrialSummary

namespace Eval

open Analysis.Stats Transitions

/-! ### The results directory -/

/-- What a file of `RESULTS_DIR` holds. -/
inductive ResultFile where
  /-- Too little for `json.loads`: the writing process was killed. -/
  | torn
  | result (result : TrialResult)
  /-- The content of `summary.json`. -/
  | summary

/-- The files `<name>.json`, by name. -/
abbrev ResultsDir := String → Option ResultFile

/-- `result_path.exists()`. -/
def Trial.HasFile (files : ResultsDir) (trial : Trial) : Prop := files trial.trialId ≠ none

inductive SummaryError where
  | jsonDecodeError
  /-- `r["outcome"]` of something that is no result. -/
  | keyError
  | stats (error : StatsError)

/-- `_load_results`; it stops at the first file it cannot read. -/
def loadFiles (files : ResultsDir) : List String → Except SummaryError (List TrialResult)
  | [] => .ok []
  | trialId :: trialIds =>
    match files trialId with
    | none => loadFiles files trialIds
    | some .torn => .error .jsonDecodeError
    | some .summary => .error .keyError
    | some (.result result) => (result :: ·) <$> loadFiles files trialIds

/-- The results a directory holds. -/
def resultsOf (files : ResultsDir) (trialId : String) : Option TrialResult :=
  match files trialId with
  | some (.result result) => some result
  | _ => none

def Manifest.trials (manifest : Manifest) : List Trial :=
  manifest.faultTrials ++ manifest.noFaultTrials

/-- `_summarize` on the files that exist. -/
noncomputable def summarizeFiles (manifest : Manifest) (files : ResultsDir) :
    Except SummaryError Summary := do
  let _ ← loadFiles files (manifest.faultTrials.map (·.trialId))
  let _ ← loadFiles files (manifest.noFaultTrials.map (·.trialId))
  (summarize manifest (resultsOf files)).mapError .stats

/-! ### Invocations -/

def TrialResult.trialId : TrialResult → String
  | .completed record => record.trialId
  | .aborted trialId _ => trialId

/-- Where the script stands. -/
inductive ScriptState where
  | notRunning
  /-- At the head of the loop, with these trials ahead. -/
  | looping (rest : List Trial)
  /-- In `_run_trial`. -/
  | running (trial : Trial) (rest : List Trial)
  /-- In `write_text`; the file has been truncated. -/
  | writing (trial : Trial) (result : TrialResult) (rest : List Trial)
  | summarizing
  /-- In the last `write_text`. -/
  | writingSummary

structure Batch where
  files : ResultsDir
  script : ScriptState

inductive BatchAction where
  | invoke (replay : Bool)
  | skip
  | begin
  | finish (result : TrialResult)
  | written
  | loopDone
  | summarize
  | summaryWritten
  /-- The process is killed, or an exception is not caught. -/
  | interrupt

/-- One step of an invocation. -/
inductive BatchStep (manifest : Manifest) : Batch → BatchAction → Batch → Prop where
  | invoke {s : Batch} {replay : Bool} : s.script = .notRunning →
      BatchStep manifest s (.invoke replay) { s with
        script := if replay then .summarizing else .looping manifest.trials }
  | skip {s : Batch} {trial : Trial} {rest : List Trial} : s.script = .looping (trial :: rest) →
      trial.HasFile s.files → BatchStep manifest s .skip { s with script := .looping rest }
  | begin {s : Batch} {trial : Trial} {rest : List Trial} : s.script = .looping (trial :: rest) →
      ¬ trial.HasFile s.files → BatchStep manifest s .begin { s with script := .running trial rest }
  | finish {s : Batch} {trial : Trial} {rest : List Trial} {result : TrialResult} :
      s.script = .running trial rest → result.trialId = trial.trialId →
      BatchStep manifest s (.finish result) ⟨Function.update s.files trial.trialId (some .torn),
        .writing trial result rest⟩
  | written {s : Batch} {trial : Trial} {rest : List Trial} {result : TrialResult} :
      s.script = .writing trial result rest →
      BatchStep manifest s .written
        ⟨Function.update s.files trial.trialId (some (.result result)), .looping rest⟩
  | loopDone {s : Batch} : s.script = .looping [] →
      BatchStep manifest s .loopDone { s with script := .summarizing }
  | summarize {s : Batch} {summary : Summary} : s.script = .summarizing →
      summarizeFiles manifest s.files = .ok summary →
      BatchStep manifest s .summarize
        ⟨Function.update s.files "summary" (some .torn), .writingSummary⟩
  | summaryWritten {s : Batch} : s.script = .writingSummary →
      BatchStep manifest s .summaryWritten
        ⟨Function.update s.files "summary" (some .summary), .notRunning⟩
  | interrupt {s : Batch} : BatchStep manifest s .interrupt { s with script := .notRunning }

/-- The results directory at the start. -/
def Batch.start (files : ResultsDir) : Batch := ⟨files, .notRunning⟩

/-- The interruption leaves a result file torn. -/
def Tears (s : Batch) : BatchAction → Prop
  | .interrupt => ∃ trial result rest, s.script = .writing trial result rest
  | _ => False

/-- The step belongs to the loop. -/
def InLoop : BatchAction → Prop
  | .skip | .begin | .finish _ | .written => True
  | _ => False

/-- The steps of one invocation that is not interrupted, up to the end of its
loop. -/
def LoopStep (manifest : Manifest) (s : Batch) (a : BatchAction) (s' : Batch) : Prop :=
  InLoop a ∧ BatchStep manifest s a s'

/-! ### One trial -/

/-- What `_run_trial` returns, if it has, is the result of its trial. -/
def ReturnsOwn (trial : Trial) (s : TrialRun) : Prop :=
  ∀ result, s.harness = .finished result → result.trialId = trial.trialId

theorem trialId_of_run {trial : Trial} {job : Ingest.Job} {store : Ingest.TSDBStore} {clock : ℚ}
    {tr : List (TrialRun × TrialAction)} {s : TrialRun}
    (hrun : Run (TrialStep trial job) (TrialRun.start clock job store) tr s) :
    ReturnsOwn trial s := by
  have hstart : ReturnsOwn trial (TrialRun.start clock job store) := fun _ hc => (by cases hc)
  refine hrun.invariant hstart fun s a s' h hstep => ?_
  intro result hresult
  cases hstep with
  | tick _ => exact h result hresult
  | service _ _ => exact h result hresult
  | responded _ => cases hresult
  | checkClock _ =>
    simp only at hresult
    split_ifs at hresult
    injection hresult with hresult
    rw [← hresult]
    rfl
  | @getJob deadline row _ _ =>
    simp only [Trial.onStatus] at hresult
    split at hresult
    · cases hresult
    · cases hresult
    · injection hresult with hresult
      rw [← hresult]
      rfl
  | getReport _ _ =>
    injection hresult with hresult
    rw [← hresult]
    rfl

/-! ### What an invocation relies on -/

/-- The trials an invocation has not dealt with. -/
def ScriptState.ahead : ScriptState → Option (List Trial)
  | .looping rest => some rest
  | .running trial rest | .writing trial _ rest => some (trial :: rest)
  | _ => none

/-- The trials behind have files, the one that is run has none, and the file that
is written is torn so far. -/
structure Looping (manifest : Manifest) (s : Batch) : Prop where
  behind : ∀ rest, s.script.ahead = some rest →
    ∃ done, manifest.trials = done ++ rest ∧ ∀ trial ∈ done, trial.HasFile s.files
  running : ∀ trial rest, s.script = .running trial rest → s.files trial.trialId = none
  writing : ∀ trial result rest, s.script = .writing trial result rest →
    s.files trial.trialId = some .torn ∧ result.trialId = trial.trialId

/-- The file is there, and it is not the one that is being written. -/
structure Settled (s : Batch) (name : String) (file : ResultFile) : Prop where
  present : s.files name = some file
  closed : ∀ trial result rest, s.script = .writing trial result rest → trial.trialId ≠ name

variable {manifest : Manifest}

theorem Trial.hasFile_update (files : ResultsDir) (trial : Trial) (file : ResultFile) :
    trial.HasFile (Function.update files trial.trialId (some file)) := by
  rw [Trial.HasFile, Function.update_self]
  exact Option.some_ne_none file

theorem Trial.HasFile.update {files : ResultsDir} {trial : Trial} (h : trial.HasFile files)
    (name : String) (file : ResultFile) :
    trial.HasFile (Function.update files name (some file)) := by
  by_cases hname : trial.trialId = name
  · subst hname
    exact hasFile_update files trial file
  · rw [Trial.HasFile, Function.update_of_ne hname]
    exact h

/-- Outside the loop there is nothing to rely on. -/
theorem looping_of_ahead {s : Batch} (h : s.script.ahead = none) : Looping manifest s where
  behind := fun rest hc => by
    rw [h] at hc
    cases hc
  running := fun trial rest hc => by
    rw [hc] at h
    cases h
  writing := fun trial result rest hc => by
    rw [hc] at h
    cases h

theorem looping_step {s s' : Batch} {a : BatchAction} (h : Looping manifest s)
    (hstep : BatchStep manifest s a s') : Looping manifest s' := by
  cases hstep with
  | @invoke replay _ =>
    cases replay with
    | true => exact looping_of_ahead rfl
    | false =>
      refine ⟨fun rest hc => ⟨[], ?_, fun _ ht => absurd ht List.not_mem_nil⟩,
        fun _ _ hc => (by cases hc), fun _ _ _ hc => (by cases hc)⟩
      injection hc
  | @skip trial rest hscript hfile =>
    obtain ⟨done, htrials, hdone⟩ := h.behind (trial :: rest) (by rw [hscript]; rfl)
    refine ⟨fun rest' hc => ⟨done ++ [trial], ?_, fun t ht => ?_⟩, fun _ _ hc => (by cases hc),
      fun _ _ _ hc => (by cases hc)⟩
    · injection hc with hc
      rw [htrials, ← hc, List.append_assoc]
      rfl
    · rcases List.mem_append.mp ht with ht | ht
      · exact hdone t ht
      · rw [List.mem_singleton.mp ht]
        exact hfile
  | @begin trial rest hscript hfile =>
    obtain ⟨done, htrials, hdone⟩ := h.behind (trial :: rest) (by rw [hscript]; rfl)
    refine ⟨fun rest' hc => ⟨done, ?_, hdone⟩, fun t rest' hc => ?_, fun _ _ _ hc => (by cases hc)⟩
    · injection hc with hc
      rw [htrials, ← hc]
    · injection hc with ht _
      rw [← ht]
      exact not_not.mp hfile
  | @finish trial rest result hscript hresult =>
    obtain ⟨done, htrials, hdone⟩ := h.behind (trial :: rest) (by rw [hscript]; rfl)
    refine ⟨fun rest' hc => ⟨done, ?_, fun t ht => (hdone t ht).update _ _⟩,
      fun _ _ hc => (by cases hc), fun t r rest' hc => ?_⟩
    · injection hc with hc
      rw [htrials, ← hc]
    · injection hc with ht hr _
      rw [← ht, ← hr]
      exact ⟨Function.update_self _ _ _, hresult⟩
  | @written trial rest result hscript =>
    obtain ⟨done, htrials, hdone⟩ := h.behind (trial :: rest) (by rw [hscript]; rfl)
    refine ⟨fun rest' hc => ⟨done ++ [trial], ?_, fun t ht => ?_⟩, fun _ _ hc => (by cases hc),
      fun _ _ _ hc => (by cases hc)⟩
    · injection hc with hc
      rw [htrials, ← hc, List.append_assoc]
      rfl
    · rcases List.mem_append.mp ht with ht | ht
      · exact (hdone t ht).update _ _
      · rw [List.mem_singleton.mp ht]
        exact Trial.hasFile_update _ _ _
  | loopDone _ => exact looping_of_ahead rfl
  | summarize _ _ => exact looping_of_ahead rfl
  | summaryWritten _ => exact looping_of_ahead rfl
  | interrupt => exact looping_of_ahead rfl

theorem looping_of_run {files : ResultsDir} {tr : List (Batch × BatchAction)} {s : Batch}
    (hrun : Run (BatchStep manifest) (Batch.start files) tr s) : Looping manifest s :=
  hrun.invariant (looping_of_ahead rfl) fun _ _ _ h hstep => looping_step h hstep

/-- A file that is there and closed is never touched again. -/
theorem settled_step {s s' : Batch} {a : BatchAction} {name : String} {file : ResultFile}
    (hname : name ≠ "summary") (h : Looping manifest s) (hsettled : Settled s name file)
    (hstep : BatchStep manifest s a s') : Settled s' name file := by
  cases hstep with
  | @invoke replay _ =>
    refine ⟨hsettled.present, fun _ _ _ hc => ?_⟩
    cases replay with
    | true => cases hc
    | false => cases hc
  | skip _ _ => exact ⟨hsettled.present, fun _ _ _ hc => (by cases hc)⟩
  | begin _ _ => exact ⟨hsettled.present, fun _ _ _ hc => (by cases hc)⟩
  | @finish trial rest result hscript _ =>
    have hne : trial.trialId ≠ name := by
      rintro rfl
      have hnone := h.running trial rest hscript
      rw [hsettled.present] at hnone
      cases hnone
    refine ⟨(Function.update_of_ne hne.symm _ _).trans hsettled.present, fun _ _ _ hc => ?_⟩
    injection hc with ht _ _
    rw [← ht]
    exact hne
  | @written trial rest result hscript =>
    have hne := hsettled.closed trial result rest hscript
    exact ⟨(Function.update_of_ne hne.symm _ _).trans hsettled.present,
      fun _ _ _ hc => (by cases hc)⟩
  | loopDone _ => exact ⟨hsettled.present, fun _ _ _ hc => (by cases hc)⟩
  | summarize _ _ =>
    exact ⟨(Function.update_of_ne hname _ _).trans hsettled.present, fun _ _ _ hc => (by cases hc)⟩
  | summaryWritten _ =>
    exact ⟨(Function.update_of_ne hname _ _).trans hsettled.present, fun _ _ _ hc => (by cases hc)⟩
  | interrupt => exact ⟨hsettled.present, fun _ _ _ hc => (by cases hc)⟩

theorem settled_of_run {s₀ : Batch} {tr : List (Batch × BatchAction)} {s : Batch} {name : String}
    {file : ResultFile} (hname : name ≠ "summary") (h : Looping manifest s₀)
    (hsettled : Settled s₀ name file) (hrun : Run (BatchStep manifest) s₀ tr s) :
    Settled s name file :=
  hrun.invariant_with (Looping manifest) (fun s => Settled s name file) h
    (fun _ _ _ h hstep => looping_step h hstep) hsettled
    fun _ _ _ h hs hstep => settled_step hname h hs hstep

/-! ### Torn files -/

/-- A torn file of a trial is one that is being written. -/
def Intact (manifest : Manifest) (s : Batch) : Prop :=
  ∀ trial ∈ manifest.trials, s.files trial.trialId = some .torn →
    ∃ other result rest, s.script = .writing other result rest ∧ other.trialId = trial.trialId

/-- The name of the summary is not that of a result. -/
def Manifest.NoSummary (manifest : Manifest) : Prop :=
  ∀ trial ∈ manifest.trials, trial.trialId ≠ "summary"

theorem Intact.not_torn {s : Batch} (h : Intact manifest s)
    (hclosed : ∀ other result rest, s.script ≠ .writing other result rest) {trial : Trial}
    (ht : trial ∈ manifest.trials) : s.files trial.trialId ≠ some .torn := by
  intro htorn
  obtain ⟨other, result, rest, hc, _⟩ := h trial ht htorn
  exact hclosed other result rest hc

theorem intact_step {s s' : Batch} {a : BatchAction} (hnames : manifest.NoSummary)
    (h : Intact manifest s) (hguard : ¬ Tears s a) (hstep : BatchStep manifest s a s') :
    Intact manifest s' := by
  intro t ht htorn
  cases hstep with
  | invoke hscript => exact absurd htorn (h.not_torn (by simp [hscript]) ht)
  | skip hscript _ => exact absurd htorn (h.not_torn (by simp [hscript]) ht)
  | begin hscript _ => exact absurd htorn (h.not_torn (by simp [hscript]) ht)
  | @finish trial rest result hscript _ =>
    by_cases hname : t.trialId = trial.trialId
    · exact ⟨trial, result, rest, rfl, hname.symm⟩
    · simp only [Function.update_of_ne hname] at htorn
      exact absurd htorn (h.not_torn (by simp [hscript]) ht)
  | @written trial rest result hscript =>
    by_cases hname : t.trialId = trial.trialId
    · simp only [hname, Function.update_self] at htorn
      cases htorn
    · simp only [Function.update_of_ne hname] at htorn
      obtain ⟨other, result', rest', hc, hother⟩ := h t ht htorn
      rw [hscript] at hc
      injection hc with hc _ _
      rw [hc] at hname
      exact absurd hother.symm hname
  | loopDone hscript => exact absurd htorn (h.not_torn (by simp [hscript]) ht)
  | summarize hscript _ =>
    simp only [Function.update_of_ne (hnames t ht)] at htorn
    exact absurd htorn (h.not_torn (by simp [hscript]) ht)
  | summaryWritten hscript =>
    simp only [Function.update_of_ne (hnames t ht)] at htorn
    exact absurd htorn (h.not_torn (by simp [hscript]) ht)
  | interrupt =>
    refine absurd htorn (h.not_torn (fun other result rest hc => ?_) ht)
    exact hguard ⟨other, result, rest, hc⟩

/-- What is torn stays torn: the file exists, so that its trial is skipped. -/
theorem torn_of_tears {files : ResultsDir} {tr : List (Batch × BatchAction)} {s : Batch}
    (hnames : manifest.NoSummary) (hrun : Run (BatchStep manifest) (Batch.start files) tr s)
    {q : Batch × BatchAction} (hq : q ∈ tr) (htears : Tears q.1 q.2) :
    ∃ trial ∈ manifest.trials, Settled s trial.trialId .torn := by
  obtain ⟨before, after, rfl⟩ := List.append_of_mem hq
  obtain ⟨s₁, hbefore, hstep, hafter⟩ := hrun.split
  have hlooping := looping_of_run hbefore
  obtain ⟨s₀, a⟩ := q
  cases hstep with
  | interrupt =>
    obtain ⟨trial, result, rest, hscript⟩ := htears
    obtain ⟨done, htrials, _⟩ := hlooping.behind (trial :: rest) (by rw [hscript]; rfl)
    have ht : trial ∈ manifest.trials :=
      htrials ▸ List.mem_append_right _ List.mem_cons_self
    have htorn : Settled ⟨s₀.files, .notRunning⟩ trial.trialId .torn :=
      ⟨(hlooping.writing trial result rest hscript).1, fun _ _ _ hc => (by cases hc)⟩
    exact ⟨trial, ht, settled_of_run (hnames trial ht) (looping_of_ahead rfl) htorn hafter⟩
  | _ => exact htears.elim

/-! ### Resuming -/

/-- What has become of a trial's file since the first invocation. -/
inductive Became (files files' : ResultsDir) (trial : Trial) : Prop where
  | kept (file : ResultFile) : files trial.trialId = some file →
      files' trial.trialId = some file → Became files files' trial
  | ran (result : TrialResult) : files trial.trialId = none →
      result.trialId = trial.trialId → files' trial.trialId = some (.result result) →
      Became files files' trial

/-- The file, if there is one, is torn or a result of this trial. -/
def Recorded (name : String) (s : Batch) : Prop :=
  ∀ file, s.files name = some file → file = .torn ∨
    ∃ result : TrialResult, result.trialId = name ∧ file = .result result

theorem recorded_step {s s' : Batch} {a : BatchAction} {name : String} (hname : name ≠ "summary")
    (hlooping : Looping manifest s) (h : Recorded name s) (hstep : BatchStep manifest s a s') :
    Recorded name s' := by
  intro file hfile
  cases hstep with
  | @finish trial rest result _ _ =>
    by_cases hn : name = trial.trialId
    · simp only [hn, Function.update_self, Option.some_inj] at hfile
      exact .inl hfile.symm
    · simp only [Function.update_of_ne hn] at hfile
      exact h file hfile
  | @written trial rest result hscript =>
    by_cases hn : name = trial.trialId
    · simp only [hn, Function.update_self, Option.some_inj] at hfile
      exact .inr ⟨result, hn ▸ (hlooping.writing trial result rest hscript).2, hfile.symm⟩
    · simp only [Function.update_of_ne hn] at hfile
      exact h file hfile
  | summarize _ _ =>
    simp only [Function.update_of_ne hname] at hfile
    exact h file hfile
  | summaryWritten _ =>
    simp only [Function.update_of_ne hname] at hfile
    exact h file hfile
  | _ => exact h file hfile

/-- At the end of the loop each trial has the file it had or a result. -/
theorem became_of_run {files : ResultsDir} {tr : List (Batch × BatchAction)} {s : Batch}
    (hnames : manifest.NoSummary) (hintact : Intact manifest (Batch.start files))
    (hrun : Run (BatchStep manifest) (Batch.start files) tr s) (hdone : s.script = .looping [])
    (hguard : ∀ q ∈ tr, ¬ Tears q.1 q.2) :
    ∀ trial ∈ manifest.trials, Became files s.files trial := by
  intro trial ht
  have hname := hnames trial ht
  obtain ⟨done, htrials, hfiles⟩ := (looping_of_run hrun).behind [] (by rw [hdone]; rfl)
  rw [List.append_nil] at htrials
  cases hfile : files trial.trialId with
  | some file =>
    have hsettled : Settled (Batch.start files) trial.trialId file :=
      ⟨hfile, fun _ _ _ hc => (by cases hc)⟩
    exact .kept file hfile (settled_of_run hname (looping_of_ahead rfl) hsettled hrun).present
  | none =>
    obtain ⟨file, hpresent⟩ := Option.ne_none_iff_exists'.mp (hfiles trial (htrials ▸ ht))
    have hstart : Recorded trial.trialId (Batch.start files) := fun file hc =>
      absurd (hfile.symm.trans hc) (Option.some_ne_none file).symm
    have hrecorded := hrun.invariant_with (Looping manifest) (Recorded trial.trialId)
      (looping_of_ahead rfl) (fun _ _ _ h hstep => looping_step h hstep) hstart
      fun _ _ _ h hr hstep => recorded_step hname h hr hstep
    have hwhole : Intact manifest s := hrun.invariant_of_guard (G := fun s a => ¬ Tears s a) hintact
      (fun _ _ _ h hg hstep => intact_step hnames h hg hstep) hguard
    rcases hrecorded file hpresent with rfl | ⟨result, hresult, rfl⟩
    · exact absurd hpresent (hwhole.not_torn (by simp [hdone]) ht)
    · exact .ran result hfile hresult hpresent

/-- What may have become of the files can be had from one invocation. -/
theorem exists_loop {s₀ : Batch} {final : ResultsDir} (rest : List Trial) :
    ∀ files : ResultsDir, Reachable (LoopStep manifest) s₀ ⟨files, .looping rest⟩ →
      (∀ trial ∈ rest, Became files final trial) →
      ∃ s', Reachable (LoopStep manifest) s₀ s' ∧ s'.script = .looping [] ∧
        ∀ name, final name = files name ∨ name ∈ rest.map (·.trialId) →
          s'.files name = final name := by
  induction rest with
  | nil =>
    intro files hreach _
    refine ⟨_, hreach, rfl, fun name hname => ?_⟩
    rcases hname with hname | hname
    · exact hname.symm
    · exact absurd hname List.not_mem_nil
  | cons trial rest ih =>
    intro files hreach hbecame
    rcases hbecame trial List.mem_cons_self with
      ⟨file, hfile, hfinal⟩ | ⟨result, hnone, hid, hfinal⟩
    · -- the trial has a file and is skipped
      have hpresent : trial.HasFile files := by
        rw [Trial.HasFile, hfile]
        exact Option.some_ne_none file
      have hskipped := hreach.snoc (a := BatchAction.skip) ⟨trivial, .skip rfl hpresent⟩
      obtain ⟨s', hreach', hdone, hfiles⟩ := ih files hskipped
        fun t ht => hbecame t (List.mem_cons_of_mem _ ht)
      refine ⟨s', hreach', hdone, fun name hname => hfiles name ?_⟩
      rcases hname with hname | hname
      · exact .inl hname
      · rcases List.mem_cons.mp hname with rfl | hname
        · exact .inl (hfinal.trans hfile.symm)
        · exact .inr hname
    · -- the trial is run, with this result
      have habsent : ¬ trial.HasFile files := fun hc => hc hnone
      have hbegun := hreach.snoc (a := BatchAction.begin) ⟨trivial, .begin rfl habsent⟩
      have hfinished := hbegun.snoc (a := BatchAction.finish result) ⟨trivial, .finish rfl hid⟩
      have hwritten := hfinished.snoc (a := BatchAction.written) ⟨trivial, .written rfl⟩
      simp only [Function.update_idem] at hwritten
      have hbecame' : ∀ t ∈ rest, Became
          (Function.update files trial.trialId (some (.result result))) final t := by
        intro t ht
        by_cases hname : t.trialId = trial.trialId
        · exact .kept (.result result) (by rw [hname, Function.update_self]) (hname ▸ hfinal)
        · rcases hbecame t (List.mem_cons_of_mem _ ht) with ⟨file, hfile, hkept⟩ | ⟨r, hn, hr, hf⟩
          · exact .kept file ((Function.update_of_ne hname _ _).trans hfile) hkept
          · exact .ran r ((Function.update_of_ne hname _ _).trans hn) hr hf
      obtain ⟨s', hreach', hdone, hfiles⟩ := ih _ hwritten hbecame'
      refine ⟨s', hreach', hdone, fun name hname => hfiles name ?_⟩
      by_cases hsame : name = trial.trialId
      · subst hsame
        rw [Function.update_self]
        exact .inl hfinal
      · rcases hname with hname | hname
        · exact .inl (hname.trans (Function.update_of_ne hsame _ _).symm)
        · exact .inr ((List.mem_cons.mp hname).resolve_left hsame)

/-- A batch can be resumed, except after a kill that leaves a result file torn:
what any number of invocations, interrupted anywhere, leave behind of the trials
is what one invocation without interruption can leave behind. -/
theorem resumed_iff {files : ResultsDir} {tr : List (Batch × BatchAction)} {s : Batch}
    (hnames : manifest.NoSummary)
    (hintact : ∀ trial ∈ manifest.trials, files trial.trialId ≠ some .torn)
    (hrun : Run (BatchStep manifest) (Batch.start files) tr s) (hdone : s.script = .looping []) :
    (∃ s', Reachable (LoopStep manifest) ⟨files, .looping manifest.trials⟩ s' ∧
      s'.script = .looping [] ∧
      ∀ trial ∈ manifest.trials, s'.files trial.trialId = s.files trial.trialId) ↔
    ∀ q ∈ tr, ¬ Tears q.1 q.2 := by
  constructor
  · rintro ⟨s', hreach, hdone', hsame⟩ q hq htears
    obtain ⟨trial, ht, hsettled⟩ := torn_of_tears hnames hrun hq htears
    have hstart : Intact manifest ⟨files, .looping manifest.trials⟩ := fun t ht hc =>
      absurd hc (hintact t ht)
    have hwhole : Intact manifest s' := hreach.invariant _ hstart fun s a s' h hstep =>
      intact_step hnames h (fun hc => by
        cases a with
        | interrupt => exact hstep.1
        | _ => exact hc) hstep.2
    exact hwhole.not_torn (by simp [hdone']) ht ((hsame trial ht).trans hsettled.present)
  · intro hguard
    have hstart : Intact manifest (Batch.start files) := fun t ht hc => absurd hc (hintact t ht)
    obtain ⟨s', hreach, hdone', hfiles⟩ := exists_loop manifest.trials files .refl
      (became_of_run hnames hstart hrun hdone hguard)
    exact ⟨s', hreach, hdone', fun trial ht => hfiles _ (.inr (List.mem_map_of_mem ht))⟩

/-! ### A batch that is killed once -/

def cpuTrial : Trial :=
  ⟨"cpu_contention-0000", 2000000, 0, some ⟨"cpu_contention", "workload-1", 2⟩⟩

def quietTrial : Trial := ⟨"no-fault-0000", 2000000, 0, none⟩

theorem noSummary_firstTrials : firstTrials.NoSummary := by
  intro trial ht
  rcases List.mem_append.mp ht with ht | ht
  · rw [List.mem_singleton.mp ht]
    decide
  · rw [List.mem_singleton.mp ht]
    decide

/-- The script is killed in its first trial and invoked again; then the trial
aborts. -/
theorem exists_run_aborted : ∃ tr,
    Run (BatchStep firstTrials) (Batch.start fun _ => none) tr
      ⟨Function.update (fun _ => none) "cpu_contention-0000"
        (some (.result (.aborted "cpu_contention-0000" "job_poll_timeout"))),
        .looping [quietTrial]⟩ ∧
      ∀ q ∈ tr, ¬ Tears q.1 q.2 := by
  have hstart : Run (BatchStep firstTrials) (Batch.start fun _ => none) [] _ := .nil
  have hkilled := ((hstart.snoc (@BatchStep.invoke _ _ false rfl)).snoc
    (@BatchStep.begin _ _ cpuTrial [quietTrial] rfl (fun hc => hc rfl))).snoc
    .interrupt
  have hfinished := ((hkilled.snoc (@BatchStep.invoke _ _ false rfl)).snoc
    (@BatchStep.begin _ _ cpuTrial [quietTrial] rfl (fun hc => hc rfl))).snoc
    (@BatchStep.finish _ _ cpuTrial [quietTrial]
      (.aborted "cpu_contention-0000" "job_poll_timeout") rfl rfl)
  have hwritten := hfinished.snoc (@BatchStep.written _ _ cpuTrial [quietTrial]
    (.aborted "cpu_contention-0000" "job_poll_timeout") rfl)
  simp only [Function.update_idem] at hwritten
  exact ⟨_, hwritten, by simp [Tears]⟩

theorem resumed_iff_example : ∃ tr s, Run (BatchStep firstTrials) (Batch.start fun _ => none) tr s ∧
    ∃ s', Reachable (LoopStep firstTrials) ⟨fun _ => none, .looping firstTrials.trials⟩ s' ∧
      s'.script = .looping [] ∧
      ∀ trial ∈ firstTrials.trials, s'.files trial.trialId = s.files trial.trialId := by
  obtain ⟨tr, hrun, hguard⟩ := exists_run_aborted
  have habsent : ¬ quietTrial.HasFile (Function.update (fun _ => none) "cpu_contention-0000"
      (some (.result (.aborted "cpu_contention-0000" "job_poll_timeout")))) := fun hc => hc rfl
  have hfinished := (hrun.snoc (@BatchStep.begin _ _ quietTrial [] rfl habsent)).snoc
    (@BatchStep.finish _ _ quietTrial [] (.aborted "no-fault-0000" "job_poll_timeout") rfl rfl)
  have hdone := hfinished.snoc (@BatchStep.written _ _ quietTrial []
    (.aborted "no-fault-0000" "job_poll_timeout") rfl)
  refine ⟨_, _, hdone, (resumed_iff noSummary_firstTrials (fun _ _ hc => (by cases hc)) hdone
    rfl).mpr fun q hq => ?_⟩
  simp only [List.append_assoc, List.mem_append, List.mem_singleton] at hq
  rcases hq with hq | rfl | rfl | rfl
  · exact hguard q hq
  all_goals exact fun hc => hc

/-! ### Aborted trials -/

theorem bind_eq_ok {ε α β : Type} {x : Except ε α} {f : α → Except ε β} {b : β}
    (h : (x >>= f) = .ok b) : ∃ a, x = .ok a ∧ f a = .ok b := by
  cases x with
  | error e => cases h
  | ok a => exact ⟨a, rfl, h⟩

theorem summarizeFiles_ok {files : ResultsDir} {summary : Summary}
    (h : summarizeFiles manifest files = .ok summary) :
    summarize manifest (resultsOf files) = .ok summary := by
  obtain ⟨_, _, h⟩ := bind_eq_ok h
  obtain ⟨_, _, h⟩ := bind_eq_ok h
  cases hsummary : summarize manifest (resultsOf files) with
  | error e =>
    rw [hsummary] at h
    cases h
  | ok summary' =>
    rw [hsummary] at h
    cases h
    rfl

/-- The first estimand, and what the primary claim needs of it. -/
theorem estimand1_of_summarize {results : String → Option TrialResult} {summary : Summary}
    (h : summarize manifest results = .ok summary) :
    Decision.decide (detections (manifest.faultResults results))
        (completedTrials (manifest.faultResults results)).length
        (manifest.faultTrials.map (·.trialId)).length false detectionLowerBoundThreshold
        = .ok summary.estimand1Top1DetectionRate ∧
      (summary.primaryClaimSupported = true →
        summary.estimand1Top1DetectionRate.decision = .pass) := by
  obtain ⟨estimand1, hestimand1, h⟩ := bind_eq_ok h
  obtain ⟨_, _, h⟩ := bind_eq_ok h
  obtain ⟨_, _, h⟩ := bind_eq_ok h
  obtain ⟨_, _, h⟩ := bind_eq_ok h
  obtain ⟨_, _, h⟩ := bind_eq_ok h
  obtain ⟨_, _, h⟩ := bind_eq_ok h
  obtain ⟨_, _, h⟩ := bind_eq_ok h
  cases h
  exact ⟨hestimand1, fun hsupported => (of_decide_eq_true hsupported).1⟩

/-- A trial without a completed result is missing from the first estimand. -/
theorem length_completedTrials_lt {results : String → Option TrialResult} {trial : Trial}
    (ht : trial ∈ manifest.faultTrials)
    (hresult : ∀ record, results trial.trialId ≠ some (.completed record)) :
    (completedTrials (manifest.faultResults results)).length
      < (manifest.faultTrials.map (·.trialId)).length := by
  rw [completedTrials, Manifest.faultResults, loadResults, List.filterMap_filterMap,
    List.length_filterMap_lt_length_iff_exists]
  refine ⟨trial.trialId, List.mem_map_of_mem ht, ?_⟩
  cases hr : results trial.trialId with
  | none => rfl
  | some result =>
    cases result with
    | completed record => exact absurd hr (hresult record)
    | aborted _ _ => rfl

/-- An aborted trial is final: whatever invocations follow, it is not run again,
its file stays, and every summary finds too little evidence. -/
theorem aborted_blocks {files : ResultsDir} {tr : List (Batch × BatchAction)} {s : Batch}
    (hnames : manifest.NoSummary) (hrun : Run (BatchStep manifest) (Batch.start files) tr s)
    {q : Batch × BatchAction} (hq : q ∈ tr) {trial : Trial} (ht : trial ∈ manifest.faultTrials)
    {trialId reason : String}
    (haborted : q.1.files trial.trialId = some (.result (.aborted trialId reason))) :
    s.files trial.trialId = some (.result (.aborted trialId reason)) ∧
      (∀ other rest, s.script = .running other rest → other.trialId ≠ trial.trialId) ∧
      ∀ summary, summarizeFiles manifest s.files = .ok summary →
        summary.estimand1Top1DetectionRate.decision = .insufficientEvidence ∧
          summary.primaryClaimSupported = false := by
  have hname := hnames trial (List.mem_append_left _ ht)
  obtain ⟨before, after, rfl⟩ := List.append_of_mem hq
  obtain ⟨s₁, hbefore, hstep, hafter⟩ := hrun.split
  have hlooping := looping_of_run hbefore
  have hclosed : ∀ other result rest, q.1.script = .writing other result rest →
      other.trialId ≠ trial.trialId := by
    intro other result rest hscript hc
    have htorn := (hlooping.writing other result rest hscript).1
    rw [hc, haborted] at htorn
    cases htorn
  have hsettled := settled_of_run hname (looping_step hlooping hstep)
    (settled_step hname hlooping ⟨haborted, hclosed⟩ hstep) hafter
  refine ⟨hsettled.present, fun other rest hscript hc => ?_, fun summary hsummary => ?_⟩
  · have hnone := (looping_of_run hrun).running other rest hscript
    rw [hc, hsettled.present] at hnone
    cases hnone
  · obtain ⟨hdecide, hprimary⟩ := estimand1_of_summarize (summarizeFiles_ok hsummary)
    have hfew : (completedTrials (manifest.faultResults (resultsOf s.files))).length
        < (manifest.faultTrials.map (·.trialId)).length :=
      length_completedTrials_lt ht fun record hc => by simp [resultsOf, hsettled.present] at hc
    rw [Decision.decide, if_pos (by exact_mod_cast hfew)] at hdecide
    have hdecision : summary.estimand1Top1DetectionRate.decision = .insufficientEvidence := by
      injection hdecide with hdecide
      rw [← hdecide]
    refine ⟨hdecision, Bool.eq_false_iff.mpr fun hsupported => ?_⟩
    rw [hprimary hsupported] at hdecision
    cases hdecision

theorem aborted_blocks_example : ∃ s : Batch, s.script = .notRunning ∧
    s.files cpuTrial.trialId
      = some (.result (.aborted "cpu_contention-0000" "job_poll_timeout")) := by
  obtain ⟨tr, hrun, _⟩ := exists_run_aborted
  have hkilled := hrun.snoc .interrupt
  exact ⟨_, rfl, (aborted_blocks noSummary_firstTrials hkilled
    (List.mem_append_right _ (List.mem_singleton_self _)) (List.mem_singleton_self cpuTrial)
    rfl).1⟩

end Eval
