/-
The workload runner (`workloadrunner/runner.py`, `faults.py`, `reporter.py`).

Each `POST /start_phase` runs its phase in a thread of its own: `apply_fault`
starts the workers of the fault, the sieve runs, and on the way out the workers
are told to stop.  Then the phase is reported over a connection of its own.
Several phases can be under way at once, and any library call can raise.

* `applyFault` — the workers a fault asks for, or the `ValueError`;
* `PhaseMove`, `RunnerStep` — one step of one of the phases;
* `Manned`, `manned_step` — the workers of a phase that is under way;
* `confined_iff` — the runs in which the workers of a phase that is over have all
  been told to stop.
-/
import HpcTelemetry.Transitions
import HpcTelemetry.Wire

namespace Workload

open Transitions

/-! ### Requests -/

/-- `Config`. -/
structure Config where
  nodeId : String := "node-unknown"
  ingestHost : String := "127.0.0.1"
  ingestTcpPort : ℤ := 7070
  httpPort : ℤ := 9090
  defaultSieveLimit : ℤ := 500000
  deriving DecidableEq

/-- `FaultManifest`; a `FaultSpec` has the same fields. -/
structure FaultManifest where
  faultType : String
  intensity : ℤ := 2
  deriving DecidableEq

structure StartPhaseRequest where
  jobId : String
  phaseIndex : ℤ
  sieveLimit : Option ℤ := none
  fault : Option FaultManifest := none
  deriving DecidableEq

/-- `request.sieve_limit or _config.default_sieve_limit`: a zero counts as no
limit. -/
def sieveLimit (config : Config) (request : StartPhaseRequest) : ℤ :=
  match request.sieveLimit with
  | none => config.defaultSieveLimit
  | some limit => if limit = 0 then config.defaultSieveLimit else limit

/-! ### Faults -/

inductive FaultKind where
  | cpuContention
  | ioStall
  deriving DecidableEq

/-- The workers a fault starts: processes or threads. -/
structure Fault where
  kind : FaultKind
  workers : ℕ
  deriving DecidableEq

/-- `_cpu_contention`. -/
def cpuContention (intensity : ℤ) : Fault := ⟨.cpuContention, (max 1 intensity).toNat⟩

/-- `_io_stall`. -/
def ioStall (intensity : ℤ) : Fault := ⟨.ioStall, (max 1 intensity).toNat⟩

/-- `apply_fault`: the fault it enters, if any, or the text of its `ValueError`. -/
def applyFault : Option FaultManifest → Except String (Option Fault)
  | none => .ok none
  | some manifest =>
    if manifest.faultType = "cpu_contention" then .ok (some (cpuContention manifest.intensity))
    else if manifest.faultType = "io_stall" then .ok (some (ioStall manifest.intensity))
    else .error ("unknown fault_type: " ++ manifest.faultType)

/-- The workers the phase has while it works. -/
def workersOf (manifest : Option FaultManifest) : ℕ :=
  match applyFault manifest with
  | .ok (some fault) => fault.workers
  | _ => 0

/-! ### A phase -/

inductive PhaseStatus where
  | ok
  | error
  deriving DecidableEq

def PhaseStatus.text : PhaseStatus → String
  | .ok => "ok"
  | .error => "error"

/-- Where a `start_phase` stands. -/
inductive Stage where
  /-- In `apply_fault`, with some of the workers started. -/
  | entering (started : ℕ)
  /-- In `run_prime_sieve`. -/
  | working
  /-- In the `finally` of the fault. -/
  | leaving (raised : Bool)
  /-- `asyncio.to_thread` has returned or raised. -/
  | left (status : PhaseStatus)
  /-- The end has been clocked, and the report is to be sent. -/
  | reporting (status : PhaseStatus) (endTsNs endMonoNs : ℤ)
  | reported (status : PhaseStatus) (endTsNs endMonoNs : ℤ)
  /-- An exception has left `report_phase_event`. -/
  | failed
  deriving DecidableEq

structure PhaseRun where
  request : StartPhaseRequest
  sieveLimit : ℤ
  startTsNs : ℤ
  startMonoNs : ℤ
  stage : Stage
  deriving DecidableEq

/-- The event `report_phase_event` builds; `none` is the `ValueError` of a
`phase_index` that is no `uint32`. -/
def reportPhaseEvent (jobId nodeId : String) (phaseIndex phaseStartTsNs phaseStartMonoNs
    phaseEndTsNs phaseEndMonoNs : ℤ) (status : String) : Option Wire.PhaseEvent :=
  if 0 ≤ phaseIndex ∧ phaseIndex < 2 ^ 32 then
    some ⟨jobId, nodeId, phaseIndex.toNat, phaseStartTsNs, phaseStartMonoNs, phaseEndTsNs,
      phaseEndMonoNs, status⟩
  else none

/-- The report of a phase whose end has been clocked. -/
def PhaseRun.phaseEvent (config : Config) (p : PhaseRun) : Option Wire.PhaseEvent :=
  match p.stage with
  | .reporting status endTsNs endMonoNs | .reported status endTsNs endMonoNs =>
    reportPhaseEvent p.request.jobId config.nodeId p.request.phaseIndex p.startTsNs p.startMonoNs
      endTsNs endMonoNs status.text
  | _ => none

structure StartPhaseResponse where
  nodeId : String
  jobId : String
  phaseIndex : ℤ
  status : String
  phaseStartTsNs : ℤ
  phaseEndTsNs : ℤ
  durationMs : ℚ
  deriving DecidableEq

/-- What `start_phase` returns once the phase has been reported. -/
def PhaseRun.response (config : Config) (p : PhaseRun) : Option StartPhaseResponse :=
  match p.stage with
  | .reported status endTsNs endMonoNs =>
    some ⟨config.nodeId, p.request.jobId, p.request.phaseIndex, status.text, p.startTsNs, endTsNs,
      ((endMonoNs - p.startMonoNs : ℤ) : ℚ) / 1000000⟩
  | _ => none

inductive PhaseAction where
  /-- `worker.start()`. -/
  | startWorker
  /-- The manager or a `start()` raises, before the `try`. -/
  | startRaises
  /-- `apply_fault` yields. -/
  | yields
  | unknownFault
  /-- The sieve returns or raises. -/
  | worked (raised : Bool)
  /-- The flag is set, and the workers are joined. -/
  | stop
  /-- Setting the flag raises: it is kept by the manager process. -/
  | stopRaises
  /-- A `join`, a `terminate` or the manager's `shutdown` raises: the flag is set. -/
  | joinRaises
  | clock (endTsNs endMonoNs : ℤ)
  | report
  | reportRaises
  deriving DecidableEq

section Steps

variable (config : Config)

/-- One step of a phase. -/
inductive PhaseMove : PhaseRun → PhaseAction → PhaseRun → Prop where
  | startWorker {p : PhaseRun} {k : ℕ} : p.stage = .entering k → k < workersOf p.request.fault →
      PhaseMove p .startWorker { p with stage := .entering (k + 1) }
  | startRaises {p : PhaseRun} {k : ℕ} : p.stage = .entering k → k < workersOf p.request.fault →
      PhaseMove p .startRaises { p with stage := .left .error }
  | yields {p : PhaseRun} {fault : Option Fault} : applyFault p.request.fault = .ok fault →
      p.stage = .entering (workersOf p.request.fault) →
      PhaseMove p .yields { p with stage := .working }
  | unknownFault {p : PhaseRun} {text : String} : applyFault p.request.fault = .error text →
      p.stage = .entering 0 → PhaseMove p .unknownFault { p with stage := .left .error }
  | worked {p : PhaseRun} {raised : Bool} : p.stage = .working →
      PhaseMove p (.worked raised) { p with stage := .leaving raised }
  | stop {p : PhaseRun} {raised : Bool} : p.stage = .leaving raised →
      PhaseMove p .stop { p with stage := .left (if raised then .error else .ok) }
  | stopRaises {p : PhaseRun} {raised : Bool} {fault : Fault} : p.stage = .leaving raised →
      applyFault p.request.fault = .ok (some fault) → fault.kind = .cpuContention →
      PhaseMove p .stopRaises { p with stage := .left .error }
  | joinRaises {p : PhaseRun} {raised : Bool} {fault : Fault} : p.stage = .leaving raised →
      applyFault p.request.fault = .ok (some fault) →
      PhaseMove p .joinRaises { p with stage := .left .error }
  | clock {p : PhaseRun} {status : PhaseStatus} {endTsNs endMonoNs : ℤ} :
      p.stage = .left status →
      PhaseMove p (.clock endTsNs endMonoNs) { p with stage := .reporting status endTsNs endMonoNs }
  | report {p : PhaseRun} {status : PhaseStatus} {endTsNs endMonoNs : ℤ} :
      p.stage = .reporting status endTsNs endMonoNs → (p.phaseEvent config).isSome →
      PhaseMove p .report { p with stage := .reported status endTsNs endMonoNs }
  | reportRaises {p : PhaseRun} {status : PhaseStatus} {endTsNs endMonoNs : ℤ} :
      p.stage = .reporting status endTsNs endMonoNs →
      PhaseMove p .reportRaises { p with stage := .failed }

/-! ### The runner -/

/-- A process or thread of a fault, by the phase it belongs to, and whether the
flag it looks at has been set. -/
structure Worker where
  owner : ℕ
  told : Bool
  deriving DecidableEq

/-- The phases a runner has been asked for, in order, and the workers they have
started. -/
structure Runner where
  phases : List PhaseRun
  workers : List Worker
  deriving DecidableEq

def Runner.start : Runner := ⟨[], []⟩

/-- What a step of the `i`-th phase does to the workers. -/
def workersAfter (i : ℕ) (a : PhaseAction) (workers : List Worker) : List Worker :=
  match a with
  | .startWorker => workers ++ [⟨i, false⟩]
  | .stop | .joinRaises => workers.map fun w => if w.owner = i then { w with told := true } else w
  | _ => workers

/-- A request arrives, and its start is clocked. -/
def Runner.accept (r : Runner) (request : StartPhaseRequest) (startTsNs startMonoNs : ℤ) :
    Runner :=
  { r with phases := r.phases ++
      [⟨request, sieveLimit config request, startTsNs, startMonoNs, .entering 0⟩] }

inductive RunnerAction where
  | request (request : StartPhaseRequest) (startTsNs startMonoNs : ℤ)
  | phase (i : ℕ) (a : PhaseAction)

inductive RunnerStep : Runner → RunnerAction → Runner → Prop where
  | request {r : Runner} {request : StartPhaseRequest} {startTsNs startMonoNs : ℤ} :
      RunnerStep r (.request request startTsNs startMonoNs)
        (r.accept config request startTsNs startMonoNs)
  | phase {r : Runner} {i : ℕ} {p p' : PhaseRun} {a : PhaseAction} : r.phases[i]? = some p →
      PhaseMove config p a p' →
      RunnerStep r (.phase i a) ⟨r.phases.set i p', workersAfter i a r.workers⟩

variable {config}

/-! ### The workers of a phase -/

/-- The workers of the `i`-th phase that have not been told to stop. -/
def untold (workers : List Worker) (i : ℕ) : ℕ :=
  workers.countP fun w => w.owner = i ∧ w.told = false

@[simp] theorem untold_nil (i : ℕ) : untold [] i = 0 := rfl

@[simp] theorem untold_start (workers : List Worker) (j i : ℕ) :
    untold (workers ++ [⟨j, false⟩]) i = untold workers i + if j = i then 1 else 0 := by
  rw [untold, List.countP_append, List.countP_singleton]
  simp [untold]

/-- Telling the workers of one phase leaves those of the others alone. -/
@[simp] theorem untold_tell (workers : List Worker) (j i : ℕ) :
    untold (workers.map fun w => if w.owner = j then { w with told := true } else w) i
      = if j = i then 0 else untold workers i := by
  rw [untold, List.countP_map]
  by_cases hji : j = i
  · rw [if_pos hji, List.countP_eq_zero]
    intro w _
    by_cases hw : w.owner = j
    · simp [hw]
    · simp [hw, ← hji]
  · rw [if_neg hji, untold]
    refine List.countP_congr fun w _ => ?_
    by_cases hw : w.owner = j
    · simp [hw, hji]
    · simp [hw]

theorem untold_eq_zero {workers : List Worker} {i : ℕ} :
    untold workers i = 0 ↔ ∀ w ∈ workers, w.owner = i → w.told = true := by
  rw [untold, List.countP_eq_zero]
  simp

/-- The phase is inside its `with` statement. -/
def PhaseRun.Inside (p : PhaseRun) : Prop :=
  match p.stage with
  | .entering _ | .working | .leaving _ => True
  | _ => False

/-- The workers a phase inside its `with` statement has started. -/
def PhaseRun.started (p : PhaseRun) : ℕ :=
  match p.stage with
  | .entering k => k
  | _ => workersOf p.request.fault

/-- In every run the phases under way have the workers they have started, and
workers belong to phases. -/
structure Manned (r : Runner) : Prop where
  inside : ∀ i p, r.phases[i]? = some p → p.Inside → untold r.workers i = p.started
  limited : ∀ (i : ℕ) (p : PhaseRun), r.phases[i]? = some p → p.started ≤ workersOf p.request.fault
  owned : ∀ i, r.phases.length ≤ i → untold r.workers i = 0

/-- The step leaves workers behind that nobody will tell to stop: a `start()`
raises after another one has succeeded, or setting the flag raises. -/
def Strands (r : Runner) : RunnerAction → Prop
  | .phase i .startRaises => ∃ p, r.phases[i]? = some p ∧ p.started ≠ 0
  | .phase _ .stopRaises => True
  | _ => False

theorem manned_start : Manned .start where
  inside := fun i p hp => by cases hp
  limited := fun i p hp => by cases hp
  owned := fun _ _ => rfl

/-- A fault that is entered has workers. -/
theorem workersOf_pos {manifest : Option FaultManifest} {fault : Fault}
    (h : applyFault manifest = .ok (some fault)) : 0 < workersOf manifest := by
  rw [workersOf, h]
  show 0 < fault.workers
  cases manifest with
  | none => cases h
  | some manifest =>
    rw [applyFault] at h
    split_ifs at h
    · obtain rfl : cpuContention manifest.intensity = fault := by simpa using h
      show 0 < (max 1 manifest.intensity).toNat
      omega
    · obtain rfl : ioStall manifest.intensity = fault := by simpa using h
      show 0 < (max 1 manifest.intensity).toNat
      omega

/-- Steps of one phase leave the workers of the others alone. -/
theorem untold_workersAfter_of_ne {i j : ℕ} (hne : i ≠ j) (a : PhaseAction)
    (workers : List Worker) : untold (workersAfter i a workers) j = untold workers j := by
  cases a with
  | startWorker => simp [workersAfter, hne]
  | stop => simp [workersAfter, hne]
  | joinRaises => simp [workersAfter, hne]
  | _ => rfl

/-- What the steps inside the `with` statement do. -/
theorem PhaseMove.inside {p p' : PhaseRun} {a : PhaseAction} (h : PhaseMove config p a p')
    (hin : p'.Inside) (i : ℕ) (workers : List Worker) :
    p.Inside ∧ untold (workersAfter i a workers) i + p.started
      = untold workers i + p'.started := by
  cases h with
  | startWorker hstage _ =>
    refine ⟨by simp [PhaseRun.Inside, hstage], ?_⟩
    simp [workersAfter, PhaseRun.started, hstage]
    omega
  | yields _ hstage => exact ⟨by simp [PhaseRun.Inside, hstage], by
      simp [workersAfter, PhaseRun.started, hstage]⟩
  | worked hstage => exact ⟨by simp [PhaseRun.Inside, hstage], by
      simp [workersAfter, PhaseRun.started, hstage]⟩
  | startRaises _ _ => exact hin.elim
  | unknownFault _ _ => exact hin.elim
  | stop _ => exact hin.elim
  | stopRaises _ _ _ => exact hin.elim
  | joinRaises _ _ => exact hin.elim
  | clock _ => exact hin.elim
  | report _ _ => exact hin.elim
  | reportRaises _ => exact hin.elim

/-- No more workers are started than the fault asks for. -/
theorem PhaseMove.limited {p p' : PhaseRun} {a : PhaseAction} (h : PhaseMove config p a p') :
    p'.started ≤ workersOf p'.request.fault := by
  cases h with
  | startWorker _ hlt => exact hlt
  | _ => exact le_rfl

/-- Behind the `with` statement there is no way back, and the workers are left
alone. -/
theorem PhaseMove.outside {p p' : PhaseRun} {a : PhaseAction} (h : PhaseMove config p a p')
    (hout : ¬ p.Inside) (i : ℕ) (workers : List Worker) :
    ¬ p'.Inside ∧ workersAfter i a workers = workers := by
  cases h with
  | startWorker hstage _ => exact absurd (by simp [PhaseRun.Inside, hstage]) hout
  | startRaises hstage _ => exact absurd (by simp [PhaseRun.Inside, hstage]) hout
  | yields _ hstage => exact absurd (by simp [PhaseRun.Inside, hstage]) hout
  | unknownFault _ hstage => exact absurd (by simp [PhaseRun.Inside, hstage]) hout
  | worked hstage => exact absurd (by simp [PhaseRun.Inside, hstage]) hout
  | stop hstage => exact absurd (by simp [PhaseRun.Inside, hstage]) hout
  | stopRaises hstage _ _ => exact absurd (by simp [PhaseRun.Inside, hstage]) hout
  | joinRaises hstage _ => exact absurd (by simp [PhaseRun.Inside, hstage]) hout
  | clock _ => exact ⟨fun hin => hin, rfl⟩
  | report _ _ => exact ⟨fun hin => hin, rfl⟩
  | reportRaises _ => exact ⟨fun hin => hin, rfl⟩

/-- The steps that leave the `with` statement. -/
theorem PhaseMove.leaves {p p' : PhaseRun} {a : PhaseAction} (h : PhaseMove config p a p')
    (hin : p.Inside) (hout : ¬ p'.Inside) (i : ℕ) (workers : List Worker) :
    untold (workersAfter i a workers) i = 0 ∨
      workersAfter i a workers = workers ∧
        (a = .startRaises ∨ a = .unknownFault ∧ p.started = 0
          ∨ a = .stopRaises ∧ p.started ≠ 0) := by
  cases h with
  | startWorker _ _ => exact absurd trivial hout
  | yields _ _ => exact absurd trivial hout
  | worked _ => exact absurd trivial hout
  | stop _ => exact .inl (by simp [workersAfter])
  | joinRaises _ _ => exact .inl (by simp [workersAfter])
  | startRaises _ _ => exact .inr ⟨rfl, .inl rfl⟩
  | unknownFault _ hstage => exact .inr ⟨rfl, .inr (.inl ⟨rfl, by simp [PhaseRun.started, hstage]⟩)⟩
  | stopRaises hstage hfault _ =>
    have hpos := workersOf_pos hfault
    refine .inr ⟨rfl, .inr (.inr ⟨rfl, ?_⟩)⟩
    simp only [PhaseRun.started, hstage]
    omega
  | clock hstage => simp [PhaseRun.Inside, hstage] at hin
  | report hstage _ => simp [PhaseRun.Inside, hstage] at hin
  | reportRaises hstage => simp [PhaseRun.Inside, hstage] at hin

/-- A phase after a step of the runner is the new one, or was there before and
has taken the step or not. -/
theorem getElem?_step {r r' : Runner} {a : RunnerAction} (h : RunnerStep config r a r') {j : ℕ}
    {p' : PhaseRun} (hp' : r'.phases[j]? = some p') :
    (j = r.phases.length ∧ p'.stage = .entering 0 ∧ r'.workers = r.workers) ∨
      (r.phases[j]? = some p' ∧ untold r'.workers j = untold r.workers j) ∨
      ∃ p b, r.phases[j]? = some p ∧ a = .phase j b ∧ PhaseMove config p b p' ∧
        r'.workers = workersAfter j b r.workers := by
  cases h with
  | request =>
    rw [Runner.accept, List.getElem?_append] at hp'
    split_ifs at hp' with hlt
    · exact .inr (.inl ⟨hp', rfl⟩)
    · rw [List.getElem?_singleton] at hp'
      split_ifs at hp' with hj
      injection hp' with hp'
      exact .inl ⟨by omega, by rw [← hp'], rfl⟩
  | @phase i p q b hp hmove =>
    rw [List.getElem?_set] at hp'
    split_ifs at hp' with hij hlt
    · subst hij
      injection hp' with hp'
      subst hp'
      exact .inr (.inr ⟨p, b, hp, rfl, hmove, rfl⟩)
    · exact .inr (.inl ⟨hp', untold_workersAfter_of_ne hij b r.workers⟩)

theorem manned_step {r r' : Runner} {a : RunnerAction} (h : Manned r)
    (hstep : RunnerStep config r a r') : Manned r' := by
  constructor
  case inside =>
    intro j p' hp' hin
    rcases getElem?_step hstep hp' with ⟨hj, hstage, hw⟩ | ⟨hp, hw⟩ | ⟨p, b, hp, _, hmove, hw⟩
    · rw [hw, h.owned j hj.ge]
      simp [PhaseRun.started, hstage]
    · rw [hw]
      exact h.inside j p' hp hin
    · obtain ⟨hin', hcount⟩ := hmove.inside hin j r.workers
      have hstarted := h.inside j p hp hin'
      rw [hw]
      omega
  case limited =>
    intro j p' hp'
    rcases getElem?_step hstep hp' with ⟨_, hstage, _⟩ | ⟨hp, _⟩ | ⟨_, _, _, _, hmove, _⟩
    · rw [PhaseRun.started, hstage]
      exact Nat.zero_le _
    · exact h.limited j p' hp
    · exact hmove.limited
  case owned =>
    intro j hj
    cases hstep with
    | request =>
      rw [Runner.accept, List.length_append] at hj
      exact h.owned j (by omega)
    | @phase i p q b hp hmove =>
      rw [List.length_set] at hj
      have hlt := (List.getElem?_eq_some_iff.mp hp).1
      rw [untold_workersAfter_of_ne (by omega)]
      exact h.owned j hj

/-! ### Behind the phase -/

/-- Each phase under way has the workers it has started, no more than its fault
asks for, and the workers of a phase that is over have all been told to stop. -/
structure Confined (r : Runner) : Prop where
  inside : ∀ i p, r.phases[i]? = some p → p.Inside → untold r.workers i = p.started
  limited : ∀ (i : ℕ) (p : PhaseRun), r.phases[i]? = some p → p.started ≤ workersOf p.request.fault
  behind : ∀ i p, r.phases[i]? = some p → ¬ p.Inside → untold r.workers i = 0

/-- Together with the invariant of every run this is kept, step by step. -/
def Attended (r : Runner) : Prop := Manned r ∧ Confined r

theorem attended_start : Attended .start :=
  ⟨manned_start, fun i p hp => (by cases hp), fun i p hp => (by cases hp),
    fun i p hp => (by cases hp)⟩

theorem attended_step {r r' : Runner} {a : RunnerAction} (h : Attended r)
    (hguard : ¬ Strands r a) (hstep : RunnerStep config r a r') : Attended r' := by
  obtain ⟨h, hconfined⟩ := h
  have hnext := manned_step h hstep
  refine ⟨hnext, hnext.inside, hnext.limited, fun j p' hp' hout => ?_⟩
  rcases getElem?_step hstep hp' with ⟨_, hstage, _⟩ | ⟨hp, hw⟩ | ⟨p, b, hp, rfl, hmove, hw⟩
  · exact absurd (by simp [PhaseRun.Inside, hstage]) hout
  · rw [hw]
    exact hconfined.behind j p' hp hout
  · rw [hw]
    by_cases hin : p.Inside
    · rcases hmove.leaves hin hout j r.workers with hzero | ⟨hsame, hcases⟩
      · exact hzero
      · -- nobody is told to stop, and so there must be nobody
        rw [hsame, h.inside j p hp hin]
        rcases hcases with rfl | ⟨_, hnone⟩ | ⟨rfl, _⟩
        · by_contra hsome
          exact hguard ⟨p, hp, hsome⟩
        · exact hnone
        · exact absurd trivial hguard
    · obtain ⟨_, hsame⟩ := hmove.outside hin j r.workers
      rw [hsame]
      exact hconfined.behind j p hp hin

/-- Some phase is over and has workers that have not been told to stop. -/
def Stranded (r : Runner) : Prop :=
  ∃ i p, r.phases[i]? = some p ∧ ¬ p.Inside ∧ untold r.workers i ≠ 0

/-- Nobody tells them later. -/
theorem stranded_step {r r' : Runner} {a : RunnerAction} (h : Stranded r)
    (hstep : RunnerStep config r a r') : Stranded r' := by
  obtain ⟨i, p, hp, hout, hleft⟩ := h
  have hlt := (List.getElem?_eq_some_iff.mp hp).1
  cases hstep with
  | request =>
    refine ⟨i, p, ?_, hout, hleft⟩
    rw [Runner.accept, List.getElem?_append_left hlt, hp]
  | @phase j q q' b hq hmove =>
    by_cases hji : j = i
    · subst hji
      obtain rfl : p = q := Option.some_inj.mp (hp.symm.trans hq)
      obtain ⟨hout', hsame⟩ := hmove.outside hout j r.workers
      exact ⟨j, q', List.getElem?_set_self hlt, hout', by simp only [hsame]; exact hleft⟩
    · refine ⟨i, p, ?_, hout, ?_⟩
      · rw [← hp]
        exact List.getElem?_set_ne hji
      · simp only [untold_workersAfter_of_ne hji]
        exact hleft

theorem stranded_of_strands {r r' : Runner} {a : RunnerAction} (h : Manned r)
    (hstrands : Strands r a) (hstep : RunnerStep config r a r') : Stranded r' := by
  cases hstep with
  | request => exact hstrands.elim
  | @phase i p p' b hp hmove =>
    have hlt := (List.getElem?_eq_some_iff.mp hp).1
    refine ⟨i, p', List.getElem?_set_self hlt, ?_⟩
    cases hmove with
    | startRaises hstage _ =>
      obtain ⟨q, hq, hstarted⟩ := hstrands
      obtain rfl : p = q := Option.some_inj.mp (hp.symm.trans hq)
      have hin : p.Inside := by simp [PhaseRun.Inside, hstage]
      exact ⟨fun hc => hc, (h.inside i p hp hin).symm ▸ hstarted⟩
    | stopRaises hstage hfault _ =>
      have hin : p.Inside := by simp [PhaseRun.Inside, hstage]
      have hstarted : p.started ≠ 0 := by
        have hpos := workersOf_pos hfault
        simp only [PhaseRun.started, hstage]
        omega
      exact ⟨fun hc => hc, (h.inside i p hp hin).symm ▸ hstarted⟩
    | _ => exact hstrands.elim

/-- The workers of a phase that is over have all been told to stop, and a phase
under way has no more of them than its fault asks for, in exactly the runs in
which no `start()` raises after another one of its fault has succeeded, and
setting the flag never raises: the workers are started in front of the `try`. -/
theorem confined_iff {tr : List (Runner × RunnerAction)} {r : Runner}
    (hrun : Run (RunnerStep config) .start tr r) :
    Confined r ↔ ∀ q ∈ tr, ¬ Strands q.1 q.2 := by
  have hmanned : ∀ {tr r}, Run (RunnerStep config) .start tr r → Manned r := fun hrun =>
    hrun.invariant manned_start fun _ _ _ h hstep => manned_step h hstep
  constructor
  · intro hconfined q hq hstrands
    obtain ⟨before, after, rfl⟩ := List.append_of_mem hq
    obtain ⟨r₁, hbefore, hstep, hafter⟩ := hrun.split
    have hstranded : Stranded r := hafter.invariant
      (stranded_of_strands (hmanned hbefore) hstrands hstep) fun _ _ _ h hs => stranded_step h hs
    obtain ⟨i, p, hp, hout, hleft⟩ := hstranded
    exact hleft (hconfined.behind i p hp hout)
  · intro hguard
    have h : Attended r := hrun.invariant_of_guard (G := fun r a => ¬ Strands r a) attended_start
      (fun _ _ _ h hg hstep => attended_step h hg hstep) hguard
    exact h.2

end Steps

/-- A phase with one worker, at some stage. -/
def contendedPhase (stage : Stage) : PhaseRun :=
  ⟨{ jobId := "j", phaseIndex := 0,
     fault := some { faultType := "cpu_contention", intensity := 0 } },
    500000, 5, 1, stage⟩

theorem confined_iff_example :
    Confined ⟨[contendedPhase (.left .ok)], [⟨0, true⟩]⟩ := by
  have h₀ : RunnerStep {} .start (.request (contendedPhase .working).request 5 1)
      ⟨[contendedPhase (.entering 0)], []⟩ := .request
  have h₁ : RunnerStep {} ⟨[contendedPhase (.entering 0)], []⟩ (.phase 0 .startWorker)
      ⟨[contendedPhase (.entering 1)], [⟨0, false⟩]⟩ := .phase rfl (.startWorker rfl (by decide))
  have h₂ : RunnerStep {} ⟨[contendedPhase (.entering 1)], [⟨0, false⟩]⟩ (.phase 0 .yields)
      ⟨[contendedPhase .working], [⟨0, false⟩]⟩ := .phase rfl (.yields rfl rfl)
  have h₃ : RunnerStep {} ⟨[contendedPhase .working], [⟨0, false⟩]⟩ (.phase 0 (.worked false))
      ⟨[contendedPhase (.leaving false)], [⟨0, false⟩]⟩ := .phase rfl (.worked rfl)
  have h₄ : RunnerStep {} ⟨[contendedPhase (.leaving false)], [⟨0, false⟩]⟩ (.phase 0 .stop)
      ⟨[contendedPhase (.left .ok)], [⟨0, true⟩]⟩ :=
    .phase rfl (@PhaseMove.stop {} (contendedPhase (.leaving false)) false rfl)
  have hrun := ((((Run.nil.snoc h₀).snoc h₁).snoc h₂).snoc h₃).snoc h₄
  exact (confined_iff hrun).mpr (by simp [Strands])

end Workload
