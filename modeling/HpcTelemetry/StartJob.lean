/-
Starting a job (`start_job` in `hpctel/api.py`, `create_job` in
`hpctel/jobs.py`).

* `startJob` — the endpoint: its checks, and the row it writes before the
  orchestrator is scheduled;
* `startJob_ok` — what it has checked of a request, and with what job it goes on;
* `exists_startJob_iff` — which requests it accepts;
* `jobStatus_startJob` — an accepted job is running.
-/
import HpcTelemetry.Jobs
import HpcTelemetry.StragglerReport

namespace Api

open Ingest

/-- `FaultManifestRequest`. -/
structure FaultManifestRequest where
  targetHost : String
  phaseIndex : ℤ
  faultType : String
  intensity : ℤ := 2
  deriving DecidableEq

/-- `model_dump`. -/
def FaultManifestRequest.modelDump (fault : FaultManifestRequest) : FaultManifest :=
  ⟨fault.targetHost, fault.phaseIndex, fault.faultType, fault.intensity⟩

/-- `StartJobRequest`. -/
structure StartJobRequest where
  phaseCount : ℤ := 1
  sieveLimit : Option ℤ := none
  fault : Option FaultManifestRequest := none
  deriving DecidableEq

/-- What `start_job` may raise. -/
inductive StartJobError where
  | httpException (e : HTTPException)
  /-- The `IntegrityError` of a taken `job_id`. -/
  | integrityError
  deriving DecidableEq

/-- `start_job`: the store with the new row, and the arguments `execute_job` is
scheduled with.  `jobId` is the fresh UUID and `createdTsNs` the clock. -/
def startJob (workloadHosts : List String) (jobId : String) (createdTsNs : ℤ)
    (store : TSDBStore) (request : StartJobRequest) : Except StartJobError (TSDBStore × Job) :=
  if workloadHosts = [] then
    .error (.httpException ⟨503, "no workload hosts configured (WORKLOAD_HOSTS)"⟩)
  else if request.phaseCount < 1 then
    .error (.httpException ⟨400, "phase_count must be at least 1"⟩)
  else
    match request.fault.filter fun fault => fault.targetHost ∉ workloadHosts with
    | some fault => .error (.httpException ⟨400, "unknown target_host: " ++ fault.targetHost⟩)
    | none =>
      let job : Job :=
        { jobId := jobId
          workloadHosts := workloadHosts
          phaseCount := request.phaseCount.toNat
          sieveLimit := request.sieveLimit
          faultManifest := request.fault.map (·.modelDump) }
      match store.createJob jobId job.phaseCount workloadHosts createdTsNs job.faultManifest with
      | none => .error .integrityError
      | some store' => .ok (store', job)

/-- The job an accepted request is turned into. -/
structure Accepts (workloadHosts : List String) (jobId : String) (request : StartJobRequest)
    (job : Job) : Prop where
  jobId : job.jobId = jobId
  hosts : job.workloadHosts = workloadHosts
  hosts_ne_nil : workloadHosts ≠ []
  phaseCount : (job.phaseCount : ℤ) = request.phaseCount
  phaseCount_pos : 1 ≤ job.phaseCount
  sieveLimit : job.sieveLimit = request.sieveLimit
  faultManifest : job.faultManifest = request.fault.map (·.modelDump)
  target : ∀ fault, request.fault = some fault → fault.targetHost ∈ workloadHosts

section Accepted

variable {workloadHosts : List String} {jobId : String} {createdTsNs : ℤ}
  {store store' : TSDBStore} {request : StartJobRequest} {job : Job}

/-- What `start_job` has checked of the requests it accepts, and what it has
written. -/
theorem startJob_ok
    (h : startJob workloadHosts jobId createdTsNs store request = .ok (store', job)) :
    Accepts workloadHosts jobId request job ∧
      store.createJob job.jobId job.phaseCount job.workloadHosts createdTsNs job.faultManifest
        = some store' := by
  rw [startJob] at h
  split_ifs at h with hhosts hcount
  cases hfault : request.fault.filter fun fault => fault.targetHost ∉ workloadHosts with
  | some fault =>
    rw [hfault] at h
    cases h
  | none =>
    rw [hfault] at h
    simp only at h
    split at h
    · cases h
    · rename_i hcreate
      injection h with h
      obtain ⟨rfl, rfl⟩ := Prod.mk.inj h
      refine ⟨⟨rfl, rfl, hhosts, ?_, ?_, rfl, rfl, fun fault hf => ?_⟩, hcreate⟩
      · exact Int.toNat_of_nonneg (by omega)
      · show 1 ≤ request.phaseCount.toNat
        omega
      · rw [hf, Option.filter_some] at hfault
        by_contra hout
        simp [hout] at hfault

/-- Which requests are accepted.  Of a fault, only the host is looked at. -/
theorem exists_startJob_iff :
    (∃ store' job, startJob workloadHosts jobId createdTsNs store request = .ok (store', job)) ↔
      workloadHosts ≠ [] ∧ 1 ≤ request.phaseCount ∧
        (∀ fault, request.fault = some fault → fault.targetHost ∈ workloadHosts) ∧
        jobId ∉ store.jobs.keys := by
  constructor
  · rintro ⟨store', job, h⟩
    obtain ⟨haccepts, hcreate⟩ := startJob_ok h
    refine ⟨haccepts.hosts_ne_nil, ?_, haccepts.target, fun htaken => ?_⟩
    · rw [← haccepts.phaseCount]
      exact_mod_cast haccepts.phaseCount_pos
    · rw [TSDBStore.createJob, haccepts.jobId, if_pos htaken] at hcreate
      cases hcreate
  · rintro ⟨hhosts, hcount, htarget, hfree⟩
    have hfault : request.fault.filter (fun fault => fault.targetHost ∉ workloadHosts) = none := by
      cases hf : request.fault with
      | none => rfl
      | some fault => simp [Option.filter_some, htarget fault hf]
    have hcount' : ¬ request.phaseCount < 1 := by omega
    rw [startJob, if_neg hhosts, if_neg hcount', hfault]
    simp only [TSDBStore.createJob, if_neg hfree]
    exact ⟨_, _, rfl⟩

/-- So the type of a fault plays no part in it. -/
theorem exists_startJob_faultType (fault : FaultManifestRequest) (faultType : String) :
    (∃ store' job, startJob workloadHosts jobId createdTsNs store
      { request with fault := some fault } = .ok (store', job)) ↔
    ∃ store' job, startJob workloadHosts jobId createdTsNs store
      { request with fault := some { fault with faultType := faultType } } = .ok (store', job) := by
  rw [exists_startJob_iff, exists_startJob_iff]
  simp

/-- An accepted job is running. -/
theorem jobStatus_startJob
    (h : startJob workloadHosts jobId createdTsNs store request = .ok (store', job)) :
    jobStatus store' job.jobId = some .running :=
  jobStatus_createJob (startJob_ok h).2

end Accepted

end Api
