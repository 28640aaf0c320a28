import StyioPlatform.Workspace.MemorySteps

/-! The life cycle of jobs over `MemoryStateStore`. Neither `CancelJob` nor `CompleteJob` looks at
the status, a job that nobody claimed has the empty worker id, and `ClaimJob` does not compare the
registration of the worker, so the life cycle is kept by the requests that respect it. -/
namespace StyioPlatform.Workspace.MemoryStateStore

/-- What one request does to the record of one job. -/
inductive JobChange (m : MemoryStateStore) (request : Request) (id : String) :
    Option PlatformJobRecord → Option PlatformJobRecord → Prop
  | same {o} : JobChange m request id o o
  | submitted {o job body} (hrequest : request = .submitJob body)
      (hid : id = jobIdFor m.nextJobSequence) (hstatus : job.status = .queued) :
      JobChange m request id o (some job)
  | cancelled {job body reason} (hrequest : request = .cancelJob id body)
      (hreason : body.textField "reason" = some reason) :
      JobChange m request id (some job)
        (some { job with status := .cancelled, finishedAt := "2026-04-24T00:01:00Z" })
  | claimed {job body claim worker} (hrequest : request = .claimJob body)
      (hclaim : claimFromRequest body = .ok claim) (hcandidate : m.candidate claim = some (id, job))
      (hworker : m.workers.get claim.workerId = some worker) :
      JobChange m request id (some job) (some (claimed job claim.workerId))
  | completed {job body completion message} (hrequest : request = .completeJob id body)
      (hworker : body.textField "worker_id" = some job.workerId)
      (hcompletion : completionFromRequest body = .ok completion)
      (hmessage : body.textOr "message" "job completed" = some message) :
      JobChange m request id (some job) (some (completed job completion.status completion.artifacts))

variable {configRegion : String} {m m' : MemoryStateStore} {request : Request} {id : String}
  {requests before after : List Request} {o' : Option PlatformJobRecord} {job : PlatformJobRecord}

theorem jobChange_of_step (h : Step configRegion m request m') (id : String) :
    JobChange m request id (m.jobs.get id) (m'.jobs.get id) := by
  cases h with
  | stay => exact .same
  | numbered => exact .same
  | @submit body job hjob =>
    rw [buildQueuedJobRecord, Option.map_eq_some_iff] at hjob
    obtain ⟨region, -, rfl⟩ := hjob
    simp only [submitJob, pushEvent_jobs, putJob_jobs, OrderedMap.get_set]
    split
    · rename_i hid
      exact .submitted rfl hid rfl
    · exact .same
  | @cancel jobId body reason job m' hreason hcancel =>
    simp only [cancelJob, Option.map_eq_some_iff, Prod.mk.injEq] at hcancel
    obtain ⟨found, hfound, rfl, rfl⟩ := hcancel
    simp only [pushEvent_jobs, putJob_jobs, OrderedMap.get_set]
    split
    · rename_i hid
      subst hid
      rw [hfound]
      exact .cancelled rfl hreason
    · exact .same
  | registerWorker => exact .same
  | registerContainer hregister =>
    unfold registerCompileContainer at hregister
    have hjobs : m'.jobs = m.jobs := by
      repeat' split at hregister
      all_goals first
        | cases hregister
          done
        | cases hregister
          rfl
    rw [hjobs]
    exact .same
  | switch hswitch =>
    unfold switchCompileContainerWorkspace at hswitch
    have hjobs : m'.jobs = m.jobs := by
      repeat' split at hswitch
      all_goals first
        | cases hswitch
          done
        | cases hswitch
          rfl
    rw [hjobs]
    exact .same
  | @claim body claim job m' hrequest hclaim =>
    obtain ⟨found, worker, hfound, hworker, hjobs, -⟩ := claim_spec hclaim
    rw [hjobs, OrderedMap.get_set]
    split
    · rename_i hid
      subst hid
      rw [(candidate_spec hfound).1]
      exact .claimed rfl hrequest hfound hworker
    · exact .same
  | heartbeat hbeat =>
    simp only [heartbeatJob, Option.map_eq_some_iff, Prod.mk.injEq] at hbeat
    obtain ⟨found, -, -, rfl⟩ := hbeat
    exact .same
  | @complete jobId body workerId completion message job m' hworker hrequest hmessage hcomplete =>
    simp only [completeJob, Option.map_eq_some_iff, Prod.mk.injEq, Option.filter_eq_some_iff,
      decide_eq_true_eq] at hcomplete
    obtain ⟨found, ⟨hfound, hfoundWorker⟩, rfl, rfl⟩ := hcomplete
    simp only [pushEvent_jobs, putJob_jobs, OrderedMap.get_set]
    split
    · rename_i hid
      subst hid
      rw [hfound]
      exact .completed rfl (by rw [hworker, hfoundWorker]) hrequest hmessage
    · exact .same

theorem jobChange_run (configRegion : String) (before : List Request) (request : Request)
    (id : String) : JobChange (run configRegion before) request id
      ((run configRegion before).jobs.get id)
      ((run configRegion (before ++ [request])).jobs.get id) := by
  rw [run_append_singleton]
  exact jobChange_of_step (step_handle configRegion request _) id

/-- When a request respects the life cycle in a state: a fresh number for a submitted job, no
cancellation of a finished job, no accepted completion of a job that is not running, no claim of a
job with a region or pool that the worker is not registered for. -/
def respects (m : MemoryStateStore) : Request → Bool
  | .submitJob _ => (m.jobs.get (jobIdFor m.nextJobSequence)).isNone
  | .cancelJob jobId body =>
    (body.textField "reason").isNone || (m.jobs.get jobId).all fun job => !job.status.terminal
  | .claimJob body =>
    match claimFromRequest body with
    | .error _ => true
    | .ok claim => (m.candidate claim).isNone || (m.workers.get claim.workerId).all fun worker =>
        worker.region = claim.region ∧ worker.workerPoolKey = claim.workerPoolKey
  | .completeJob jobId body =>
    match completionFromRequest body with
    | .error _ => true
    | .ok _ => (body.textOr "message" "job completed").isNone || (m.jobs.get jobId).all fun job =>
        body.textField "worker_id" = some job.workerId → job.status = .running
  | _ => true

/-- Every request of the run respects the life cycle where it is handled. -/
def Respectful (configRegion : String) (requests : List Request) : Prop :=
  ∀ before request after, requests = before ++ request :: after →
    (run configRegion before).respects request = true

/-- An earlier claim of the worker moved the job, at a time when the worker was registered for the
job's region and worker pool. -/
def ClaimedBy (configRegion : String) (requests : List Request) (id : String)
    (job : PlatformJobRecord) : Prop :=
  ∃ before body after claim queued worker, requests = before ++ .claimJob body :: after ∧
    claimFromRequest body = .ok claim ∧ claim.workerId = job.workerId ∧
    (run configRegion before).jobs.get id = some queued ∧ queued.status = .queued ∧
    (run configRegion (before ++ [.claimJob body])).jobs.get id =
      some (claimed queued job.workerId) ∧
    (run configRegion before).workers.get job.workerId = some worker ∧
    worker.region = job.region ∧ worker.workerPoolKey = job.workerPoolKey

structure LifeCycle (configRegion : String) (requests : List Request) : Prop where
  /-- A job appears as queued. -/
  starts : ∀ before request after, requests = before ++ request :: after → ∀ id job,
    (run configRegion before).jobs.get id = none →
    (run configRegion (before ++ [request])).jobs.get id = some job → job.status = .queued
  /-- A request moves the status of a job along an edge or not at all. -/
  moves : ∀ before request after, requests = before ++ request :: after → ∀ id job,
    (run configRegion before).jobs.get id = some job →
    ∃ job', (run configRegion (before ++ [request])).jobs.get id = some job' ∧
      (job'.status = job.status ∨ Move job.status job'.status)
  /-- A finished job stays as it is to the end of the run. -/
  final : ∀ before after, requests = before ++ after → ∀ id job,
    (run configRegion before).jobs.get id = some job → job.status.terminal = true →
    ∃ job', (run configRegion requests).jobs.get id = some job' ∧ job'.status = job.status ∧
      job'.finishedAt = job.finishedAt ∧ job'.artifacts = job.artifacts
  /-- A completion moves a running job only for the worker that claimed it. -/
  completer : ∀ before jobId body after, requests = before ++ .completeJob jobId body :: after →
    ∀ id job job', (run configRegion before).jobs.get id = some job → job.status = .running →
    (run configRegion (before ++ [.completeJob jobId body])).jobs.get id = some job' →
    job'.status ≠ .running →
    jobId = id ∧ body.textField "worker_id" = some job.workerId ∧
      ClaimedBy configRegion before id job

theorem Respectful.of_append (h : Respectful configRegion (before ++ after)) :
    Respectful configRegion before := by
  intro first request rest hbefore
  apply h first request (rest ++ after)
  simp [hbefore]

theorem Respectful.last (h : Respectful configRegion (before ++ [request])) :
    (run configRegion before).respects request = true :=
  h before request [] rfl

theorem respectful_append_singleton (request : Request) (h : Respectful configRegion before)
    (hrequest : (run configRegion before).respects request = true) :
    Respectful configRegion (before ++ [request]) := by
  intro first r rest heq
  rcases List.eq_nil_or_concat rest with rfl | ⟨middle, last, rfl⟩
  · obtain ⟨rfl, hlast⟩ := List.append_inj' heq rfl
    cases hlast
    exact hrequest
  · have heq' : before ++ [request] = (first ++ r :: middle) ++ [last] := by simpa using heq
    obtain ⟨hbefore, -⟩ := List.append_inj' heq' rfl
    exact h first r middle hbefore

theorem ClaimedBy.append (h : ClaimedBy configRegion before id job) :
    ClaimedBy configRegion (before ++ after) id job := by
  obtain ⟨first, body, rest, claim, queued, worker, hbefore, hclaim⟩ := h
  exact ⟨first, body, rest ++ after, claim, queued, worker, by simp [hbefore], hclaim⟩

/-- A request that respects the life cycle moves a job along an edge. -/
theorem moves_of_respects (hm : m.respects request = true) (h : JobChange m request id (some job) o')
    (hget : m.jobs.get id = some job) :
    ∃ job', o' = some job' ∧ (job'.status = job.status ∨ Move job.status job'.status) := by
  cases h with
  | same => exact ⟨job, rfl, .inl rfl⟩
  | submitted hrequest hid hstatus =>
    subst hrequest hid
    simp [respects, hget] at hm
  | cancelled hrequest hreason =>
    subst hrequest
    simp only [respects, hreason, hget] at hm
    refine ⟨_, rfl, .inr ?_⟩
    cases hstatus : job.status <;> simp_all [JobStatus.terminal]
    · exact .cancelQueued
    · exact .cancelRunning
  | claimed hrequest hclaim hcandidate hworker =>
    refine ⟨_, rfl, .inr ?_⟩
    rw [(candidate_spec hcandidate).2.1]
    exact .claim
  | completed hrequest hworker hcompletion hmessage =>
    subst hrequest
    have hrunning : job.status = .running := by
      simpa [respects, hcompletion, hmessage, hget, hworker] using hm
    refine ⟨_, rfl, .inr ?_⟩
    rw [hrunning]
    exact move_completion _

/-- A request that respects the life cycle leaves a finished job alone. -/
theorem final_of_respects (hm : m.respects request = true) (h : JobChange m request id (some job) o')
    (hget : m.jobs.get id = some job) (hfinal : job.status.terminal = true) : o' = some job := by
  cases h with
  | same => rfl
  | submitted hrequest hid hstatus =>
    subst hrequest hid
    simp [respects, hget] at hm
  | cancelled hrequest hreason =>
    subst hrequest
    simp [respects, hreason, hget, hfinal] at hm
  | claimed hrequest hclaim hcandidate hworker =>
    rw [(candidate_spec hcandidate).2.1] at hfinal
    cases hfinal
  | completed hrequest hworker hcompletion hmessage =>
    subst hrequest
    have hrunning : job.status = .running := by
      simpa [respects, hcompletion, hmessage, hget, hworker] using hm
    rw [hrunning] at hfinal
    cases hfinal

/-- In a respectful run every running job was claimed by its worker. -/
theorem claimedBy_of_running (h : Respectful configRegion requests)
    (hget : (run configRegion requests).jobs.get id = some job) (hrunning : job.status = .running) :
    ClaimedBy configRegion requests id job := by
  induction requests using List.reverseRecOn with
  | nil => simp [run] at hget
  | append_singleton before request ih =>
    have hchange := jobChange_run configRegion before request id
    rw [hget] at hchange
    generalize hold : (run configRegion before).jobs.get id = old at hchange
    cases hchange with
    | same => exact (ih h.of_append hold).append
    | submitted hrequest hid hstatus => simp [hrunning] at hstatus
    | cancelled => simp at hrunning
    | @claimed queued body claim worker hrequest hclaim hcandidate hworker =>
      subst hrequest
      obtain ⟨-, hqueued, hregion, hpool⟩ := candidate_spec hcandidate
      have hregistered : worker.region = claim.region ∧ worker.workerPoolKey = claim.workerPoolKey := by
        simpa [respects, hclaim, hcandidate, hworker] using h.last
      refine ⟨before, body, [], claim, queued, worker, rfl, hclaim, rfl, hold, hqueued, hget, hworker,
        ?_, ?_⟩
      · exact hregistered.1.trans hregion.symm
      · exact hregistered.2.trans hpool.symm
    | @completed found body completion =>
      have hterminal := completion.status.terminal_status
      simp only [MemoryStateStore.completed] at hrunning
      simp [hrunning, JobStatus.terminal] at hterminal

theorem final_run (h : Respectful configRegion (before ++ after))
    (hget : (run configRegion before).jobs.get id = some job)
    (hfinal : job.status.terminal = true) :
    (run configRegion (before ++ after)).jobs.get id = some job := by
  induction after using List.reverseRecOn with
  | nil => simpa using hget
  | append_singleton rest request ih =>
    rw [← List.append_assoc] at h ⊢
    have hrest := ih h.of_append
    have hchange := jobChange_run configRegion (before ++ rest) request id
    rw [hrest] at hchange
    exact final_of_respects h.last hchange hrest hfinal

/-- The life cycle holds in every run whose requests respect it. -/
theorem lifeCycle_of_respectful (h : Respectful configRegion requests) :
    LifeCycle configRegion requests where
  starts before request after hrequests id job hnone hget := by
    have hchange := jobChange_run configRegion before request id
    rw [hnone, hget] at hchange
    cases hchange with
    | submitted hrequest hid hstatus => exact hstatus
  moves before request after hrequests id job hget := by
    have hchange := jobChange_run configRegion before request id
    rw [hget] at hchange
    exact moves_of_respects (h before request after hrequests) hchange hget
  final before after hrequests id job hget hfinal := by
    subst hrequests
    exact ⟨job, final_run h hget hfinal, rfl, rfl, rfl⟩
  completer before jobId body after hrequests id job job' hget hrunning hget' hmoved := by
    have hchange := jobChange_run configRegion before (.completeJob jobId body) id
    rw [hget, hget'] at hchange
    subst hrequests
    cases hchange with
    | same => exact absurd hrunning hmoved
    | submitted hrequest hid hstatus => cases hrequest
    | cancelled hrequest hreason => cases hrequest
    | claimed hrequest => cases hrequest
    | completed hrequest hworker hcompletion hmessage =>
      cases hrequest
      exact ⟨rfl, hworker, claimedBy_of_running h.of_append hget hrunning⟩

def sampleSubmission : Request := .submitJob (.object
  [("action", .string "build"),
    ("job_request", .object [("manifest_path", .string "spio.toml"), ("schema_version", .int 1),
      ("source", .object [("origin", .string "https://host/repo.git")])]),
    ("preferred_worker_pool", .string "linux"), ("tenant_id", .string "tenant"),
    ("user_id", .string "user"), ("workspace_id", .string "workspace")])

def sampleRegistration : Request := .registerWorker (.object
  [("capacity", .int 1), ("region", .string "eu"), ("worker_id", .string "worker"),
    ("worker_pool_key", .string "linux")])

def sampleClaim : Request := .claimJob (.object
  [("region", .string "eu"), ("worker_id", .string "worker"), ("worker_pool_key", .string "linux")])

def sampleCompletion : Request := .completeJob "job-000000000001" (.object
  [("status", .string "succeeded"), ("worker_id", .string "worker")])

def sampleCancellation : Request := .cancelJob "job-000000000001" (.object
  [("reason", .string "no longer needed")])

theorem lifeCycle_of_sampleCompletion :
    Respectful "eu" [sampleSubmission, sampleRegistration, sampleClaim, sampleCompletion] ∧
      LifeCycle "eu" [sampleSubmission, sampleRegistration, sampleClaim, sampleCompletion] := by
  have h₀ : Respectful "eu" [] := by simp [Respectful]
  have h₁ := respectful_append_singleton sampleSubmission h₀ (by decide +kernel)
  have h₂ := respectful_append_singleton sampleRegistration h₁ (by decide +kernel)
  have h₃ := respectful_append_singleton sampleClaim h₂ (by decide +kernel)
  have h₄ := respectful_append_singleton sampleCompletion h₃ (by decide +kernel)
  exact ⟨h₄, lifeCycle_of_respectful h₄⟩

/-- A completed job is cancelled by a later request. -/
theorem not_lifeCycle_of_late_cancel : ¬ LifeCycle "eu"
    [sampleSubmission, sampleRegistration, sampleClaim, sampleCompletion, sampleCancellation] := by
  intro h
  have hbefore : ((run "eu" [sampleSubmission, sampleRegistration, sampleClaim,
      sampleCompletion]).jobs.get "job-000000000001").map (·.status) = some .succeeded := by
    decide +kernel
  have hafter : ((run "eu" [sampleSubmission, sampleRegistration, sampleClaim, sampleCompletion,
      sampleCancellation]).jobs.get "job-000000000001").map (·.status) = some .cancelled := by
    decide +kernel
  rw [Option.map_eq_some_iff] at hbefore hafter
  obtain ⟨job, hget, hstatus⟩ := hbefore
  obtain ⟨job', hget', hstatus'⟩ := hafter
  obtain ⟨job'', hget'', hsame, -⟩ := h.final [sampleSubmission, sampleRegistration, sampleClaim,
    sampleCompletion] [sampleCancellation] rfl _ job hget (by simp [hstatus, JobStatus.terminal])
  rw [hget'] at hget''
  cases hget''
  simp [hstatus, hstatus'] at hsame

end StyioPlatform.Workspace.MemoryStateStore
