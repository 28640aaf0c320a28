import StyioPlatform.Workspace.PostgresControlPlane
import StyioPlatform.Workspace.SequentialCalls

/-! What one request can do to the tables, while no other session is connected. -/
namespace StyioPlatform.Workspace.PostgresStore

/-- The texts in the tables are C strings. -/
structure Clean (t : Tables) : Prop where
  jobs : ∀ jobId row, t.jobs.get jobId = some row →
    cString jobId = jobId ∧ cString row.workspaceId = row.workspaceId
  containers : ∀ containerId row, t.containers.get containerId = some row →
    cString row.tenantId = row.tenantId ∧ cString row.userId = row.userId ∧
      cString row.workerId = row.workerId

/-- Everything that a handler can do to the tables, with its answer and the checks before it. -/
inductive Step (settings : Settings) (now : Moment) (t : Tables) :
    Request → Option Response → Tables → Prop
  | stay {request answer}
      (hanswer : ∀ message job held, answer ≠ some (.success message (.claimed job held))) :
      Step settings now t request answer t
  | submit {body answer} (job : PlatformJobRecord) (eventId : ℕ) :
      Step settings now t (.submitJob body) answer
        ((t.withTenant (cString job.tenantId)).recordJob eventId (cString job.jobId)
          (t.upsertedJob now.time (boundJob job))
          ⟨cString job.jobId, .queued, "job queued", now.time⟩)
  | registerWorker {body answer} (worker : WorkerRecord) :
      Step settings now t (.registerWorker body) answer
        { t with workers := t.workers.set (cString worker.workerId) (boundWorker worker) }
  | registerContainer {body answer}
      (hrow : ∀ row, t.containers.get (cString (createFromRegistration body).containerId) =
        some row → row.tenantId = (createFromRegistration body).tenantId ∧
          row.userId = (createFromRegistration body).userId ∧
          row.workerId = (createFromRegistration body).workerId) :
      Step settings now t (.registerCompileContainer body) answer
        (registeredTables t now.time (boundContainer (createFromRegistration body)))
  | switch {containerId body row answer} (workspaceId reason : String)
      (hrow : t.containers.get (cString containerId) = some row) :
      Step settings now t (.switchCompileContainerWorkspace containerId body) answer
        { t with
          containers := t.containers.set (cString containerId)
            (row.switched now.time workspaceId reason) }
  | cancel {jobId body row answer} (reason : String) (eventId : ℕ)
      (hrow : t.jobs.get (cString jobId) = some row) :
      Step settings now t (.cancelJob jobId body) answer
        (cancelledTables t now.time eventId (cString jobId) reason row)
  | heartbeat {jobId body row answer} (message : String) (eventId : ℕ)
      (hrow : t.jobs.get (cString jobId) = some row) :
      Step settings now t (.heartbeatJob jobId body) answer
        (beatenTables t now.time eventId (cString jobId) message row)
  | complete {jobId body row answer} (message : String) (eventId : ℕ) (status : Completion)
      (artifacts : List ArtifactRecord) (result : Json)
      (hrow : t.jobs.get (cString jobId) = some row) :
      Step settings now t (.completeJob jobId body) answer
        (completedTables t now.time eventId (cString jobId) message status artifacts result row)
  | claim {body claim x answer} (message workerId : String) (eventId : ℕ)
      (hrequest : claimFromRequest body = .ok claim) (hnone : claim.compileContainerId = none)
      (hget : t.jobs.get x.1 = some x.2) :
      Step settings now t (.claimJob body) answer
        (claimedTables t now.time eventId workerId message x)
  /-- The container of the claim stays in its workspace. -/
  | claimStaying {body claim containerId container x job held} (message answer : String)
      (workerId : String) (eventId : ℕ) (hrequest : claimFromRequest body = .ok claim)
      (hcontainer : claim.compileContainerId = some containerId)
      (hrow : t.containers.get (cString containerId) = some container)
      (hget : t.jobs.get x.1 = some x.2) (htenant : x.2.tenantId = container.tenantId)
      (huser : x.2.userId = container.userId)
      (hworkspace : x.2.workspaceId = container.currentWorkspaceId)
      (hjob : (claimedTables t now.time eventId workerId message x).jobRecord settings x.1 =
        some job) :
      Step settings now t (.claimJob body) (some (.success answer (.claimed job held)))
        (claimedTables t now.time eventId workerId message x)
  /-- The container of the claim moves to the workspace of the job. -/
  | claimMoving {body claim containerId container x job held} (workerId answer : String)
      (eventId : ℕ) (hrequest : claimFromRequest body = .ok claim)
      (hcontainer : claim.compileContainerId = some containerId)
      (hrow : t.containers.get (cString containerId) = some container)
      (hget : t.jobs.get x.1 = some x.2) (htenant : x.2.tenantId = container.tenantId)
      (huser : x.2.userId = container.userId)
      (hworkspace : x.2.workspaceId ≠ container.currentWorkspaceId)
      (hjob : (movedTables t now.time eventId workerId (cString containerId) container x).jobRecord
        settings x.1 = some job) :
      Step settings now t (.claimJob body) (some (.success answer (.claimed job held)))
        (movedTables t now.time eventId workerId (cString containerId) container x)

variable {settings : Settings} {now : Moment} {t : Tables} {q : Sequences}

@[simp] theorem run_orUnavailable {message operation : String}
    {body : StoreCall (Option Response)} {store : Store Tables Sequences}
    {txn : Transaction Moment Write} :
    (dialect settings).run now (orUnavailable message operation body) store txn =
      match (dialect settings).run now body store txn with
      | (.ok answer, store, txn) => (.ok answer, store, txn)
      | (.error e, store, txn) =>
        (.ok (some (postgresFailure message e.what operation)), store, txn) := by
  rw [orUnavailable, run_tryCatch]
  rcases (dialect settings).run now body store txn with ⟨e | a, store, txn⟩ <;> rfl

/-- The handler ends with an answer and has done one step. -/
def Serves (settings : Settings) (configRegion : String) (now : Moment) (t : Tables)
    (q : Sequences) (request : Request) : Prop :=
  let outcome := (dialect settings).run now (handle settings configRegion request) ⟨t, q⟩ .idle
  ∃ answer, outcome.1 = .ok answer ∧ outcome.2.2 = .idle ∧
    Step settings now t request answer outcome.2.1.tables

variable {configRegion : String}

theorem serves_submitJob {body : Json} :
    Serves settings configRegion now t q (.submitJob body) := by
  simp only [Serves, handle, handleSubmitJob]
  split
  · exact ⟨_, rfl, rfl, .stay (by simp [submitRejected])⟩
  · simp only [run_tryCatch, run_bind, run_nextJobId]
    rcases hjob : buildQueuedJobRecord body configRegion (jobIdFor q.job) with _ | job
    · exact ⟨none, rfl, rfl, .stay (by simp)⟩
    · rcases hnul : job.jobRequest.anyNul with _ | _
      · simp only [run_bind, run_submitJob hnul]
        exact ⟨_, rfl, rfl, .submit job q.event⟩
      · simp only [run_bind, run_submitJob_of_nul hnul]
        exact ⟨_, rfl, rfl, .stay (by simp [postgresFailure])⟩

theorem serves_getJob {jobId : String} : Serves settings configRegion now t q (.getJob jobId) := by
  simp only [Serves, handle, handleGetJob, run_orUnavailable, run_bind, run_getJob]
  rcases t.jobRecord settings (cString jobId) with _ | job
  · exact ⟨_, rfl, rfl, .stay (by simp [jobNotFound])⟩
  · exact ⟨_, rfl, rfl, .stay (by simp)⟩

theorem serves_getJobEvents {jobId : String} :
    Serves settings configRegion now t q (.getJobEvents jobId) := by
  simp only [Serves, handle, handleGetJobEvents, run_orUnavailable, run_bind, run_getJob]
  rcases t.jobRecord settings (cString jobId) with _ | job
  · exact ⟨_, rfl, rfl, .stay (by simp [jobEventsNotFound])⟩
  · simp only [run_bind, run_getJobEvents]
    exact ⟨_, rfl, rfl, .stay (by simp)⟩

theorem serves_cancelJob {jobId : String} {body : Json} :
    Serves settings configRegion now t q (.cancelJob jobId body) := by
  simp only [Serves, handle, handleCancelJob]
  split
  · exact ⟨_, rfl, rfl, .stay (by simp [reasonRequired])⟩
  · rename_i reason hreason
    rcases hfind : Tables.find t.jobs (cString jobId) (·.cancellable) with _ | row
    · simp only [run_orUnavailable, run_bind, run_cancelJob_none hfind]
      exact ⟨_, rfl, rfl, .stay (by simp [cancelNotFound])⟩
    · have hrow := (Tables.find_eq_some.mp hfind).1
      simp only [run_orUnavailable, run_bind, run_cancelJob_some hfind]
      rcases (cancelledTables t now.time q.event (cString jobId) (cString reason) row).jobRecord
        settings (cString jobId) with _ | job
      · exact ⟨_, rfl, rfl, .cancel (cString reason) q.event hrow⟩
      · exact ⟨_, rfl, rfl, .cancel (cString reason) q.event hrow⟩

theorem serves_registerWorker {body : Json} :
    Serves settings configRegion now t q (.registerWorker body) := by
  simp only [Serves, handle, handleRegisterWorker]
  split
  · rename_i rejected hrejected
    refine ⟨_, rfl, rfl, .stay ?_⟩
    intro message job held heq
    simp only [workerFromRequest] at hrejected
    repeat' split at hrejected
    all_goals simp_all
  · rename_i worker hworker
    simp only [run_orUnavailable, run_bind, run_registerWorker]
    exact ⟨_, rfl, rfl, .registerWorker worker⟩

theorem serves_registerCompileContainer {body : Json} :
    Serves settings configRegion now t q (.registerCompileContainer body) := by
  simp only [Serves, handle, handleRegisterCompileContainer]
  split
  · exact ⟨_, rfl, rfl, .stay (by simp)⟩
  · exact ⟨_, rfl, rfl, .stay (by simp [containerRejected])⟩
  · rcases hworker : Tables.find t.workers (cString (createFromRegistration body).workerId)
      (·.serves (cString (createFromRegistration body).region)
        (cString (createFromRegistration body).workerPoolKey)) with _ | worker
    · simp only [run_tryCatch, run_bind, run_registerCompileContainer_unregistered hworker]
      exact ⟨_, rfl, rfl, .stay (by simp [registrationError, containerWorkerError])⟩
    · by_cases hrow : ∀ row, t.containers.get (cString (createFromRegistration body).containerId) =
          some row → row.tenantId = (createFromRegistration body).tenantId ∧
            row.userId = (createFromRegistration body).userId ∧
            row.workerId = (createFromRegistration body).workerId
      · simp only [run_tryCatch, run_bind, run_registerCompileContainer_ok hworker hrow]
        exact ⟨_, rfl, rfl, .registerContainer hrow⟩
      · push Not at hrow
        obtain ⟨row, hget, hne⟩ := hrow
        by_cases hbinding : row.tenantId = (createFromRegistration body).tenantId ∧
            row.userId = (createFromRegistration body).userId
        · simp only [run_tryCatch, run_bind, run_registerCompileContainer_owner hworker hget
            hbinding.1 hbinding.2 (hne hbinding.1 hbinding.2)]
          exact ⟨_, rfl, rfl, .stay (by simp [registrationError, containerBindingError])⟩
        · rw [not_and_or] at hbinding
          simp only [run_tryCatch, run_bind,
            run_registerCompileContainer_user hworker hget hbinding]
          exact ⟨_, rfl, rfl, .stay (by simp [registrationError, containerBindingError])⟩

theorem serves_getCompileContainer {containerId : String} :
    Serves settings configRegion now t q (.getCompileContainer containerId) := by
  simp only [Serves, handle, handleGetCompileContainer, run_orUnavailable, run_bind,
    run_getCompileContainer]
  rcases t.containerRecord settings (cString containerId) with _ | container
  · exact ⟨_, rfl, rfl, .stay (by simp [containerNotFound])⟩
  · exact ⟨_, rfl, rfl, .stay (by simp)⟩

theorem switchRejected_ne {body : Json} {current : CompileContainerRecord} {response : Response}
    (h : switchRejected body current = some response) (message : String)
    (payload : Payload) : response ≠ .success message payload := by
  simp only [switchRejected] at h
  repeat' split at h
  all_goals simp_all
  all_goals
    rintro rfl
    simp at h

theorem serves_switch {containerId : String} {body : Json} :
    Serves settings configRegion now t q (.switchCompileContainerWorkspace containerId body) := by
  simp only [Serves, handle, handleSwitchCompileContainerWorkspace]
  split
  · exact ⟨_, rfl, rfl, .stay (by simp)⟩
  · simp only [run_orUnavailable, run_bind, run_getCompileContainer]
    rcases t.containerRecord settings (cString containerId) with _ | current
    · exact ⟨_, rfl, rfl, .stay (by simp [switchNotFound])⟩
    · dsimp only
      rcases hrejected : switchRejected body current with _ | response
      · rcases hfind : Tables.find t.containers (cString containerId)
          (·.switchableBy (cString ((body.textField "worker_id").getD ""))) with _ | row
        · simp only [run_bind, run_switch_none hfind]
          exact ⟨_, rfl, rfl, .stay (by simp [switchNotActive])⟩
        · simp only [run_bind, run_switch_some hfind]
          exact ⟨_, rfl, rfl, .switch _ _ (Tables.find_eq_some.mp hfind).1⟩
      · refine ⟨_, rfl, rfl, .stay ?_⟩
        intro message job held heq
        exact switchRejected_ne hrejected message _ (Option.some.inj heq)

theorem serves_heartbeatJob {jobId : String} {body : Json} :
    Serves settings configRegion now t q (.heartbeatJob jobId body) := by
  simp only [Serves, handle, handleHeartbeatJob]
  split
  · exact ⟨_, rfl, rfl, .stay (by simp)⟩
  · rename_i workerId hworker
    split
    · exact ⟨_, rfl, rfl, .stay (by simp [postgresFailure])⟩
    · rename_i message hmessage
      rcases hfind : Tables.find t.jobs (cString jobId) (·.runsFor (cString workerId)) with _ | row
      · simp only [run_orUnavailable, run_bind, run_heartbeatJob_none hfind]
        exact ⟨_, rfl, rfl, .stay (by simp [heartbeatNotOwner])⟩
      · have hrow := (Tables.find_eq_some.mp hfind).1
        simp only [run_orUnavailable, run_bind, run_heartbeatJob_some hfind]
        rcases (beatenTables t now.time q.event (cString jobId) (cString message) row).jobRecord
          settings (cString jobId) with _ | job
        · exact ⟨_, rfl, rfl, .heartbeat (cString message) q.event hrow⟩
        · exact ⟨_, rfl, rfl, .heartbeat (cString message) q.event hrow⟩

theorem serves_completeJob {jobId : String} {body : Json} :
    Serves settings configRegion now t q (.completeJob jobId body) := by
  simp only [Serves, handle, handleCompleteJob]
  split
  · exact ⟨_, rfl, rfl, .stay (by simp)⟩
  · rename_i workerId hworker
    split
    · rename_i rejected hrejected
      refine ⟨_, rfl, rfl, .stay ?_⟩
      intro message job held heq
      simp only [completionFromRequest] at hrejected
      repeat' split at hrejected
      all_goals simp_all
    · rename_i completion hcompletion
      split
      · exact ⟨_, rfl, rfl, .stay (by simp [postgresFailure])⟩
      · rename_i message hmessage
        generalize (body.get? "result").getD (.object []) = result
        rcases hresult : result.anyNul with _ | _
        · rcases hfind : Tables.find t.jobs (cString jobId) (·.runsFor (cString workerId)) with _ | row
          · simp only [run_orUnavailable, run_bind, run_completeJob_none hresult hfind]
            exact ⟨_, rfl, rfl, .stay (by simp [completeNotOwner])⟩
          · have hrow := (Tables.find_eq_some.mp hfind).1
            by_cases hfree : Free (droppedArtifacts t (cString jobId)) completion.artifacts
            · simp only [run_orUnavailable, run_bind, run_completeJob_free hresult hfind hfree]
              rcases (completedTables t now.time q.event (cString jobId) (cString message)
                completion.status completion.artifacts result row).jobRecord settings
                  (cString jobId) with _ | job
              · exact ⟨_, rfl, rfl, .complete (cString message) q.event completion.status
                  completion.artifacts result hrow⟩
              · exact ⟨_, rfl, rfl, .complete (cString message) q.event completion.status
                  completion.artifacts result hrow⟩
            · simp only [run_orUnavailable, run_bind, run_completeJob_taken hresult hfind hfree]
              exact ⟨_, rfl, trivial, .stay (by simp [postgresFailure])⟩
        · simp only [run_orUnavailable, run_bind, run_completeJob_of_nul hresult]
          exact ⟨_, rfl, trivial, .stay (by simp [postgresFailure])⟩

theorem claimFromRequest_ne {body : Json} {rejected : Response}
    (h : claimFromRequest body = .error rejected) (message : String) (payload : Payload) :
    rejected ≠ .success message payload := by
  simp only [claimFromRequest] at h
  repeat' split at h
  all_goals simp_all
  all_goals
    rintro rfl
    simp at h

/-- A claimed job is read back as it is in the table. -/
theorem jobRecord_claimed (settings : Settings) (t : Tables) (time eventId : ℕ)
    (workerId message : String) (x : String × JobRow) :
    ∃ job, (claimedTables t time eventId workerId message x).jobRecord settings x.1 = some job := by
  simp [Tables.jobRecord, claimedTables, Tables.recordJob]

theorem jobRecord_moved (settings : Settings) (t : Tables) (time eventId : ℕ)
    (workerId containerId : String) (container : ContainerRow) (x : String × JobRow) :
    ∃ job, (movedTables t time eventId workerId containerId container x).jobRecord settings x.1 =
      some job := by
  simp [Tables.jobRecord, movedTables, claimedTables, Tables.recordJob]

theorem serves_claimJob (hclean : Clean t) {body : Json} :
    Serves settings configRegion now t q (.claimJob body) := by
  simp only [Serves, handle, handleClaimJob]
  split
  · rename_i rejected hrejected
    refine ⟨_, rfl, rfl, .stay ?_⟩
    intro message job held heq
    exact claimFromRequest_ne hrejected message _ (Option.some.inj heq)
  · rename_i claim hrequest
    rcases hcontainer : claim.compileContainerId with _ | containerId
    · simp only [PostgresStore.claim, claimedContainer, hcontainer, run_tryCatch, run_bind]
      rcases hworker : Tables.find t.workers (cString claim.workerId)
        (·.serves (cString claim.region) (cString claim.workerPoolKey)) with _ | worker
      · simp only [run_claimJob_unregistered hworker]
        exact ⟨_, rfl, rfl, .stay (by simp [claimError, claimWorkerError])⟩
      · rcases hfound : t.candidate now (fun _ => false)
          (·.waitsFor (cString claim.region) (cString claim.workerPoolKey)) with _ | x
        · simp only [run_claimJob_none hworker hfound]
          exact ⟨_, rfl, rfl, .stay (by simp)⟩
        · have hget := (Tables.candidate_spec hfound).1
          simp only [run_claimJob_some hworker hfound (hclean.jobs x.1 x.2 hget).1]
          obtain ⟨job, hjob⟩ := jobRecord_claimed settings t now.time q.event
            (cString claim.workerId) "job claimed by worker" x
          simp only [hjob]
          exact ⟨_, rfl, rfl, .claim _ _ q.event hrequest hcontainer hget⟩
    · simp only [PostgresStore.claim, claimedContainer, hcontainer, run_tryCatch, run_bind]
      rcases hworker : Tables.find t.workers (cString claim.workerId)
        (·.serves (cString claim.region) (cString claim.workerPoolKey)) with _ | worker
      · simp only [run_claimFor_unregistered hworker]
        exact ⟨_, rfl, rfl, .stay (by simp [claimError, claimWorkerError])⟩
      · rcases hrow : Tables.find t.containers (cString containerId) (·.availableTo
          (cString claim.workerId) (cString claim.region) (cString claim.workerPoolKey)) with
          _ | container
        · simp only [run_claimFor_unavailable hworker hrow]
          exact ⟨_, rfl, rfl, .stay (by simp [claimError, claimWorkerError])⟩
        · rcases hfound : t.candidate now (fun _ => false) (·.waitsForUser (cString claim.region)
            (cString claim.workerPoolKey) (cString container.tenantId)
            (cString container.userId)) with _ | x
          · simp only [run_claimFor_none hworker hrow hfound]
            exact ⟨_, rfl, rfl, .stay (by simp)⟩
          · obtain ⟨hget, hwaits, -⟩ := Tables.candidate_spec hfound
            have hstored := (Tables.find_eq_some.mp hrow).1
            obtain ⟨htenant, huser, -⟩ := hclean.containers _ container hstored
            simp only [JobRow.waitsForUser, decide_eq_true_eq] at hwaits
            rw [htenant, huser] at hwaits
            obtain ⟨hid, hworkspace⟩ := hclean.jobs x.1 x.2 hget
            by_cases hsame : x.2.workspaceId = container.currentWorkspaceId
            · simp only [run_claimFor_staying hworker hrow hfound hid hsame]
              obtain ⟨job, hjob⟩ := jobRecord_claimed settings t now.time q.event
                (cString claim.workerId) "job claimed by compile container" x
              simp only [hjob, run_bind, run_getCompileContainer]
              exact ⟨_, rfl, rfl, .claimStaying _ _ _ q.event hrequest hcontainer hstored hget
                hwaits.2.1 hwaits.2.2 hsame hjob⟩
            · simp only [run_claimFor_moving hworker hrow hfound hid hworkspace hsame]
              obtain ⟨job, hjob⟩ := jobRecord_moved settings t now.time q.event
                (cString claim.workerId) (cString containerId) container x
              simp only [hjob, run_bind, run_getCompileContainer]
              exact ⟨_, rfl, rfl, .claimMoving _ _ q.event hrequest hcontainer hstored hget
                hwaits.2.1 hwaits.2.2 hsame hjob⟩

/-- Every request over clean tables is served by one step. -/
theorem serves (settings : Settings) (configRegion : String) (now : Moment) (hclean : Clean t)
    (q : Sequences) (request : Request) : Serves settings configRegion now t q request := by
  cases request with
  | submitJob => exact serves_submitJob
  | getJob => exact serves_getJob
  | getJobEvents => exact serves_getJobEvents
  | cancelJob => exact serves_cancelJob
  | registerWorker => exact serves_registerWorker
  | registerCompileContainer => exact serves_registerCompileContainer
  | getCompileContainer => exact serves_getCompileContainer
  | switchCompileContainerWorkspace => exact serves_switch
  | claimJob => exact serves_claimJob hclean
  | heartbeatJob => exact serves_heartbeatJob
  | completeJob => exact serves_completeJob

section clean

variable {t' : Tables} {jobId containerId : String} {request : Request} {answer : Option Response}

theorem withTenant_eq (t : Tables) (tenantId : String) :
    (t.withTenant tenantId).jobs = t.jobs ∧ (t.withTenant tenantId).containers = t.containers := by
  rw [Tables.withTenant]
  split <;> exact ⟨rfl, rfl⟩

/-- A new row of a job that keeps its workspace. -/
theorem Clean.of_job (h : Clean t) {row : JobRow} (hcontainers : t'.containers = t.containers)
    (hjobs : t'.jobs = t.jobs.set jobId row) (hid : cString jobId = jobId)
    (hworkspace : cString row.workspaceId = row.workspaceId) : Clean t' where
  jobs := by
    intro id other hget
    rw [hjobs, OrderedMap.get_set] at hget
    split at hget
    · cases hget
      rename_i heq
      exact ⟨heq ▸ hid, hworkspace⟩
    · exact h.jobs id other hget
  containers := by
    rw [hcontainers]
    exact h.containers

/-- A new row of a container that keeps its binding. -/
theorem Clean.of_container (h : Clean t) {row : ContainerRow} (hjobs : t'.jobs = t.jobs)
    (hcontainers : t'.containers = t.containers.set containerId row)
    (hrow : cString row.tenantId = row.tenantId ∧ cString row.userId = row.userId ∧
      cString row.workerId = row.workerId) : Clean t' where
  jobs := by
    rw [hjobs]
    exact h.jobs
  containers := by
    intro id other hget
    rw [hcontainers, OrderedMap.get_set] at hget
    split at hget
    · cases hget
      exact hrow
    · exact h.containers id other hget

theorem Clean.step (h : Clean t) (hstep : Step settings now t request answer t') : Clean t' := by
  cases hstep with
  | stay => exact h
  | registerWorker => exact ⟨h.jobs, h.containers⟩
  | submit job eventId =>
    obtain ⟨hjobs, hcontainers⟩ := withTenant_eq t (cString job.tenantId)
    have hset : ((t.withTenant (cString job.tenantId)).jobs.set (cString job.jobId)
        (t.upsertedJob now.time (boundJob job))) = t.jobs.set (cString job.jobId)
          (t.upsertedJob now.time (boundJob job)) := by rw [hjobs]
    refine h.of_job (by exact hcontainers) hset ?_ ?_
    · exact cString_cString _
    · rw [Tables.upsertedJob]
      split <;> exact cString_cString _
  | @registerContainer body answer hrow =>
    obtain ⟨hjobs, -⟩ := withTenant_eq t (boundContainer (createFromRegistration body)).tenantId
    refine h.of_container (by exact hjobs) rfl ?_
    rw [Tables.upsertedContainer]
    split
    · exact ⟨cString_cString _, cString_cString _, cString_cString _⟩
    · rename_i row hget
      obtain ⟨htenant, huser, -⟩ := h.containers _ row hget
      exact ⟨htenant, huser, cString_cString _⟩
  | @switch containerId body row answer workspaceId reason hrow =>
    exact h.of_container rfl rfl (h.containers _ row hrow)
  | @cancel jobId body row answer reason eventId hrow =>
    exact h.of_job rfl rfl (cString_cString _) (h.jobs _ row hrow).2
  | @heartbeat jobId body row answer message eventId hrow =>
    exact h.of_job rfl rfl (cString_cString _) (h.jobs _ row hrow).2
  | @complete jobId body row answer message eventId status artifacts result hrow =>
    exact h.of_job rfl rfl (cString_cString _) (h.jobs _ row hrow).2
  | @claim body claim x answer message workerId eventId hrequest hnone hget =>
    exact h.of_job rfl rfl (h.jobs x.1 x.2 hget).1 (h.jobs x.1 x.2 hget).2
  | @claimStaying body claim containerId container x job held message answer workerId eventId
      hrequest hcontainer hrow hget =>
    exact h.of_job rfl rfl (h.jobs x.1 x.2 hget).1 (h.jobs x.1 x.2 hget).2
  | @claimMoving body claim containerId container x job held workerId answer eventId hrequest
      hcontainer hrow hget =>
    have hclaimed : Clean (claimedTables t now.time eventId workerId
        "compile container switched workspace" x) :=
      h.of_job rfl rfl (h.jobs x.1 x.2 hget).1 (h.jobs x.1 x.2 hget).2
    exact hclaimed.of_container rfl rfl (h.containers _ container hrow)

end clean

end StyioPlatform.Workspace.PostgresStore
