import StyioPlatform.Workspace.ControlPlane

/-! What one request can do to `MemoryStateStore`, and the runs of the router. -/
namespace StyioPlatform.Workspace.MemoryStateStore

/-- Everything that a handler can do to the store, with the checks that come before it. -/
inductive Step (configRegion : String) (m : MemoryStateStore) :
    Request → MemoryStateStore → Prop
  | stay {request} : Step configRegion m request m
  /-- The number is taken, and then the record cannot be built. -/
  | numbered {body} : Step configRegion m (.submitJob body) m.nextJobId.2
  | submit {body job} (hjob : buildQueuedJobRecord body configRegion m.nextJobId.1 = some job) :
      Step configRegion m (.submitJob body) (m.nextJobId.2.submitJob job)
  | cancel {jobId body reason job m'} (hreason : body.textField "reason" = some reason)
      (hcancel : m.cancelJob jobId reason = some (job, m')) :
      Step configRegion m (.cancelJob jobId body) m'
  | registerWorker {body worker} (hworker : workerFromRequest body = .ok worker) :
      Step configRegion m (.registerWorker body) (m.registerWorker worker)
  | registerContainer {body m'}
      (hregister : m.registerCompileContainer (createFromRegistration body) = .ok m') :
      Step configRegion m (.registerCompileContainer body) m'
  | switch {containerId body workerId workspaceId reason container m'}
      (hswitch : m.switchCompileContainerWorkspace containerId workerId workspaceId reason =
        .ok (some (container, m'))) :
      Step configRegion m (.switchCompileContainerWorkspace containerId body) m'
  | claim {body claim job m'} (hrequest : claimFromRequest body = .ok claim)
      (hclaim : m.claim claim = .ok (some (job, m'))) : Step configRegion m (.claimJob body) m'
  | heartbeat {jobId body workerId message job m'}
      (hbeat : m.heartbeatJob jobId workerId message = some (job, m')) :
      Step configRegion m (.heartbeatJob jobId body) m'
  | complete {jobId body workerId completion message job m'}
      (hworker : body.textField "worker_id" = some workerId)
      (hrequest : completionFromRequest body = .ok completion)
      (hmessage : body.textOr "message" "job completed" = some message)
      (hcomplete : m.completeJob jobId workerId completion.status message completion.artifacts =
        some (job, m')) :
      Step configRegion m (.completeJob jobId body) m'

variable {configRegion : String} {m m' : MemoryStateStore} {request : Request} {id : String}

theorem step_handle (configRegion : String) (request : Request) (m : MemoryStateStore) :
    Step configRegion m request (handle configRegion request m).2 := by
  cases request with
  | submitJob body =>
    simp only [handle, handleSubmitJob]
    split
    · exact .stay
    · split
      · exact .numbered
      · rename_i job hjob
        exact .submit hjob
  | getJob jobId =>
    simp only [handle, handleGetJob]
    split <;> exact .stay
  | getJobEvents jobId =>
    simp only [handle, handleGetJobEvents]
    split <;> exact .stay
  | cancelJob jobId body =>
    simp only [handle, handleCancelJob]
    split
    · exact .stay
    · rename_i reason hreason
      split
      · exact .stay
      · rename_i hcancel
        exact .cancel hreason hcancel
  | registerWorker body =>
    simp only [handle, handleRegisterWorker]
    split
    · exact .stay
    · rename_i worker hworker
      exact .registerWorker hworker
  | registerCompileContainer body =>
    simp only [handle, handleRegisterCompileContainer]
    split
    · exact .stay
    · exact .stay
    · split
      · exact .stay
      · rename_i hregister
        exact .registerContainer hregister
  | getCompileContainer containerId =>
    simp only [handle, handleGetCompileContainer]
    split <;> exact .stay
  | switchCompileContainerWorkspace containerId body =>
    simp only [handle, handleSwitchCompileContainerWorkspace]
    split
    · exact .stay
    · split
      · exact .stay
      · split
        · exact .stay
        · split
          · exact .stay
          · exact .stay
          · rename_i hswitch
            exact .switch hswitch
  | claimJob body =>
    simp only [handle, handleClaimJob]
    split
    · exact .stay
    · rename_i claim hrequest
      split
      · exact .stay
      · exact .stay
      · rename_i hclaim
        exact .claim hrequest hclaim
  | heartbeatJob jobId body =>
    simp only [handle, handleHeartbeatJob]
    split
    · exact .stay
    · split
      · exact .stay
      · split
        · exact .stay
        · split
          · exact .stay
          · rename_i hbeat
            exact .heartbeat hbeat
  | completeJob jobId body =>
    simp only [handle, handleCompleteJob]
    split
    · exact .stay
    · split
      · exact .stay
      · rename_i hworker
        split
        · exact .stay
        · rename_i completion hrequest
          split
          · exact .stay
          · rename_i message hmessage
            split
            · exact .stay
            · rename_i hcomplete
              exact .complete (not_not.mp hworker) hrequest hmessage hcomplete

@[simp] theorem pushEvent_jobs {event : JobEventRecord} : (m.pushEvent event).jobs = m.jobs := rfl

@[simp] theorem pushEvent_workers {event : JobEventRecord} :
    (m.pushEvent event).workers = m.workers := rfl

@[simp] theorem pushEvent_compileContainers {event : JobEventRecord} :
    (m.pushEvent event).compileContainers = m.compileContainers := rfl

@[simp] theorem putJob_jobs {job : PlatformJobRecord} :
    (m.putJob id job).jobs = m.jobs.set id job := rfl

@[simp] theorem putJob_workers {job : PlatformJobRecord} : (m.putJob id job).workers = m.workers := rfl

@[simp] theorem putJob_compileContainers {job : PlatformJobRecord} :
    (m.putJob id job).compileContainers = m.compileContainers := rfl

@[simp] theorem putContainer_jobs {container : CompileContainerRecord} :
    (m.putContainer id container).jobs = m.jobs := rfl

@[simp] theorem putContainer_workers {container : CompileContainerRecord} :
    (m.putContainer id container).workers = m.workers := rfl

@[simp] theorem putContainer_compileContainers {container : CompileContainerRecord} :
    (m.putContainer id container).compileContainers = m.compileContainers.set id container := rfl

/-- The entry that a claim takes: the loop's, or the one for the user of the container. -/
def candidate (m : MemoryStateStore) (claim : ClaimRequest) : Option (String × PlatformJobRecord) :=
  match claim.compileContainerId with
  | none => m.claimable claim.region claim.workerPoolKey
  | some containerId => (m.compileContainers.get containerId).bind
      (m.claimableFor claim.region claim.workerPoolKey)

theorem candidate_spec {claim : ClaimRequest} {found : String × PlatformJobRecord}
    (h : m.candidate claim = some found) : m.jobs.get found.1 = some found.2 ∧
      found.2.status = .queued ∧ found.2.region = claim.region ∧
      found.2.workerPoolKey = claim.workerPoolKey := by
  unfold candidate at h
  split at h
  · obtain ⟨hget, hfound⟩ := OrderedMap.first_eq_some h
    simp_all
  · rw [Option.bind_eq_some_iff] at h
    obtain ⟨container, -, h⟩ := h
    obtain ⟨hget, hfound⟩ := OrderedMap.first_eq_some h
    simp_all

/-- A claim that returns a job has moved the candidate, for a worker that is known. -/
theorem claim_spec {claim : ClaimRequest} {job : PlatformJobRecord}
    (h : m.claim claim = .ok (some (job, m'))) :
    ∃ found worker, m.candidate claim = some found ∧ m.workers.get claim.workerId = some worker ∧
      m'.jobs = m.jobs.set found.1 (claimed found.2 claim.workerId) ∧
      job = claimed found.2 claim.workerId := by
  unfold MemoryStateStore.claim at h
  split at h
  · rename_i containerId hcontainer
    simp only [claimJobForCompileContainer] at h
    split at h
    · cases h
    · rename_i worker hworker
      split at h
      · cases h
      · rename_i container hget
        split at h
        · cases h
        · simp only [Except.ok.injEq, Option.map_eq_some_iff, Prod.mk.injEq] at h
          obtain ⟨found, hfound, rfl, rfl⟩ := h
          refine ⟨found, worker, by simp [candidate, hcontainer, hget, hfound], hworker, ?_, rfl⟩
          split <;> simp
  · rename_i hcontainer
    simp only [claimJob] at h
    split at h
    · cases h
    · rename_i worker hworker
      simp only [Except.ok.injEq, Option.map_eq_some_iff, Prod.mk.injEq] at h
      obtain ⟨found, hfound, rfl, rfl⟩ := h
      exact ⟨found, worker, by simp [candidate, hcontainer, hfound], hworker, by simp, rfl⟩

/-- The store after a run of requests. -/
def run (configRegion : String) (requests : List Request) : MemoryStateStore :=
  requests.foldl (fun m request => (handle configRegion request m).2) {}

theorem run_append_singleton {before : List Request} :
    run configRegion (before ++ [request]) =
      (handle configRegion request (run configRegion before)).2 := by
  simp [run]

end StyioPlatform.Workspace.MemoryStateStore
