import StyioPlatform.Lib.OrderedMap
import StyioPlatform.Workspace.Records

/-! `MemoryStateStore`: jobs, workers and compile containers kept in maps. A call that throws or
answers `nullopt` leaves the store as it was. -/
namespace StyioPlatform.Workspace

structure MemoryStateStore where
  jobs : OrderedMap String PlatformJobRecord := .empty
  events : OrderedMap String (List JobEventRecord) := .empty
  workers : OrderedMap String WorkerRecord := .empty
  compileContainers : OrderedMap String CompileContainerRecord := .empty
  /-- A `size_t`. -/
  nextJobSequence : ℕ := 1

inductive MemoryStateStoreError where
  | workerNotRegistered
  | workerMismatch
  | userBindingMismatch
  | workerOwnerMismatch
  | notOwner
  | containerNotRegistered
  | containerNotAvailable
  deriving DecidableEq

def MemoryStateStoreError.what : MemoryStateStoreError → String
  | .workerNotRegistered => "worker is not registered"
  | .workerMismatch => "worker region or pool does not match container"
  | .userBindingMismatch => "compile container user binding mismatch"
  | .workerOwnerMismatch => "compile container worker owner mismatch"
  | .notOwner => "worker does not own compile container"
  | .containerNotRegistered => "compile container is not registered"
  | .containerNotAvailable => "compile container is not available for this worker"

namespace MemoryStateStore

def nextJobId (m : MemoryStateStore) : String × MemoryStateStore :=
  (jobIdFor m.nextJobSequence, { m with nextJobSequence := (m.nextJobSequence + 1) % 2 ^ 64 })

/-- `events_[job_id].push_back(event)`. -/
def pushEvent (m : MemoryStateStore) (event : JobEventRecord) : MemoryStateStore :=
  { m with events := m.events.set event.jobId ((m.events.get event.jobId).getD [] ++ [event]) }

def putJob (m : MemoryStateStore) (jobId : String) (job : PlatformJobRecord) : MemoryStateStore :=
  { m with jobs := m.jobs.set jobId job }

def putContainer (m : MemoryStateStore) (containerId : String)
    (container : CompileContainerRecord) : MemoryStateStore :=
  { m with compileContainers := m.compileContainers.set containerId container }

def submitJob (m : MemoryStateStore) (job : PlatformJobRecord) : MemoryStateStore :=
  (m.putJob job.jobId job).pushEvent
    { eventId := "event-queued", jobId := job.jobId, status := .queued, message := "job queued" }

def getJob (m : MemoryStateStore) (jobId : String) : Option PlatformJobRecord := m.jobs.get jobId

def getJobEvents (m : MemoryStateStore) (jobId : String) : List JobEventRecord :=
  (m.events.get jobId).getD []

def cancelJob (m : MemoryStateStore) (jobId reason : String) :
    Option (PlatformJobRecord × MemoryStateStore) :=
  (m.jobs.get jobId).map fun found =>
    let job := { found with status := .cancelled, finishedAt := "2026-04-24T00:01:00Z" }
    (job, (m.putJob jobId job).pushEvent
      { eventId := "event-cancelled", jobId := job.jobId, status := .cancelled, message := reason,
        createdAt := job.finishedAt })

def registerWorker (m : MemoryStateStore) (worker : WorkerRecord) : MemoryStateStore :=
  { m with workers := m.workers.set worker.workerId worker }

def registerCompileContainer (m : MemoryStateStore) (container : CompileContainerRecord) :
    Except MemoryStateStoreError MemoryStateStore :=
  match m.workers.get container.workerId with
  | none => .error .workerNotRegistered
  | some worker =>
    if worker.region ≠ container.region ∨ worker.workerPoolKey ≠ container.workerPoolKey then
      .error .workerMismatch
    else
      match m.compileContainers.get container.containerId with
      | none => .ok (m.putContainer container.containerId container)
      | some existing =>
        if existing.tenantId ≠ container.tenantId ∨ existing.userId ≠ container.userId then
          .error .userBindingMismatch
        else if existing.workerId ≠ container.workerId then .error .workerOwnerMismatch
        else .ok (m.putContainer container.containerId container)

def getCompileContainer (m : MemoryStateStore) (containerId : String) :
    Option CompileContainerRecord :=
  m.compileContainers.get containerId

/-- The record after a switch that changes the workspace. -/
def switched (container : CompileContainerRecord) (workspaceId reason : String) :
    CompileContainerRecord :=
  { container with
    currentWorkspaceId := workspaceId
    workspaceGeneration := container.workspaceGeneration + 1
    lastSwitchedAt := "2026-04-24T00:01:00Z"
    lastSwitchReason := reason }

def switchCompileContainerWorkspace (m : MemoryStateStore)
    (containerId workerId workspaceId reason : String) :
    Except MemoryStateStoreError (Option (CompileContainerRecord × MemoryStateStore)) :=
  match m.compileContainers.get containerId with
  | none => .ok none
  | some container =>
    if container.workerId ≠ workerId then .error .notOwner
    else if container.status ≠ .active then .ok none
    else if container.currentWorkspaceId ≠ workspaceId then
      let container := switched container workspaceId reason
      .ok (some (container, m.putContainer containerId container))
    else .ok (some (container, m))

/-- The entry that the loop of `ClaimJob` stops at. -/
def claimable (m : MemoryStateStore) (region workerPoolKey : String) :
    Option (String × PlatformJobRecord) :=
  m.jobs.first fun job =>
    job.status = .queued ∧ job.region = region ∧ job.workerPoolKey = workerPoolKey

/-- The entry that the loop of `ClaimJobForCompileContainer` stops at. -/
def claimableFor (m : MemoryStateStore) (region workerPoolKey : String)
    (container : CompileContainerRecord) : Option (String × PlatformJobRecord) :=
  m.jobs.first fun job =>
    job.status = .queued ∧ job.region = region ∧ job.workerPoolKey = workerPoolKey ∧
      job.tenantId = container.tenantId ∧ job.userId = container.userId

/-- The record of a job that a worker has claimed. -/
def claimed (job : PlatformJobRecord) (workerId : String) : PlatformJobRecord :=
  { job with status := .running, workerId }

def claimJob (m : MemoryStateStore) (workerId region workerPoolKey : String) :
    Except MemoryStateStoreError (Option (PlatformJobRecord × MemoryStateStore)) :=
  match m.workers.get workerId with
  | none => .error .workerNotRegistered
  | some _ => .ok ((m.claimable region workerPoolKey).map fun found =>
      let job := claimed found.2 workerId
      (job, (m.putJob found.1 job).pushEvent
        { eventId := "event-running", jobId := found.1, status := .running,
          message := "job claimed by worker" }))

def claimJobForCompileContainer (m : MemoryStateStore)
    (workerId region workerPoolKey containerId : String) :
    Except MemoryStateStoreError (Option (PlatformJobRecord × MemoryStateStore)) :=
  match m.workers.get workerId with
  | none => .error .workerNotRegistered
  | some _ =>
    match m.compileContainers.get containerId with
    | none => .error .containerNotRegistered
    | some container =>
      if container.workerId ≠ workerId ∨ container.region ≠ region ∨
          container.workerPoolKey ≠ workerPoolKey ∨ container.status ≠ .active then
        .error .containerNotAvailable
      else .ok ((m.claimableFor region workerPoolKey container).map fun found =>
        let job := claimed found.2 workerId
        let running := m.putJob found.1 job
        let moved :=
          if container.currentWorkspaceId ≠ job.workspaceId then
            (running.putContainer containerId (switched container job.workspaceId "claimJob")).pushEvent
              { eventId := "event-workspace-switched", jobId := found.1, status := .running,
                message := "compile container switched workspace" }
          else running
        (job, moved.pushEvent
          { eventId := "event-running", jobId := found.1, status := .running,
            message := "job claimed by compile container" }))

def heartbeatJob (m : MemoryStateStore) (jobId workerId message : String) :
    Option (PlatformJobRecord × MemoryStateStore) :=
  ((m.jobs.get jobId).filter fun job => job.workerId = workerId).map fun job =>
    (job, m.pushEvent
      { eventId := "event-heartbeat", jobId := job.jobId, status := job.status, message })

/-- The record of a job that a worker has completed. -/
def completed (job : PlatformJobRecord) (status : Completion) (artifacts : List ArtifactRecord) :
    PlatformJobRecord :=
  { job with
    status := status.status
    finishedAt := "2026-04-24T00:02:00Z"
    artifacts := job.artifacts ++ artifacts }

def completeJob (m : MemoryStateStore) (jobId workerId : String) (status : Completion)
    (message : String) (artifacts : List ArtifactRecord) :
    Option (PlatformJobRecord × MemoryStateStore) :=
  ((m.jobs.get jobId).filter fun job => job.workerId = workerId).map fun found =>
    let job := completed found status artifacts
    (job, (m.putJob jobId job).pushEvent
      { eventId := "event-completed", jobId := job.jobId, status := job.status, message,
        createdAt := job.finishedAt })

end MemoryStateStore

end StyioPlatform.Workspace
