import Mathlib.Data.List.MinMax
import Mathlib.Data.Prod.Lex
import StyioPlatform.Lib.OrderedMap
import StyioPlatform.Lib.Transactions
import StyioPlatform.Workspace.Records

/-! The tables of the workspace and the SQL statements over them. A statement is modelled with the
rows it locks, the answer it returns and the rows it writes; `created_at` and `finished_at` are the
start of the transaction, as `now()` is. -/
namespace StyioPlatform.Workspace

structure WorkerRow where
  region : String
  workerPoolKey : String
  status : String
  capacity : ℤ
  deriving DecidableEq

structure ContainerRow where
  workerId : String
  tenantId : String
  userId : String
  currentWorkspaceId : String
  region : String
  workerPoolKey : String
  status : ContainerStatus
  capacity : ℤ
  workspaceGeneration : ℕ := 1
  createdAt : ℕ
  lastSwitchedAt : Option ℕ := none
  lastSwitchReason : Option String := none
  deriving DecidableEq

structure JobRow where
  tenantId : String
  userId : String
  workspaceId : String
  action : String
  status : JobStatus
  region : String
  workerPoolKey : String
  workerId : Option String := none
  request : Json
  result : Option Json := none
  createdAt : ℕ
  updatedAt : ℕ
  finishedAt : Option ℕ := none

structure EventRow where
  jobId : String
  status : JobStatus
  message : String
  createdAt : ℕ
  deriving DecidableEq

structure ArtifactRow where
  jobId : String
  objectKey : String
  kind : String
  deriving DecidableEq

/-- The tables; each is keyed by its primary key. -/
structure Tables where
  tenants : OrderedMap String Unit := .empty
  workers : OrderedMap String WorkerRow := .empty
  containers : OrderedMap String ContainerRow := .empty
  jobs : OrderedMap String JobRow := .empty
  events : OrderedMap ℕ EventRow := .empty
  artifacts : OrderedMap String ArtifactRow := .empty

/-- `platform_job_id_seq` and the sequence of `event_id`. -/
structure Sequences where
  job : ℕ := 1
  event : ℕ := 1

inductive Write where
  | tenant (tenantId : String)
  | worker (workerId : String) (row : WorkerRow)
  | container (containerId : String) (row : ContainerRow)
  /-- `SELECT … FOR UPDATE`. -/
  | lockContainer (containerId : String)
  | job (jobId : String) (row : JobRow)
  | event (eventId : ℕ) (row : EventRow)
  | artifact (artifactId : String) (row : ArtifactRow)
  | dropArtifact (artifactId : String)

/-- A row that can be locked. Rows of events are only ever inserted, under fresh numbers. -/
inductive Key where
  | tenant (tenantId : String)
  | worker (workerId : String)
  | container (containerId : String)
  | job (jobId : String)
  | artifact (artifactId : String)
  deriving DecidableEq

/-- What the server says no to. -/
inductive CommandFailure where
  | foreignKey
  | uniqueKey
  | invalidJson
  | abortedTransaction
  | disconnected
  deriving DecidableEq

inductive PostgresStoreError where
  | command (failure : CommandFailure)
  | workerNotRegistered
  | userBindingMismatch
  | workerOwnerMismatch
  | containerNotRegistered
  | noJobSequence
  | noContainerRow
  deriving DecidableEq

def PostgresStoreError.what : PostgresStoreError → String
  | .command _ => "postgres command failed"
  | .workerNotRegistered => "worker is not registered"
  | .userBindingMismatch => "compile container user binding mismatch"
  | .workerOwnerMismatch => "compile container worker owner mismatch"
  | .containerNotRegistered => "compile container is not registered"
  | .noJobSequence => "postgres did not return a job id sequence value"
  | .noContainerRow => "compile container registration did not return a row"

/-- The rows that a statement returns. -/
inductive Reply where
  | done
  | number (value : ℕ)
  | workers (workerIds : List String)
  | containers (rows : List (String × ContainerRow))
  | jobs (rows : List (String × JobRow))
  | events (rows : List (ℕ × EventRow))
  | artifacts (rows : List (String × ArtifactRow))

inductive Statement where
  | nextJobSequence
  | insertTenant (tenantId : String)
  | upsertJob (job : PlatformJobRecord)
  | selectJob (jobId : String)
  | selectArtifacts (jobId : String)
  | selectEvents (jobId : String)
  | insertEvent (jobId : String) (status : JobStatus) (message : String)
  | cancelJob (jobId : String)
  | upsertWorker (worker : WorkerRecord)
  | selectWorker (workerId region workerPoolKey : String)
  | lockContainer (containerId : String)
  | lockContainerFor (containerId workerId region workerPoolKey : String)
  | upsertContainer (container : CompileContainerRecord)
  | selectContainer (containerId : String)
  | switchContainer (containerId workerId workspaceId reason : String)
  /-- `ClaimJobSql`. -/
  | claimJob (region workerPoolKey workerId : String)
  | claimJobFor (region workerPoolKey workerId tenantId userId : String)
  | moveContainer (containerId workerId workspaceId : String)
  | heartbeatJob (jobId workerId : String)
  /-- `CompleteJobSql`. -/
  | completeJob (jobId : String) (status : Completion) (result : Json) (workerId : String)
  | deleteArtifacts (jobId : String)
  | insertArtifact (artifact : ArtifactRecord) (jobId : String)

/-- The statement as the server receives it: `ExecParams` passes every text as a C string. -/
def Statement.bound : Statement → Statement
  | nextJobSequence => nextJobSequence
  | insertTenant tenantId => insertTenant (cString tenantId)
  | upsertJob job => upsertJob
      { job with
        jobId := cString job.jobId
        tenantId := cString job.tenantId
        userId := cString job.userId
        workspaceId := cString job.workspaceId
        action := cString job.action
        region := cString job.region
        workerPoolKey := cString job.workerPoolKey }
  | selectJob jobId => selectJob (cString jobId)
  | selectArtifacts jobId => selectArtifacts (cString jobId)
  | selectEvents jobId => selectEvents (cString jobId)
  | insertEvent jobId status message => insertEvent (cString jobId) status (cString message)
  | cancelJob jobId => cancelJob (cString jobId)
  | upsertWorker worker => upsertWorker
      { worker with
        workerId := cString worker.workerId
        region := cString worker.region
        workerPoolKey := cString worker.workerPoolKey
        status := cString worker.status }
  | selectWorker workerId region workerPoolKey =>
    selectWorker (cString workerId) (cString region) (cString workerPoolKey)
  | lockContainer containerId => lockContainer (cString containerId)
  | lockContainerFor containerId workerId region workerPoolKey =>
    lockContainerFor (cString containerId) (cString workerId) (cString region)
      (cString workerPoolKey)
  | upsertContainer container => upsertContainer
      { container with
        containerId := cString container.containerId
        workerId := cString container.workerId
        tenantId := cString container.tenantId
        userId := cString container.userId
        currentWorkspaceId := cString container.currentWorkspaceId
        region := cString container.region
        workerPoolKey := cString container.workerPoolKey }
  | selectContainer containerId => selectContainer (cString containerId)
  | switchContainer containerId workerId workspaceId reason =>
    switchContainer (cString containerId) (cString workerId) (cString workspaceId) (cString reason)
  | claimJob region workerPoolKey workerId =>
    claimJob (cString region) (cString workerPoolKey) (cString workerId)
  | claimJobFor region workerPoolKey workerId tenantId userId =>
    claimJobFor (cString region) (cString workerPoolKey) (cString workerId) (cString tenantId)
      (cString userId)
  | moveContainer containerId workerId workspaceId =>
    moveContainer (cString containerId) (cString workerId) (cString workspaceId)
  | heartbeatJob jobId workerId => heartbeatJob (cString jobId) (cString workerId)
  | completeJob jobId status result workerId =>
    completeJob (cString jobId) status result (cString workerId)
  | deleteArtifacts jobId => deleteArtifacts (cString jobId)
  | insertArtifact artifact jobId =>
    insertArtifact ⟨cString artifact.artifactId, cString artifact.objectKey, cString artifact.kind⟩
      (cString jobId)

/-- The moment of a statement: the time, and the order in which equal `created_at` are read. -/
structure Moment where
  time : ℕ
  rank : String → ℕ := fun _ => 0

/-- What depends on the installation: the order of texts in `ORDER BY`, and the text of a time. -/
structure Settings where
  collates : String → String → Bool
  total : ∀ a b, collates a b || collates b a
  trans : ∀ a b c, collates a b → collates b c → collates a c
  antisymm : ∀ a b, collates a b → collates b a → a = b
  timestamp : ℕ → String
  timestamp_ne : ∀ n, timestamp n ≠ ""

def sampleSettings : Settings where
  collates a b := decide (a ≤ b)
  total a b := by simpa using le_total a b
  trans a b c := by simpa using le_trans
  antisymm a b := by simpa using le_antisymm
  timestamp _ := "2026-04-24T00:00:00Z"
  timestamp_ne _ := by decide

namespace Tables

def apply (t : Tables) : Write → Tables
  | .tenant tenantId => { t with tenants := t.tenants.set tenantId () }
  | .worker workerId row => { t with workers := t.workers.set workerId row }
  | .container containerId row => { t with containers := t.containers.set containerId row }
  | .lockContainer _ => t
  | .job jobId row => { t with jobs := t.jobs.set jobId row }
  | .event eventId row => { t with events := t.events.set eventId row }
  | .artifact artifactId row => { t with artifacts := t.artifacts.set artifactId row }
  | .dropArtifact artifactId => { t with artifacts := t.artifacts.erase artifactId }

end Tables

/-- The row that a write locks. -/
def Write.key : Write → Option Key
  | tenant tenantId => some (.tenant tenantId)
  | worker workerId _ => some (.worker workerId)
  | container containerId _ => some (.container containerId)
  | lockContainer containerId => some (.container containerId)
  | job jobId _ => some (.job jobId)
  | event _ _ => none
  | artifact artifactId _ => some (.artifact artifactId)
  | dropArtifact artifactId => some (.artifact artifactId)

/-- The `WHERE` of `CancelJob`. -/
def JobRow.cancellable (row : JobRow) : Bool := row.status = .queued ∨ row.status = .running

/-- The `WHERE` of `HeartbeatJob` and `CompleteJobSql`. -/
def JobRow.runsFor (workerId : String) (row : JobRow) : Bool :=
  row.workerId = some workerId ∧ row.status = .running

/-- The `WHERE` of `ClaimJobSql`. -/
def JobRow.waitsFor (region workerPoolKey : String) (row : JobRow) : Bool :=
  row.status = .queued ∧ row.region = region ∧ row.workerPoolKey = workerPoolKey

/-- The `WHERE` of the claim for a compile container. -/
def JobRow.waitsForUser (region workerPoolKey tenantId userId : String) (row : JobRow) : Bool :=
  row.waitsFor region workerPoolKey ∧ row.tenantId = tenantId ∧ row.userId = userId

/-- The `WHERE` on the worker of a registration or a claim. -/
def WorkerRow.serves (region workerPoolKey : String) (row : WorkerRow) : Bool :=
  row.region = region ∧ row.workerPoolKey = workerPoolKey

def ContainerRow.availableTo (workerId region workerPoolKey : String) (row : ContainerRow) : Bool :=
  row.workerId = workerId ∧ row.region = region ∧ row.workerPoolKey = workerPoolKey ∧
    row.status = .active

def ContainerRow.switchableBy (workerId : String) (row : ContainerRow) : Bool :=
  row.workerId = workerId ∧ row.status = .active

namespace Tables

/-- The row of a key, where it satisfies a condition. -/
def find {ρ : Type} (table : OrderedMap String ρ) (key : String) (condition : ρ → Bool) : Option ρ :=
  (table.get key).filter condition

/-- The rows of artifacts of a job. -/
def artifactsOf (t : Tables) (jobId : String) : List (String × ArtifactRow) :=
  t.artifacts.entries.filter fun x => x.2.jobId = jobId

def eventsOf (t : Tables) (jobId : String) : List (ℕ × EventRow) :=
  t.events.entries.filter fun x => x.2.jobId = jobId

/-- The row that a claim selects: the oldest that is wanted and not locked. -/
def candidate (t : Tables) (now : Moment) (locked : Key → Bool) (wanted : JobRow → Bool) :
    Option (String × JobRow) :=
  (t.jobs.entries.filter fun x => wanted x.2 && !locked (.job x.1)).argmin
    fun x => toLex (x.2.createdAt, now.rank x.1)

/-- The rows that a statement waits for. A claim skips the locked ones. -/
def needs (t : Tables) : Statement → List Key
  | .insertTenant tenantId => if (t.tenants.get tenantId).isSome then [] else [.tenant tenantId]
  | .upsertJob job => [.job job.jobId]
  | .cancelJob jobId => if (find t.jobs jobId (·.cancellable)).isSome then [.job jobId] else []
  | .upsertWorker worker => [.worker worker.workerId]
  | .lockContainer containerId =>
    if (t.containers.get containerId).isSome then [.container containerId] else []
  | .lockContainerFor containerId workerId region workerPoolKey =>
    if (find t.containers containerId (·.availableTo workerId region workerPoolKey)).isSome then
      [.container containerId] else []
  | .upsertContainer container => [.container container.containerId]
  | .switchContainer containerId workerId _ _ =>
    if (find t.containers containerId (·.switchableBy workerId)).isSome then
      [.container containerId] else []
  | .moveContainer containerId workerId _ =>
    if (find t.containers containerId (·.workerId = workerId)).isSome then
      [.container containerId] else []
  | .heartbeatJob jobId workerId | .completeJob jobId _ _ workerId =>
    if (find t.jobs jobId (·.runsFor workerId)).isSome then [.job jobId] else []
  | .deleteArtifacts jobId => (t.artifactsOf jobId).map (.artifact ·.1)
  | .insertArtifact artifact _ => [.artifact artifact.artifactId]
  | _ => []

/-- `INSERT INTO platform_jobs … ON CONFLICT (job_id) DO UPDATE …`. -/
def upsertedJob (t : Tables) (time : ℕ) (job : PlatformJobRecord) : JobRow :=
  match t.jobs.get job.jobId with
  | none =>
    { tenantId := job.tenantId, userId := job.userId, workspaceId := job.workspaceId
      action := job.action, status := job.status, region := job.region
      workerPoolKey := job.workerPoolKey, request := job.jobRequest, createdAt := time
      updatedAt := time }
  | some row =>
    { row with
      status := job.status, workerId := none, userId := job.userId
      workspaceId := job.workspaceId, request := job.jobRequest, updatedAt := time
      finishedAt := none }

/-- `INSERT INTO platform_compile_containers … ON CONFLICT (container_id) DO UPDATE …`. -/
def upsertedContainer (t : Tables) (time : ℕ) (container : CompileContainerRecord) : ContainerRow :=
  match t.containers.get container.containerId with
  | none =>
    { workerId := container.workerId, tenantId := container.tenantId, userId := container.userId
      currentWorkspaceId := container.currentWorkspaceId, region := container.region
      workerPoolKey := container.workerPoolKey, status := container.status
      capacity := container.capacity, createdAt := time }
  | some row =>
    { row with
      workerId := container.workerId, currentWorkspaceId := container.currentWorkspaceId
      region := container.region, workerPoolKey := container.workerPoolKey
      status := container.status, capacity := container.capacity }

end Tables

/-- The row after a switch of the workspace, whose generation counts the changes. -/
def ContainerRow.switched (row : ContainerRow) (time : ℕ) (workspaceId reason : String) :
    ContainerRow :=
  { row with
    workspaceGeneration :=
      if row.currentWorkspaceId = workspaceId then row.workspaceGeneration
      else row.workspaceGeneration + 1
    currentWorkspaceId := workspaceId
    lastSwitchedAt :=
      if row.currentWorkspaceId = workspaceId then row.lastSwitchedAt else some time
    lastSwitchReason :=
      if row.currentWorkspaceId = workspaceId then row.lastSwitchReason else some reason }

/-- The row after the switch that is part of a claim. -/
def ContainerRow.moved (row : ContainerRow) (time : ℕ) (workspaceId : String) : ContainerRow :=
  { row with
    currentWorkspaceId := workspaceId
    workspaceGeneration := row.workspaceGeneration + 1
    lastSwitchedAt := some time
    lastSwitchReason := some "claimJob" }

def JobRow.cancelled (row : JobRow) (time : ℕ) : JobRow :=
  { row with status := .cancelled, updatedAt := time, finishedAt := some time }

def JobRow.claimed (row : JobRow) (time : ℕ) (workerId : String) : JobRow :=
  { row with status := .running, workerId := some workerId, updatedAt := time }

def JobRow.completed (row : JobRow) (time : ℕ) (status : Completion) (result : Json) : JobRow :=
  { row with
    status := status.status, result := some result, updatedAt := time, finishedAt := some time }

/-- An `UPDATE … RETURNING` of at most one job. -/
def updateJob (jobId : String) : Option JobRow → Reply × List Write
  | none => (.jobs [], [])
  | some row => (.jobs [(jobId, row)], [.job jobId row])

/-- An `UPDATE … RETURNING` of at most one compile container. -/
def updateContainer (containerId : String) : Option ContainerRow → Reply × List Write
  | none => (.containers [], [])
  | some row => (.containers [(containerId, row)], [.container containerId row])

/-- A `SELECT … FOR UPDATE` of at most one compile container. -/
def selectForUpdate (containerId : String) : Option ContainerRow → Reply × List Write
  | none => (.containers [], [])
  | some row => (.containers [(containerId, row)], [.lockContainer containerId])

def claimRow (time : ℕ) (workerId : String) : Option (String × JobRow) → Reply × List Write
  | none => (.jobs [], [])
  | some x => updateJob x.1 (some (x.2.claimed time workerId))

namespace Tables

open Statement

/-- The answer to a statement and what it writes. -/
def answer (settings : Settings) (start now : Moment) (locked : Key → Bool) (q : Sequences)
    (t : Tables) (statement : Statement) :
    Except PostgresStoreError (Reply × List Write) × Sequences :=
  match statement with
  | nextJobSequence => (.ok (.number q.job, []), { q with job := q.job + 1 })
  | insertTenant tenantId =>
    (.ok (.done, if (t.tenants.get tenantId).isSome then [] else [.tenant tenantId]), q)
  | upsertJob job =>
    if job.jobRequest.anyNul then (.error (.command .invalidJson), q)
    else if (t.tenants.get job.tenantId).isNone then (.error (.command .foreignKey), q)
    else (.ok (.done, [.job job.jobId (t.upsertedJob start.time job)]), q)
  | selectJob jobId => (.ok (.jobs ((t.jobs.get jobId).toList.map (jobId, ·)), []), q)
  | selectArtifacts jobId =>
    (.ok (.artifacts ((t.artifactsOf jobId).insertionSort fun a b => settings.collates a.1 b.1),
      []), q)
  | selectEvents jobId => (.ok (.events (t.eventsOf jobId), []), q)
  | insertEvent jobId status message =>
    if (t.jobs.get jobId).isNone then
      (.error (.command .foreignKey), { q with event := q.event + 1 })
    else (.ok (.done, [.event q.event ⟨jobId, status, message, start.time⟩]),
      { q with event := q.event + 1 })
  | cancelJob jobId =>
    (.ok (updateJob jobId ((find t.jobs jobId (·.cancellable)).map (·.cancelled start.time))), q)
  | upsertWorker worker =>
    (.ok (.done, [.worker worker.workerId
      ⟨worker.region, worker.workerPoolKey, worker.status, worker.capacity⟩]), q)
  | selectWorker workerId region workerPoolKey =>
    (.ok (.workers ((find t.workers workerId (·.serves region workerPoolKey)).toList.map
      fun _ => workerId), []), q)
  | lockContainer containerId =>
    (.ok (selectForUpdate containerId (t.containers.get containerId)), q)
  | lockContainerFor containerId workerId region workerPoolKey =>
    (.ok (selectForUpdate containerId
      (find t.containers containerId (·.availableTo workerId region workerPoolKey))), q)
  | upsertContainer container =>
    if (t.workers.get container.workerId).isNone then (.error (.command .foreignKey), q)
    else (.ok (.done,
      [.container container.containerId (t.upsertedContainer start.time container)]), q)
  | selectContainer containerId =>
    (.ok (.containers ((t.containers.get containerId).toList.map (containerId, ·)), []), q)
  | switchContainer containerId workerId workspaceId reason =>
    (.ok (updateContainer containerId ((find t.containers containerId
      (·.switchableBy workerId)).map (·.switched start.time workspaceId reason))), q)
  | claimJob region workerPoolKey workerId =>
    (.ok (claimRow start.time workerId
      (t.candidate now locked (·.waitsFor region workerPoolKey))), q)
  | claimJobFor region workerPoolKey workerId tenantId userId =>
    (.ok (claimRow start.time workerId
      (t.candidate now locked (·.waitsForUser region workerPoolKey tenantId userId))), q)
  | moveContainer containerId workerId workspaceId =>
    (.ok (updateContainer containerId ((find t.containers containerId
      (·.workerId = workerId)).map (·.moved start.time workspaceId))), q)
  | heartbeatJob jobId workerId =>
    (.ok (updateJob jobId ((find t.jobs jobId (·.runsFor workerId)).map
      fun row => { row with updatedAt := start.time })), q)
  | completeJob jobId status result workerId =>
    if result.anyNul then (.error (.command .invalidJson), q)
    else (.ok (updateJob jobId ((find t.jobs jobId (·.runsFor workerId)).map
      (·.completed start.time status result))), q)
  | deleteArtifacts jobId =>
    (.ok (.done, (t.artifactsOf jobId).map fun x => .dropArtifact x.1), q)
  | insertArtifact artifact jobId =>
    if (t.artifacts.get artifact.artifactId).isSome then (.error (.command .uniqueKey), q)
    else if (t.jobs.get jobId).isNone then (.error (.command .foreignKey), q)
    else (.ok (.done,
      [.artifact artifact.artifactId ⟨jobId, artifact.objectKey, artifact.kind⟩]), q)

end Tables

end StyioPlatform.Workspace
