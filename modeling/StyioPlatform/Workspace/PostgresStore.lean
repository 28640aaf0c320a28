import StyioPlatform.Workspace.PostgresTables

/-! `PostgresStore`: the calls of the store as scripts of SQL commands. -/
namespace StyioPlatform.Workspace

namespace Tables

variable {settings : Settings} {start now : Moment} {locked : Key → Bool} {q q' : Sequences}
  {t : Tables} {s : Statement} {r : Reply} {ws : List Write}

theorem candidate_spec {wanted : JobRow → Bool} {x : String × JobRow}
    (h : t.candidate now locked wanted = some x) :
    t.jobs.get x.1 = some x.2 ∧ wanted x.2 = true ∧ locked (.job x.1) = false := by
  have hmem := List.argmin_mem h
  rw [List.mem_filter] at hmem
  obtain ⟨hentry, hwanted⟩ := hmem
  simp only [Bool.and_eq_true, Bool.not_eq_true'] at hwanted
  exact ⟨OrderedMap.mem_entries.mp hentry, hwanted.1, hwanted.2⟩

theorem find_eq_some {ρ : Type} {table : OrderedMap String ρ} {key : String} {p : ρ → Bool} {row : ρ} :
    find table key p = some row ↔ table.get key = some row ∧ p row = true := by
  simp [find]

/-- A statement that does not wait writes no row that another transaction has locked. -/
theorem unlocked (hneeds : ∀ k ∈ t.needs s, locked k = false)
    (h : t.answer settings start now locked q s = (.ok (r, ws), q')) :
    ∀ w ∈ ws, ∀ k ∈ w.key, locked k = false := by
  cases s with
  | claimJob region pool workerId =>
    simp only [answer, claimRow, updateJob, Prod.mk.injEq, Except.ok.injEq] at h
    split at h
    · simp_all
    · rename_i x hx
      simp only [Prod.mk.injEq] at h
      obtain ⟨⟨-, rfl⟩, -⟩ := h
      simpa [Write.key] using (candidate_spec hx).2.2
  | claimJobFor region pool workerId tenantId userId =>
    simp only [answer, claimRow, updateJob, Prod.mk.injEq, Except.ok.injEq] at h
    split at h
    · simp_all
    · rename_i x hx
      simp only [Prod.mk.injEq] at h
      obtain ⟨⟨-, rfl⟩, -⟩ := h
      simpa [Write.key] using (candidate_spec hx).2.2
  | _ =>
    simp only [answer, updateJob, updateContainer, selectForUpdate] at h
    repeat' split at h
    all_goals first
      | (simp only [Prod.mk.injEq, reduceCtorEq, false_and] at h; done)
      | (simp only [Prod.mk.injEq, Except.ok.injEq] at h
         obtain ⟨⟨-, rfl⟩, -⟩ := h
         simp_all [needs, Write.key])
    all_goals grind

end Tables

/-- The statements of the workspace under READ COMMITTED. -/
def dialect (settings : Settings) :
    Dialect Moment Tables Sequences Write Key Statement Reply PostgresStoreError where
  apply := Tables.apply
  key := Write.key
  needs := Tables.needs
  answer start now locked q t s := t.answer settings start now locked q s
  acknowledged := .done
  aborted := .command .abortedTransaction
  unlocked := Tables.unlocked

namespace Reply

def jobRows : Reply → List (String × JobRow)
  | jobs rows => rows
  | _ => []

def containerRows : Reply → List (String × ContainerRow)
  | containers rows => rows
  | _ => []

def workerIds : Reply → List String
  | workers ids => ids
  | _ => []

def artifactRows : Reply → List (String × ArtifactRow)
  | artifacts rows => rows
  | _ => []

def eventRows : Reply → List (ℕ × EventRow)
  | events rows => rows
  | _ => []

end Reply

/-- A call of the store, a script that ends with a value or a `PostgresStoreError`. -/
abbrev StoreCall (α : Type) : Type := Script Statement Reply PostgresStoreError α

namespace PostgresStore

open Statement

/-- `ExecParams`. -/
def execParams (s : Statement) : StoreCall Reply := Script.query s.bound

def exec (c : Command Statement) : StoreCall Unit := Script.exec c

/-- `try { body } catch (...) { Exec("ROLLBACK"); throw; }`. -/
def orRollback {α : Type} (body : StoreCall α) : StoreCall α :=
  body.tryCatch fun error => do
    exec .rollback
    Script.throw error

section load

variable (settings : Settings)

def loadJobRow (jobId : String) (row : JobRow) : PlatformJobRecord where
  jobId
  tenantId := row.tenantId
  userId := row.userId
  workspaceId := row.workspaceId
  action := row.action
  status := row.status
  region := row.region
  workerPoolKey := row.workerPoolKey
  createdAt := settings.timestamp row.createdAt
  workerId := row.workerId.getD ""
  finishedAt := (row.finishedAt.map settings.timestamp).getD ""
  jobRequest := row.request

def loadCompileContainerRow (containerId : String) (row : ContainerRow) :
    CompileContainerRecord where
  containerId
  workerId := row.workerId
  tenantId := row.tenantId
  userId := row.userId
  currentWorkspaceId := row.currentWorkspaceId
  region := row.region
  workerPoolKey := row.workerPoolKey
  status := row.status
  capacity := row.capacity
  workspaceGeneration := row.workspaceGeneration
  createdAt := settings.timestamp row.createdAt
  lastSwitchedAt := (row.lastSwitchedAt.map settings.timestamp).getD ""
  lastSwitchReason := row.lastSwitchReason.getD ""

def loadEventRow (eventId : ℕ) (row : EventRow) : JobEventRecord where
  eventId := toString eventId
  jobId := row.jobId
  status := row.status
  message := row.message
  createdAt := settings.timestamp row.createdAt

def loadArtifactRow (artifactId : String) (row : ArtifactRow) : ArtifactRecord :=
  ⟨artifactId, row.objectKey, row.kind⟩

end load

def nextJobId : StoreCall String := do
  match ← execParams nextJobSequence with
  | .number value => return jobIdFor value
  | _ => Script.throw .noJobSequence

def submitJob (job : PlatformJobRecord) : StoreCall Unit := do
  exec .begin
  orRollback do
    let _ ← execParams (insertTenant job.tenantId)
    let _ ← execParams (upsertJob job)
    let _ ← execParams (insertEvent job.jobId .queued "job queued")
    exec .commit

def getJob (settings : Settings) (jobId : String) : StoreCall (Option PlatformJobRecord) := do
  match (← execParams (selectJob jobId)).jobRows with
  | [] => return none
  | (jobId, row) :: _ =>
    let artifacts ← execParams (selectArtifacts jobId)
    return some { loadJobRow settings jobId row with
      artifacts := artifacts.artifactRows.map fun x => loadArtifactRow x.1 x.2 }

def getJobEvents (settings : Settings) (jobId : String) : StoreCall (List JobEventRecord) := do
  return (← execParams (selectEvents jobId)).eventRows.map fun x => loadEventRow settings x.1 x.2

def cancelJob (settings : Settings) (jobId reason : String) :
    StoreCall (Option PlatformJobRecord) := do
  exec .begin
  let updated ← orRollback do
    match (← execParams (.cancelJob jobId)).jobRows with
    | [] =>
      exec .rollback
      return false
    | _ :: _ =>
      let _ ← execParams (insertEvent jobId .cancelled reason)
      exec .commit
      return true
  if updated then getJob settings jobId else return none

def registerWorker (worker : WorkerRecord) : StoreCall WorkerRecord := do
  let _ ← execParams (upsertWorker worker)
  return worker

def getCompileContainer (settings : Settings) (containerId : String) :
    StoreCall (Option CompileContainerRecord) := do
  match (← execParams (selectContainer containerId)).containerRows with
  | [] => return none
  | (containerId, row) :: _ => return some (loadCompileContainerRow settings containerId row)

def registerCompileContainer (settings : Settings) (container : CompileContainerRecord) :
    StoreCall CompileContainerRecord := do
  exec .begin
  orRollback do
    let registered ← execParams
      (selectWorker container.workerId container.region container.workerPoolKey)
    if registered.workerIds = [] then Script.throw .workerNotRegistered
    let existing ← execParams (lockContainer container.containerId)
    match existing.containerRows with
    | [] => pure ()
    | (_, row) :: _ =>
      if row.tenantId ≠ container.tenantId ∨ row.userId ≠ container.userId then
        Script.throw .userBindingMismatch
      if row.workerId ≠ container.workerId then Script.throw .workerOwnerMismatch
    let _ ← execParams (insertTenant container.tenantId)
    let _ ← execParams (upsertContainer container)
    exec .commit
  match ← getCompileContainer settings container.containerId with
  | some saved => return saved
  | none => Script.throw .noContainerRow

def switchCompileContainerWorkspace (settings : Settings)
    (containerId workerId workspaceId reason : String) :
    StoreCall (Option CompileContainerRecord) := do
  match (← execParams (switchContainer containerId workerId workspaceId reason)).containerRows with
  | [] => return none
  | _ :: _ => getCompileContainer settings containerId

def claimJob (settings : Settings) (workerId region workerPoolKey : String) :
    StoreCall (Option PlatformJobRecord) := do
  exec .begin
  let claimed ← orRollback do
    let registered ← execParams (selectWorker workerId region workerPoolKey)
    if registered.workerIds = [] then Script.throw .workerNotRegistered
    match (← execParams (.claimJob region workerPoolKey workerId)).jobRows with
    | [] =>
      exec .commit
      return none
    | (jobId, _) :: _ =>
      let _ ← execParams (insertEvent jobId .running "job claimed by worker")
      exec .commit
      return some jobId
  match claimed with
  | none => return none
  | some jobId => getJob settings jobId

def claimJobForCompileContainer (settings : Settings)
    (workerId region workerPoolKey containerId : String) :
    StoreCall (Option PlatformJobRecord) := do
  exec .begin
  let claimed ← orRollback do
    let registered ← execParams (selectWorker workerId region workerPoolKey)
    if registered.workerIds = [] then Script.throw .workerNotRegistered
    match (← execParams (lockContainerFor containerId workerId region workerPoolKey)).containerRows with
    | [] => Script.throw .containerNotRegistered
    | (_, container) :: _ =>
      let found ← execParams
        (claimJobFor region workerPoolKey workerId container.tenantId container.userId)
      match found.jobRows with
      | [] =>
        exec .commit
        return none
      | (jobId, row) :: _ =>
        if row.workspaceId ≠ container.currentWorkspaceId then
          let _ ← execParams (moveContainer containerId workerId row.workspaceId)
          let _ ← execParams (insertEvent jobId .running "compile container switched workspace")
        let _ ← execParams (insertEvent jobId .running "job claimed by compile container")
        exec .commit
        return some jobId
  match claimed with
  | none => return none
  | some jobId => getJob settings jobId

def heartbeatJob (settings : Settings) (jobId workerId message : String) :
    StoreCall (Option PlatformJobRecord) := do
  match (← execParams (.heartbeatJob jobId workerId)).jobRows with
  | [] => return none
  | _ :: _ =>
    let _ ← execParams (insertEvent jobId .running message)
    getJob settings jobId

/-- The loop over the artifacts of `CompleteJob`. -/
def insertArtifacts (jobId : String) : List ArtifactRecord → StoreCall Unit
  | [] => return ()
  | artifact :: rest => do
    let _ ← execParams (insertArtifact artifact jobId)
    insertArtifacts jobId rest

def completeJob (settings : Settings) (jobId workerId : String) (status : Completion)
    (message : String) (artifacts : List ArtifactRecord) (result : Json) :
    StoreCall (Option PlatformJobRecord) := do
  exec .begin
  let updated ← orRollback do
    match (← execParams (.completeJob jobId status result workerId)).jobRows with
    | [] =>
      exec .rollback
      return false
    | _ :: _ =>
      let _ ← execParams (deleteArtifacts jobId)
      insertArtifacts jobId artifacts
      let _ ← execParams (insertEvent jobId status.status message)
      exec .commit
      return true
  if updated then getJob settings jobId else return none

end PostgresStore

end StyioPlatform.Workspace
