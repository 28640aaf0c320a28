import StyioPlatform.Workspace.PostgresStore

/-! What each call of `PostgresStore` returns and leaves in the tables, while no other session is
connected. -/
namespace StyioPlatform.Workspace

namespace Tables

/-- `INSERT INTO platform_tenants … ON CONFLICT DO NOTHING`. -/
def withTenant (t : Tables) (tenantId : String) : Tables :=
  if (t.tenants.get tenantId).isSome then t else t.apply (.tenant tenantId)

/-- The table of jobs with a new row, and the event that records it. -/
def recordJob (t : Tables) (eventId : ℕ) (jobId : String) (row : JobRow) (event : EventRow) : Tables :=
  { t with jobs := t.jobs.set jobId row, events := t.events.set eventId event }

/-- What `GetJob` reads. -/
def jobRecord (settings : Settings) (t : Tables) (jobId : String) : Option PlatformJobRecord :=
  (t.jobs.get jobId).map fun row =>
    { PostgresStore.loadJobRow settings jobId row with
      artifacts := ((t.artifactsOf jobId).insertionSort fun a b => settings.collates a.1 b.1).map
        fun x => PostgresStore.loadArtifactRow x.1 x.2 }

/-- What `GetCompileContainer` reads. -/
def containerRecord (settings : Settings) (t : Tables) (containerId : String) :
    Option CompileContainerRecord :=
  (t.containers.get containerId).map (PostgresStore.loadCompileContainerRow settings containerId)

end Tables

/-- The outcome of a statement outside of transactions. -/
def Tables.concluded (settings : Settings) (t : Tables) :
    Except PostgresStoreError (Reply × List Write) × Sequences →
      Except PostgresStoreError Reply × Store Tables Sequences × Transaction Moment Write
  | (.ok (r, ws), q) => (.ok r, ⟨(dialect settings).applyAll t ws, q⟩, .idle)
  | (.error e, q) => (.error e, ⟨t, q⟩, .idle)

/-- The outcome of a statement of a transaction. -/
def Tables.continued (t : Tables) (start : Moment) (ws : List Write) :
    Except PostgresStoreError (Reply × List Write) × Sequences →
      Except PostgresStoreError Reply × Store Tables Sequences × Transaction Moment Write
  | (.ok (r, ws'), q) => (.ok r, ⟨t, q⟩, .opened start (ws ++ ws'))
  | (.error e, q) => (.error e, ⟨t, q⟩, .aborted)

namespace PostgresStore

variable {settings : Settings} {now start : Moment} {t : Tables} {q : Sequences} {w : Write}
  {ws : List Write} {st : Statement}

@[simp] theorem applyAll_nil : (dialect settings).applyAll t [] = t := rfl

@[simp] theorem applyAll_cons :
    (dialect settings).applyAll t (w :: ws) = (dialect settings).applyAll (t.apply w) ws := rfl

@[simp] theorem run_execParams : (dialect settings).run now (execParams st) ⟨t, q⟩ .idle =
    t.concluded settings (t.answer settings now now (fun _ => false) q st.bound) := by
  have hanswer : (dialect settings).answer now now (fun _ => false) q t st.bound =
      t.answer settings now now (fun _ => false) q st.bound := rfl
  rw [execParams, run_query_idle]
  dsimp only
  rw [hanswer]
  rcases t.answer settings now now (fun _ => false) q st.bound with ⟨e | ⟨r, ws⟩, q'⟩ <;> rfl

@[simp] theorem run_execParams_opened :
    (dialect settings).run now (execParams st) ⟨t, q⟩ (.opened start ws) =
      t.continued start ws
        (((dialect settings).applyAll t ws).answer settings start now (fun _ => false) q st.bound) := by
  have hanswer : (dialect settings).answer start now (fun _ => false) q
      ((dialect settings).applyAll t ws) st.bound =
      ((dialect settings).applyAll t ws).answer settings start now (fun _ => false) q st.bound := rfl
  rw [execParams, run_query_opened]
  dsimp only
  rw [hanswer]
  rcases ((dialect settings).applyAll t ws).answer settings start now (fun _ => false) q
    st.bound with ⟨e | ⟨r, ws'⟩, q'⟩ <;> rfl

@[simp] theorem run_exec {c : Command Statement} {store : Store Tables Sequences}
    {txn : Transaction Moment Write} : (dialect settings).run now (PostgresStore.exec c) store txn =
      (dialect settings).run now (Script.exec c) store txn := rfl

theorem run_orRollback {α : Type} {body : StoreCall α} {store : Store Tables Sequences}
    {txn : Transaction Moment Write} :
    (dialect settings).run now (orRollback body) store txn =
      match (dialect settings).run now body store txn with
      | (.ok a, store, txn) => (.ok a, store, txn)
      | (.error e, store, _) => (.error e, store, .idle) := by
  rw [orRollback, run_tryCatch]
  rcases (dialect settings).run now body store txn with ⟨e | a, store, txn⟩ <;> simp [run_bind]

theorem run_nextJobId : (dialect settings).run now nextJobId ⟨t, q⟩ .idle =
    (.ok (jobIdFor q.job), ⟨t, { q with job := q.job + 1 }⟩, .idle) := by
  simp [nextJobId, run_bind, Statement.bound, Tables.answer, Tables.concluded]

theorem run_getJob {jobId : String} : (dialect settings).run now (getJob settings jobId) ⟨t, q⟩ .idle =
    (.ok (t.jobRecord settings (cString jobId)), ⟨t, q⟩, .idle) := by
  rcases h : t.jobs.get (cString jobId) with _ | row
  · simp [getJob, run_bind, Statement.bound, Tables.answer, Tables.concluded, Reply.jobRows, h,
      Tables.jobRecord]
  · simp [getJob, run_bind, Statement.bound, Tables.answer, Tables.concluded, Reply.jobRows, h,
      Tables.jobRecord, cString_cString, Reply.artifactRows]

theorem run_getJobEvents {jobId : String} :
    (dialect settings).run now (getJobEvents settings jobId) ⟨t, q⟩ .idle =
      (.ok ((t.eventsOf (cString jobId)).map fun x => loadEventRow settings x.1 x.2), ⟨t, q⟩,
        .idle) := by
  simp [getJobEvents, run_bind, Statement.bound, Tables.answer, Tables.concluded, Reply.eventRows]

theorem run_getCompileContainer {containerId : String} :
    (dialect settings).run now (getCompileContainer settings containerId) ⟨t, q⟩ .idle =
      (.ok (t.containerRecord settings (cString containerId)), ⟨t, q⟩, .idle) := by
  rcases h : t.containers.get (cString containerId) with _ | row <;>
    simp [getCompileContainer, run_bind, Statement.bound, Tables.answer, Tables.concluded,
      Reply.containerRows, h, Tables.containerRecord]

/-- A job as `SubmitJob` passes it to the server. -/
def boundJob (job : PlatformJobRecord) : PlatformJobRecord :=
  { job with
    jobId := cString job.jobId
    tenantId := cString job.tenantId
    userId := cString job.userId
    workspaceId := cString job.workspaceId
    action := cString job.action
    region := cString job.region
    workerPoolKey := cString job.workerPoolKey }

theorem run_submitJob {job : PlatformJobRecord} (h : job.jobRequest.anyNul = false) :
    (dialect settings).run now (submitJob job) ⟨t, q⟩ .idle =
      (.ok (), ⟨(t.withTenant (cString job.tenantId)).recordJob q.event (cString job.jobId)
          (t.upsertedJob now.time (boundJob job))
          ⟨cString job.jobId, .queued, "job queued", now.time⟩,
        { q with event := q.event + 1 }⟩, .idle) := by
  have hmessage : cString "job queued" = "job queued" := rfl
  rcases htenant : (t.tenants.get (cString job.tenantId)).isSome with _ | _
  · simp [submitJob, run_bind, run_orRollback, Statement.bound, Tables.answer, Tables.continued,
      htenant, h, Tables.withTenant, Tables.recordJob, Tables.apply, Tables.upsertedJob, hmessage,
      boundJob]
  · have hsome := Option.isSome_iff_ne_none.mp htenant
    simp [submitJob, run_bind, run_orRollback, Statement.bound, Tables.answer, Tables.continued,
      htenant, hsome, h, Tables.withTenant, Tables.recordJob, Tables.apply, hmessage, boundJob]

theorem run_submitJob_of_nul {job : PlatformJobRecord} (h : job.jobRequest.anyNul = true) :
    (dialect settings).run now (submitJob job) ⟨t, q⟩ .idle =
      (.error (.command .invalidJson), ⟨t, q⟩, .idle) := by
  simp [submitJob, run_bind, run_orRollback, Statement.bound, Tables.answer, Tables.continued, h]

theorem run_cancelJob_none {jobId reason : String}
    (h : Tables.find t.jobs (cString jobId) (·.cancellable) = none) :
    (dialect settings).run now (cancelJob settings jobId reason) ⟨t, q⟩ .idle =
      (.ok none, ⟨t, q⟩, .idle) := by
  simp [cancelJob, run_bind, run_orRollback, Statement.bound, Tables.answer, Tables.continued, h,
    updateJob, Reply.jobRows]

/-- The tables after a cancellation. -/
def cancelledTables (t : Tables) (time eventId : ℕ) (jobId reason : String) (row : JobRow) : Tables :=
  t.recordJob eventId jobId (row.cancelled time) ⟨jobId, .cancelled, reason, time⟩

theorem run_cancelJob_some {jobId reason : String} {row : JobRow}
    (h : Tables.find t.jobs (cString jobId) (·.cancellable) = some row) :
    (dialect settings).run now (cancelJob settings jobId reason) ⟨t, q⟩ .idle =
      (.ok ((cancelledTables t now.time q.event (cString jobId) (cString reason) row).jobRecord
          settings (cString jobId)),
        ⟨cancelledTables t now.time q.event (cString jobId) (cString reason) row,
          { q with event := q.event + 1 }⟩, .idle) := by
  simp [cancelJob, run_bind, run_orRollback, Statement.bound, Tables.answer, Tables.continued, h,
    updateJob, Reply.jobRows, Tables.apply, run_getJob, cancelledTables, Tables.recordJob]

/-- A worker as `RegisterWorker` passes it to the server. -/
def boundWorker (worker : WorkerRecord) : WorkerRow :=
  ⟨cString worker.region, cString worker.workerPoolKey, cString worker.status, worker.capacity⟩

theorem run_registerWorker {worker : WorkerRecord} :
    (dialect settings).run now (registerWorker worker) ⟨t, q⟩ .idle =
      (.ok worker, ⟨{ t with workers := t.workers.set (cString worker.workerId) (boundWorker worker) },
        q⟩, .idle) := by
  simp [registerWorker, run_bind, Statement.bound, Tables.answer, Tables.concluded, Tables.apply,
    boundWorker]

/-- A container as `RegisterCompileContainer` passes it to the server. -/
def boundContainer (container : CompileContainerRecord) : CompileContainerRecord :=
  { container with
    containerId := cString container.containerId
    workerId := cString container.workerId
    tenantId := cString container.tenantId
    userId := cString container.userId
    currentWorkspaceId := cString container.currentWorkspaceId
    region := cString container.region
    workerPoolKey := cString container.workerPoolKey }

section registerCompileContainer

variable {container : CompileContainerRecord}

theorem run_registerCompileContainer_unregistered
    (h : Tables.find t.workers (cString container.workerId)
      (·.serves (cString container.region) (cString container.workerPoolKey)) = none) :
    (dialect settings).run now (registerCompileContainer settings container) ⟨t, q⟩ .idle =
      (.error .workerNotRegistered, ⟨t, q⟩, .idle) := by
  simp [registerCompileContainer, run_bind, run_orRollback, Statement.bound, Tables.answer,
    Tables.continued, h, Reply.workerIds]

variable {worker : WorkerRow} {row : ContainerRow}

theorem run_registerCompileContainer_user
    (hworker : Tables.find t.workers (cString container.workerId)
      (·.serves (cString container.region) (cString container.workerPoolKey)) = some worker)
    (hrow : t.containers.get (cString container.containerId) = some row)
    (huser : row.tenantId ≠ container.tenantId ∨ row.userId ≠ container.userId) :
    (dialect settings).run now (registerCompileContainer settings container) ⟨t, q⟩ .idle =
      (.error .userBindingMismatch, ⟨t, q⟩, .idle) := by
  simp [registerCompileContainer, run_bind, run_orRollback, Statement.bound, Tables.answer,
    Tables.continued, hworker, Reply.workerIds, hrow, selectForUpdate, Reply.containerRows, huser]

theorem run_registerCompileContainer_owner
    (hworker : Tables.find t.workers (cString container.workerId)
      (·.serves (cString container.region) (cString container.workerPoolKey)) = some worker)
    (hrow : t.containers.get (cString container.containerId) = some row)
    (htenant : row.tenantId = container.tenantId) (huser : row.userId = container.userId)
    (howner : row.workerId ≠ container.workerId) :
    (dialect settings).run now (registerCompileContainer settings container) ⟨t, q⟩ .idle =
      (.error .workerOwnerMismatch, ⟨t, q⟩, .idle) := by
  simp [registerCompileContainer, run_bind, run_orRollback, Statement.bound, Tables.answer,
    Tables.continued, hworker, Reply.workerIds, hrow, selectForUpdate, Reply.containerRows, htenant,
    huser, howner]

/-- The tables after a registration. -/
def registeredTables (t : Tables) (time : ℕ) (container : CompileContainerRecord) : Tables :=
  { t.withTenant container.tenantId with
    containers := t.containers.set container.containerId (t.upsertedContainer time container) }

theorem run_registerCompileContainer_ok
    (hworker : Tables.find t.workers (cString container.workerId)
      (·.serves (cString container.region) (cString container.workerPoolKey)) = some worker)
    (hrow : ∀ row, t.containers.get (cString container.containerId) = some row →
      row.tenantId = container.tenantId ∧ row.userId = container.userId ∧
        row.workerId = container.workerId) :
    (dialect settings).run now (registerCompileContainer settings container) ⟨t, q⟩ .idle =
      (.ok (loadCompileContainerRow settings (cString container.containerId)
          (t.upsertedContainer now.time (boundContainer container))),
        ⟨registeredTables t now.time (boundContainer container), q⟩, .idle) := by
  have hexists := (Tables.find_eq_some.mp hworker).1
  rcases hget : t.containers.get (cString container.containerId) with _ | row <;>
  rcases htenant : (t.tenants.get (cString container.tenantId)).isSome with _ | _
  · simp [registerCompileContainer, run_bind, run_orRollback, Statement.bound, Tables.answer,
      Tables.continued, hworker, Reply.workerIds, hget, selectForUpdate, Reply.containerRows,
      htenant, hexists, Tables.apply, run_getCompileContainer, Tables.containerRecord,
      registeredTables, boundContainer, Tables.upsertedContainer, Tables.withTenant]
  · simp [registerCompileContainer, run_bind, run_orRollback, Statement.bound, Tables.answer,
      Tables.continued, hworker, Reply.workerIds, hget, selectForUpdate, Reply.containerRows,
      htenant, hexists, Tables.apply, run_getCompileContainer, Tables.containerRecord,
      registeredTables, boundContainer, Tables.upsertedContainer, Tables.withTenant]
  · obtain ⟨hsame, huser, howner⟩ := hrow row hget
    simp [registerCompileContainer, run_bind, run_orRollback, Statement.bound, Tables.answer,
      Tables.continued, hworker, Reply.workerIds, hget, selectForUpdate, Reply.containerRows,
      htenant, hexists, Tables.apply, run_getCompileContainer, Tables.containerRecord,
      registeredTables, boundContainer, Tables.upsertedContainer, Tables.withTenant, hsame, huser,
      howner]
  · obtain ⟨hsame, huser, howner⟩ := hrow row hget
    simp [registerCompileContainer, run_bind, run_orRollback, Statement.bound, Tables.answer,
      Tables.continued, hworker, Reply.workerIds, hget, selectForUpdate, Reply.containerRows,
      htenant, hexists, Tables.apply, run_getCompileContainer, Tables.containerRecord,
      registeredTables, boundContainer, Tables.upsertedContainer, Tables.withTenant, hsame, huser,
      howner]

end registerCompileContainer

theorem run_switch_none {containerId workerId workspaceId reason : String}
    (h : Tables.find t.containers (cString containerId) (·.switchableBy (cString workerId)) = none) :
    (dialect settings).run now
        (switchCompileContainerWorkspace settings containerId workerId workspaceId reason) ⟨t, q⟩
        .idle =
      (.ok none, ⟨t, q⟩, .idle) := by
  simp [switchCompileContainerWorkspace, run_bind, Statement.bound, Tables.answer,
    Tables.concluded, h, updateContainer, Reply.containerRows]

theorem run_switch_some {containerId workerId workspaceId reason : String} {row : ContainerRow}
    (h : Tables.find t.containers (cString containerId) (·.switchableBy (cString workerId)) =
      some row) :
    (dialect settings).run now
        (switchCompileContainerWorkspace settings containerId workerId workspaceId reason) ⟨t, q⟩
        .idle =
      (.ok (some (loadCompileContainerRow settings (cString containerId)
          (row.switched now.time (cString workspaceId) (cString reason)))),
        ⟨{ t with
            containers := t.containers.set (cString containerId)
              (row.switched now.time (cString workspaceId) (cString reason)) }, q⟩, .idle) := by
  simp [switchCompileContainerWorkspace, run_bind, Statement.bound, Tables.answer,
    Tables.concluded, h, updateContainer, Reply.containerRows, Tables.apply,
    run_getCompileContainer, Tables.containerRecord]

section claim

variable {workerId region workerPoolKey containerId : String} {worker : WorkerRow}
  {x : String × JobRow} {container : ContainerRow}

theorem run_claimJob_unregistered (h : Tables.find t.workers (cString workerId)
      (·.serves (cString region) (cString workerPoolKey)) = none) :
    (dialect settings).run now (claimJob settings workerId region workerPoolKey) ⟨t, q⟩ .idle =
      (.error .workerNotRegistered, ⟨t, q⟩, .idle) := by
  simp [claimJob, run_bind, run_orRollback, Statement.bound, Tables.answer, Tables.continued, h,
    Reply.workerIds]

theorem run_claimJob_none (hworker : Tables.find t.workers (cString workerId)
      (·.serves (cString region) (cString workerPoolKey)) = some worker)
    (h : t.candidate now (fun _ => false)
      (·.waitsFor (cString region) (cString workerPoolKey)) = none) :
    (dialect settings).run now (claimJob settings workerId region workerPoolKey) ⟨t, q⟩ .idle =
      (.ok none, ⟨t, q⟩, .idle) := by
  simp [claimJob, run_bind, run_orRollback, Statement.bound, Tables.answer, Tables.continued,
    hworker, Reply.workerIds, h, claimRow, Reply.jobRows]

/-- The tables after a claim. -/
def claimedTables (t : Tables) (time eventId : ℕ) (workerId message : String)
    (x : String × JobRow) : Tables :=
  t.recordJob eventId x.1 (x.2.claimed time workerId) ⟨x.1, .running, message, time⟩

theorem run_claimJob_some (hworker : Tables.find t.workers (cString workerId)
      (·.serves (cString region) (cString workerPoolKey)) = some worker)
    (h : t.candidate now (fun _ => false)
      (·.waitsFor (cString region) (cString workerPoolKey)) = some x)
    (hid : cString x.1 = x.1) :
    (dialect settings).run now (claimJob settings workerId region workerPoolKey) ⟨t, q⟩ .idle =
      (.ok ((claimedTables t now.time q.event (cString workerId) "job claimed by worker"
          x).jobRecord settings x.1),
        ⟨claimedTables t now.time q.event (cString workerId) "job claimed by worker" x,
          { q with event := q.event + 1 }⟩, .idle) := by
  have hmessage : cString "job claimed by worker" = "job claimed by worker" := rfl
  simp [claimJob, run_bind, run_orRollback, Statement.bound, Tables.answer, Tables.continued,
    hworker, Reply.workerIds, h, claimRow, updateJob, Reply.jobRows, Tables.apply, run_getJob, hid,
    hmessage, claimedTables, Tables.recordJob]

theorem run_claimFor_unregistered (h : Tables.find t.workers (cString workerId)
      (·.serves (cString region) (cString workerPoolKey)) = none) :
    (dialect settings).run now
        (claimJobForCompileContainer settings workerId region workerPoolKey containerId) ⟨t, q⟩
        .idle =
      (.error .workerNotRegistered, ⟨t, q⟩, .idle) := by
  simp [claimJobForCompileContainer, run_bind, run_orRollback, Statement.bound, Tables.answer,
    Tables.continued, h, Reply.workerIds]

theorem run_claimFor_unavailable (hworker : Tables.find t.workers (cString workerId)
      (·.serves (cString region) (cString workerPoolKey)) = some worker)
    (h : Tables.find t.containers (cString containerId)
      (·.availableTo (cString workerId) (cString region) (cString workerPoolKey)) = none) :
    (dialect settings).run now
        (claimJobForCompileContainer settings workerId region workerPoolKey containerId) ⟨t, q⟩
        .idle =
      (.error .containerNotRegistered, ⟨t, q⟩, .idle) := by
  simp [claimJobForCompileContainer, run_bind, run_orRollback, Statement.bound, Tables.answer,
    Tables.continued, hworker, h, Reply.workerIds, selectForUpdate, Reply.containerRows]

theorem run_claimFor_none (hworker : Tables.find t.workers (cString workerId)
      (·.serves (cString region) (cString workerPoolKey)) = some worker)
    (hcontainer : Tables.find t.containers (cString containerId)
      (·.availableTo (cString workerId) (cString region) (cString workerPoolKey)) = some container)
    (h : t.candidate now (fun _ => false) (·.waitsForUser (cString region) (cString workerPoolKey)
      (cString container.tenantId) (cString container.userId)) = none) :
    (dialect settings).run now
        (claimJobForCompileContainer settings workerId region workerPoolKey containerId) ⟨t, q⟩
        .idle =
      (.ok none, ⟨t, q⟩, .idle) := by
  simp [claimJobForCompileContainer, run_bind, run_orRollback, Statement.bound, Tables.answer,
    Tables.continued, hworker, hcontainer, Reply.workerIds, selectForUpdate, Reply.containerRows,
    Tables.apply, h, claimRow, Reply.jobRows]

/-- A claim for a compile container that stays in its workspace. -/
theorem run_claimFor_staying (hworker : Tables.find t.workers (cString workerId)
      (·.serves (cString region) (cString workerPoolKey)) = some worker)
    (hcontainer : Tables.find t.containers (cString containerId)
      (·.availableTo (cString workerId) (cString region) (cString workerPoolKey)) = some container)
    (h : t.candidate now (fun _ => false) (·.waitsForUser (cString region) (cString workerPoolKey)
      (cString container.tenantId) (cString container.userId)) = some x)
    (hid : cString x.1 = x.1) (hsame : x.2.workspaceId = container.currentWorkspaceId) :
    (dialect settings).run now
        (claimJobForCompileContainer settings workerId region workerPoolKey containerId) ⟨t, q⟩
        .idle =
      (.ok ((claimedTables t now.time q.event (cString workerId) "job claimed by compile container"
          x).jobRecord settings x.1),
        ⟨claimedTables t now.time q.event (cString workerId) "job claimed by compile container" x,
          { q with event := q.event + 1 }⟩, .idle) := by
  have hmessage :
      cString "job claimed by compile container" = "job claimed by compile container" := rfl
  simp [claimJobForCompileContainer, run_bind, run_orRollback, Statement.bound, Tables.answer,
    Tables.continued, hworker, hcontainer, Reply.workerIds, selectForUpdate, Reply.containerRows,
    Tables.apply, h, claimRow, updateJob, Reply.jobRows, run_getJob, hid, hmessage, claimedTables,
    Tables.recordJob, JobRow.claimed, hsame]

/-- The tables after a claim that moves the container to the workspace of the job. -/
def movedTables (t : Tables) (time eventId : ℕ) (workerId containerId : String)
    (container : ContainerRow) (x : String × JobRow) : Tables :=
  { (claimedTables t time eventId workerId "compile container switched workspace" x) with
    containers := t.containers.set containerId (container.moved time x.2.workspaceId)
    events := ((t.events.set eventId
      ⟨x.1, .running, "compile container switched workspace", time⟩).set (eventId + 1)
        ⟨x.1, .running, "job claimed by compile container", time⟩) }

/-- A claim for a compile container that moves to the workspace of the job. -/
theorem run_claimFor_moving (hworker : Tables.find t.workers (cString workerId)
      (·.serves (cString region) (cString workerPoolKey)) = some worker)
    (hcontainer : Tables.find t.containers (cString containerId)
      (·.availableTo (cString workerId) (cString region) (cString workerPoolKey)) = some container)
    (h : t.candidate now (fun _ => false) (·.waitsForUser (cString region) (cString workerPoolKey)
      (cString container.tenantId) (cString container.userId)) = some x)
    (hid : cString x.1 = x.1) (hworkspace : cString x.2.workspaceId = x.2.workspaceId)
    (hne : x.2.workspaceId ≠ container.currentWorkspaceId) :
    (dialect settings).run now
        (claimJobForCompileContainer settings workerId region workerPoolKey containerId) ⟨t, q⟩
        .idle =
      (.ok ((movedTables t now.time q.event (cString workerId) (cString containerId) container
          x).jobRecord settings x.1),
        ⟨movedTables t now.time q.event (cString workerId) (cString containerId) container x,
          { q with event := q.event + 1 + 1 }⟩, .idle) := by
  have hmessage :
      cString "job claimed by compile container" = "job claimed by compile container" := rfl
  have hmessage' :
      cString "compile container switched workspace" = "compile container switched workspace" := rfl
  have hfind : Tables.find t.containers (cString containerId) (·.workerId = cString workerId) =
      some container := by
    rw [Tables.find_eq_some] at hcontainer ⊢
    simp only [ContainerRow.availableTo, decide_eq_true_eq] at hcontainer
    exact ⟨hcontainer.1, by simpa using hcontainer.2.1⟩
  simp [claimJobForCompileContainer, run_bind, run_orRollback, Statement.bound, Tables.answer,
    Tables.continued, hworker, hcontainer, Reply.workerIds, selectForUpdate, Reply.containerRows,
    Tables.apply, h, claimRow, updateJob, Reply.jobRows, run_getJob, hid, hmessage, hmessage',
    claimedTables, Tables.recordJob, JobRow.claimed, hne, hworkspace, hfind, updateContainer,
    movedTables]

end claim

theorem run_heartbeatJob_none {jobId workerId message : String}
    (h : Tables.find t.jobs (cString jobId) (·.runsFor (cString workerId)) = none) :
    (dialect settings).run now (heartbeatJob settings jobId workerId message) ⟨t, q⟩ .idle =
      (.ok none, ⟨t, q⟩, .idle) := by
  simp [heartbeatJob, run_bind, Statement.bound, Tables.answer, Tables.concluded, h, updateJob,
    Reply.jobRows]

/-- The tables after a heartbeat. -/
def beatenTables (t : Tables) (time eventId : ℕ) (jobId message : String) (row : JobRow) : Tables :=
  t.recordJob eventId jobId { row with updatedAt := time } ⟨jobId, .running, message, time⟩

theorem run_heartbeatJob_some {jobId workerId message : String} {row : JobRow}
    (h : Tables.find t.jobs (cString jobId) (·.runsFor (cString workerId)) = some row) :
    (dialect settings).run now (heartbeatJob settings jobId workerId message) ⟨t, q⟩ .idle =
      (.ok ((beatenTables t now.time q.event (cString jobId) (cString message) row).jobRecord
          settings (cString jobId)),
        ⟨beatenTables t now.time q.event (cString jobId) (cString message) row,
          { q with event := q.event + 1 }⟩, .idle) := by
  simp [heartbeatJob, run_bind, Statement.bound, Tables.answer, Tables.concluded, h, updateJob,
    Reply.jobRows, Tables.apply, run_getJob, beatenTables, Tables.recordJob]

section completeJob

variable {jobId workerId message : String} {status : Completion} {artifacts : List ArtifactRecord}
  {result : Json} {row : JobRow}

/-- The artifacts without those of the job. -/
def droppedArtifacts (t : Tables) (jobId : String) : OrderedMap String ArtifactRow :=
  (t.artifactsOf jobId).foldl (fun m x => m.erase x.1) t.artifacts

/-- The artifacts with those of a completion. -/
def insertedArtifacts (m : OrderedMap String ArtifactRow) (jobId : String)
    (artifacts : List ArtifactRecord) : OrderedMap String ArtifactRow :=
  artifacts.foldl (fun m a => m.set (cString a.artifactId)
    ⟨jobId, cString a.objectKey, cString a.kind⟩) m

theorem applyAll_drops {l : List (String × ArtifactRow)} :
    (dialect settings).applyAll t (l.map fun x => .dropArtifact x.1) =
      { t with artifacts := l.foldl (fun m x => m.erase x.1) t.artifacts } := by
  induction l generalizing t with
  | nil => rfl
  | cons x l ih => exact ih

/-- The writes of the artifacts of a completion. -/
def artifactWrites (jobId : String) (artifacts : List ArtifactRecord) : List Write :=
  artifacts.map fun a => .artifact (cString a.artifactId) ⟨jobId, cString a.objectKey, cString a.kind⟩

theorem applyAll_artifactWrites : (dialect settings).applyAll t (artifactWrites jobId artifacts) =
    { t with artifacts := insertedArtifacts t.artifacts jobId artifacts } := by
  induction artifacts generalizing t with
  | nil => rfl
  | cons a rest ih => exact ih

theorem get_foldl_erase {m : OrderedMap String ArtifactRow} {l : List (String × ArtifactRow)}
    {id : String} : (l.foldl (fun m x => m.erase x.1) m).get id =
      if id ∈ l.map (·.1) then none else m.get id := by
  induction l generalizing m with
  | nil => rfl
  | cons x l ih =>
    rw [List.foldl_cons, ih, OrderedMap.get_erase, List.map_cons]
    simp only [List.mem_cons]
    by_cases hx : id = x.1 <;> by_cases hl : id ∈ l.map (·.1) <;> simp only [hx, hl] <;> simp

/-- What is left of the artifacts are those of other jobs. -/
theorem get_droppedArtifacts {id : String} {a : ArtifactRow} :
    (droppedArtifacts t jobId).get id = some a ↔ t.artifacts.get id = some a ∧ a.jobId ≠ jobId := by
  have hmem : id ∈ (t.artifactsOf jobId).map (·.1) ↔
      ∃ a, t.artifacts.get id = some a ∧ a.jobId = jobId := by
    simp [Tables.artifactsOf, OrderedMap.mem_entries]
  rw [droppedArtifacts, get_foldl_erase]
  split
  · rename_i h
    obtain ⟨a', hget, hjob⟩ := hmem.mp h
    simp only [hget, Option.some.injEq, reduceCtorEq, false_iff, not_and, not_not]
    rintro rfl
    exact hjob
  · rename_i h
    refine ⟨fun hget => ⟨hget, fun hjob => h (hmem.mpr ⟨a, hget, hjob⟩)⟩, fun hget => hget.1⟩

/-- The ids of the artifacts are free and distinct. -/
def Free (m : OrderedMap String ArtifactRow) (artifacts : List ArtifactRecord) : Prop :=
  (∀ a ∈ artifacts, m.get (cString a.artifactId) = none) ∧
    (artifacts.map fun a => cString a.artifactId).Nodup

theorem free_cons {m : OrderedMap String ArtifactRow} {a : ArtifactRecord} (row : ArtifactRow)
    (h : m.get (cString a.artifactId) = none) :
    Free m (a :: artifacts) ↔ Free (m.set (cString a.artifactId) row) artifacts := by
  simp only [Free, List.forall_mem_cons, h, true_and, List.map_cons, List.nodup_cons,
    OrderedMap.get_set, List.mem_map, not_exists, not_and]
  constructor
  · rintro ⟨hnone, hne, hnodup⟩
    refine ⟨?_, hnodup⟩
    intro b hb
    rw [if_neg (hne b hb)]
    exact hnone b hb
  · rintro ⟨hnone, hnodup⟩
    refine ⟨?_, ?_, hnodup⟩
    · intro b hb
      have := hnone b hb
      split at this
      · cases this
      · exact this
    · intro b hb heq
      have := hnone b hb
      rw [if_pos heq] at this
      cases this

theorem run_insertArtifacts_free
    (hjob : ((dialect settings).applyAll t ws).jobs.get (cString jobId) = some row)
    (hfree : Free ((dialect settings).applyAll t ws).artifacts artifacts) :
    (dialect settings).run now (insertArtifacts jobId artifacts) ⟨t, q⟩ (.opened start ws) =
      (.ok (), ⟨t, q⟩, .opened start (ws ++ artifactWrites (cString jobId) artifacts)) := by
  induction artifacts generalizing ws with
  | nil => simp [insertArtifacts, artifactWrites]
  | cons a rest ih =>
    have hnone := hfree.1 a List.mem_cons_self
    have hrest := (free_cons ⟨cString jobId, cString a.objectKey, cString a.kind⟩ hnone).mp hfree
    have hih := @ih (ws ++ [.artifact (cString a.artifactId)
      ⟨cString jobId, cString a.objectKey, cString a.kind⟩])
    rw [Dialect.applyAll_append] at hih
    simp [insertArtifacts, run_bind, Statement.bound, Tables.answer, Tables.continued, hnone, hjob,
      hih hjob hrest, artifactWrites]

theorem run_insertArtifacts_taken
    (hjob : ((dialect settings).applyAll t ws).jobs.get (cString jobId) = some row)
    (htaken : ¬ Free ((dialect settings).applyAll t ws).artifacts artifacts) :
    (dialect settings).run now (insertArtifacts jobId artifacts) ⟨t, q⟩ (.opened start ws) =
      (.error (.command .uniqueKey), ⟨t, q⟩, .aborted) := by
  induction artifacts generalizing ws with
  | nil => simp [Free] at htaken
  | cons a rest ih =>
    rcases hnone : ((dialect settings).applyAll t ws).artifacts.get (cString a.artifactId) with _ | b
    · rw [free_cons ⟨cString jobId, cString a.objectKey, cString a.kind⟩ hnone] at htaken
      have hih := @ih (ws ++ [.artifact (cString a.artifactId)
        ⟨cString jobId, cString a.objectKey, cString a.kind⟩])
      rw [Dialect.applyAll_append] at hih
      simp [insertArtifacts, run_bind, Statement.bound, Tables.answer, Tables.continued, hnone,
        hjob, hih hjob htaken]
    · simp [insertArtifacts, run_bind, Statement.bound, Tables.answer, Tables.continued, hnone]

theorem run_completeJob_of_nul (h : result.anyNul = true) :
    (dialect settings).run now (completeJob settings jobId workerId status message artifacts result)
        ⟨t, q⟩ .idle =
      (.error (.command .invalidJson), ⟨t, q⟩, .idle) := by
  simp [completeJob, run_bind, run_orRollback, Statement.bound, Tables.answer, Tables.continued, h]

theorem run_completeJob_none (hresult : result.anyNul = false)
    (h : Tables.find t.jobs (cString jobId) (·.runsFor (cString workerId)) = none) :
    (dialect settings).run now (completeJob settings jobId workerId status message artifacts result)
        ⟨t, q⟩ .idle =
      (.ok none, ⟨t, q⟩, .idle) := by
  simp [completeJob, run_bind, run_orRollback, Statement.bound, Tables.answer, Tables.continued,
    hresult, h, updateJob, Reply.jobRows]

/-- The tables after a completion. -/
def completedTables (t : Tables) (time eventId : ℕ) (jobId message : String) (status : Completion)
    (artifacts : List ArtifactRecord) (result : Json) (row : JobRow) : Tables :=
  { t.recordJob eventId jobId (row.completed time status result)
      ⟨jobId, status.status, message, time⟩ with
    artifacts := insertedArtifacts (droppedArtifacts t jobId) jobId artifacts }

/-- The writes of a completion up to its artifacts. -/
def completionWrites (t : Tables) (time : ℕ) (jobId : String) (status : Completion) (result : Json)
    (row : JobRow) : List Write :=
  .job jobId (row.completed time status result) ::
    (t.artifactsOf jobId).map fun x => .dropArtifact x.1

theorem applyAll_completionWrites {time : ℕ} :
    (dialect settings).applyAll t (completionWrites t time jobId status result row) =
      { t with
        jobs := t.jobs.set jobId (row.completed time status result)
        artifacts := droppedArtifacts t jobId } := by
  rw [completionWrites, applyAll_cons, applyAll_drops]
  rfl

/-- `CompleteJob` of a running job, from its loop over the artifacts on. -/
theorem run_completeJob (hresult : result.anyNul = false)
    (h : Tables.find t.jobs (cString jobId) (·.runsFor (cString workerId)) = some row) :
    (dialect settings).run now (completeJob settings jobId workerId status message artifacts result)
        ⟨t, q⟩ .idle =
      (dialect settings).run now
        (do
          let updated ← orRollback do
            insertArtifacts jobId artifacts
            let _ ← execParams (.insertEvent jobId status.status message)
            exec .commit
            return true
          if updated then getJob settings jobId else return none)
        ⟨t, q⟩ (.opened now (completionWrites t now.time (cString jobId) status result row)) := by
  have hsame : (t.apply (.job (cString jobId) (row.completed now.time status result))).artifactsOf
      (cString jobId) = t.artifactsOf (cString jobId) := rfl
  simp [completeJob, run_bind, run_orRollback, Statement.bound, Tables.answer, Tables.continued,
    hresult, h, updateJob, Reply.jobRows, hsame, completionWrites]

theorem run_completeJob_free (hresult : result.anyNul = false)
    (h : Tables.find t.jobs (cString jobId) (·.runsFor (cString workerId)) = some row)
    (hfree : Free (droppedArtifacts t (cString jobId)) artifacts) :
    (dialect settings).run now (completeJob settings jobId workerId status message artifacts result)
        ⟨t, q⟩ .idle =
      (.ok ((completedTables t now.time q.event (cString jobId) (cString message) status artifacts
          result row).jobRecord settings (cString jobId)),
        ⟨completedTables t now.time q.event (cString jobId) (cString message) status artifacts
          result row, { q with event := q.event + 1 }⟩, .idle) := by
  have hinsert : (dialect settings).run now (insertArtifacts jobId artifacts) ⟨t, q⟩
      (.opened now (completionWrites t now.time (cString jobId) status result row)) =
        (.ok (), ⟨t, q⟩, .opened now (completionWrites t now.time (cString jobId) status result row
          ++ artifactWrites (cString jobId) artifacts)) := by
    apply run_insertArtifacts_free
    · rw [applyAll_completionWrites]
      exact OrderedMap.get_set_self
    · rw [applyAll_completionWrites]
      exact hfree
  rw [run_completeJob hresult h]
  simp [run_bind, run_orRollback, hinsert, Statement.bound, Tables.answer, Tables.continued,
    Dialect.applyAll_append, applyAll_completionWrites, applyAll_artifactWrites, Tables.apply,
    run_getJob, completedTables, Tables.recordJob]

theorem run_completeJob_taken (hresult : result.anyNul = false)
    (h : Tables.find t.jobs (cString jobId) (·.runsFor (cString workerId)) = some row)
    (htaken : ¬ Free (droppedArtifacts t (cString jobId)) artifacts) :
    (dialect settings).run now (completeJob settings jobId workerId status message artifacts result)
        ⟨t, q⟩ .idle =
      (.error (.command .uniqueKey), ⟨t, q⟩, .idle) := by
  have hinsert : (dialect settings).run now (insertArtifacts jobId artifacts) ⟨t, q⟩
      (.opened now (completionWrites t now.time (cString jobId) status result row)) =
        (.error (.command .uniqueKey), ⟨t, q⟩, .aborted) := by
    apply run_insertArtifacts_taken
    · rw [applyAll_completionWrites]
      exact OrderedMap.get_set_self
    · rw [applyAll_completionWrites]
      exact htaken
  rw [run_completeJob hresult h]
  simp [run_bind, run_orRollback, hinsert]

end completeJob

end PostgresStore

end StyioPlatform.Workspace
