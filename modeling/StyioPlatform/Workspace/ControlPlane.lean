import StyioPlatform.Workspace.MemoryStore

/-! The workspace handlers of `PlatformRouter` over `MemoryStateStore`. An answer `none` is an
exception that leaves the handler. -/
namespace StyioPlatform.Workspace

/-- What a successful request answers with. -/
inductive Payload where
  | job (job : PlatformJobRecord)
  | events (jobId : String) (events : List JobEventRecord)
  | worker (worker : WorkerRecord)
  | container (container : CompileContainerRecord)
  | unclaimed
  | claimed (job : PlatformJobRecord) (container : Option CompileContainerRecord)

def Payload.json : Payload → Json
  | job record => serializeJobRecord record
  | events jobId records =>
    .ofFields [("job_id", .string jobId), ("events", .array (records.map serializeJobEvent))]
  | worker record => serializeWorker record
  | container record => serializeCompileContainerRecord record
  | unclaimed => .ofFields [("claimed", .bool false)]
  | claimed record held => .ofFields (
      [("claimed", .bool true), ("job", serializeJobRecord record)] ++
      (held.map fun c => ("compile_container", serializeCompileContainerRecord c)).toList)

inductive Response where
  /-- Status 200 and `SuccessEnvelope`. -/
  | success (message : String) (payload : Payload)
  /-- Another status and `FailureEnvelope`. -/
  | failure (status : ℕ) (message detail category operation : String) (returncode : ℕ)

namespace Response

def statusCode : Response → ℕ
  | success _ _ => 200
  | failure status _ _ _ _ _ => status

def body : Response → Json
  | success message payload => .ofFields [("returncode", .int 0), ("message", .string message),
      ("stdout", .string ""), ("stderr", .string ""), ("payload", payload.json)]
  | failure _ message detail category operation returncode => .ofFields
      [("returncode", .int returncode), ("message", .string message), ("stdout", .string ""),
        ("stderr", .string detail),
        ("error_payload", .ofFields [("category", .string category), ("detail", .string detail),
          ("operation_id", .string operation)])]

end Response

/-- The requests of the job, worker and compile container routes. -/
inductive Request where
  | submitJob (body : Json)
  | getJob (jobId : String)
  | getJobEvents (jobId : String)
  | cancelJob (jobId : String) (body : Json)
  | registerWorker (body : Json)
  | registerCompileContainer (body : Json)
  | getCompileContainer (containerId : String)
  | switchCompileContainerWorkspace (containerId : String) (body : Json)
  | claimJob (body : Json)
  | heartbeatJob (jobId : String) (body : Json)
  | completeJob (jobId : String) (body : Json)

/-- The first of the fields that is no string. -/
def missingText (body : Json) (fields : List String) : Option String :=
  (fields.find? fun field => (body.textField field).isNone).map (· ++ " is required")

/-- The worker of a registration; `.error` holds the answer of a rejected one. -/
def workerFromRequest (body : Json) : Except (Option Response) WorkerRecord :=
  let rejected (detail : String) : Except (Option Response) WorkerRecord := .error (some
    (.failure 400 "worker registration rejected" detail "ValidationError" "registerWorker" 2))
  match missingText body ["worker_id", "region", "worker_pool_key"] with
  | some detail => rejected detail
  | none =>
    match body.intOr "capacity" 0 with
    | none => .error none
    | some capacity =>
      if capacity < 1 then rejected "capacity must be positive"
      else .ok
        { workerId := (body.textField "worker_id").getD ""
          region := (body.textField "region").getD ""
          workerPoolKey := (body.textField "worker_pool_key").getD ""
          capacity }

structure ClaimRequest where
  workerId : String
  region : String
  workerPoolKey : String
  compileContainerId : Option String

/-- The fields of a claim; `.error` holds the answer of a rejected one. -/
def claimFromRequest (body : Json) : Except Response ClaimRequest :=
  let rejected (detail : String) : Except Response ClaimRequest :=
    .error (.failure 400 "job claim failed" detail "ValidationError" "claimJob" 2)
  match missingText body ["worker_id", "region", "worker_pool_key"] with
  | some detail => rejected detail
  | none =>
    if (body.get? "compile_container_id").isSome &&
        (body.nonEmptyField "compile_container_id").isNone then
      rejected "compile_container_id must be a non-empty string when present"
    else .ok
      { workerId := (body.textField "worker_id").getD ""
        region := (body.textField "region").getD ""
        workerPoolKey := (body.textField "worker_pool_key").getD ""
        compileContainerId := body.nonEmptyField "compile_container_id" }

structure CompletionRequest where
  status : Completion
  artifacts : List ArtifactRecord

/-- Status and artifacts of a completion; `.error none` where `value(…)` throws. -/
def completionFromRequest (body : Json) : Except (Option Response) CompletionRequest :=
  match body.textOr "status" "" with
  | none => .error none
  | some text =>
    match Completion.ofText? text with
    | none => .error (some (.failure 400 "job completion failed"
        "status must be succeeded, failed, or cancelled" "ValidationError" "completeJob" 2))
    | some status =>
      match artifactsFromRequest body with
      | none => .error none
      | some artifacts => .ok { status, artifacts }

/-- What the checks of a switch find before the store is asked to switch. -/
def switchRejected (body : Json) (current : CompileContainerRecord) : Option Response :=
  let rejected (detail category : String) (returncode : ℕ) : Option Response := some
    (.failure 403 "compile container workspace switch rejected" detail category
      "switchCompileContainerWorkspace" returncode)
  if current.workerId ≠ (body.textField "worker_id").getD "" then
    rejected "worker does not own compile container" "WorkerError" 17
  else if ∃ tenantId ∈ body.textField "tenant_id", tenantId ≠ current.tenantId then
    rejected "tenant binding mismatch" "BindingError" 2
  else if ∃ userId ∈ body.textField "user_id", userId ≠ current.userId then
    rejected "user binding mismatch" "BindingError" 2
  else none

def switchNotFound : Response :=
  .failure 404 "compile container workspace switch failed" "compile container not found" "NotFound"
    "switchCompileContainerWorkspace" 17

def switchNotActive : Response :=
  .failure 403 "compile container workspace switch rejected" "compile container is not active"
    "StateError" "switchCompileContainerWorkspace" 17

def submitRejected (detail : String) : Response :=
  .failure 400 "job submission rejected" detail "ValidationError" "submitJob" 2

def jobNotFound : Response :=
  .failure 404 "job lookup failed" "job not found" "NotFound" "getJob" 17

def jobEventsNotFound : Response :=
  .failure 404 "job event lookup failed" "job not found" "NotFound" "getJobEvents" 17

def reasonRequired : Response :=
  .failure 400 "job cancellation failed" "reason is required" "ValidationError" "cancelJob" 2

def cancelNotFound (detail : String) : Response :=
  .failure 404 "job cancellation failed" detail "NotFound" "cancelJob" 17

def containerRejected (detail : String) : Response :=
  .failure 400 "compile container registration rejected" detail "ValidationError"
    "registerCompileContainer" 2

def containerWorkerError (detail : String) : Response :=
  .failure 403 "compile container registration rejected" detail "WorkerError"
    "registerCompileContainer" 17

def containerBindingError (detail : String) : Response :=
  .failure 409 "compile container registration rejected" detail "BindingError"
    "registerCompileContainer" 2

def containerNotFound : Response :=
  .failure 404 "compile container lookup failed" "compile container not found" "NotFound"
    "getCompileContainer" 17

def claimWorkerError (detail : String) : Response :=
  .failure 403 "job claim failed" detail "WorkerError" "claimJob" 17

def heartbeatNotOwner : Response :=
  .failure 403 "job heartbeat failed" "worker does not own job" "WorkerError" "heartbeatJob" 17

def completeNotOwner : Response :=
  .failure 403 "job completion failed" "worker does not own job" "WorkerError" "completeJob" 17

namespace MemoryStateStore

/-- An answer that leaves the store as it is. -/
def answer (response : Response) (m : MemoryStateStore) : Option Response × MemoryStateStore :=
  (some response, m)

def handleSubmitJob (configRegion : String) (body : Json) (m : MemoryStateStore) :
    Option Response × MemoryStateStore :=
  match validateSubmitJobRequest body with
  | some detail => answer (submitRejected detail) m
  | none =>
    let (jobId, m) := m.nextJobId
    match buildQueuedJobRecord body configRegion jobId with
    | none => (none, m)
    | some job => (some (.success "queued platform job" (.job job)), m.submitJob job)

def handleGetJob (jobId : String) (m : MemoryStateStore) : Option Response × MemoryStateStore :=
  match m.getJob jobId with
  | none => answer jobNotFound m
  | some job => answer (.success "loaded platform job" (.job job)) m

def handleGetJobEvents (jobId : String) (m : MemoryStateStore) :
    Option Response × MemoryStateStore :=
  match m.getJob jobId with
  | none => answer jobEventsNotFound m
  | some _ =>
    answer (.success "loaded platform job events" (.events jobId (m.getJobEvents jobId))) m

def handleCancelJob (jobId : String) (body : Json) (m : MemoryStateStore) :
    Option Response × MemoryStateStore :=
  match body.textField "reason" with
  | none => answer reasonRequired m
  | some reason =>
    match m.cancelJob jobId reason with
    | none => answer (cancelNotFound "job not found") m
    | some (job, m) => answer (.success "cancelled platform job" (.job job)) m

def handleRegisterWorker (body : Json) (m : MemoryStateStore) :
    Option Response × MemoryStateStore :=
  match workerFromRequest body with
  | .error rejected => (rejected, m)
  | .ok worker =>
    answer (.success "registered platform worker" (.worker worker)) (m.registerWorker worker)

/-- The answer to an error of `RegisterCompileContainer`. -/
def registrationError : MemoryStateStoreError → Response
  | .workerNotRegistered => containerWorkerError MemoryStateStoreError.workerNotRegistered.what
  | .workerMismatch => containerWorkerError MemoryStateStoreError.workerMismatch.what
  | .userBindingMismatch => containerBindingError "compile container user binding mismatch"
  | .workerOwnerMismatch => containerBindingError "compile container worker owner mismatch"
  | error => .failure 503 "compile container registration failed" error.what "MemoryStateError"
      "registerCompileContainer" 17

def handleRegisterCompileContainer (body : Json) (m : MemoryStateStore) :
    Option Response × MemoryStateStore :=
  match validateCompileContainerRegistration body with
  | none => (none, m)
  | some (some detail) => answer (containerRejected detail) m
  | some none =>
    let container := createFromRegistration body
    match m.registerCompileContainer container with
    | .error error => answer (registrationError error) m
    | .ok m => answer (.success "registered compile container" (.container container)) m

def handleGetCompileContainer (containerId : String) (m : MemoryStateStore) :
    Option Response × MemoryStateStore :=
  match m.getCompileContainer containerId with
  | none => answer containerNotFound m
  | some container => answer (.success "loaded compile container" (.container container)) m

def handleSwitchCompileContainerWorkspace (containerId : String) (body : Json)
    (m : MemoryStateStore) : Option Response × MemoryStateStore :=
  match validateCompileContainerSwitch body with
  | some detail => answer (.failure 400 "compile container workspace switch rejected" detail
      "ValidationError" "switchCompileContainerWorkspace" 2) m
  | none =>
    match m.getCompileContainer containerId with
    | none => answer switchNotFound m
    | some current =>
      match switchRejected body current with
      | some response => answer response m
      | none =>
        match m.switchCompileContainerWorkspace containerId ((body.textField "worker_id").getD "")
          ((body.textField "workspace_id").getD "")
          ((body.textField "reason").getD "manual switch") with
        | .error error => answer (.failure 403 "compile container workspace switch rejected"
            error.what "WorkerError" "switchCompileContainerWorkspace" 17) m
        | .ok none => answer switchNotActive m
        | .ok (some (container, m)) =>
          answer (.success "switched compile container workspace" (.container container)) m

/-- The answer to an error of `ClaimJob` and `ClaimJobForCompileContainer`. -/
def claimError : MemoryStateStoreError → Response
  | .workerNotRegistered => claimWorkerError "worker is not registered"
  | .containerNotRegistered => claimWorkerError "compile container is not registered"
  | .containerNotAvailable => claimWorkerError "compile container is not available for this worker"
  | error => .failure 503 "job claim failed" error.what "MemoryStateError" "claimJob" 17

/-- The claim with or without a compile container. -/
def claim (m : MemoryStateStore) (request : ClaimRequest) :
    Except MemoryStateStoreError (Option (PlatformJobRecord × MemoryStateStore)) :=
  match request.compileContainerId with
  | some containerId =>
    m.claimJobForCompileContainer request.workerId request.region request.workerPoolKey containerId
  | none => m.claimJob request.workerId request.region request.workerPoolKey

def handleClaimJob (body : Json) (m : MemoryStateStore) : Option Response × MemoryStateStore :=
  match claimFromRequest body with
  | .error rejected => answer rejected m
  | .ok request =>
    match m.claim request with
    | .error error => answer (claimError error) m
    | .ok none => answer (.success "no platform job available" .unclaimed) m
    | .ok (some (job, m)) =>
      answer (.success "claimed platform job"
        (.claimed job (request.compileContainerId.bind m.getCompileContainer))) m

def handleHeartbeatJob (jobId : String) (body : Json) (m : MemoryStateStore) :
    Option Response × MemoryStateStore :=
  match m.getJob jobId with
  | none => answer (.failure 404 "job heartbeat failed" "job not found" "NotFound" "heartbeatJob" 17) m
  | some existing =>
    if body.textField "worker_id" ≠ some existing.workerId then answer heartbeatNotOwner m
    else
      match body.textOr "message" "worker heartbeat" with
      | none => (none, m)
      | some message =>
        match m.heartbeatJob jobId existing.workerId message with
        | none => (none, m)
        | some (job, m) => answer (.success "recorded platform job heartbeat" (.job job)) m

def handleCompleteJob (jobId : String) (body : Json) (m : MemoryStateStore) :
    Option Response × MemoryStateStore :=
  match m.getJob jobId with
  | none => answer (.failure 404 "job completion failed" "job not found" "NotFound" "completeJob" 17) m
  | some existing =>
    if body.textField "worker_id" ≠ some existing.workerId then answer completeNotOwner m
    else
      match completionFromRequest body with
      | .error rejected => (rejected, m)
      | .ok completion =>
        match body.textOr "message" "job completed" with
        | none => (none, m)
        | some message =>
          match m.completeJob jobId existing.workerId completion.status message
            completion.artifacts with
          | none => (none, m)
          | some (job, m) => answer (.success "completed platform job" (.job job)) m

/-- The handler that the router calls; `configRegion` is the region of its configuration. -/
def handle (configRegion : String) : Request → MemoryStateStore → Option Response × MemoryStateStore
  | .submitJob body => handleSubmitJob configRegion body
  | .getJob jobId => handleGetJob jobId
  | .getJobEvents jobId => handleGetJobEvents jobId
  | .cancelJob jobId body => handleCancelJob jobId body
  | .registerWorker body => handleRegisterWorker body
  | .registerCompileContainer body => handleRegisterCompileContainer body
  | .getCompileContainer containerId => handleGetCompileContainer containerId
  | .switchCompileContainerWorkspace containerId body =>
    handleSwitchCompileContainerWorkspace containerId body
  | .claimJob body => handleClaimJob body
  | .heartbeatJob jobId body => handleHeartbeatJob jobId body
  | .completeJob jobId body => handleCompleteJob jobId body

end MemoryStateStore

end StyioPlatform.Workspace
