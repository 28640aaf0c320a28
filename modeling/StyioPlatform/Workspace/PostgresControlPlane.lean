import StyioPlatform.Workspace.ControlPlane
import StyioPlatform.Workspace.PostgresStore

/-! The workspace handlers of `PlatformRouter` over `PostgresStore`, as scripts of the calls that they
make. An answer `none` is an exception that leaves the handler. -/
namespace StyioPlatform.Workspace

/-- `FailureResponse(503, …, "PostgresError", …)`. -/
def postgresFailure (message detail operation : String) : Response :=
  .failure 503 message detail "PostgresError" operation 17

/-- The text of the exception of `value(…)` where a member has another type. -/
def memberTypeError : String := "[json.exception.type_error.302] type must be string"

namespace PostgresStore

/-- `try { … } catch (const std::exception &error) { return FailureResponse(503, …); }`. -/
def orUnavailable (message operation : String) (body : StoreCall (Option Response)) :
    StoreCall (Option Response) :=
  body.tryCatch fun error => return some (postgresFailure message error.what operation)

section handlers

variable (settings : Settings)

def handleSubmitJob (configRegion : String) (body : Json) : StoreCall (Option Response) :=
  match validateSubmitJobRequest body with
  | some detail => return some (submitRejected detail)
  | none =>
    Script.tryCatch
      (do
        let jobId ← nextJobId
        match buildQueuedJobRecord body configRegion jobId with
        | none => return none
        | some job =>
          submitJob job
          return some (.success "queued platform job" (.job job)))
      fun error => return some (postgresFailure "job submission failed" error.what "submitJob")

def handleGetJob (jobId : String) : StoreCall (Option Response) :=
  orUnavailable "job lookup failed" "getJob" do
    match ← getJob settings jobId with
    | none => return some jobNotFound
    | some job => return some (.success "loaded platform job" (.job job))

def handleGetJobEvents (jobId : String) : StoreCall (Option Response) :=
  orUnavailable "job event lookup failed" "getJobEvents" do
    match ← getJob settings jobId with
    | none => return some jobEventsNotFound
    | some _ =>
      let events ← getJobEvents settings jobId
      return some (.success "loaded platform job events" (.events jobId events))

def handleCancelJob (jobId : String) (body : Json) : StoreCall (Option Response) :=
  match body.textField "reason" with
  | none => return some reasonRequired
  | some reason =>
    orUnavailable "job cancellation failed" "cancelJob" do
      match ← cancelJob settings jobId reason with
      | none => return some (cancelNotFound "job not found or already completed")
      | some job => return some (.success "cancelled platform job" (.job job))

def handleRegisterWorker (body : Json) : StoreCall (Option Response) :=
  match workerFromRequest body with
  | .error rejected => return rejected
  | .ok worker =>
    orUnavailable "worker registration failed" "registerWorker" do
      let worker ← registerWorker worker
      return some (.success "registered platform worker" (.worker worker))

/-- The answer to an error of `RegisterCompileContainer`. -/
def registrationError : PostgresStoreError → Response
  | .workerNotRegistered => containerWorkerError "worker is not registered"
  | .userBindingMismatch => containerBindingError "compile container user binding mismatch"
  | .workerOwnerMismatch => containerBindingError "compile container worker owner mismatch"
  | error => postgresFailure "compile container registration failed" error.what
      "registerCompileContainer"

def handleRegisterCompileContainer (body : Json) : StoreCall (Option Response) :=
  match validateCompileContainerRegistration body with
  | none => return none
  | some (some detail) => return some (containerRejected detail)
  | some none =>
    Script.tryCatch
      (do
        let container ← registerCompileContainer settings (createFromRegistration body)
        return some (.success "registered compile container" (.container container)))
      fun error => return some (registrationError error)

def handleGetCompileContainer (containerId : String) : StoreCall (Option Response) :=
  orUnavailable "compile container lookup failed" "getCompileContainer" do
    match ← getCompileContainer settings containerId with
    | none => return some containerNotFound
    | some container => return some (.success "loaded compile container" (.container container))

def handleSwitchCompileContainerWorkspace (containerId : String) (body : Json) :
    StoreCall (Option Response) :=
  match validateCompileContainerSwitch body with
  | some detail => return some (.failure 400 "compile container workspace switch rejected" detail
      "ValidationError" "switchCompileContainerWorkspace" 2)
  | none =>
    orUnavailable "compile container workspace switch failed" "switchCompileContainerWorkspace" do
      match ← getCompileContainer settings containerId with
      | none => return some switchNotFound
      | some current =>
        match switchRejected body current with
        | some response => return some response
        | none =>
          match ← switchCompileContainerWorkspace settings containerId
            ((body.textField "worker_id").getD "") ((body.textField "workspace_id").getD "")
            ((body.textField "reason").getD "manual switch") with
          | none => return some switchNotActive
          | some container =>
            return some (.success "switched compile container workspace" (.container container))

/-- The answer to an error of `ClaimJob` and `ClaimJobForCompileContainer`. -/
def claimError : PostgresStoreError → Response
  | .workerNotRegistered => claimWorkerError "worker is not registered"
  | .containerNotRegistered => claimWorkerError "compile container is not registered"
  | error => postgresFailure "job claim failed" error.what "claimJob"

/-- The claim with or without a compile container. -/
def claim (request : ClaimRequest) : StoreCall (Option PlatformJobRecord) :=
  match request.compileContainerId with
  | some containerId => claimJobForCompileContainer settings request.workerId request.region
      request.workerPoolKey containerId
  | none => claimJob settings request.workerId request.region request.workerPoolKey

/-- The container of a claim as the answer shows it. -/
def claimedContainer (request : ClaimRequest) : StoreCall (Option CompileContainerRecord) :=
  match request.compileContainerId with
  | some containerId => getCompileContainer settings containerId
  | none => return none

def handleClaimJob (body : Json) : StoreCall (Option Response) :=
  match claimFromRequest body with
  | .error rejected => return some rejected
  | .ok request =>
    Script.tryCatch
      (do
        match ← claim settings request with
        | none => return some (.success "no platform job available" .unclaimed)
        | some job =>
          let container ← claimedContainer settings request
          return some (.success "claimed platform job" (.claimed job container)))
      fun error => return some (claimError error)

def handleHeartbeatJob (jobId : String) (body : Json) : StoreCall (Option Response) :=
  match body.textField "worker_id" with
  | none => return some (.failure 400 "job heartbeat failed" "worker_id is required"
      "ValidationError" "heartbeatJob" 2)
  | some workerId =>
    match body.textOr "message" "worker heartbeat" with
    | none => return some (postgresFailure "job heartbeat failed" memberTypeError "heartbeatJob")
    | some message =>
      orUnavailable "job heartbeat failed" "heartbeatJob" do
        match ← heartbeatJob settings jobId workerId message with
        | none => return some heartbeatNotOwner
        | some job => return some (.success "recorded platform job heartbeat" (.job job))

def handleCompleteJob (jobId : String) (body : Json) : StoreCall (Option Response) :=
  match body.textField "worker_id" with
  | none => return some (.failure 400 "job completion failed" "worker_id is required"
      "ValidationError" "completeJob" 2)
  | some workerId =>
    match completionFromRequest body with
    | .error rejected => return rejected
    | .ok completion =>
      match body.textOr "message" "job completed" with
      | none => return some (postgresFailure "job completion failed" memberTypeError "completeJob")
      | some message =>
        orUnavailable "job completion failed" "completeJob" do
          match ← completeJob settings jobId workerId completion.status message
            completion.artifacts ((body.get? "result").getD (.object [])) with
          | none => return some completeNotOwner
          | some job => return some (.success "completed platform job" (.job job))

/-- The handler that the router calls; `configRegion` is the region of its configuration. -/
def handle (configRegion : String) : Request → StoreCall (Option Response)
  | .submitJob body => handleSubmitJob configRegion body
  | .getJob jobId => handleGetJob settings jobId
  | .getJobEvents jobId => handleGetJobEvents settings jobId
  | .cancelJob jobId body => handleCancelJob settings jobId body
  | .registerWorker body => handleRegisterWorker body
  | .registerCompileContainer body => handleRegisterCompileContainer settings body
  | .getCompileContainer containerId => handleGetCompileContainer settings containerId
  | .switchCompileContainerWorkspace containerId body =>
    handleSwitchCompileContainerWorkspace settings containerId body
  | .claimJob body => handleClaimJob settings body
  | .heartbeatJob jobId body => handleHeartbeatJob settings jobId body
  | .completeJob jobId body => handleCompleteJob settings jobId body

end handlers

end PostgresStore

end StyioPlatform.Workspace
