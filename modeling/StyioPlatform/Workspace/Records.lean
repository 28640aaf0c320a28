import StyioPlatform.Lib.Json
import StyioPlatform.Lib.Numeral

/-! Jobs, workers and compile containers: the records of the state stores (`StateRecords.hpp`) and
the checks of requests that lead to them (`JobQueue.cpp`, `WorkspaceControlPlaneSupport.hpp`). -/
namespace StyioPlatform.Workspace

inductive JobStatus where
  | queued | running | succeeded | failed | cancelled
  deriving DecidableEq

def JobStatus.text : JobStatus → String
  | .queued => "queued"
  | .running => "running"
  | .succeeded => "succeeded"
  | .failed => "failed"
  | .cancelled => "cancelled"

/-- No further move is meant to follow. -/
def JobStatus.terminal : JobStatus → Bool
  | .queued => false
  | .running => false
  | _ => true

/-- The statuses with which a worker may complete a job. -/
inductive Completion where
  | succeeded | failed | cancelled
  deriving DecidableEq

def Completion.status : Completion → JobStatus
  | .succeeded => .succeeded
  | .failed => .failed
  | .cancelled => .cancelled

theorem Completion.terminal_status (c : Completion) : c.status.terminal = true := by
  cases c <;> rfl

def Completion.ofText? (status : String) : Option Completion :=
  if status = "succeeded" then some .succeeded
  else if status = "failed" then some .failed
  else if status = "cancelled" then some .cancelled
  else none

/-- The moves that the life cycle allows. -/
inductive Move : JobStatus → JobStatus → Prop
  | claim : Move .queued .running
  | cancelQueued : Move .queued .cancelled
  | succeed : Move .running .succeeded
  | fail : Move .running .failed
  | cancelRunning : Move .running .cancelled

theorem move_completion (c : Completion) : Move .running c.status := by
  cases c
  · exact .succeed
  · exact .fail
  · exact .cancelRunning

inductive ContainerStatus where
  | active | draining
  deriving DecidableEq

def ContainerStatus.text : ContainerStatus → String
  | .active => "active"
  | .draining => "draining"

def ContainerStatus.ofText? (status : String) : Option ContainerStatus :=
  if status = "active" then some .active
  else if status = "draining" then some .draining
  else none

structure ArtifactRecord where
  artifactId : String
  objectKey : String
  kind : String
  deriving DecidableEq

structure PlatformJobRecord where
  jobId : String
  tenantId : String
  userId : String
  workspaceId : String
  action : String
  status : JobStatus := .queued
  region : String
  workerPoolKey : String
  createdAt : String := "2026-04-24T00:00:00Z"
  workerId : String := ""
  finishedAt : String := ""
  jobRequest : Json
  artifacts : List ArtifactRecord := []

structure CompileContainerRecord where
  containerId : String
  workerId : String
  tenantId : String
  userId : String
  currentWorkspaceId : String
  region : String
  workerPoolKey : String
  status : ContainerStatus := .active
  capacity : ℤ := 1
  workspaceGeneration : ℕ := 1
  createdAt : String := "2026-04-24T00:00:00Z"
  lastSwitchedAt : String := ""
  lastSwitchReason : String := ""
  deriving DecidableEq

structure JobEventRecord where
  eventId : String
  jobId : String
  status : JobStatus
  message : String
  createdAt : String := "2026-04-24T00:00:00Z"
  deriving DecidableEq

/-- The object that `HandleRegisterWorker` builds. -/
structure WorkerRecord where
  workerId : String
  region : String
  workerPoolKey : String
  capacity : ℤ
  status : String := "registered"
  deriving DecidableEq

def serializeArtifact (artifact : ArtifactRecord) : Json :=
  .ofFields [("artifact_id", .string artifact.artifactId), ("object_key", .string artifact.objectKey),
    ("kind", .string artifact.kind)]

def serializeJobRecord (job : PlatformJobRecord) : Json :=
  .ofFields (
    [("job_id", .string job.jobId), ("tenant_id", .string job.tenantId),
      ("user_id", .string job.userId), ("workspace_id", .string job.workspaceId),
      ("action", .string job.action), ("status", .string job.status.text),
      ("region", .string job.region), ("worker_pool_key", .string job.workerPoolKey),
      ("created_at", .string job.createdAt)] ++
    (if job.workerId = "" then [] else [("worker_id", .string job.workerId)]) ++
    (if job.finishedAt = "" then [] else [("finished_at", .string job.finishedAt)]) ++
    (if job.jobRequest.isEmpty then [] else [("job_request", job.jobRequest)]) ++
    (if job.artifacts = [] then [] else [("artifacts", .array (job.artifacts.map serializeArtifact))]))

def serializeJobEvent (event : JobEventRecord) : Json :=
  .ofFields [("event_id", .string event.eventId), ("job_id", .string event.jobId),
    ("status", .string event.status.text), ("message", .string event.message),
    ("created_at", .string event.createdAt)]

def serializeCompileContainerRecord (container : CompileContainerRecord) : Json :=
  .ofFields (
    [("container_id", .string container.containerId), ("worker_id", .string container.workerId),
      ("tenant_id", .string container.tenantId), ("user_id", .string container.userId),
      ("current_workspace_id", .string container.currentWorkspaceId),
      ("region", .string container.region), ("worker_pool_key", .string container.workerPoolKey),
      ("status", .string container.status.text), ("capacity", .int container.capacity),
      ("workspace_generation", .int container.workspaceGeneration),
      ("created_at", .string container.createdAt)] ++
    (if container.lastSwitchedAt = "" then []
      else [("last_switched_at", .string container.lastSwitchedAt)]) ++
    (if container.lastSwitchReason = "" then []
      else [("last_switch_reason", .string container.lastSwitchReason)]))

def serializeWorker (worker : WorkerRecord) : Json :=
  .ofFields [("worker_id", .string worker.workerId), ("region", .string worker.region),
    ("worker_pool_key", .string worker.workerPoolKey), ("capacity", .int worker.capacity),
    ("status", .string worker.status)]

def jobIdFor (sequence : ℕ) : String := "job-" ++ String.ofList (paddedDigits 12 sequence)

theorem toList_jobIdFor (sequence : ℕ) :
    (jobIdFor sequence).toList = "job-".toList ++ paddedDigits 12 sequence := by
  unfold jobIdFor
  exact (String.toList_append ..).trans (congrArg _ String.toList_ofList)

theorem jobIdFor_injective : Function.Injective jobIdFor := by
  intro a b h
  have hdigits := congrArg String.toList h
  rw [toList_jobIdFor, toList_jobIdFor] at hdigits
  exact paddedDigits_injective 12 (List.append_cancel_left hdigits)

theorem jobIdFor_lt {a b : ℕ} (hb : b < 10 ^ 12) (h : a < b) : jobIdFor a < jobIdFor b := by
  have hdigits := paddedDigits_lt (by decide) hb h
  simp only [String.lt_iff, toList_jobIdFor]
  exact List.append_left_lt hdigits

theorem cString_jobIdFor (n : ℕ) : cString (jobIdFor n) = jobIdFor n := by
  apply cString_eq
  have hdigits : ∀ c ∈ paddedDigits 12 n, c ≠ '\x00' := by
    rintro c hc rfl
    have := isDigit_of_mem_paddedDigits hc
    cases this
  simp only [hasNul, jobIdFor, String.toList_append, String.toList_ofList, List.contains_eq_mem,
    List.mem_append, decide_eq_false_iff_not, not_or]
  exact ⟨by decide, fun h => hdigits _ h rfl⟩

/-- Which transports a git source may use. -/
structure GitSourcePolicy where
  allowHttps : Bool
  allowHttp : Bool
  allowSsh : Bool
  allowFileUrl : Bool
  allowGitProtocol : Bool
  allowLocalPath : Bool

def publicGitSourcePolicy : GitSourcePolicy := ⟨true, true, true, true, true, true⟩

def hasControlCharacter (value : String) : Bool :=
  value.toList.any fun c => c.toNat < 0x20 || c.toNat == 0x7f

/-- `GitSourcePolicyViolation`: the text of the violation, or `none`. -/
def gitSourcePolicyViolation (source : String) (policy : GitSourcePolicy) : Option String :=
  let startsWith (start : String) : Bool := start.toList.isPrefixOf source.toList
  let requiring (allowed : Bool) (detail : String) : Option String := if allowed then none else some detail
  if source = "" then some "git source origin is required"
  else if hasControlCharacter source then some "git source origin contains control characters"
  else if startsWith "https://" then requiring policy.allowHttps "https git sources are not allowed"
  else if startsWith "http://" then requiring policy.allowHttp "http git sources are not allowed"
  else if startsWith "ssh://" || startsWith "git@" then
    requiring policy.allowSsh "ssh git sources are not allowed"
  else if startsWith "file://" then requiring policy.allowFileUrl "file git sources are not allowed"
  else if startsWith "git://" then
    requiring policy.allowGitProtocol "git protocol sources are not allowed"
  else if "://".toList <:+: source.toList then some "unsupported git source protocol"
  else requiring policy.allowLocalPath "local git source paths are not allowed"

def isAction (value : String) : Bool := value == "build" || value == "run" || value == "test"

/-- The first of the fields that is no non-empty string. -/
def missingField (body : Json) (fields : List String) : Option String :=
  (fields.find? fun field => (body.nonEmptyField field).isNone).map (· ++ " is required")

def validateCloudBuildRequest (jobRequest : Json) : Option String :=
  let source := (jobRequest.get? "source").getD .null
  if !((jobRequest.get? "schema_version").map Json.isInteger).getD false then
    some "job_request.schema_version is required"
  else if (jobRequest.nonEmptyField "manifest_path").isNone then
    some "job_request.manifest_path is required"
  else if !source.isObject then some "job_request.source is required"
  else
    match source.nonEmptyField "origin" with
    | none => some "job_request.source.origin is required"
    | some origin =>
      match gitSourcePolicyViolation origin publicGitSourcePolicy with
      | some violation => some ("job_request.source.origin " ++ violation)
      | none =>
        if (source.get? "requested_revision").isSome &&
            (source.nonEmptyField "requested_revision").isNone then
          some "job_request.source.requested_revision must be a non-empty string when present"
        else
          (["toolchain", "workflow", "target", "cloud"].find? fun field =>
            ((jobRequest.get? field).map fun member => !member.isObject).getD false).map
            fun field => "job_request." ++ field ++ " must be an object when present"

def validateSubmitJobRequest (request : Json) : Option String :=
  if !request.isObject then some "request body must be an object"
  else
    match missingField request ["tenant_id", "user_id", "workspace_id", "action"] with
    | some detail => some detail
    | none =>
      if !isAction ((request.textField "action").getD "") then
        some "action must be build, run, or test"
      else
        match request.get? "job_request" with
        | some (.object fields) => validateCloudBuildRequest (.object fields)
        | _ => some "job_request is required"

def workerPoolFromRequest (request : Json) : String :=
  let cloud := (request.get? "job_request").bind (·.get? "cloud")
  ((request.textField "preferred_worker_pool").or (cloud.bind (·.textField "worker_pool_key"))).getD
    "linux/x86_64/binary/stable/minimal"

/-- `BuildQueuedJobRecord`; `none` where `value("region", …)` throws. -/
def buildQueuedJobRecord (request : Json) (configRegion jobId : String) :
    Option PlatformJobRecord :=
  (request.textOr "region" configRegion).map fun region =>
    { jobId
      tenantId := (request.textField "tenant_id").getD ""
      userId := (request.textField "user_id").getD ""
      workspaceId := (request.textField "workspace_id").getD ""
      action := (request.textField "action").getD ""
      region
      workerPoolKey := workerPoolFromRequest request
      jobRequest := (request.get? "job_request").getD .null }

/-- `ValidateCompileContainerRegistration`; `none` where `value("capacity", …)` throws. -/
def validateCompileContainerRegistration (body : Json) : Option (Option String) :=
  if !body.isObject then some (some "request body must be an object")
  else
    match missingField body ["container_id", "worker_id", "tenant_id", "user_id", "workspace_id",
      "region", "worker_pool_key"] with
    | some detail => some (some detail)
    | none => (body.intOr "capacity" 0).map fun capacity =>
      if capacity < 1 then some "capacity must be positive"
      else if (body.get? "status").isSome &&
          ((body.textField "status").bind ContainerStatus.ofText?).isNone then
        some "status must be active or draining when present"
      else none

/-- `CompileContainerRecordFactory::CreateFromRegistration`, of a body that passed the check. -/
def createFromRegistration (body : Json) : CompileContainerRecord where
  containerId := (body.textField "container_id").getD ""
  workerId := (body.textField "worker_id").getD ""
  tenantId := (body.textField "tenant_id").getD ""
  userId := (body.textField "user_id").getD ""
  currentWorkspaceId := (body.textField "workspace_id").getD ""
  region := (body.textField "region").getD ""
  workerPoolKey := (body.textField "worker_pool_key").getD ""
  status := ((body.textField "status").bind ContainerStatus.ofText?).getD .active
  capacity := (body.intOr "capacity" 1).getD 1

/-- The first of the fields that is present and no non-empty string. -/
def malformedOptionalField (body : Json) (fields : List String) : Option String :=
  (fields.find? fun field => (body.get? field).isSome && (body.nonEmptyField field).isNone).map
    (· ++ " must be a non-empty string when present")

def validateCompileContainerSwitch (body : Json) : Option String :=
  if !body.isObject then some "request body must be an object"
  else (missingField body ["worker_id", "workspace_id"]).or
    (malformedOptionalField body ["tenant_id", "user_id", "reason"])

/-- The artifacts of a completion; `none` where an entry is no object or a member no string. -/
def artifactsFromRequest (body : Json) : Option (List ArtifactRecord) :=
  (((body.get? "artifacts").map Json.elements).getD []).mapM fun entry => do
    let artifactId ← entry.textOr "artifact_id" "artifact"
    let objectKey ← entry.textOr "object_key" ""
    let kind ← entry.textOr "kind" "artifact"
    pure { artifactId, objectKey, kind }

end StyioPlatform.Workspace
