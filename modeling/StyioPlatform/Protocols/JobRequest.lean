import StyioPlatform.Protocols.Execution
import StyioPlatform.Workspace.WorkerReports

/-! The request that a client submits for a cloud build (`Job.cpp`), and what the control plane and
the worker make of it. -/
namespace StyioPlatform.Protocols

open Workspace

/-- The part of a `BuildPlanRequest` that the job depends on. -/
structure BuildPlanRequest where
  manifestPath : String := "spio.toml"
  packageName : Option String := none
  binName : Option String := none
  testName : Option String := none
  selectLib : Bool := false
  profile : String := "dev"
  buildMode : String := "minimal"

structure WorkflowInvocationOptions where
  locked : Bool := false
  offline : Bool := false
  styioBin : Option String := none
  allowFetch : Bool := true
  assumeYes : Bool := false
  nonInteractive : Bool := false
  sourceRoot : Option String := none
  sourceRevision : Option String := none

structure CloudJobTargetSelection where
  packageName : Option String
  binName : Option String
  testName : Option String
  selectLib : Bool
  deriving DecidableEq

structure CloudJobSourceSelection where
  origin : String
  explicitSourceRoot : Option String
  requestedRevision : Option String
  resolvedRevision : Option String
  allowFetch : Bool
  assumeYes : Bool
  nonInteractive : Bool
  offline : Bool

structure CloudBuildJobRequest where
  schemaVersion : ℤ := 1
  apiPath : String := "/api/styio-platform/v1/jobs"
  action : String
  manifestPath : String
  toolchainMode : String
  channel : String
  buildMode : String
  profile : String
  locked : Bool
  offline : Bool
  target : CloudJobTargetSelection
  source : CloudJobSourceSelection
  cloudPolicy : CloudExecutionPolicy

def isSupportedBuildMode (value : String) : Bool := ["minimal"].contains value

def effectiveBuildMode (plan : BuildPlanRequest) (state : ProjectToolchainState) : String :=
  if plan.buildMode = "" then state.buildMode else plan.buildMode

/-- `ValidateWorkflowInvocationImpl`: the text of the error, or `none`. -/
def validateWorkflowInvocation (action : String) (plan : BuildPlanRequest)
    (state : ProjectToolchainState) (options : WorkflowInvocationOptions) : Option String :=
  let hasSourceOptions := options.assumeYes || !options.allowFetch || options.nonInteractive ||
    options.sourceRoot.isSome || options.sourceRevision.isSome
  if !isAction action then some "workflow action must be one of: build, run, test"
  else if effectiveBuildMode plan state = "" ||
      !isSupportedBuildMode (effectiveBuildMode plan state) then
    some "build currently supports only the 'minimal' mode"
  else if state.mode = "binary" && hasSourceOptions then
    some "source-build options require 'spio use build'"
  else if state.mode = "build" && options.styioBin.isSome then
    some "--styio-bin is only valid when the project toolchain mode is 'binary'"
  else if action = "run" && plan.selectLib then some "run does not accept --lib"
  else if action = "run" && plan.testName.isSome then some "run does not accept --test"
  else if action = "test" && plan.selectLib then some "test does not accept --lib"
  else if action = "test" && plan.binName.isSome then some "test does not accept --bin"
  else if action = "build" && plan.testName.isSome then some "build does not accept --test"
  else none

def buildCloudBuildJobRequest (host : ClientHost) (action : String) (plan : BuildPlanRequest)
    (state : ProjectToolchainState) (options : WorkflowInvocationOptions)
    (policy : CloudExecutionPolicy) : Except String CloudBuildJobRequest :=
  match validateWorkflowInvocation action plan state options with
  | some error => .error error
  | none => .ok
    { action
      manifestPath := plan.manifestPath
      toolchainMode := state.mode
      channel := state.channel
      buildMode :=
        if effectiveBuildMode plan state = "" then "minimal" else effectiveBuildMode plan state
      profile := plan.profile
      locked := options.locked
      offline := options.offline
      target := ⟨plan.packageName, plan.binName, plan.testName, plan.selectLib⟩
      source :=
        { origin := host.sourceOrigin
          explicitSourceRoot := options.sourceRoot
          requestedRevision := options.sourceRevision
          resolvedRevision := state.sourceRevision
          allowFetch := options.allowFetch
          assumeYes := options.assumeYes
          nonInteractive := options.nonInteractive
          offline := options.offline }
      cloudPolicy := policy }

/-- `fs::absolute`; `none` where it throws. -/
def absolutePath (host : ClientHost) (path : String) : Option String :=
  if path = "" then none
  else if path.toList.head? = some '/' then some path
  else if host.currentPath.toList.getLast? = some '/' then some (host.currentPath ++ path)
  else some (host.currentPath ++ "/" ++ path)

def optionalPath (host : ClientHost) : Option String → Option (Option String)
  | none => some none
  | some path => (absolutePath host path).map some

/-- A text or `null`. -/
def optionalText (value : Option String) : Json := (value.map Json.string).getD .null

/-- A member that is left out where there is no value. -/
def optionalField (key : String) (value : Option String) : List (String × Json) :=
  (value.map fun text => (key, Json.string text)).toList

def serializeSource (source : CloudJobSourceSelection) (explicitRoot : Option String) : Json :=
  .ofFields (
    [("origin", .string source.origin), ("allow_fetch", .bool source.allowFetch),
      ("assume_yes", .bool source.assumeYes), ("non_interactive", .bool source.nonInteractive),
      ("offline", .bool source.offline)] ++
    optionalField "explicit_root" explicitRoot ++
    optionalField "requested_revision" source.requestedRevision ++
    optionalField "resolved_revision" source.resolvedRevision)

/-- `BuildCloudBuildJobRequestPayload`; `none` where `fs::absolute` throws. -/
def buildCloudBuildJobRequestPayload (host : ClientHost) (request : CloudBuildJobRequest) :
    Option Json := do
  let manifestPath ← absolutePath host request.manifestPath
  let explicitRoot ← optionalPath host request.source.explicitSourceRoot
  return .ofFields [("schema_version", .int request.schemaVersion),
    ("api_path", .string request.apiPath), ("action", .string request.action),
    ("manifest_path", .string manifestPath),
    ("toolchain", .ofFields [("mode", .string request.toolchainMode),
      ("channel", .string request.channel), ("build_mode", .string request.buildMode)]),
    ("profile", .string request.profile),
    ("workflow", .ofFields [("locked", .bool request.locked), ("offline", .bool request.offline)]),
    ("target", .ofFields [("package", optionalText request.target.packageName),
      ("bin", optionalText request.target.binName), ("test", optionalText request.target.testName),
      ("lib", .bool request.target.selectLib)]),
    ("source", serializeSource request.source explicitRoot),
    ("cloud", serializeCloudExecutionPolicy request.cloudPolicy)]

variable {host : ClientHost} {request : CloudBuildJobRequest} {payload : Json}

/-- The members of the payload that the control plane and the worker read. -/
theorem payload_members (h : buildCloudBuildJobRequestPayload host request = some payload) :
    ∃ manifestPath, absolutePath host request.manifestPath = some manifestPath ∧
      payload.get? "manifest_path" = some (.string manifestPath) ∧
      payload.get? "profile" = some (.string request.profile) ∧
      payload.get? "workflow" = some (.ofFields [("locked", .bool request.locked),
        ("offline", .bool request.offline)]) ∧
      payload.get? "cloud" = some (serializeCloudExecutionPolicy request.cloudPolicy) := by
  simp only [buildCloudBuildJobRequestPayload, Option.bind_eq_bind, Option.bind_eq_some_iff,
    Option.pure_def, Option.some.injEq] at h
  obtain ⟨manifestPath, hmanifest, explicitRoot, -, rfl⟩ := h
  refine ⟨manifestPath, hmanifest, ?_⟩
  simp [Json.ofFields, Json.get?, getKey_setKey]

theorem head?_absolutePath {path manifestPath : String}
    (h : absolutePath host path = some manifestPath) : manifestPath.toList.head? = some '/' := by
  have happend : ∀ l, (host.currentPath.toList ++ l).head? = some '/' := by
    intro l
    rw [List.head?_append, host.absolute, Option.some_or]
  unfold absolutePath at h
  split_ifs at h with h1 h2 h3
  · cases h
    exact h2
  · cases h
    rw [String.toList_append]
    exact happend _
  · cases h
    rw [String.toList_append, String.toList_append, List.append_assoc]
    exact happend _

/-- A job as it is submitted: the payload of the client's request in a body of `submitJob`. -/
structure Submission where
  host : ClientHost
  action : String
  plan : BuildPlanRequest
  state : ProjectToolchainState
  options : WorkflowInvocationOptions
  policy : CloudExecutionPolicy
  request : CloudBuildJobRequest
  built : buildCloudBuildJobRequest host action plan state options policy = .ok request
  payload : Json
  serialized : buildCloudBuildJobRequestPayload host request = some payload
  body : Json
  jobRequest : body.get? "job_request" = some payload

/-- The key of the policy is an object, and the control plane asks for a string. -/
theorem workerPoolFromRequest_submission (a : Submission)
    (hpool : a.body.get? "preferred_worker_pool" = none) :
    workerPoolFromRequest a.body = "linux/x86_64/binary/stable/minimal" := by
  obtain ⟨-, -, -, -, -, hcloud⟩ := payload_members a.serialized
  have hkey : (serializeCloudExecutionPolicy a.request.cloudPolicy).textField "worker_pool_key" =
      none := by
    simp [serializeCloudExecutionPolicy, serializeWorkerPoolKey, Json.ofFields, Json.textField,
      Json.get?, getKey_setKey, Json.text?]
  have htext : a.body.textField "preferred_worker_pool" = none := by
    rw [Json.textField, hpool, Option.bind_none]
  simp only [workerPoolFromRequest, htext, a.jobRequest, hcloud, hkey, Option.bind_some,
    Option.none_or, Option.getD_none]

theorem routedByPolicy_iff {a b : Submission} {region jobId jobId' : String}
    {job job' : PlatformJobRecord}
    (hpolicy : a.policy = resolveCloudExecutionPolicy a.host a.state)
    (hpolicy' : b.policy = resolveCloudExecutionPolicy b.host b.state)
    (ha : a.body.get? "preferred_worker_pool" = none)
    (hb : b.body.get? "preferred_worker_pool" = none)
    (hjob : buildQueuedJobRecord a.body region jobId = some job)
    (hjob' : buildQueuedJobRecord b.body region jobId' = some job') :
    (job.workerPoolKey = job'.workerPoolKey ↔ a.policy.workerPoolKey = b.policy.workerPoolKey) ↔
    SamePool a.host b.host a.state b.state := by
  have hkey : job.workerPoolKey = job'.workerPoolKey := by
    obtain ⟨_, -, rfl⟩ := Option.map_eq_some_iff.mp hjob
    obtain ⟨_, -, rfl⟩ := Option.map_eq_some_iff.mp hjob'
    exact (workerPoolFromRequest_submission a ha).trans (workerPoolFromRequest_submission b hb).symm
  rw [← workerPoolKey_eq_iff, ← hpolicy, ← hpolicy']
  simp only [hkey, true_iff]

def sampleBody (action : String) (payload : Json) : Json :=
  .ofFields [("tenant_id", .string "tenant-1"), ("user_id", .string "user-1"),
    ("workspace_id", .string "workspace-1"), ("action", .string action), ("job_request", payload)]

theorem get?_sampleBody (action : String) (payload : Json) :
    (sampleBody action payload).get? "job_request" = some payload := by
  simp [sampleBody, Json.ofFields, Json.get?, getKey_setKey]

/-- A build of a project of the user. -/
def userSubmission : Submission where
  host := {}
  action := "build"
  plan := {}
  state := {}
  options := {}
  policy := resolveCloudExecutionPolicy {} {}
  request := _
  built := rfl
  payload := _
  serialized := rfl
  body := sampleBody "build" _
  jobRequest := get?_sampleBody _ _

/-- A build of a trusted project that asks for the shared lane. -/
def internalSubmission : Submission where
  host := {}
  action := "build"
  plan := {}
  state := { riskClass := "trusted-internal", preferredExecutionLane := "warm-shared" }
  options := {}
  policy := resolveCloudExecutionPolicy {}
    { riskClass := "trusted-internal", preferredExecutionLane := "warm-shared" }
  request := _
  built := rfl
  payload := _
  serialized := rfl
  body := sampleBody "build" _
  jobRequest := get?_sampleBody _ _

theorem routedByPolicy_user : ∃ job,
    buildQueuedJobRecord userSubmission.body "local" "job-1" = some job ∧
      (job.workerPoolKey = job.workerPoolKey ↔
        userSubmission.policy.workerPoolKey = userSubmission.policy.workerPoolKey) :=
  ⟨_, rfl, (routedByPolicy_iff rfl rfl rfl rfl rfl rfl).mpr
    ⟨rfl, rfl, rfl, rfl, rfl, rfl, rfl, fun _ => rfl⟩⟩

/-- The job of the user and the internal one are queued for the same workers. -/
theorem not_routedByPolicy_internal : ∃ job job',
    buildQueuedJobRecord userSubmission.body "local" "job-1" = some job ∧
      buildQueuedJobRecord internalSubmission.body "local" "job-2" = some job' ∧
      job.workerPoolKey = job'.workerPoolKey ∧
      userSubmission.policy = resolveCloudExecutionPolicy userSubmission.host userSubmission.state ∧
      internalSubmission.policy =
        resolveCloudExecutionPolicy internalSubmission.host internalSubmission.state ∧
      userSubmission.policy.workerPoolKey ≠ internalSubmission.policy.workerPoolKey :=
  ⟨_, _, rfl, rfl, rfl, rfl, rfl, by decide +kernel⟩

/-- What a command line asks of `spio`. -/
structure Invocation where
  action : String
  target : CloudJobTargetSelection
  profile : String
  locked : Bool
  offline : Bool

/-- What the client asked for. -/
def Submission.asked (a : Submission) : Invocation where
  action := a.action
  target := ⟨a.plan.packageName, a.plan.binName, a.plan.testName, a.plan.selectLib⟩
  profile := a.plan.profile
  locked := a.options.locked
  offline := a.options.offline

/-- The worker accepts the job and starts what was asked for; `read` is the way in which `spio`
reads its command line. -/
structure RunsAsAsked (read : List String → Invocation) (scenario : Scenario)
    (worker : WorkerRuntimeConfig) (a : Submission) (job : PlatformJobRecord) : Prop where
  accepted : create scenario (serializeJobRecord job) = .ok ()
  started : ∃ args, buildSpioArgs job.jobRequest worker.styioBin = .ok args ∧ read args = a.asked

section claimed

variable {a : Submission} {region jobId : String} {job : PlatformJobRecord}

theorem jobRequest_of_queued (h : buildQueuedJobRecord a.body region jobId = some job) :
    job.jobRequest = a.payload := by
  obtain ⟨_, -, rfl⟩ := Option.map_eq_some_iff.mp h
  simp only [a.jobRequest, Option.getD_some]

/-- The client's path is absolute, which the worker refuses. -/
theorem create_submission (scenario : Scenario) (hvalid : validateSubmitJobRequest a.body = none)
    (h : buildQueuedJobRecord a.body region jobId = some job) :
    create scenario (serializeJobRecord job) =
      .error (.other "manifest_path must be relative for source fetch jobs") := by
  obtain ⟨manifestPath, habsolute, hmanifest, -⟩ := payload_members a.serialized
  have hunsafe : isSafeRelativePath manifestPath = false := by
    simp [isSafeRelativePath, head?_absolutePath habsolute]
  have hcreate := @create_eq scenario ⟨job, valid_of_submission hvalid h⟩
  simpa [jobRequest_of_queued h, Json.textField, hmanifest, Json.text?, hunsafe] using hcreate

/-- The command line has the manifest and the profile of the request, and nothing else of it. -/
theorem buildSpioArgs_submission (styioBin : String)
    (h : buildQueuedJobRecord a.body region jobId = some job) :
    ∃ manifestPath, absolutePath a.host a.request.manifestPath = some manifestPath ∧
      buildSpioArgs job.jobRequest styioBin = .ok (["build", "--manifest-path", manifestPath] ++
        (if styioBin = "" then [] else ["--styio-bin", styioBin]) ++
        ["--profile", a.request.profile]) := by
  obtain ⟨manifestPath, habsolute, hmanifest, hprofile, hworkflow, -⟩ :=
    payload_members a.serialized
  refine ⟨manifestPath, habsolute, ?_⟩
  have htext : textAt a.payload "manifest_path" = .ok manifestPath := by
    rw [textAt_eq_ok, Json.textField, hmanifest]
    rfl
  have hdry : getKey [("locked", Json.bool a.request.locked),
      ("offline", Json.bool a.request.offline)] "dry_run" = none := by
    simp [getKey]
  rw [jobRequest_of_queued h, buildSpioArgs]
  simp [htext, hworkflow, hprofile, Json.ofFields, setKey, getKey, Json.textField, Json.text?, bind,
    Except.bind, pure, Except.pure]

theorem not_runsAsAsked (read : List String → Invocation) (scenario : Scenario)
    (worker : WorkerRuntimeConfig) (hvalid : validateSubmitJobRequest a.body = none)
    (h : buildQueuedJobRecord a.body region jobId = some job) :
    ¬ RunsAsAsked read scenario worker a job := by
  intro hruns
  have haccepted := hruns.accepted
  rw [create_submission scenario hvalid h] at haccepted
  cases haccepted

end claimed

theorem not_runsAsAsked_user : ∃ job,
    validateSubmitJobRequest userSubmission.body = none ∧
      buildQueuedJobRecord userSubmission.body "local" "job-1" = some job ∧
      ¬ RunsAsAsked (fun _ => userSubmission.asked) smoothScenario {} userSubmission job :=
  ⟨_, by decide +kernel, rfl, @not_runsAsAsked _ "local" "job-1" _ _ _ _ (by decide +kernel) rfl⟩

/-- A test of one target of the project, with the lockfile and without the network. -/
def testSubmission : Submission where
  host := {}
  action := "test"
  plan := { testName := some "unit" }
  state := {}
  options := { locked := true, offline := true }
  policy := resolveCloudExecutionPolicy {} {}
  request := _
  built := rfl
  payload := _
  serialized := rfl
  body := sampleBody "test" _
  jobRequest := get?_sampleBody _ _

/-- The worker refuses the job, and its command line would have been that of a plain build. -/
theorem test_not_runsAsAsked : ∃ job,
    validateSubmitJobRequest testSubmission.body = none ∧
      buildQueuedJobRecord testSubmission.body "local" "job-1" = some job ∧
      create smoothScenario (serializeJobRecord job) =
        .error (.other "manifest_path must be relative for source fetch jobs") ∧
      buildSpioArgs job.jobRequest "styio" = .ok ["build", "--manifest-path", "/spio.toml",
        "--styio-bin", "styio", "--profile", "dev"] :=
  ⟨_, by decide +kernel, rfl, rfl, rfl⟩

end StyioPlatform.Protocols
