import StyioPlatform.Lib.Prog
import StyioPlatform.Workspace.Artifacts

/-! The build worker (`Worker.cpp`): one run of `ExecuteClaimedJob` and the loop of `RunWorker`.
What the operating system does is given, and so is the time at which somebody cancels the job; the
control plane accepts a request of the worker while the job is running for it. -/
namespace StyioPlatform.Workspace

structure ProcessResult where
  exitCode : ℤ := 0
  terminatedBySignal : Bool := false
  timedOut : Bool := false
  stdoutTruncated : Bool := false
  stderrTruncated : Bool := false
  stdoutText : String := ""
  stderrText : String := ""

/-- An exception derived from `std::exception`, by what the handlers tell apart. -/
inductive WorkerException where
  | sourceFetchError (operation : String) (result : ProcessResult) (what : String)
  | fetchError (what : String)
  | other (what : String)

def WorkerException.what : WorkerException → String
  | sourceFetchError _ _ text => text
  | fetchError text => text
  | other text => text

/-- The files of a `WorkerWorkspace` that `ExecuteClaimedJob` writes. -/
inductive WorkspaceFile where
  | stdout | stderr | result
  deriving DecidableEq

/-- What the surroundings do during one job. -/
structure Scenario where
  /-- The directories of the workspace are removed and created. -/
  directories : Except WorkerException Unit
  ensureWorktree : Except WorkerException Unit
  writeText : WorkspaceFile → Except WorkerException Unit
  /-- How often the heartbeat thread comes around during the build. -/
  beats : ℕ
  /-- `RunProcess` of the build with the given arguments. -/
  runProcess : List String → Except WorkerException ProcessResult
  /-- The job is cancelled right before the action of that number. -/
  cancelAt : Option ℕ

/-- What a run has done so far. -/
structure Session where
  /-- The number of actions: system calls and requests. -/
  clock : ℕ := 0
  /-- The control plane accepted a completion. -/
  completed : Bool := false
  /-- The completion requests, each with its job. -/
  completions : List (String × Json) := []
  files : List (WorkspaceFile × String) := []

structure WorkerRuntimeConfig where
  workerId : String := "worker-local"
  artifactRoot : String := ".styio-platform/artifacts"
  styioBin : String := "styio"

abbrev Work : Type → Type := Prog WorkerException Session

/-- The job is running for the worker when the next action comes. -/
def Scenario.holds (scenario : Scenario) (session : Session) : Bool :=
  !session.completed && scenario.cancelAt.all fun n => session.clock < n

/-- A system call with the given outcome. -/
def act {α : Type} (outcome : Except WorkerException α) : Work α := do
  .modify fun session => { session with clock := session.clock + 1 }
  .ofExcept outcome

/-- `HttpJson` for a request that the control plane answers with 200 while the job is running for
the worker and with 403 otherwise; `note` is what the request leaves in the session. -/
def httpJson (scenario : Scenario) (note : Session → Session) : Work Unit := do
  let session ← .read
  .modify fun session => { note session with clock := session.clock + 1 }
  if scenario.holds session then pure ()
  else .fail (.other "control plane returned non-success status: HTTP/1.1 403 Forbidden")

def heartbeat (scenario : Scenario) : Work Unit := httpJson scenario id

def complete (scenario : Scenario) (worker : WorkerRuntimeConfig)
    (jobId status message : String) (artifacts result : Json) : Work Unit :=
  httpJson scenario fun session =>
    { session with
      completed := session.completed || scenario.holds session
      completions := session.completions ++ [(jobId, .ofFields
        [("worker_id", .string worker.workerId), ("status", .string status),
          ("message", .string message), ("artifacts", artifacts), ("result", result)])] }

def writeText (scenario : Scenario) (file : WorkspaceFile) (text : String) : Work Unit := do
  act (scenario.writeText file)
  .modify fun session => { session with files := session.files ++ [(file, text)] }

/-- The rounds of `RunHeartbeatLoop`: an exception is reported and forgotten. -/
def runHeartbeatLoop (scenario : Scenario) : ℕ → Work Unit
  | 0 => pure ()
  | n + 1 => do
    Prog.handle (heartbeat scenario) fun _ => pure ()
    runHeartbeatLoop scenario n

/-- `j.at(key)`. -/
def memberAt (j : Json) (key : String) : Except WorkerException Json :=
  match j.get? key with
  | some member => .ok member
  | none => .error (.other "[json.exception.out_of_range.403] key not found")

/-- `j.at(key).get<std::string>()`. -/
def textAt (j : Json) (key : String) : Except WorkerException String := do
  match (← memberAt j key).text? with
  | some text => return text
  | none => .error (.other "[json.exception.type_error.302] type must be string")

/-- Neither empty nor absolute, and without a part that leads upwards. -/
def isSafeRelativePath (path : String) : Bool :=
  path ≠ "" && path.toList.head? ≠ some '/' && !(path.toList.splitOn '/').contains ['.', '.']

/-- `WorkerWorkspaceFactory::Create`, without the paths that it returns. -/
def create (scenario : Scenario) (job : Json) : Except WorkerException Unit := do
  let _ ← textAt job "job_id"
  let manifestPath ← textAt (← memberAt job "job_request") "manifest_path"
  if !isSafeRelativePath manifestPath then
    throw (.other "manifest_path must be relative for source fetch jobs")
  let _ ← textAt job "tenant_id"
  let _ ← textAt job "workspace_id"
  scenario.directories

def buildSpioArgs (jobRequest : Json) (styioBin : String) :
    Except WorkerException (List String) := do
  let manifestPath ← textAt jobRequest "manifest_path"
  let dryRun ←
    match jobRequest.get? "workflow" with
    | some (.object fields) =>
      match getKey fields "dry_run" with
      | none => pure false
      | some (.bool b) => pure b
      | some _ => throw (.other "[json.exception.type_error.302] type must be boolean")
    | _ => pure false
  return ["build", "--manifest-path", manifestPath] ++ (if dryRun then ["--dry-run"] else []) ++
    (if styioBin = "" then [] else ["--styio-bin", styioBin]) ++
    (match jobRequest.textField "profile" with
    | some profile => ["--profile", profile]
    | none => [])

/-- `Artifact`, of a job as the worker received it. -/
def artifact (job : Json) (artifactRoot name kind : String) : Except WorkerException Json := do
  let objectKey := buildArtifactObjectKey (← textAt job "tenant_id") (← textAt job "workspace_id")
    (← textAt job "job_id") name
  return .ofFields [("artifact_id", .string name),
    ("object_key", .string (artifactRoot ++ "/" ++ objectKey)), ("kind", .string kind)]

def ProcessResult.succeeded (build : ProcessResult) : Bool :=
  build.exitCode == 0 && !build.timedOut && !build.terminatedBySignal

def ProcessResult.json (build : ProcessResult) : Json :=
  .ofFields [("exit_code", .int build.exitCode), ("timed_out", .bool build.timedOut),
    ("terminated_by_signal", .bool build.terminatedBySignal),
    ("stdout_truncated", .bool build.stdoutTruncated),
    ("stderr_truncated", .bool build.stderrTruncated)]

/-- What follows an exception of `EnsureWorktree`: two kinds are reported, the others leave. -/
def fetchFailed (scenario : Scenario) (worker : WorkerRuntimeConfig) (jobId : String) :
    WorkerException → Work Unit
  | .sourceFetchError operation result what => do
    writeText scenario .stderr (if result.stderrText = "" then what else result.stderrText)
    complete scenario worker jobId "failed"
      (if operation = "" then "source fetch failed" else operation ++ " failed")
      (.array []) (.ofFields [("source_fetch", .int result.exitCode)])
  | .fetchError what => do
    writeText scenario .stderr what
    complete scenario worker jobId "failed" "source fetch failed" (.array [])
      (.ofFields [("source_fetch", .int 1)])
  | .other what => .fail (.other what)

/-- What follows a build that ran to its end. -/
def reportBuild (scenario : Scenario) (worker : WorkerRuntimeConfig) (job : Json) (jobId : String)
    (render : Json → String) (build : ProcessResult) : Work Unit := do
  writeText scenario .stdout build.stdoutText
  writeText scenario .stderr build.stderrText
  writeText scenario .result (render build.json ++ "\n")
  let stdoutLog ← .ofExcept (artifact job worker.artifactRoot "stdout.log" "log")
  let stderrLog ← .ofExcept (artifact job worker.artifactRoot "stderr.log" "log")
  let resultJson ← .ofExcept (artifact job worker.artifactRoot "result.json" "metadata")
  complete scenario worker jobId (if build.succeeded then "succeeded" else "failed")
    (if build.succeeded then "build completed" else "build failed")
    (.array [stdoutLog, stderrLog, resultJson]) build.json

/-- `ExecuteClaimedJob`; `render` is `dump(2)`. -/
def executeClaimedJob (worker : WorkerRuntimeConfig) (render : Json → String) (scenario : Scenario)
    (job : Json) : Work Unit := do
  let jobId ← .ofExcept (textAt job "job_id")
  let jobRequest ← .ofExcept (memberAt job "job_request")
  -- the value of a guarded step tells whether the run goes on after it
  let prepared ← Prog.handle (do act (create scenario job); pure true) fun error => do
    complete scenario worker jobId "failed" error.what (.array []) .null
    pure false
  if prepared then
    let source ← .ofExcept (memberAt jobRequest "source")
    let _ ← Prog.ofExcept (textAt source "origin")
    let fetched ← Prog.handle (do act scenario.ensureWorktree; pure true) fun error => do
      fetchFailed scenario worker jobId error
      pure false
    if fetched then
      heartbeat scenario
      runHeartbeatLoop scenario scenario.beats
      let build ← Prog.handle
        (do
          let build ← act (buildSpioArgs jobRequest worker.styioBin >>= scenario.runProcess)
          pure (some build))
        fun error => do
          writeText scenario .stderr error.what
          complete scenario worker jobId "failed" "spio build failed to launch" (.array [])
            (.ofFields [("error", .string error.what)])
          pure none
      match build with
      | some build => reportBuild scenario worker job jobId render build
      | none => pure ()

/-- A job that the control plane hands out: its request passed the check of `submitJob`. -/
structure ClaimedJob where
  record : PlatformJobRecord
  valid : validateCloudBuildRequest record.jobRequest = none

/-- One answer to the worker's claim, with what happens until its next one. -/
inductive Round where
  | unclaimed
  | claimed (job : ClaimedJob) (scenario : Scenario)

structure WorkerRun where
  /-- The jobs claimed, with what the worker did for each. -/
  sessions : List (ClaimedJob × Session) := []
  /-- What `RunWorker` returned; `none` while it is about to claim. -/
  exitCode : Option ℕ := none

/-- The loop of `RunWorker`, for the given answers to its claims. -/
def runWorker (worker : WorkerRuntimeConfig) (render : Json → String) (once : Bool) :
    List Round → WorkerRun
  | [] => {}
  | .unclaimed :: rounds =>
    if once then { exitCode := some 0 } else runWorker worker render once rounds
  | .claimed job scenario :: rounds =>
    match executeClaimedJob worker render scenario (serializeJobRecord job.record) {} with
    | (.error _, session) => { sessions := [(job, session)], exitCode := some 1 }
    | (.ok _, session) =>
      if once then { sessions := [(job, session)], exitCode := some 0 }
      else
        let rest := runWorker worker render once rounds
        { rest with sessions := (job, session) :: rest.sessions }

/-- The jobs of the rounds. -/
def claimedJobs : List Round → List ClaimedJob
  | [] => []
  | .unclaimed :: rounds => claimedJobs rounds
  | .claimed job _ :: rounds => job :: claimedJobs rounds

/-- Exactly one completion was requested, and it was for the job. -/
def Session.Reports (session : Session) (job : ClaimedJob) : Prop :=
  ∃ body, session.completions = [(job.record.jobId, body)]

/-- Every claimed job is reported once, and the worker is about to claim again. -/
def ReportsAll (worker : WorkerRuntimeConfig) (render : Json → String) (rounds : List Round) :
    Prop :=
  (runWorker worker render false rounds).exitCode = none ∧
    (runWorker worker render false rounds).sessions.map Prod.fst = claimedJobs rounds ∧
    ∀ x ∈ (runWorker worker render false rounds).sessions, x.2.Reports x.1

/-- How far a run can get by the outcomes of its steps. -/
inductive Course where
  /-- The workspace cannot be created. -/
  | unprepared
  /-- The source cannot be fetched, and the worker expects the exception. -/
  | unfetched
  /-- The source cannot be fetched, with an exception of another kind. -/
  | interrupted
  /-- The build cannot be launched. -/
  | unlaunched
  | built

/-- The course once there is a workspace. -/
def Scenario.preparedCourse (scenario : Scenario) (worker : WorkerRuntimeConfig)
    (job : ClaimedJob) : Course :=
  match scenario.ensureWorktree with
  | .error (.other _) => .interrupted
  | .error _ => .unfetched
  | .ok _ =>
    if (buildSpioArgs job.record.jobRequest worker.styioBin >>= scenario.runProcess).isOk then
      .built
    else .unlaunched

def Scenario.course (scenario : Scenario) (worker : WorkerRuntimeConfig) (job : ClaimedJob) :
    Course :=
  if isSafeRelativePath ((job.record.jobRequest.textField "manifest_path").getD "") &&
      scenario.directories.isOk then scenario.preparedCourse worker job
  else .unprepared

/-- The files that are written on the way. -/
def Course.files : Course → List WorkspaceFile
  | unprepared => []
  | unfetched => [.stderr]
  | interrupted => []
  | unlaunched => [.stderr]
  | built => [.stdout, .stderr, .result]

/-- The number of the action that requests the completion. -/
def Course.completionAt (beats : ℕ) : Course → ℕ
  | unprepared => 1
  | unfetched => 3
  | interrupted => 2
  | unlaunched => beats + 5
  | built => beats + 7

/-- The fetch fails in no unexpected way, the files of the run can be written, and nobody cancels
the job before its completion is requested. -/
def Scenario.Untroubled (scenario : Scenario) (worker : WorkerRuntimeConfig) (job : ClaimedJob) :
    Prop :=
  scenario.course worker job ≠ .interrupted ∧
    (∀ file ∈ (scenario.course worker job).files, (scenario.writeText file).isOk) ∧
    ∀ n ∈ scenario.cancelAt, (scenario.course worker job).completionAt scenario.beats < n

end StyioPlatform.Workspace
