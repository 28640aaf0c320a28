import StyioPlatform.Lib.FileTree
import StyioPlatform.Manifest.Canonical

/-! The toolchain state of a project (`Toolchain/State.cpp`): its file, and the search for it. -/
namespace StyioPlatform.Toolchain

open Manifest

/-- The names of an absolute path without `.` and `..`. -/
abbrev Path := List String

abbrev Files := FileTree String String

def supportedToolchainModes : List String := ["binary", "build"]

def supportedChannels : List String := ["stable", "nightly"]

def supportedBuildModes : List String := ["minimal"]

def supportedCloudRiskClasses : List String :=
  ["trusted-internal", "partner-controlled", "untrusted-user"]

def supportedCloudExecutionLanes : List String := ["isolated", "warm-shared"]

def supportedCloudSecurityProfiles : List String :=
  ["sandbox-default", "partner-restricted", "trusted-warm"]

structure ProjectToolchainState where
  manifestPath : Path
  statePath : Path
  stateFileExists : Bool := false
  mode : String := "binary"
  channel : String := "stable"
  buildMode : String := "minimal"
  riskClass : String := "untrusted-user"
  preferredExecutionLane : String := "isolated"
  securityProfile : String := "sandbox-default"
  sourceRevision : Option String := none
  deriving DecidableEq

structure ToolchainStateUpdate where
  manifestPath : List String
  mode : Option String := none
  channel : Option String := none
  buildMode : Option String := none
  riskClass : Option String := none
  preferredExecutionLane : Option String := none
  securityProfile : Option String := none
  sourceRevision : Option String := none

/-- What is thrown: by `LoadManifest`, or a `ToolError`. -/
inductive StateFailure where
  | manifest (failure : Failure)
  | tool (message : String)
  deriving DecidableEq

def pathText (path : Path) : String := "/" ++ "/".intercalate path

/-- `CanonicalAbsolutePath`, of the names of an absolute path. -/
def canonicalAbsolutePath (path : List String) : Path := normal path

def stateName : String := "spio-toolchain.lock"

/-- `ProjectToolchainStatePathForManifest`. -/
def projectToolchainStatePathForManifest (manifestPath : List String) : Path :=
  (canonicalAbsolutePath manifestPath).dropLast ++ [stateName]

/-- `fs::exists`, of a file or of a directory. -/
def fileExists (files : Files) (path : Path) : Bool :=
  (files.get path).isSome || decide (∃ p ∈ files.support, path <+: p)

/-- The loop of `FindProjectToolchainStatePath` at the directory of the first names of a path, and
then at the ones above it. -/
def searchUpwards (files : Files) (dir : Path) : ℕ → Option Path
  | 0 => if fileExists files [stateName] then some [stateName] else none
  | n + 1 =>
    if fileExists files (dir.take (n + 1) ++ [stateName]) then some (dir.take (n + 1) ++ [stateName])
    else searchUpwards files dir n

/-- `FindProjectToolchainStatePath`. -/
def findProjectToolchainStatePath (files : Files) (manifestPath : List String) : Option Path :=
  let current := (canonicalAbsolutePath manifestPath).dropLast
  searchUpwards files current current.length

def requireAllowedValue (value : String) (allowed : List String) (label : String) :
    Except StateFailure Unit :=
  if value ∈ allowed then .ok () else .error (.tool ("unsupported " ++ label ++ ": " ++ value))

/-- The checks at the end of `LoadProjectToolchainState` and before the file is written. -/
def requireAllowedValues (state : ProjectToolchainState) : Except StateFailure Unit := do
  requireAllowedValue state.mode supportedToolchainModes "toolchain mode"
  requireAllowedValue state.channel supportedChannels "toolchain channel"
  requireAllowedValue state.buildMode supportedBuildModes "build mode"
  requireAllowedValue state.riskClass supportedCloudRiskClasses "cloud risk class"
  requireAllowedValue state.preferredExecutionLane supportedCloudExecutionLanes "cloud execution lane"
  requireAllowedValue state.securityProfile supportedCloudSecurityProfiles "cloud security profile"

def renderToolchainState (state : ProjectToolchainState) : String :=
  let content := "[toolchain]\n" ++
    ("mode = \"" ++ state.mode ++ "\"\n") ++
    ("channel = \"" ++ state.channel ++ "\"\n") ++
    ("build = \"" ++ state.buildMode ++ "\"\n") ++
    "\n[cloud]\n" ++
    ("risk = \"" ++ state.riskClass ++ "\"\n") ++
    ("lane = \"" ++ state.preferredExecutionLane ++ "\"\n") ++
    ("security = \"" ++ state.securityProfile ++ "\"\n")
  match state.sourceRevision with
  | none => content
  | some revision => content ++ "\n[source]\n" ++ ("revision = \"" ++ revision ++ "\"\n")

/-- The text of a key that is a non-empty string, otherwise the value that is there already. -/
def textOf (table : Table) (key : String) (default : String) : String :=
  match (getKey table key).bind Toml.asString with
  | some value => if value = "" then default else value
  | none => default

/-- The state that a parsed document describes. -/
def stateOf (state : ProjectToolchainState) (toolchain : Table) (doc : Table) :
    ProjectToolchainState :=
  let cloud := ((getKey doc "cloud").bind Toml.asTable).getD []
  let source := ((getKey doc "source").bind Toml.asTable).getD []
  { state with
    mode := textOf toolchain "mode" state.mode
    channel := textOf toolchain "channel" state.channel
    buildMode := textOf toolchain "build" state.buildMode
    riskClass := textOf cloud "risk" state.riskClass
    preferredExecutionLane := textOf cloud "lane" state.preferredExecutionLane
    securityProfile := textOf cloud "security" state.securityProfile
    sourceRevision := ((getKey source "revision").bind Toml.asString).filter (· ≠ "") }

/-- `toml::parse_file`, which also fails for what is no file. -/
def parseFile (parse : String → Option Table) (files : Files) (path : Path) : Option Table :=
  (files.get path).bind parse

def loadProjectToolchainState (parse : String → Option Table) (files : Files)
    (manifestPath : List String) : Except StateFailure ProjectToolchainState :=
  let state : ProjectToolchainState :=
    { manifestPath := canonicalAbsolutePath manifestPath
      statePath := projectToolchainStatePathForManifest (canonicalAbsolutePath manifestPath) }
  match findProjectToolchainStatePath files state.manifestPath with
  | none => .ok state
  | some discovered =>
    let state := { state with statePath := discovered, stateFileExists := true }
    match parseFile parse files discovered with
    | none =>
      .error (.tool ("failed to parse project toolchain state '" ++ pathText discovered ++ "'"))
    | some doc =>
      match (getKey doc "toolchain").bind Toml.asTable with
      | none =>
        .error (.tool ("project toolchain state is missing [toolchain]: " ++ pathText discovered))
      | some toolchain => do
        requireAllowedValues (stateOf state toolchain doc)
        return stateOf state toolchain doc

/-- What becomes of `WriteTextFile`: the file does not open, its stream fails after a part of the
text, or it is written. -/
inductive Writing where
  | closed
  | broken (written : String)
  | done
  deriving DecidableEq

/-- `WriteTextFile`: the files, and what is thrown. -/
def writeTextFile (writing : Writing) (files : Files) (path : Path) (content : String) :
    Files × Except StateFailure Unit :=
  match writing with
  | .closed =>
    (files, .error (.tool ("failed to open toolchain state for write: " ++ pathText path)))
  | .broken written =>
    (files.put path written, .error (.tool ("failed to write toolchain state: " ++ pathText path)))
  | .done => (files.put path content, .ok ())

/-- The state with the fields that the update mentions. -/
def updated (state : ProjectToolchainState) (update : ToolchainStateUpdate) :
    ProjectToolchainState :=
  { state with
    manifestPath := canonicalAbsolutePath update.manifestPath
    statePath := projectToolchainStatePathForManifest (canonicalAbsolutePath update.manifestPath)
    mode := update.mode.getD state.mode
    channel := update.channel.getD state.channel
    buildMode := update.buildMode.getD state.buildMode
    riskClass := update.riskClass.getD state.riskClass
    preferredExecutionLane := update.preferredExecutionLane.getD state.preferredExecutionLane
    securityProfile := update.securityProfile.getD state.securityProfile
    sourceRevision := update.sourceRevision.or state.sourceRevision }

/-- `LoadManifest`, of a file that may be missing. -/
def loadManifestFile (parse : String → Option Table) (files : Files) (path : Path) :
    Except StateFailure ManifestDocument :=
  match files.get path with
  | none => .error (.manifest (.thrown .validation
      ("failed to parse manifest '" ++ pathText path ++ "'")))
  | some text =>
    match loadManifest parse (pathText path) text with
    | .error failure => .error (.manifest failure)
    | .ok manifest => .ok manifest

/-- `UpdateProjectToolchainState`: the files after it, and the state or what is thrown. -/
def updateProjectToolchainState (parse : String → Option Table) (writing : Writing) (files : Files)
    (update : ToolchainStateUpdate) : Files × Except StateFailure ProjectToolchainState :=
  let manifestPath := canonicalAbsolutePath update.manifestPath
  let checked : Except StateFailure ProjectToolchainState := do
    let _ ← loadManifestFile parse files manifestPath
    let state ← loadProjectToolchainState parse files manifestPath
    let state := updated state update
    requireAllowedValues state
    return state
  match checked with
  | .error failure => (files, .error failure)
  | .ok state =>
    match writeTextFile writing files state.statePath (renderToolchainState state) with
    | (files, .error failure) => (files, .error failure)
    | (files, .ok ()) => (files, .ok { state with stateFileExists := true })

end StyioPlatform.Toolchain
