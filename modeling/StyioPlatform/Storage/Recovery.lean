import Mathlib.Data.List.Infix
import StyioPlatform.Registry.Mirror

/-! Recovery snapshots of the registry root (`RecoveryManager.cpp`, `OpsRoutes.cpp`). -/
namespace StyioPlatform.Recovery

open Prog FileTree
open Registry (Path Bytes JsonCodec joined endsInDots paddedNumber)

/-- What is at a path: a directory may also show only by what lies below it. -/
inductive Node where
  | file (bytes : Bytes)
  | directory
  deriving DecidableEq

abbrev Disk := FileTree String Node

section Disk

variable (d : Disk) (p : Path)

def Node.isFile : Node → Bool
  | file _ => true
  | directory => false

/-- A regular file is at the path. -/
def isFile : Bool := (d.get p).any Node.isFile

/-- `fs::exists`. -/
def occupied : Bool := (d.get p).isSome || d.isDirectory p

/-- `fs::is_directory`. -/
def directoryAt : Bool := occupied d p && !isFile d p

/-- The regular files below a directory, in the order of their paths. -/
def filesBelow : List Path :=
  sorted (((d.subtree p).support.erase []).filter fun q => isFile d (p ++ q))

/-- The names of the entries of a directory. -/
def entryNames : List String :=
  sorted (((d.subtree p).support.erase []).image fun q => q.headD "")

/-- The directories on the way to a path and the path itself are there. -/
def withDirectories : Disk where
  get q := (d.get q).or (if q <+: p then some .directory else none)
  support := d.support ∪ p.inits.toFinset
  mem_support q := by simp [d.mem_support, Option.isSome_or]

/-- What `fs::copy` copies, from its target down: the content of a directory, or a single file. -/
def copied : Disk :=
  match d.get p with
  | some (.file bytes) => FileTree.empty.put [p.getLastD ""] (.file bytes)
  | _ => d.subtree p

/-- The copy of one entry cannot be put into the target. -/
def obstructs (u : Disk) (q : Path) : Bool :=
  (if isFile u q then directoryAt d (p ++ q) else isFile d (p ++ q)) ||
    q.inits.dropLast.any fun r => isFile d (p ++ r)

end Disk

/-- The names of a relative path as one text. -/
def genericString (p : Path) : String := "/".intercalate p

/-- `static_cast<int64_t>`. -/
def asInt64 (n : ℕ) : ℤ := (n : ℤ).bmod (2 ^ 64)

structure RecoveryConfig where
  registryRoot : Path
  sha256 : Bytes → String
  codec : JsonCodec

/-- `registry_root.parent_path() / "recovery-snapshots"`. -/
def RecoveryConfig.snapshotsRoot (cfg : RecoveryConfig) : Path :=
  cfg.registryRoot.dropLast ++ ["recovery-snapshots"]

/-- `snapshots_root / snapshot_id`. -/
def snapshotPlace (cfg : RecoveryConfig) (id : String) : Path :=
  normal (joined cfg.snapshotsRoot id)

/-- `snapshots_root / "_tmp" / snapshot_id`. -/
def temporaryPlace (cfg : RecoveryConfig) (id : String) : Path :=
  normal (joined (cfg.snapshotsRoot ++ ["_tmp"]) id)

/-- `generic_string()` of the place of a snapshot. -/
def placeText (cfg : RecoveryConfig) (id : String) : String :=
  if id.toList.head? = some '/' then id else "/" ++ genericString cfg.snapshotsRoot ++ "/" ++ id

/-- The calls of the operating system and of the audit log that can report an error. -/
inductive SystemCall where
  | list | lookUpSnapshot | createParent | clearTemporary | createTemporary | copySource
  | countCopy | hashCopy | createManifest | writeManifest | activate
  | lookUp | readManifest | hashData | clearTarget | createTarget | copyBack
  | auditSuccess | auditFailure
  deriving DecidableEq

/-- What goes wrong in one request: calls whose error is seen, calls whose error is taken for an
absent or an empty directory, the paths that a removal leaves and that a copy has moved before it
stops, and what a write that fails puts into the file. -/
structure Mishap where
  fails : List SystemCall := []
  hidden : List SystemCall := []
  left : List Path := []
  moved : List Path := []
  written : Option Bytes := none

inductive Failure where
  | idRequired
  | alreadyExists (id : String)
  | notFound (id : String)
  | unreadable (path : Path)
  | malformed
  | copyFailed
  | activateFailed
  | verificationFailed
  | system
  deriving DecidableEq

/-- `error.what()`, without the message of the operating system. -/
def Failure.what : Failure → String
  | idRequired => "snapshot_id is required"
  | alreadyExists id => "snapshot already exists: " ++ id
  | notFound id => "snapshot is not found: " ++ id
  | unreadable path => "failed to read snapshot manifest: /" ++ genericString path
  | malformed => "json error"
  | copyFailed => "failed to copy snapshot tree: "
  | activateFailed => "failed to activate snapshot: "
  | verificationFailed => "snapshot verification failed before restore"
  | system => "system error"

structure AuditEvent where
  operation : String
  snapshotId : String
  result : String
  deriving DecidableEq

structure Host where
  disk : Disk
  auditEvents : List AuditEvent := []

abbrev RecoveryProgram := Prog Failure Host

/-- A member that is asked for with the wrong type makes the JSON library throw. -/
def typed {α : Type} : Option α → Except Failure α
  | none => .error .malformed
  | some a => .ok a

section Programs

variable (cfg : RecoveryConfig) (turn : Mishap)

def disk : RecoveryProgram Disk := fun h => (.ok h.disk, h)

def modifyDisk (f : Disk → Disk) : RecoveryProgram Unit :=
  Prog.modify fun h => { h with disk := f h.disk }

/-- Stop with this error unless the condition holds. -/
def require (c : Prop) [Decidable c] (e : Failure) : RecoveryProgram Unit :=
  if c then pure () else Prog.fail e

/-- The call throws if it reports an error. -/
def mayThrow (call : SystemCall) : RecoveryProgram Unit := require (call ∉ turn.fails) .system

/-- `fs::remove_all`; an error is not looked at. -/
def removeAll (call : SystemCall) (p : Path) : RecoveryProgram Unit :=
  modifyDisk (·.restrict fun q =>
    !decide (p <+: q) || (decide (call ∈ turn.fails) && decide (q ∈ turn.left)))

/-- `fs::create_directories`; a file in the way makes it throw. -/
def createDirectories (call : SystemCall) (p : Path) : RecoveryProgram Unit := do
  mayThrow turn call
  let d ← disk
  require (∀ q ∈ p.inits, isFile d q = false) .system
  modifyDisk (withDirectories · p)

/-- `CopyTree`. -/
def copyTree (create copy : SystemCall) (source target : Path) : RecoveryProgram Unit := do
  createDirectories turn create target
  let d ← disk
  if occupied d source = false ∨ copy ∈ turn.hidden then pure ()
  else
    let u := copied d source
    if copy ∈ turn.fails ∨ ∃ q ∈ u.support, obstructs d target u q = true then
      modifyDisk (·.graft target
        (u.restrict fun q => decide (q ∈ turn.moved) && !obstructs d target u q))
      Prog.fail .copyFailed
    else modifyDisk (·.graft target u)

/-- The entry of one file in a manifest. -/
def fileEntry (path : Path) (bytes : Bytes) : Json :=
  .ofFields [("path", .string (genericString path)), ("sha256", .string (cfg.sha256 bytes)),
    ("size_bytes", .int (asInt64 bytes.length))]

/-- The entries of the regular files below a directory. -/
def fileEntries (d : Disk) (root : Path) : Json :=
  .array ((filesBelow d root).filterMap fun p =>
    match d.get (root ++ p) with
    | some (.file bytes) => some (fileEntry cfg p bytes)
    | _ => none)

/-- `FileManifest`. -/
def fileManifest (call : SystemCall) (root : Path) : RecoveryProgram Json := do
  if call ∈ turn.hidden then return .array []
  mayThrow turn call
  let d ← disk
  return fileEntries cfg d root

/-- `WriteJsonFile`; a write that fails is not noticed. -/
def writeJsonFile (path : Path) (payload : Json) : RecoveryProgram Unit := do
  createDirectories turn .createManifest path.dropLast
  let d ← disk
  if directoryAt d path then pure ()
  else if .writeManifest ∈ turn.fails then
    match turn.written with
    | none => pure ()
    | some bytes => modifyDisk (·.put path (.file bytes))
  else modifyDisk (·.put path (.file (cfg.codec.print payload)))

/-- `ReadJsonFile`. -/
def readJsonFile (call : SystemCall) (path : Path) : RecoveryProgram Json := do
  require (call ∉ turn.fails) (.unreadable path)
  let d ← disk
  match d.get path with
  | some (.file bytes) => Prog.ofExcept (typed (cfg.codec.parse bytes))
  | some .directory => Prog.fail .malformed
  | none => Prog.fail (if occupied d path then .malformed else .unreadable path)

/-- `fs::rename` of a directory; an empty directory may be in its place. -/
def activate (id : String) (source dest : Path) : RecoveryProgram Unit := do
  let d ← disk
  require (.activate ∉ turn.fails ∧ endsInDots id = false ∧ directoryAt d source = true ∧
    d.isDirectory dest = false ∧ (∀ q ∈ dest.inits, isFile d q = false) ∧ ¬ source <+: dest)
    .activateFailed
  modifyDisk (·.rename source dest)

structure RecoverySnapshotRequest where
  snapshotId : String
  label : String
  createdAt : String

/-- The manifest that is written to `snapshot.json`. -/
def snapshotManifest (request : RecoverySnapshotRequest) (fileCount : ℕ) (files : Json) : Json :=
  .ofFields [("snapshot_id", .string request.snapshotId), ("label", .string request.label),
    ("created_at", .string request.createdAt),
    ("source_root", .string ("/" ++ genericString cfg.registryRoot)),
    ("file_count", .int (asInt64 fileCount)), ("files", files)]

/-- `CreateFilesystemSnapshot`, of the registry root. -/
def createFilesystemSnapshot (request : RecoverySnapshotRequest) : RecoveryProgram Json := do
  require (request.snapshotId ≠ "") .idRequired
  let snapshotRoot := snapshotPlace cfg request.snapshotId
  let d ← disk
  require (occupied d snapshotRoot = false ∨ .lookUpSnapshot ∈ turn.hidden)
    (.alreadyExists request.snapshotId)
  createDirectories turn .createParent (normal (joined cfg.snapshotsRoot request.snapshotId).dropLast)
  let tempRoot := temporaryPlace cfg request.snapshotId
  removeAll turn .clearTemporary tempRoot
  copyTree turn .createTemporary .copySource cfg.registryRoot (tempRoot ++ ["data"])
  let counted ← fileManifest cfg turn .countCopy (tempRoot ++ ["data"])
  let files ← fileManifest cfg turn .hashCopy (tempRoot ++ ["data"])
  let manifest := snapshotManifest cfg request counted.elements.length files
  writeJsonFile cfg turn (tempRoot ++ ["snapshot.json"]) manifest
  activate turn request.snapshotId tempRoot snapshotRoot
  return (manifest.setField "root_path" (.string (placeText cfg request.snapshotId))).setField
    "data_path" (.string (placeText cfg request.snapshotId ++ "/data"))

/-- `manifest.value("files", nlohmann::json::array())`. -/
def expectedFiles : Json → Except Failure Json
  | .object fields => .ok ((getKey fields "files").getD (.array []))
  | _ => .error .malformed

/-- `RestoreFilesystemSnapshot`, to the registry root. -/
def restoreFilesystemSnapshot (snapshotId restoredAt : String) : RecoveryProgram Json := do
  require (snapshotId ≠ "") .idRequired
  let snapshotRoot := snapshotPlace cfg snapshotId
  mayThrow turn .lookUp
  let d ← disk
  require (occupied d (snapshotRoot ++ ["snapshot.json"]) ∧ occupied d (snapshotRoot ++ ["data"]))
    (.notFound snapshotId)
  let manifest ← readJsonFile cfg turn .readManifest (snapshotRoot ++ ["snapshot.json"])
  let expected ← Prog.ofExcept (expectedFiles manifest)
  let actual ← fileManifest cfg turn .hashData (snapshotRoot ++ ["data"])
  require (expected = actual) .verificationFailed
  removeAll turn .clearTarget cfg.registryRoot
  copyTree turn .createTarget .copyBack (snapshotRoot ++ ["data"]) cfg.registryRoot
  return .ofFields [("snapshot_id", .string snapshotId), ("restored_at", .string restoredAt),
    ("target_root", .string ("/" ++ genericString cfg.registryRoot)),
    ("file_count", .int (asInt64 actual.elements.length)), ("verified", .bool true)]

/-- The entries that are listed as snapshots. -/
def snapshotNames (d : Disk) : List String :=
  (entryNames d cfg.snapshotsRoot).filter fun name =>
    directoryAt d (cfg.snapshotsRoot ++ [name]) && decide (name ≠ "_tmp") &&
      occupied d (cfg.snapshotsRoot ++ [name, "snapshot.json"])

/-- `ListFilesystemSnapshots`. -/
def listFilesystemSnapshots : RecoveryProgram (List Json) := do
  if .list ∈ turn.hidden then return []
  mayThrow turn .list
  let d ← disk
  (snapshotNames cfg d).mapM fun name =>
    readJsonFile cfg turn .readManifest (cfg.snapshotsRoot ++ [name, "snapshot.json"])

inductive Response where
  /-- Status 200 and `SuccessEnvelope`. -/
  | success (message : String) (payload : Json)
  /-- Another status and `FailureEnvelope`. -/
  | failure (status : ℕ) (message detail category operation : String) (returncode : ℕ)

/-- `RecordRegistryAudit`. -/
def recordRegistryAudit (call : SystemCall) (operation snapshotId result : String) :
    RecoveryProgram Unit := do
  mayThrow turn call
  Prog.modify fun h => { h with auditEvents := h.auditEvents ++ [⟨operation, snapshotId, result⟩] }

/-- `"snap-"` and the number with at least six digits. -/
def snapshotIdFor (n : ℕ) : String := "snap-" ++ paddedNumber n 6

/-- The `try` block of `HandleCreateRecoverySnapshot`, for the id that was found. -/
def tryCreate (body : Json) (snapshotId now : String) : RecoveryProgram Response :=
  Prog.handle
    (do
      let label ← Prog.ofExcept (typed (body.textOr "label" "manual"))
      let snapshot ← createFilesystemSnapshot cfg turn { snapshotId, label, createdAt := now }
      recordRegistryAudit turn .auditSuccess "createRecoverySnapshot" snapshotId "success"
      return .success "created recovery snapshot" snapshot)
    fun error => do
      recordRegistryAudit turn .auditFailure "createRecoverySnapshot" snapshotId "failed"
      return .failure 422 "recovery snapshot failed" error.what "RecoveryError"
        "createRecoverySnapshot" 17

/-- `HandleCreateRecoverySnapshot`. -/
def handleCreateRecoverySnapshot (body : Json) (now : String) : RecoveryProgram Response :=
  if body.isObject = false then
    return .failure 400 "recovery snapshot rejected" "request body must be an object"
      "ValidationError" "createRecoverySnapshot" 2
  else do
    -- the snapshots are listed also for a request that brings its id
    let snapshots ← listFilesystemSnapshots cfg turn
    let snapshotId ← Prog.ofExcept
      (typed (body.textOr "snapshot_id" (snapshotIdFor (snapshots.length + 1))))
    tryCreate cfg turn body snapshotId now

/-- `HandleRestoreRecoverySnapshot`. -/
def handleRestoreRecoverySnapshot (snapshotId now : String) : RecoveryProgram Response :=
  Prog.handle
    (do
      let restored ← restoreFilesystemSnapshot cfg turn snapshotId now
      recordRegistryAudit turn .auditSuccess "restoreRecoverySnapshot" snapshotId "success"
      return .success "restored recovery snapshot" restored)
    fun error => do
      recordRegistryAudit turn .auditFailure "restoreRecoverySnapshot" snapshotId "failed"
      return .failure 422 "recovery restore failed" error.what "RecoveryError"
        "restoreRecoverySnapshot" 17

end Programs

end StyioPlatform.Recovery
