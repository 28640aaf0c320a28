import StyioPlatform.Core.Sha256
import StyioPlatform.Lib.FileTree
import StyioPlatform.Lib.Json
import StyioPlatform.Lib.Lines
import StyioPlatform.Lib.Prog
import StyioPlatform.Manifest.Document

/-! The registry client (`Client.cpp`): one version of a package is fetched into the caches below
`spio_home`. A text stands for a `std::string`, one character a byte. -/
namespace StyioPlatform.RegistryClient

open Manifest Prog

/-- The names along a path from `/`, with what `.`, `..` and repeated separators leave. -/
abbrev Path := List String

abbrev Content := List Char

abbrev Disk := FileTree String Content

section Paths

def pieces (text : String) : Path := (text.toList.splitOn '/').map String.ofList

/-- `path::operator/` with a text on the right. -/
def joinText (p : Path) (text : String) : Path :=
  if text.toList.head? = some '/' then (pieces text).tail else p ++ pieces text

/-- `path::string`. -/
def pathText (p : Path) : String := "/" ++ "/".intercalate p

/-- `path::generic_string` of a relative path. -/
def genericString (p : Path) : String := "/".intercalate p

/-- `parent_path() / (filename().string() + ".tmp")`. -/
def temporaryPath (p : Path) : Path := p.dropLast ++ [p.getLastD "" ++ ".tmp"]

def registryCacheRoot (spioHome : Path) : Path := spioHome ++ ["registry"]

def registryIndexCacheRoot (spioHome : Path) : Path := registryCacheRoot spioHome ++ ["index"]

def registryBlobCacheRoot (spioHome : Path) : Path :=
  registryCacheRoot spioHome ++ ["blobs", "sha256"]

def registryCheckoutRoot (spioHome : Path) : Path := registryCacheRoot spioHome ++ ["checkouts"]

end Paths

/-- The operations that can report an error. -/
inductive Site where
  | createDirectories | openFile | readFile | writeFile | rename | removeTemporary | copyFile
  | removeCheckout | extract | writeMarker
  deriving DecidableEq

/-- What `tar` leaves of an archive, with how it ends. -/
structure Extraction where
  files : FileTree String Content
  succeeded : Bool

/-- The objects of a registry that one call asks for. -/
inductive Stage where
  | config | targets | index | artifact
  deriving DecidableEq

/-- What the outside does in one call: the answers of the registry (`none` where `curl` fails), how a
failed process is described, the operations that report an error, what an interrupted write leaves,
the entries that a removal leaves, and what `tar` makes of an archive. -/
structure Turn where
  fetch : Stage → String → Option Content
  description : String
  fails : Site → Path → Bool
  partialContent : Option Content
  uncleared : Path → Bool
  extract : Content → Extraction

/-- The files of the host, the paths that the client has asked to be created, written, renamed or
deleted, and those that it has read from a registry on the host. -/
structure State where
  disk : Disk
  changed : List Path := []
  read : List Path := []

abbrev Program := Prog Failure State

def fetchError {α : Type} (message : String) : Except Failure α := .error (.thrown .fetch message)

/-- A value of another type makes the JSON library throw. -/
def typed {α : Type} (value : Option α) : Except Failure α :=
  match value with
  | none => .error .missing
  | some a => .ok a

section Validation

def normalizeRegistryRoot (value : String) : String :=
  String.ofList (value.toList.reverse.dropWhile (· = '/')).reverse

def isHttpRegistry (registryRoot : String) : Bool :=
  "http://".toList <+: registryRoot.toList || "https://".toList <+: registryRoot.toList

def isFileRegistry (registryRoot : String) : Bool := "file://".toList <+: registryRoot.toList

/-- `FileUrlToPath`, for an absolute path. -/
def fileUrlToPath (registryRoot : String) : Path :=
  (pieces (String.ofList (registryRoot.toList.drop 7))).tail

def splitPackageName (packageName : String) : Except Failure (String × String) :=
  let owner := packageName.toList.takeWhile (· ≠ '/')
  let rest := packageName.toList.drop (owner.length + 1)
  if owner = [] ∨ rest = [] then
    fetchError ("registry package name must match namespace/name: " ++ packageName)
  else .ok (String.ofList owner, String.ofList rest)

/-- `NormalizeRelativeRegistryPath`: the normal form, which ends with a separator where the last name
of the path is empty, `.` or `..`. -/
def normalizeRelativeRegistryPath (relativePath context : String) : Except Failure Path :=
  let names := relativeNormal (pieces relativePath)
  if relativePath = "" then fetchError (context ++ " must be a non-empty relative path")
  else if relativePath.toList.head? = some '/' then
    fetchError (context ++ " must be relative: " ++ relativePath)
  else if names = [] ∨ names.head? = some ".." then
    fetchError (context ++ " escapes the registry root: " ++ relativePath)
  else if (pieces relativePath).getLastD "" ∈ ["", ".", ".."] then .ok (names ++ [""])
  else .ok names

variable (parse : Content → Option Json)

def parseJsonObject (text : Content) (context : String) : Except Failure Json :=
  match parse text with
  | none => fetchError (context ++ " is not valid JSON")
  | some payload =>
    if payload.isObject then .ok payload else fetchError (context ++ " must be a JSON object")

structure RegistryConfig where
  targetsPrefix : String := "trust/targets/"

/-- `paths.targets_prefix` of the configuration. -/
def targetsPrefixOf (config : Json) (context : String) : Except Failure String :=
  match config.get? "paths" with
  | none => .ok "trust/targets/"
  | some paths =>
    if !paths.isObject then fetchError (context ++ " paths must be a JSON object")
    else typed (paths.textOr "targets_prefix" "trust/targets/")

def validateConfig (config : Json) (context : String) : Except Failure RegistryConfig := do
  let unsupported := fetchError (context ++ " does not match the supported registry v2 protocol")
  let protocol ← typed (config.textOr "protocol" "")
  if protocol ≠ "spio-static-registry" then unsupported
  else
    let version ← typed (config.intOr "protocol_version" 0)
    if version ≠ 2 then unsupported
    else
      let targetsPrefix ← targetsPrefixOf config context
      if targetsPrefix = "" then fetchError (context ++ " is missing paths.targets_prefix")
      else pure { targetsPrefix }

structure RegistryPackageMetadata where
  indexPath : String

def validateTargetsMetadata (payload : Json) (packageName packageNamespace version context : String) :
    Except Failure RegistryPackageMetadata := do
  match (payload.get? "signed").filter Json.isObject with
  | none => fetchError (context ++ " must contain a signed object")
  | some signed =>
    let type ← typed (signed.textOr "type" "")
    if type ≠ "targets" then
      fetchError (context ++ " signed.type must equal 'targets'")
    else
    let found ← typed (signed.textOr "namespace" "")
    if found ≠ packageNamespace then
      fetchError (context ++ " namespace mismatch: expected '" ++ packageNamespace ++
        "' but found '" ++ found ++ "'")
    else
    match (signed.get? "packages").filter Json.isObject with
    | none => fetchError (context ++ " signed.packages must be a JSON object")
    | some packages =>
      match (packages.get? packageName).filter Json.isObject with
      | none => fetchError ("registry v2 targets metadata is missing package: " ++ packageName)
      | some package =>
        let indexPath ← typed (package.textOr "index_path" "")
        if indexPath = "" then
          fetchError ("registry v2 targets metadata is missing index_path for " ++ packageName)
        else
        match (package.get? "releases").filter Json.isObject with
        | none => fetchError ("registry v2 targets metadata is missing releases for " ++ packageName)
        | some releases =>
          if (releases.get? version).isNone then
            fetchError ("registry v2 targets metadata does not contain version " ++ packageName ++
              "@" ++ version)
          else
            let normalized ← normalizeRelativeRegistryPath indexPath "registry v2 package index_path"
            pure { indexPath := genericString normalized }

structure RegistryEntry where
  package : String
  version : String
  sha256 : String
  artifactPath : String
  deriving DecidableEq

def validateEntry (entry : Json) (expectedPackage expectedVersion : String) :
    Except Failure RegistryEntry := do
  let package ← typed (entry.textOr "package" "")
  let version ← typed (entry.textOr "version" "")
  if package ≠ expectedPackage then
    fetchError ("registry v2 entry package mismatch: expected '" ++ expectedPackage ++
      "' but found '" ++ package ++ "'")
  else if version ≠ expectedVersion then
    fetchError ("registry v2 entry version mismatch: expected '" ++ expectedVersion ++
      "' but found '" ++ version ++ "'")
  else
  match (entry.get? "source_artifact").filter Json.isObject with
  | none => fetchError "registry v2 entry is missing source_artifact"
  | some artifact =>
    let sha256 ← typed (artifact.textOr "sha256" "")
    let artifactPath ← typed (artifact.textOr "path" "")
    if sha256.length ≠ 64 then
      fetchError "registry v2 source_artifact is missing a valid sha256 digest"
    else
      let _ ← normalizeRelativeRegistryPath artifactPath "registry v2 source_artifact path"
      pure { package, version, sha256, artifactPath }

/-- The loop of `LoadEntry` over the lines of the index. -/
def findEntry (packageName version : String) : List Content → Except Failure RegistryEntry
  | [] => fetchError ("registry v2 index does not contain package version: " ++ packageName ++ "@" ++
      version)
  | line :: lines =>
    if line.all fun c => c ∈ [' ', '\t', '\r', '\n'] then findEntry packageName version lines
    else do
      let entry ← parseJsonObject parse line "registry v2 index record"
      let package ← typed (entry.textOr "package" "")
      if package ≠ packageName then findEntry packageName version lines
      else
        let found ← typed (entry.textOr "version" "")
        if found ≠ version then findEntry packageName version lines
        else validateEntry entry packageName version

end Validation

section Disk

/-- The regular file at a path; a path that ends with a separator names no file. -/
def fileAt (d : Disk) (p : Path) : Option Content :=
  if p.getLast? = some "" then none else d.get (normal p)

/-- `fs::exists`. -/
def occupied (d : Disk) (p : Path) : Bool := (fileAt d p).isSome || d.isDirectory (normal p)

/-- No file can be written: a directory is there, or a file above. -/
def obstructed (d : Disk) (p : Path) : Bool :=
  d.isDirectory (normal p) || (normal p).inits.dropLast.any fun q => (d.get q).isSome

/-- The names of the directories in a directory. -/
def subdirectories (d : Disk) (p : Path) : List String :=
  ((sorted (d.subtree (normal p)).support).filterMap fun
    | name :: _ :: _ => some name
    | _ => none).dedup

end Disk

section Operations

variable (turn : Turn)

/-- The paths are asked to be changed. -/
def ask (paths : List Path) : Program Unit := modify fun s => { s with changed := s.changed ++ paths }

def changeDisk (f : Disk → Disk) : Program Unit := modify fun s => { s with disk := f s.disk }

/-- `fs::create_directories`. -/
def createDirectories (p : Path) : Program Unit := do
  ask [p]
  let s ← Prog.read
  if turn.fails .createDirectories p ∨ (normal p).inits.any fun q => (s.disk.get q).isSome then
    fail .missing

/-- What an interrupted write leaves. -/
def leavePartial (p : Path) : Program Unit :=
  match turn.partialContent with
  | none => pure ()
  | some content => changeDisk (·.put (normal p) content)

/-- `fs::rename` of a temporary file onto its path, with the removal where it fails. -/
def finishFile (path : Path) (content : Content) (message : String) : Program Unit := do
  ask [temporaryPath path, path]
  let s ← Prog.read
  if turn.fails .rename path ∨ obstructed s.disk path then
    ask [temporaryPath path]
    if turn.fails .removeTemporary (temporaryPath path) then fail .missing
    else
      changeDisk (·.removeAll (normal (temporaryPath path)))
      fail (.thrown .cache (message ++ pathText path))
  else changeDisk fun d => (d.removeAll (normal (temporaryPath path))).put (normal path) content

def writeFileAtomically (path : Path) (content : Content) (context : String) : Program Unit := do
  createDirectories turn path.dropLast
  let temp := temporaryPath path
  ask [temp]
  let s ← Prog.read
  if turn.fails .openFile temp ∨ obstructed s.disk temp then
    fail (.thrown .cache ("failed to open temporary " ++ context ++ " for write: " ++ pathText temp))
  else if turn.fails .writeFile temp then do
    leavePartial turn temp
    fail (.thrown .cache ("failed to write temporary " ++ context ++ ": " ++ pathText temp))
  else do
    changeDisk (·.put (normal temp) content)
    finishFile turn path content ("failed to finalize " ++ context ++ ": ")

/-- `FetchUrlToFile`, after the directory has been created. -/
def fetchIntoDirectory (url : String) (path : Path) : Program Unit := do
  let temp := temporaryPath path
  ask [temp]
  let s ← Prog.read
  match (turn.fetch .artifact url).filter fun _ => !obstructed s.disk temp with
  | none => do
    -- the removal ignores errors
    if turn.fails .removeTemporary temp then leavePartial turn temp
    else changeDisk (·.removeAll (normal temp))
    fail (.thrown .fetch ("failed to download registry artifact '" ++ url ++ "': " ++
      turn.description))
  | some content => do
    changeDisk (·.put (normal temp) content)
    finishFile turn path content "failed to finalize registry artifact cache: "

def fetchUrlToFile (url : String) (path : Path) : Program Unit := do
  createDirectories turn path.dropLast
  fetchIntoDirectory turn url path

/-- `fs::copy_file` into the cache, over a file that is there. -/
def copyFile (source blob : Path) : Program Unit := do
  ask [blob]
  let s ← Prog.read
  match (fileAt s.disk source).filter fun _ => !obstructed s.disk blob with
  | none => fail (.thrown .cache ("failed to cache registry v2 source artifact: " ++ pathText blob))
  | some content =>
    if turn.fails .copyFile blob then do
      leavePartial turn blob
      fail (.thrown .cache ("failed to cache registry v2 source artifact: " ++ pathText blob))
    else changeDisk (·.put (normal blob) content)

/-- A file that can be opened and read; a directory is read as an empty text. -/
def readTextFile (p : Path) (context : String) : Program Content := do
  let s ← Prog.read
  match fileAt s.disk p with
  | some content =>
    if turn.fails .openFile p then
      fail (.thrown .fetch ("failed to open " ++ context ++ ": " ++ pathText p))
    else pure content
  | none =>
    if s.disk.isDirectory (normal p) then pure []
    else fail (.thrown .fetch ("failed to open " ++ context ++ ": " ++ pathText p))

/-- A path below a registry on the host is read. -/
def readsBelow (p : Path) : Program Unit := modify fun s => { s with read := s.read ++ [p] }

def bytesOf (content : Content) : List UInt8 := content.map fun c => UInt8.ofNat c.toNat

/-- `Sha256File`; a directory can be opened and not be read. -/
def sha256File (p : Path) : Program String := do
  let s ← Prog.read
  let file : Core.InputFile :=
    match fileAt s.disk p with
    | some content =>
      { opens := !turn.fails .openFile p
        content := bytesOf content
        readable := if turn.fails .readFile p then 0 else content.length }
    | none => { opens := s.disk.isDirectory (normal p), content := [0], readable := 0 }
  match Core.sha256File (pathText p) file with
  | .error message => fail (.thrown .cache message)
  | .ok digest => pure (String.ofList digest)

end Operations

section Client

variable (parse : Content → Option Json) (turn : Turn) (spioHome : Path) (registryRoot : String)
  (offline : Bool)

def joinUrl (relativePath : String) : Except Failure String := do
  let normalized ← normalizeRelativeRegistryPath relativePath "registry object path"
  pure (normalizeRegistryRoot registryRoot ++ "/" ++ genericString normalized)

def fnv1a64 (value : String) : UInt64 :=
  value.toList.foldl (fun hash c => (hash ^^^ UInt64.ofNat c.toNat) * 1099511628211)
    1469598103934665603

def hex64 (value : UInt64) : String := String.ofList (Nat.toDigits 16 value.toNat)

def registryObjectCachePath (relativePath : String) : Except Failure Path := do
  let normalized ← normalizeRelativeRegistryPath relativePath "registry cache object path"
  pure (registryIndexCacheRoot spioHome ++ [hex64 (fnv1a64 registryRoot)] ++ normalized)

/-- `text.substr(start, 2)`. -/
def twoFrom (text : String) (start : ℕ) : String := String.ofList ((text.toList.drop start).take 2)

def blobCachePath (sha256 : String) : Path :=
  joinText (joinText (joinText (registryBlobCacheRoot spioHome) (twoFrom sha256 0))
    (twoFrom sha256 2)) (sha256 ++ ".tar")

def checkoutPath (packageName version sha256 : String) : Except Failure Path := do
  let (packageNamespace, shortName) ← splitPackageName packageName
  pure (joinText (joinText (joinText (joinText (registryCheckoutRoot spioHome) packageNamespace)
    shortName) version) sha256)

def loadRegistryObjectText (stage : Stage) (relativePath context : String) : Program Content := do
  let normalized ← ofExcept (normalizeRelativeRegistryPath relativePath context)
  if isFileRegistry registryRoot then do
    readsBelow (fileUrlToPath registryRoot ++ normalized)
    readTextFile turn (fileUrlToPath registryRoot ++ normalized) context
  else if !isHttpRegistry registryRoot then
    fail (.thrown .fetch ("registry root must use file://, http://, or https://: " ++ registryRoot))
  else
    let cachePath ←
      ofExcept (registryObjectCachePath spioHome registryRoot (genericString normalized))
    if offline then
      let s ← Prog.read
      if !occupied s.disk cachePath then
        fail (.thrown .fetch ("offline mode is missing cached " ++ context ++ " for " ++ registryRoot))
      else readTextFile turn cachePath ("cached " ++ context)
    else
      let url ← ofExcept (joinUrl registryRoot (genericString normalized))
      match turn.fetch stage url with
      | none =>
        fail (.thrown .fetch ("failed to fetch registry url '" ++ url ++ "': " ++ turn.description))
      | some text => do
        writeFileAtomically turn cachePath text (context ++ " cache")
        pure text

def loadConfig : Program RegistryConfig := do
  let text ← loadRegistryObjectText turn spioHome registryRoot offline .config "config.json"
    "registry v2 config"
  ofExcept do
    let config ← parseJsonObject parse text "registry v2 config"
    validateConfig config "registry v2 config"

def loadPackageMetadata (config : RegistryConfig) (packageName version : String) :
    Program RegistryPackageMetadata := do
  let (packageNamespace, _) ← ofExcept (splitPackageName packageName)
  let text ← loadRegistryObjectText turn spioHome registryRoot offline .targets
    (config.targetsPrefix ++ packageNamespace ++ ".json") "registry v2 targets metadata"
  ofExcept do
    let payload ← parseJsonObject parse text "registry v2 targets metadata"
    validateTargetsMetadata payload packageName packageNamespace version
      "registry v2 targets metadata"

def loadEntry (packageName version : String) (metadata : RegistryPackageMetadata) :
    Program RegistryEntry := do
  let text ← loadRegistryObjectText turn spioHome registryRoot offline .index metadata.indexPath
    "registry v2 index"
  ofExcept (findEntry parse packageName version (newlineLines text))

/-- The copy or the download of `MaterializeArtifact`. -/
def cacheArtifact (entry : RegistryEntry) : Program Unit := do
  let blob := blobCachePath spioHome entry.sha256
  let artifactRelative ←
    ofExcept (normalizeRelativeRegistryPath entry.artifactPath "registry v2 source artifact path")
  if isFileRegistry registryRoot then
    let source := fileUrlToPath registryRoot ++ artifactRelative
    readsBelow source
    let s ← Prog.read
    if !occupied s.disk source then
      fail (.thrown .fetch ("registry v2 source artifact not found: " ++ pathText source))
    else
      createDirectories turn blob.dropLast
      copyFile turn source blob
  else if offline then
    fail (.thrown .fetch ("offline mode is missing cached registry artifact for " ++ entry.package ++
      "@" ++ entry.version))
  else
    let url ← ofExcept (joinUrl registryRoot (genericString artifactRelative))
    fetchUrlToFile turn url blob

def materializeArtifact (entry : RegistryEntry) : Program Unit := do
  let blob := blobCachePath spioHome entry.sha256
  let s ← Prog.read
  if occupied s.disk blob then
    let actual ← sha256File turn blob
    if actual ≠ entry.sha256 then
      fail (.thrown .cache ("cached registry artifact sha256 mismatch: " ++ pathText blob))
  else
    cacheArtifact turn spioHome registryRoot offline entry
    let actual ← sha256File turn blob
    if actual ≠ entry.sha256 then
      fail (.thrown .fetch ("registry v2 source artifact sha256 mismatch for " ++ entry.package ++
        "@" ++ entry.version))

def detectSnapshotRoot (checkoutRoot : Path) : Program Path := do
  let s ← Prog.read
  if occupied s.disk (checkoutRoot ++ ["spio.toml"]) then pure checkoutRoot
  else
    match subdirectories s.disk checkoutRoot with
    | [name] =>
      if occupied s.disk (checkoutRoot ++ [name, "spio.toml"]) then pure (checkoutRoot ++ [name])
      else fail (.thrown .cache ("registry package snapshot does not contain spio.toml: " ++
        pathText checkoutRoot))
    | _ => fail (.thrown .cache ("registry package snapshot does not contain spio.toml: " ++
        pathText checkoutRoot))

/-- `fs::remove_all` with its errors ignored. -/
def clearCheckout (checkoutRoot : Path) : Program Unit := do
  ask [checkoutRoot]
  if turn.fails .removeCheckout checkoutRoot then
    changeDisk (·.restrict fun q => !(normal checkoutRoot).isPrefixOf q || turn.uncleared q)
  else changeDisk (·.removeAll (normal checkoutRoot))

/-- `tar -xf` of the cached artifact. -/
def extractArtifact (blob checkoutRoot : Path) : Program Unit := do
  let s ← Prog.read
  let message := "failed to extract registry artifact '" ++ pathText blob ++ "': " ++ turn.description
  match fileAt s.disk blob with
  | none => fail (.thrown .cache message)
  | some content => do
    let extraction := turn.extract content
    changeDisk (·.graft (normal checkoutRoot) extraction.files)
    if !extraction.succeeded then fail (.thrown .cache message)

def readyMarker (checkoutRoot : Path) : Path := checkoutRoot ++ [".spio-snapshot-ready"]

def ensureCheckout (entry : RegistryEntry) : Program Path := do
  let checkoutRoot ← ofExcept (checkoutPath spioHome entry.package entry.version entry.sha256)
  let s ← Prog.read
  if occupied s.disk (readyMarker checkoutRoot) then detectSnapshotRoot checkoutRoot
  else
    clearCheckout turn checkoutRoot
    createDirectories turn checkoutRoot
    extractArtifact turn (blobCachePath spioHome entry.sha256) checkoutRoot
    let snapshotRoot ← detectSnapshotRoot checkoutRoot
    ask [readyMarker checkoutRoot]
    let s ← Prog.read
    if turn.fails .writeMarker (readyMarker checkoutRoot) ∨
        obstructed s.disk (readyMarker checkoutRoot) then
      fail (.thrown .cache ("failed to write registry ready marker: " ++
        pathText (readyMarker checkoutRoot)))
    else
      changeDisk (·.put (normal (readyMarker checkoutRoot)) "ready\n".toList)
      pure snapshotRoot

/-- The registry root of `ResolveRegistryReadSecurity`, which sends no headers. -/
def resolveRegistryRead : Except Failure String :=
  let resolved := normalizeRegistryRoot registryRoot
  if isFileRegistry resolved || isHttpRegistry resolved then .ok resolved
  else fetchError ("registry root must use file://, http://, or https://: " ++ registryRoot)

structure RegistryMaterializationResult where
  registryRoot : String
  packageName : String
  version : String
  sha256 : String
  snapshotRoot : Path

/-- The record that the registry has for the version of the package. -/
def selectEntry (packageName version : String) : Program RegistryEntry := do
  let config ← loadConfig parse turn spioHome registryRoot offline
  let metadata ←
    loadPackageMetadata parse turn spioHome registryRoot offline config packageName version
  loadEntry parse turn spioHome registryRoot offline packageName version metadata

def materializeRegistryPackage (packageName version : String) :
    Program RegistryMaterializationResult := do
  let resolved ← ofExcept (resolveRegistryRead registryRoot)
  let entry ← selectEntry parse turn spioHome resolved offline packageName version
  materializeArtifact turn spioHome resolved offline entry
  let snapshotRoot ← ensureCheckout turn spioHome entry
  pure
    { registryRoot := resolved
      packageName := entry.package
      version := entry.version
      sha256 := entry.sha256
      snapshotRoot }

end Client

end StyioPlatform.RegistryClient
