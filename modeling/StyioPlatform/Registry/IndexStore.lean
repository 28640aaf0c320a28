import Mathlib.Data.Finset.Lattice.Fold
import Mathlib.Order.Lattice.Nat
import StyioPlatform.Registry.State

/-! The local registry tree: package indexes, directory listings, publications and distribution
pointers (`RegistryIndexStore.hpp`). -/
namespace StyioPlatform.Registry

/-- The configuration that the registry handlers read, with the loaded role keys. -/
structure PlatformConfig where
  registryRoot : Path
  registryName : String
  readRootUrl : String
  usesS3ObjectStore : Bool := false
  keys : RegistryKeyDirectory

/-- Clock and files of the host while one request is handled. -/
structure Host where
  registryTime : String
  now : String
  yankedAt : String
  authorizedAt : String
  expires : Path → String
  files : String → Option Bytes

/-- The directories that a publication copies. -/
def readPlaneEntries : List String := ["index", "artifacts", "trust", "log"]

/-- The path is `config.json` or lies in one of the copied directories. -/
def inReadPlane : Path → Bool
  | [] => false
  | name :: rest => name ∈ readPlaneEntries || (name == "config.json" && rest == [])

/-- `path.extension() == extension`, for an extension with one dot. -/
def hasExtension (extension name : String) : Bool :=
  extension.toList.isSuffixOf name.toList && name != extension

/-- The records on the lines of a file; lines that do not parse are skipped. -/
def File.releaseLines : File → List ReleaseRecord
  | .jsonl records => records
  | _ => []

def jsonLineHasRelease (package version : String) (r : ReleaseRecord) : Bool :=
  r.package = package ∧ r.version = version

def releaseExistsOnDisk (t : Tree) (package version : String) : Bool :=
  match t.get (registryIndexPathForPackage package) with
  | none => false
  | some f => f.releaseLines.any (jsonLineHasRelease package version)

/-- The parsed lines of an index file; `none` where parsing throws. -/
def File.records : File → Option (List ReleaseRecord)
  | .jsonl records => some records
  | _ => none

def parseError : Failure := .error "parse error"

def readPackageIndexRecords (t : Tree) (package : String) :
    Except Failure (List ReleaseRecord) :=
  match t.get (registryIndexPathForPackage package) with
  | none => .ok []
  | some f => (f.records.map Except.ok).getD (.error parseError)

def writePackageIndexRecords (package : String) (records : List ReleaseRecord) : Program Unit :=
  writeTextFile (registryIndexPathForPackage package) (.jsonl records)

/-- A file with one more line. -/
def File.appendLine (env : Environment) (r : ReleaseRecord) : Option File → File
  | none => .jsonl [r]
  | some (.jsonl records) => .jsonl (records ++ [r])
  | some f => .blob (f.bytes env ++ (File.jsonl [r]).bytes env)

def appendJsonLine (env : Environment) (path : Path) (r : ReleaseRecord) : Program Unit := do
  let t ← rootTree
  writeTextFile path (.appendLine env r (t.get path))

def countRegularFiles (t : Tree) (root : Path) : ℕ := (t.support.filter (root <+: ·)).card

def directoryDigest (env : Environment) (t : Tree) (root : Path) : String :=
  let files := sorted (t.subtree root).support
  let entry (p : Path) := ((t.get (root ++ p)).map fun f => (p, f.sha256 env))
  "sha256:" ++ sha256Bytes env (env.canonicalJson (.listing (files.filterMap entry)))

/-- The names of the directories in `_publications`. -/
def publicationNames (t : Tree) : Finset String :=
  t.support.biUnion fun p =>
    match p with
    | "_publications" :: name :: _ :: _ => {name}
    | _ => ∅

/-- The number that follows a publication name, if the name has the form of an id. -/
def sequenceAfter (name : String) : ℕ :=
  match name.toList with
  | 'p' :: 'u' :: 'b' :: '-' :: digits => ((stoul digits).map fun n => (n + 1) % 2 ^ 64).getD 0
  | _ => 0

def nextPublicationSequenceOnDisk (t : Tree) : ℕ := max 1 ((publicationNames t).sup sequenceAfter)

/-- `CopyRegistryReadPlaneTo` inside one file system. A broken copy leaves the files that it
still moved. -/
def copyRegistryReadPlaneTo (fault : Option Site) (source dest : Path) : Program Unit := do
  let t ← rootTree
  let plane := (t.subtree source).restrict inReadPlane
  match fault with
  | some (.copyReadPlane copied) =>
    modifyRoot (·.graft dest (plane.restrict (· ∈ copied)))
    Prog.fail (.fault (.copyReadPlane copied))
  | _ =>
    modifyRoot (·.graft dest plane)
    require ((plane.get ["config.json"]).isSome) "failed to copy registry publication config"

/-- Follow the names of a path. `..` goes up, a name must be a directory. -/
def walk (directory : Path → Bool) : List String → Path → Option Path
  | [], position => some position
  | name :: rest, position =>
    if name = "" ∨ name = "." then walk directory rest position
    else if name = ".." then walk directory rest position.dropLast
    else if directory (position ++ [name]) then walk directory rest (position ++ [name])
    else none

/-- The directories of the host that are known: those above the registry root and those in it. -/
def hostDirectory (cfg : PlatformConfig) (t : Tree) (p : Path) : Bool :=
  decide (p <+: cfg.registryRoot) ||
    (decide (cfg.registryRoot <+: p) && t.isDirectory (p.drop cfg.registryRoot.length))

/-- `registry_root / "_publications" / publication_id`, from the registry root; an absolute id
replaces the path before it. -/
def publicationRoot (cfg : PlatformConfig) (t : Tree) (publicationId : String) : Option Path :=
  let names := (publicationId.toList.splitOn '/').map String.ofList
  let position :=
    if publicationId.toList.head? = some '/' then walk (hostDirectory cfg t) names []
    else walk (hostDirectory cfg t) ("_publications" :: names) cfg.registryRoot
  position.bind fun p =>
    if cfg.registryRoot <+: p then some (p.drop cfg.registryRoot.length) else none

/-- `publication_root / "publication.json"`. -/
def publicationFile (cfg : PlatformConfig) (t : Tree) (publicationId : String) : Option File :=
  (publicationRoot cfg t publicationId).bind fun root => t.get (root ++ ["publication.json"])

/-- `MaterializePublicationToRoot`: remove the read plane, then copy the publication. -/
def materializePublicationToRoot (cfg : PlatformConfig) (fault : Option Site)
    (publicationId : String) : Program Unit := do
  modifyRoot (·.restrict fun p => !inReadPlane p)
  let t ← rootTree
  match publicationRoot cfg t publicationId with
  | none => Prog.fail (.error "failed to copy registry publication config")
  | some source => copyRegistryReadPlaneTo fault source []

/-- `_distributions/<id>/current.json`; an id is one path segment. -/
def distributionPointerPath (distributionId : String) : Path :=
  if distributionId = "." then ["_distributions", "current.json"]
  else if distributionId = ".." then ["current.json"]
  else ["_distributions", distributionId, "current.json"]

def currentDistributionPointer (t : Tree) (distributionId : String) :
    Except Failure (Option Document) :=
  match t.get (distributionPointerPath distributionId) with
  | none => .ok none
  | some f => (f.parse.map fun d => Except.ok (some d)).getD (.error parseError)

end StyioPlatform.Registry
