import StyioPlatform.Registry.TrustMetadata

/-! The publish workflow on the local tree: draft, release record, artifact, index line and log
leaf (`RegistryPublishWorkflow.hpp`), and the traffic with the object store
(`RegistryObjectStoreSync.hpp`). -/
namespace StyioPlatform.Registry

/-- A field of a request body. -/
inductive JsonField where
  | absent
  | text (value : String)
  | other
  deriving DecidableEq

/-- A request body: its fields, or `none` for a body that is not an object. -/
abbrev Body := Option (String → JsonField)

structure MtlsIdentity where
  role : String
  nodeId : String
  deriving DecidableEq

structure HttpRequest where
  identity : Option MtlsIdentity := none
  headers : List (String × String) := []
  body : Body

/-- `HasNonEmptyString`, with the string. -/
def nonEmptyString (fields : String → JsonField) (field : String) : Option String :=
  match fields field with
  | .text value => if value = "" then none else some value
  | _ => none

/-- `ValidateOptionalStringFields`. -/
def validateOptionalStringFields (fields : String → JsonField) : List String → Option String
  | [] => none
  | field :: rest =>
    if fields field = .absent ∨ (nonEmptyString fields field).isSome then
      validateOptionalStringFields fields rest
    else some (field ++ " must be a non-empty string when present")

/-- Where the archive of a release lies: on the host, or staged in the registry root. -/
inductive ArchivePath where
  | host (path : String)
  | staged (path : Path)
  deriving DecidableEq

structure PublishDraft where
  package : String
  version : String
  publisherId : String
  archivePath : ArchivePath
  dependencies : ℕ
  devDependencies : ℕ
  deriving DecidableEq

/-- The file that the archive path leads to. -/
def archiveFile (host : Host) (t : Tree) : ArchivePath → Option File
  | .host path => (host.files path).map File.blob
  | .staged path => t.get path

/-- The publisher named by the body, by the identity, or the control plane itself. -/
def draftPublisherId (request : HttpRequest) (fields : String → JsonField) : String :=
  match fields "publisher_id" with
  | .text value => value
  | _ => (request.identity.map (·.nodeId)).getD "control-plane"

/-- The identity that the manifest gives, empty without a manifest. -/
def manifestIdentity (env : Environment) (fields : String → JsonField) :
    Except Failure ManifestPackage :=
  match nonEmptyString fields "manifest_path" with
  | none => .ok { name := "", version := "", dependencies := 0, devDependencies := 0 }
  | some path =>
    match env.loadManifest path with
    | .error detail => .error (.error detail)
    | .ok none => .error (.error "manifest_path must point to a package manifest")
    | .ok (some m) => .ok m

/-- The identity of a draft is complete and its package name well formed. -/
def checkIdentity (draft : ManifestPackage) : Except Failure ManifestPackage :=
  if draft.name = "" then .error (.error "package or manifest_path is required")
  else if draft.version = "" then
    .error (.error "manifest_path is required when version is not provided")
  else
    match validatePackageName draft.name with
    | some detail => .error (.error detail)
    | none => .ok draft

/-- Package and version with the counts of dependencies: the manifest's, overridden by the
body's. -/
def draftIdentity (env : Environment) (fields : String → JsonField) :
    Except Failure ManifestPackage :=
  match manifestIdentity env fields with
  | .error e => .error e
  | .ok m => checkIdentity { m with
      name := (nonEmptyString fields "package").getD m.name
      version := (nonEmptyString fields "version").getD m.version }

/-- `_staging/<package>-<version>.spio.src.tar`. -/
def stagingPath (package version : String) : Path :=
  ["_staging", String.ofList (sanitizePathSegment package.toList ++ ['-'] ++
    sanitizePathSegment version.toList) ++ ".spio.src.tar"]

def buildPublishDraft (env : Environment) (host : Host) (fault : Option Site)
    (request : HttpRequest) (fields : String → JsonField) : Program PublishDraft := do
  let publisherId := draftPublisherId request fields
  let identity ← Prog.ofExcept (draftIdentity env fields)
  failAt fault .draft
  let draft (archivePath : ArchivePath) : PublishDraft :=
    { package := identity.name, version := identity.version, publisherId, archivePath
      dependencies := identity.dependencies, devDependencies := identity.devDependencies }
  match nonEmptyString fields "archive_path" with
  | some path =>
    if (host.files path).isSome then pure (draft (.host path))
    else Prog.fail (.error "archive_path must point to a readable file")
  | none =>
    let path := stagingPath identity.name identity.version
    writeTextFile path (.json (.staged identity.name identity.version publisherId))
    pure (draft (.staged path))

/-- The artifact path that belongs to a digest. -/
def artifactPath (archiveSha256 : String) : Path :=
  let digits := archiveSha256.toList
  ["artifacts", "source", "sha256", String.ofList (digits.take 2),
    String.ofList ((digits.drop 2).take 2), archiveSha256 ++ ".spio.src.tar"]

def buildReleaseRecord (env : Environment) (draft : PublishDraft) (publishedAt : String)
    (archive : File) : ReleaseRecord :=
  let archiveSha256 := archive.sha256 env
  { package := draft.package
    version := draft.version
    publishedAt := publishedAt
    publisherId := draft.publisherId
    sourceArtifact :=
      { sha256 := archiveSha256
        sizeBytes := (archive.bytes env).length
        path := artifactPath archiveSha256 }
    manifestDigest := sha256Bytes env (draft.package ++ "@" ++ draft.version).toUTF8.toList
    metadataDigest := sha256Bytes env (env.canonicalJson (.metadataSource
      { package := draft.package, version := draft.version, publisherId := draft.publisherId
        publishedAt := publishedAt, archiveSha256 := archiveSha256 })) }

structure LocalAppendResult where
  indexPath : Path
  logLeafPath : Path
  sequence : ℕ

/-- What a broken copy leaves at its destination. -/
def leavePartial (path : Path) : Option Bytes → Program Unit
  | none => pure ()
  | some bytes => writeTextFile path (.blob bytes)

/-- Put the archive at its artifact path, unless a file with its digest is there. -/
def placeArtifact (env : Environment) (fault : Option Site) (archive : File) (r : ReleaseRecord) :
    Program Unit := do
  match (← rootTree).get r.sourceArtifact.path with
  | some f =>
    require (f.sha256 env = r.sourceArtifact.sha256)
      "destination artifact already exists with different content"
  | none =>
    match fault with
    | some (.placeArtifact left) =>
      leavePartial r.sourceArtifact.path left
      Prog.fail (.fault (.placeArtifact left))
    | _ => writeTextFile r.sourceArtifact.path archive

/-- The log leaf of a release. -/
def releaseLeaf (env : Environment) (sequence : ℕ) (r : ReleaseRecord) : LogLeaf where
  sequence := sequence
  packageNamespace := packageNamespace r.package
  package := r.package
  version := r.version
  indexPath := registryIndexPathForPackage r.package
  indexRecordSha256 := recordSha256 env r
  sourceArtifactSha256 := r.sourceArtifact.sha256
  sourceArtifactPath := r.sourceArtifact.path

def appendRegistryReleaseToLocal (env : Environment) (fault : Option Site) (archive : File)
    (r : ReleaseRecord) : Program LocalAppendResult := do
  placeArtifact env fault archive r
  require (releaseExistsOnDisk (← rootTree) r.package r.version = false)
    "package version is already published"
  let indexPath := registryIndexPathForPackage r.package
  failAt fault .appendIndex
  appendJsonLine env indexPath r
  let sequence := (leafSequencePaths (← rootTree)).length + 1
  failAt fault .writeLeaf
  writeTextFile (leafPath sequence) (.json (.leaf (releaseLeaf env sequence r)))
  pure { indexPath, logLeafPath := leafPath sequence, sequence }

/-- `RemoveLocalRegistryMetadataCache`. -/
def removeLocalRegistryMetadataCache : Program Unit := modifyRoot (·.restrict fun p => !inReadPlane p)

/-- The objects that a sync fetches: the read plane, publications and distributions. -/
def isSynced (p : Path) : Bool :=
  inReadPlane p || p.head? == some "_publications" || p.head? == some "_distributions"

/-- `SyncS3RegistryStateToLocal`; a broken transfer leaves the files fetched before. -/
def syncS3RegistryStateToLocal (fault : Option Site) : Program Unit := do
  removeLocalRegistryMetadataCache
  let bucket := (← Prog.read).bucket
  match fault with
  | some (.syncBucket fetched) =>
    modifyRoot (·.graft [] (bucket.restrict fun p => isSynced p && decide (p ∈ fetched)))
    Prog.fail (.fault (.syncBucket fetched))
  | _ => modifyRoot (·.graft [] (bucket.restrict isSynced))

/-- The files that an upload sends: all but those in `_staging` and `_tmp`. -/
def isUploaded (p : Path) : Bool := p.head? != some "_staging" && p.head? != some "_tmp"

/-- `UploadRegistryTreeToS3`; objects that have no local file stay. -/
def uploadRegistryTreeToS3 (fault : Option Site) : Program Unit := do
  let tree := (← rootTree).restrict isUploaded
  match fault with
  | some (.upload sent) =>
    Prog.modify fun w => { w with bucket := w.bucket.graft [] (tree.restrict (· ∈ sent)) }
    Prog.fail (.fault (.upload sent))
  | _ => Prog.modify fun w => { w with bucket := w.bucket.graft [] tree }

end StyioPlatform.Registry
