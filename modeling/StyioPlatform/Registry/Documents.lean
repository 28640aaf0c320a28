import StyioPlatform.Lib.FileTree
import StyioPlatform.Lib.KeyedList
import StyioPlatform.Registry.Identifiers

/-! The documents that the control plane writes and reads, as records of their fields. Objects
keyed by data are lists in key order, as `nlohmann::json` keeps them. -/
namespace StyioPlatform.Registry

abbrev Bytes := List UInt8

structure SourceArtifact where
  sha256 : String
  sizeBytes : ℕ
  path : Path
  archiveFormat : String := "tar"
  compression : String := "none"
  deriving DecidableEq

/-- One line of a package index (`BuildReleaseRecord`). Only a yank or unyank adds the last two
fields. -/
structure ReleaseRecord where
  schemaVersion : ℕ := 1
  package : String
  version : String
  releaseRevision : ℕ := 1
  publishedAt : String
  publisherId : String
  yanked : Bool := false
  deprecatedMessage : String := ""
  sourceArtifact : SourceArtifact
  binaryArtifacts : List String := []
  dependencies : List String := []
  devDependencies : List String := []
  features : List String × List String := ([], [])
  manifestDigest : String
  metadataDigest : String
  yankedReason : Option String := none
  yankedAt : Option String := none
  deriving DecidableEq

/-- The input of `metadata_digest`. -/
structure MetadataSource where
  package : String
  version : String
  publisherId : String
  publishedAt : String
  archiveSha256 : String
  dependencies : List String := []
  devDependencies : List String := []
  deriving DecidableEq

/-- `log/leaves/<sequence>.json`. -/
structure LogLeaf where
  schemaVersion : ℕ := 1
  sequence : ℕ
  packageNamespace : String
  package : String
  version : String
  releaseRevision : ℕ := 1
  indexPath : Path
  indexRecordSha256 : String
  sourceArtifactSha256 : String
  sourceArtifactPath : Path
  deriving DecidableEq

/-- `SignedFileMeta`. -/
structure FileMeta where
  version : ℕ
  length : ℕ
  sha256 : String
  deriving DecidableEq

structure ReleaseEntry where
  releaseRevision : ℕ
  indexRecordSha256 : String
  sourceArtifactSha256 : String
  sourceArtifactPath : Path
  binaryArtifactCount : ℕ
  deriving DecidableEq

/-- What targets metadata says about one package. -/
structure PackageEntry where
  indexPath : Path
  latestVersion : String
  releases : List (String × ReleaseEntry)
  deriving DecidableEq

/-- `RegistryRoleNames`. -/
inductive RegistryRole where
  | root | timestamp | snapshot | targets | log
  deriving DecidableEq

structure RolePolicy where
  keyids : List String
  threshold : ℕ := 1
  deriving DecidableEq

inductive SignedBody where
  | root (expires : String) (keys : List (String × String)) (roles : RegistryRole → RolePolicy)
  | targets (expires namespaceName : String) (packages : List (String × PackageEntry))
  | checkpoint (generatedAt : String) (treeSize : ℕ) (rootHash : String)
  | snapshot (expires : String) (filesMeta : List (Path × FileMeta)) (logMeta : FileMeta)
  | timestamp (expires : String) (snapshotMeta : FileMeta)

/-- The `type` field. -/
def SignedBody.type : SignedBody → String
  | .root .. => "root"
  | .targets .. => "targets"
  | .checkpoint .. => "checkpoint"
  | .snapshot .. => "snapshot"
  | .timestamp .. => "timestamp"

structure SignedPayload where
  specVersion : String := "1"
  version : ℕ
  body : SignedBody

structure Signature where
  keyid : String
  sig : String

/-- `SignedRegistryPayload`: a signed document with its signatures. -/
structure Envelope where
  signed : SignedPayload
  signatures : List Signature

/-- The publication named by `config.json`. -/
structure PublicationRef where
  publicationId : String
  repositoryVersionId : String
  layoutVersion : ℕ := 2
  publicationPath : Path
  currentPointer : Path := ["_distributions", "default", "current.json"]
  deriving DecidableEq

structure Capabilities where
  appendOnlyIndex : Bool := true
  sourceArtifacts : Bool := true
  binaryArtifacts : Bool := true
  transparencyLog : Bool := true
  deriving DecidableEq

/-- `RegistryConfigPayload`; the longer form also names the publication. -/
structure RegistryConfig where
  schemaVersion : ℕ := 1
  protocol : String := "spio-static-registry"
  protocolVersion : ℕ := 2
  registryName : String
  generatedAt : String
  capabilities : Capabilities := {}
  publication : Option PublicationRef := none
  deriving DecidableEq

/-- `publication.json`. The fields that a reader asks for may be missing from a foreign file. -/
structure PublicationManifest where
  publicationId : String
  repositoryId : Option String
  repositoryVersionId : Option String
  layoutVersion : ℕ := 2
  generatedAt : String
  treeSize : ℕ
  indexDigest : String
  trustDigest : String
  artifactCount : ℕ
  verified : Bool := true
  deriving DecidableEq

/-- `_distributions/<id>/current.json`. -/
structure DistributionPointer where
  distributionId : String
  publicationId : String
  repositoryVersionId : String
  updatedAt : String
  previousPublicationId : Option String
  deriving DecidableEq

inductive Document where
  | config (c : RegistryConfig)
  | record (r : ReleaseRecord)
  | metadataSource (m : MetadataSource)
  | leaf (l : LogLeaf)
  | signed (p : SignedPayload)
  | envelope (e : Envelope)
  | publication (p : PublicationManifest)
  | pointer (p : DistributionPointer)
  /-- The input of `DirectoryDigest`. -/
  | listing (files : List (Path × String))
  /-- The archive written for a request that brings none. -/
  | staged (package version publisherId : String)
  /-- Any other object. -/
  | other (text : String)

/-- A file: a JSON document, the lines of a package index, or bytes that are neither. -/
inductive File where
  | json (d : Document)
  | jsonl (records : List ReleaseRecord)
  | blob (bytes : Bytes)

abbrev Tree := FileTree String File

/-- `nlohmann::json::parse` of a whole file; `none` where it throws. -/
def File.parse : File → Option Document
  | .json d => some d
  | .jsonl [r] => some (.record r)
  | .jsonl _ => none
  | .blob _ => none

/-- `value("publication_id", "")`. -/
def Document.publicationId : Document → String
  | .publication p => p.publicationId
  | .pointer p => p.publicationId
  | _ => ""

/-- `value("previous_publication_id", "")`. -/
def Document.previousPublicationId : Document → String
  | .pointer p => p.previousPublicationId.getD ""
  | _ => ""

/-- `at("repository_version_id")`; `none` where it throws. -/
def Document.repositoryVersionId : Document → Option String
  | .publication p => p.repositoryVersionId
  | .pointer p => some p.repositoryVersionId
  | _ => none

/-- `value("repository_id", "default")`. -/
def Document.repositoryId : Document → String
  | .publication p => p.repositoryId.getD "default"
  | _ => "default"

/-- One signing key of a trust role; the private part stays in the key directory. -/
structure RegistryRoleKey where
  role : RegistryRole
  keyid : String
  privateKeyPem : String
  publicKeyPem : String

/-- The key directory: one key per role, and a key id names one public key. -/
structure RegistryKeyDirectory where
  key : RegistryRole → RegistryRoleKey
  publicKeyPem_eq : ∀ r s, (key r).keyid = (key s).keyid → (key r).publicKeyPem = (key s).publicKeyPem

structure ManifestPackage where
  name : String
  version : String
  dependencies : ℕ
  devDependencies : ℕ

/-- What the control plane takes from outside: SHA-256, the two JSON printers, Ed25519
signatures and the manifest loader. -/
structure Environment where
  sha256 : Bytes → Bytes
  canonicalJson : Document → Bytes
  jsonText : Document → Bytes
  sign : RegistryRoleKey → Bytes → String
  verifySignature : String → Bytes → String → Bool
  loadManifest : String → Except String (Option ManifestPackage)

/-- The two hexadecimal digits of a byte. -/
def hexByte (b : UInt8) : List Char := [(b.toNat / 16).digitChar, (b.toNat % 16).digitChar]

/-- `HexBytes`. -/
def hexBytes (data : Bytes) : String := String.ofList (data.flatMap hexByte)

/-- `Sha256Bytes`. -/
def sha256Bytes (env : Environment) (payload : Bytes) : String := hexBytes (env.sha256 payload)

/-- The bytes of a file: `JsonText` for a document, one compact record a line for an index. -/
def File.bytes (env : Environment) : File → Bytes
  | .json d => env.jsonText d
  | .jsonl records => records.flatMap fun r => env.canonicalJson (.record r) ++ "\n".toUTF8.toList
  | .blob bytes => bytes

/-- `Sha256File`. -/
def File.sha256 (env : Environment) (f : File) : String := sha256Bytes env (f.bytes env)

/-- The digest of a record's canonical JSON. -/
def recordSha256 (env : Environment) (r : ReleaseRecord) : String :=
  sha256Bytes env (env.canonicalJson (.record r))

/-- The digest of a leaf's canonical JSON. -/
def leafSha256 (env : Environment) (l : LogLeaf) : String :=
  sha256Bytes env (env.canonicalJson (.leaf l))

end StyioPlatform.Registry
