import StyioPlatform.Lib.Prog
import StyioPlatform.Registry.Documents

/-! What a control-plane node holds: its registry root, the object store, the memory store and
the Postgres store; and the points at which a request can break off. -/
namespace StyioPlatform.Registry

structure RegistryPackageRecord where
  packageId : String
  packageNamespace : String
  name : String
  createdAt : String
  createdBy : String
  visibility : String := "public"
  deriving DecidableEq

structure RegistryPackageReleaseRecord where
  packageId : String
  version : String
  edition : String := "2026"
  manifestSha256 : String
  sourceArtifactSha256 : String
  dependencies : List String := []
  publisherId : String
  publishedAt : String
  yanked : Bool := false
  yankedReason : String := ""
  deriving DecidableEq

structure RegistryPackageOwnerRecord where
  packageId : String
  ownerId : String
  ownerKind : String := "user"
  role : String := "owner"
  addedBy : String
  addedAt : String
  deriving DecidableEq

structure RegistryPublishTokenRecord where
  tokenId : String
  tokenHash : String
  ownerId : String
  scopes : List String
  packagePatterns : List String
  expiresAt : String
  revokedAt : String
  createdAt : String
  deriving DecidableEq

structure RegistryRepositoryVersionRecord where
  repositoryVersionId : String
  repositoryId : String
  sequence : ℕ
  changeKind : String
  changeRef : String
  createdAt : String
  deriving DecidableEq

structure RegistryPublicationRecord where
  publicationId : String
  repositoryVersionId : String
  layoutVersion : ℕ := 2
  rootPath : Path
  manifestSha256 : String
  treeSize : ℕ
  createdAt : String
  verified : Bool
  deriving DecidableEq

structure RegistryDistributionRecord where
  distributionId : String
  repositoryId : String
  name : String
  baseUrl : String
  currentPublicationId : String
  previousPublicationId : String
  updatedAt : String
  deriving DecidableEq

/-- The answer to a successful publish. -/
structure PublishPayload where
  registryReadRoot : String
  usesS3ObjectStore : Bool
  createdRoot : Bool
  package : String
  version : String
  publisherId : String
  publishedAt : String
  archiveSha256 : String
  archiveSizeBytes : ℕ
  artifactPath : Path
  indexPath : Path
  logLeafPath : Path
  sequence : ℕ
  dependencies : ℕ
  devDependencies : ℕ
  checkpointVersion : ℕ
  snapshotVersion : ℕ
  timestampVersion : ℕ
  namespaces : ℕ
  repositoryVersionId : String
  publicationId : String
  deriving DecidableEq

/-- The registry part of `MemoryStateStore`; a restart empties it. -/
structure MemoryStateStore where
  publishedReleases : List (String × PublishPayload) := []
  packages : List (String × RegistryPackageRecord) := []
  releases : List (String × RegistryPackageReleaseRecord) := []
  owners : List (String × RegistryPackageOwnerRecord) := []
  tokens : List (String × RegistryPublishTokenRecord) := []
  repositoryVersions : List (String × RegistryRepositoryVersionRecord) := []
  publications : List (String × RegistryPublicationRecord) := []
  distributions : List (String × RegistryDistributionRecord) := []
  nextRegistryTokenSequence : ℕ := 1

def registryTokenIdFor (sequence : ℕ) : String := "tok-" ++ paddedNumber sequence 12

/-- The greatest sequence of a repository's versions. -/
def maxSequence (repositoryId : String)
    (versions : List (String × RegistryRepositoryVersionRecord)) : ℕ :=
  (versions.filter (·.2.repositoryId = repositoryId)).foldl (fun m x => max m x.2.sequence) 0

namespace MemoryStateStore

def hasPublishedRelease (m : MemoryStateStore) (releaseKey : String) : Bool :=
  hasKey m.publishedReleases releaseKey

def recordPublishedRelease (m : MemoryStateStore) (releaseKey : String)
    (payload : PublishPayload) : MemoryStateStore :=
  { m with publishedReleases := setKey m.publishedReleases releaseKey payload }

def nextRepositoryVersionSequence (m : MemoryStateStore) (repositoryId : String) : ℕ :=
  maxSequence repositoryId m.repositoryVersions + 1

def upsertRegistryPackage (m : MemoryStateStore) (r : RegistryPackageRecord) : MemoryStateStore :=
  { m with packages := setKey m.packages r.packageId r }

def upsertRegistryPackageRelease (m : MemoryStateStore) (r : RegistryPackageReleaseRecord) :
    MemoryStateStore :=
  { m with releases := setKey m.releases (registryReleaseKey r.packageId r.version) r }

/-- `SetRegistryPackageReleaseYanked`; an unknown release is left alone. -/
def setRegistryPackageReleaseYanked (m : MemoryStateStore) (packageId version : String)
    (yanked : Bool) (reason : String) : MemoryStateStore :=
  let key := registryReleaseKey packageId version
  match getKey m.releases key with
  | none => m
  | some r =>
    let row := { r with yanked := yanked, yankedReason := reason }
    { m with releases := setKey m.releases key row }

def addRegistryPackageOwner (m : MemoryStateStore) (r : RegistryPackageOwnerRecord) :
    MemoryStateStore :=
  { m with owners := setKey m.owners (r.packageId ++ "/" ++ r.ownerId) r }

def hasRegistryPackageOwner (m : MemoryStateStore) (packageId ownerId : String) : Bool :=
  hasKey m.owners (packageId ++ "/" ++ ownerId)

def removeRegistryPackageOwner (m : MemoryStateStore) (packageId ownerId : String) :
    MemoryStateStore :=
  { m with owners := eraseKey m.owners (packageId ++ "/" ++ ownerId) }

/-- The counter of `NextRegistryTokenId` moves on. -/
def takeRegistryTokenId (m : MemoryStateStore) : MemoryStateStore :=
  { m with nextRegistryTokenSequence := m.nextRegistryTokenSequence + 1 }

def upsertRegistryPublishToken (m : MemoryStateStore) (r : RegistryPublishTokenRecord) :
    MemoryStateStore :=
  { m with tokens := setKey m.tokens r.tokenId r }

def getRegistryPublishToken (m : MemoryStateStore) (tokenId : String) :
    Option RegistryPublishTokenRecord :=
  getKey m.tokens tokenId

/-- `RevokeRegistryPublishToken`; an unknown token is left alone. -/
def revokeRegistryPublishToken (m : MemoryStateStore) (tokenId revokedAt : String) :
    MemoryStateStore :=
  match getKey m.tokens tokenId with
  | none => m
  | some r => { m with tokens := setKey m.tokens tokenId { r with revokedAt := revokedAt } }

def findRegistryPublishTokenByHash (m : MemoryStateStore) (tokenHash : String) :
    Option RegistryPublishTokenRecord :=
  (m.tokens.find? (·.2.tokenHash = tokenHash)).map (·.2)

def recordRegistryRepositoryVersion (m : MemoryStateStore) (r : RegistryRepositoryVersionRecord) :
    MemoryStateStore :=
  { m with repositoryVersions := setKey m.repositoryVersions r.repositoryVersionId r }

def recordRegistryPublication (m : MemoryStateStore) (r : RegistryPublicationRecord) :
    MemoryStateStore :=
  { m with publications := setKey m.publications r.publicationId r }

def upsertRegistryDistribution (m : MemoryStateStore) (r : RegistryDistributionRecord) :
    MemoryStateStore :=
  { m with distributions := setKey m.distributions r.distributionId r }

end MemoryStateStore

/-- The registry tables of `PostgresStore`, by primary key. -/
structure PostgresStore where
  packages : List (String × RegistryPackageRecord) := []
  releases : List ((String ×ₗ String) × RegistryPackageReleaseRecord) := []
  owners : List ((String ×ₗ String) × RegistryPackageOwnerRecord) := []
  tokens : List (String × RegistryPublishTokenRecord) := []
  repositoryVersions : List (String × RegistryRepositoryVersionRecord) := []
  publications : List (String × RegistryPublicationRecord) := []
  distributions : List (String × RegistryDistributionRecord) := []
  /-- The next value of `platform_publish_token_id_seq`. -/
  nextRegistryTokenSequence : ℕ := 1

/-- `INSERT … ON CONFLICT (key) DO UPDATE SET …`: `merge` builds the row kept on a conflict. -/
def upsertRow {κ ν : Type} [LinearOrder κ] (rows : List (κ × ν)) (key : κ) (row : ν)
    (merge : ν → ν) : List (κ × ν) :=
  match getKey rows key with
  | none => setKey rows key row
  | some old => setKey rows key (merge old)

namespace PostgresStore

def getRegistryPackageRelease (s : PostgresStore) (packageId version : String) :
    Option RegistryPackageReleaseRecord :=
  getKey s.releases (toLex (packageId, version))

def upsertRegistryPackage (s : PostgresStore) (r : RegistryPackageRecord) : PostgresStore :=
  let merge (old : RegistryPackageRecord) := { r with createdAt := old.createdAt }
  { s with packages := upsertRow s.packages r.packageId r merge }

def upsertRegistryPackageRelease (s : PostgresStore) (r : RegistryPackageReleaseRecord) :
    PostgresStore :=
  let merge (old : RegistryPackageReleaseRecord) := { r with publishedAt := old.publishedAt }
  { s with releases := upsertRow s.releases (toLex (r.packageId, r.version)) r merge }

def setRegistryPackageReleaseYanked (s : PostgresStore) (packageId version : String)
    (yanked : Bool) (reason : String) : PostgresStore :=
  match getKey s.releases (toLex (packageId, version)) with
  | none => s
  | some r =>
    let row := { r with yanked := yanked, yankedReason := reason }
    { s with releases := setKey s.releases (toLex (packageId, version)) row }

def addRegistryPackageOwner (s : PostgresStore) (r : RegistryPackageOwnerRecord) : PostgresStore :=
  let merge (old : RegistryPackageOwnerRecord) := { r with addedAt := old.addedAt }
  { s with owners := upsertRow s.owners (toLex (r.packageId, r.ownerId)) r merge }

def hasRegistryPackageOwner (s : PostgresStore) (packageId ownerId : String) : Bool :=
  hasKey s.owners (toLex (packageId, ownerId))

def removeRegistryPackageOwner (s : PostgresStore) (packageId ownerId : String) : PostgresStore :=
  { s with owners := eraseKey s.owners (toLex (packageId, ownerId)) }

/-- `nextval('platform_publish_token_id_seq')`. -/
def takeRegistryTokenId (s : PostgresStore) : PostgresStore :=
  { s with nextRegistryTokenSequence := s.nextRegistryTokenSequence + 1 }

def upsertRegistryPublishToken (s : PostgresStore) (r : RegistryPublishTokenRecord) :
    PostgresStore :=
  let merge (old : RegistryPublishTokenRecord) := { r with createdAt := old.createdAt }
  { s with tokens := upsertRow s.tokens r.tokenId r merge }

def getRegistryPublishToken (s : PostgresStore) (tokenId : String) :
    Option RegistryPublishTokenRecord :=
  getKey s.tokens tokenId

def revokeRegistryPublishToken (s : PostgresStore) (tokenId revokedAt : String) : PostgresStore :=
  match getKey s.tokens tokenId with
  | none => s
  | some r => { s with tokens := setKey s.tokens tokenId { r with revokedAt := revokedAt } }

def findRegistryPublishTokenByHash (s : PostgresStore) (tokenHash : String) :
    Option RegistryPublishTokenRecord :=
  (s.tokens.find? (·.2.tokenHash = tokenHash)).map (·.2)

def nextRepositoryVersionSequence (s : PostgresStore) (repositoryId : String) : ℕ :=
  maxSequence repositoryId s.repositoryVersions + 1

def recordRegistryRepositoryVersion (s : PostgresStore) (r : RegistryRepositoryVersionRecord) :
    PostgresStore :=
  let merge (old : RegistryRepositoryVersionRecord) :=
    { old with changeKind := r.changeKind, changeRef := r.changeRef }
  { s with
    repositoryVersions := upsertRow s.repositoryVersions r.repositoryVersionId r merge }

def recordRegistryPublication (s : PostgresStore) (r : RegistryPublicationRecord) : PostgresStore :=
  let merge (old : RegistryPublicationRecord) :=
    { old with
      rootPath := r.rootPath, manifestSha256 := r.manifestSha256, treeSize := r.treeSize,
      verified := r.verified }
  { s with publications := upsertRow s.publications r.publicationId r merge }

def upsertRegistryDistribution (s : PostgresStore) (r : RegistryDistributionRecord) :
    PostgresStore :=
  { s with distributions := setKey s.distributions r.distributionId r }

end PostgresStore

/-- A statement that a handler sends to Postgres. -/
inductive PostgresStatement where
  | lookupRelease | nextSequence | repository | repositoryVersion | publication | distribution
  | mirror | package | release | owner | yank | removeOwner | nextToken | token | lookupToken
  | revokeToken
  deriving DecidableEq

/-- Where a request can break off. Each site stands for the calls of the source that throw
there; a copy or transfer names the files that it still moved. -/
inductive Site where
  | draft
  | authorize
  | probeBucket
  | syncBucket (fetched : List Path)
  | postgres (statement : PostgresStatement)
  | createRoot
  | loadKeys
  | signInitial (role : RegistryRole)
  | reloadKeys
  | readArchive
  | placeArtifact (left : Option Bytes)
  | appendIndex
  | writeLeaf
  | collectPackages
  | signTargets (namespaceName : String)
  | signCheckpoint
  | signSnapshot
  | signTimestamp
  /-- The listing of `_publications` reports an error, which the source ignores. -/
  | listPublications
  | copyReadPlane (copied : List Path)
  | renamePublication
  | activateConfig
  | readPointer
  | writePointer
  | upload (sent : List Path)
  | audit
  | secureRandom
  deriving DecidableEq

/-- Why a program stopped. -/
inductive Failure where
  | fault (site : Site)
  | error (detail : String)
  deriving DecidableEq

/-- A node with its stores. `written` records every file that was written, for the statements
about histories; no program reads it. -/
structure World where
  root : Tree
  bucket : Tree := .empty
  memory : MemoryStateStore := {}
  postgres : Option PostgresStore := none
  written : List (Path × File) := []

namespace World

def setRoot (w : World) (t : Tree) : World := { w with root := t }

/-- The node after a file was written in its registry root. -/
def write (w : World) (path : Path) (f : File) : World :=
  { w with root := w.root.put path f, written := w.written ++ [(path, f)] }

/-- The process is started again: the memory store is empty, disk and database are kept. -/
def restart (w : World) : World := { w with memory := {} }

variable {w : World} {t : Tree} {path : Path} {f : File}

@[simp] theorem setRoot_root : (w.setRoot t).root = t := rfl
@[simp] theorem setRoot_bucket : (w.setRoot t).bucket = w.bucket := rfl
@[simp] theorem setRoot_memory : (w.setRoot t).memory = w.memory := rfl
@[simp] theorem setRoot_postgres : (w.setRoot t).postgres = w.postgres := rfl
@[simp] theorem setRoot_written : (w.setRoot t).written = w.written := rfl
@[simp] theorem write_root : (w.write path f).root = w.root.put path f := rfl
@[simp] theorem write_bucket : (w.write path f).bucket = w.bucket := rfl
@[simp] theorem write_memory : (w.write path f).memory = w.memory := rfl
@[simp] theorem write_postgres : (w.write path f).postgres = w.postgres := rfl
@[simp] theorem write_written : (w.write path f).written = w.written ++ [(path, f)] := rfl
@[simp] theorem restart_root : w.restart.root = w.root := rfl

end World

abbrev Program := Prog Failure World

/-- Break off here if this is where the request fails. -/
def failAt (fault : Option Site) (site : Site) : Program Unit :=
  if fault = some site then Prog.fail (.fault site) else pure ()

/-- Stop with an error unless the condition holds. -/
def require (c : Prop) [Decidable c] (detail : String) : Program Unit :=
  if c then pure () else Prog.fail (.error detail)

/-- Run a program only under a condition. -/
def onlyIf (c : Prop) [Decidable c] (x : Program Unit) : Program Unit := if c then x else pure ()

/-- The registry root as it is now. -/
def rootTree : Program Tree := fun w => (.ok w.root, w)

def modifyRoot (f : Tree → Tree) : Program Unit := Prog.modify fun w => w.setRoot (f w.root)

/-- `WriteTextFile`: create the parent directories and write the file. -/
def writeTextFile (path : Path) (f : File) : Program Unit := Prog.modify fun w => w.write path f

def modifyMemory (f : MemoryStateStore → MemoryStateStore) : Program Unit :=
  Prog.modify fun w => { w with memory := f w.memory }

/-- One Postgres statement; without Postgres nothing happens. -/
def execPostgres (fault : Option Site) (statement : PostgresStatement)
    (f : PostgresStore → PostgresStore) : Program Unit := fun w =>
  match w.postgres with
  | none => (.ok (), w)
  | some s =>
    if fault = some (.postgres statement) then (.error (.fault (.postgres statement)), w)
    else (.ok (), { w with postgres := some (f s) })

section rules

variable {fault : Option Site} {site : Site} {w : World} {E : Failure → World → Prop}
  {Q : Unit → World → Prop}

@[simp] theorem wp_failAt : Prog.wp (failAt fault site) Q E w ↔
    (fault = some site → E (.fault site) w) ∧ (fault ≠ some site → Q () w) := by
  rw [failAt, Prog.wp_ite, Prog.wp_fail, Prog.wp_pure]

@[simp] theorem wp_require {c : Prop} [Decidable c] {detail : String} :
    Prog.wp (require c detail) Q E w ↔ (c → Q () w) ∧ (¬ c → E (.error detail) w) := by
  rw [require, Prog.wp_ite, Prog.wp_fail, Prog.wp_pure]

@[simp] theorem wp_onlyIf {c : Prop} [Decidable c] {x : Program Unit} :
    Prog.wp (onlyIf c x) Q E w ↔ (c → Prog.wp x Q E w) ∧ (¬ c → Q () w) := by
  rw [onlyIf, Prog.wp_ite, Prog.wp_pure]

@[simp] theorem wp_rootTree {R : Tree → World → Prop} :
    Prog.wp rootTree R E w ↔ R w.root w := Iff.rfl

@[simp] theorem wp_modifyRoot {f : Tree → Tree} :
    Prog.wp (modifyRoot f) Q E w ↔ Q () (w.setRoot (f w.root)) := Iff.rfl

@[simp] theorem wp_writeTextFile {path : Path} {f : File} :
    Prog.wp (writeTextFile path f) Q E w ↔ Q () (w.write path f) := Iff.rfl

@[simp] theorem wp_modifyMemory {f : MemoryStateStore → MemoryStateStore} :
    Prog.wp (modifyMemory f) Q E w ↔ Q () { w with memory := f w.memory } := Iff.rfl

/-- A Postgres statement fails, or leaves everything but the database alone. -/
theorem wp_execPostgres {statement : PostgresStatement} {f : PostgresStore → PostgresStore}
    (hQ : Q () { w with postgres := w.postgres.map f })
    (hE : fault = some (.postgres statement) → w.postgres.isSome →
      E (.fault (.postgres statement)) w) :
    Prog.wp (execPostgres fault statement f) Q E w := by
  obtain ⟨root, bucket, memory, _ | s, written⟩ := w
  · exact hQ
  · by_cases hf : fault = some (.postgres statement)
    · simpa [Prog.wp, execPostgres, hf] using hE hf rfl
    · simpa [Prog.wp, execPostgres, hf] using hQ

end rules

end StyioPlatform.Registry
