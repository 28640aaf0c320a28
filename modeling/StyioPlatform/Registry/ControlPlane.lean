import StyioPlatform.Registry.PublishWorkflow

/-! The handlers of the registry control plane: publish, yank, unyank, promote and rollback
(`RegistryControlPlane.cpp`, `RegistryPackageHandlers.cpp`, `RegistryRepositoryHandlers.cpp`). -/
namespace StyioPlatform.Registry

structure YankPayload where
  packageId : String
  version : String
  yanked : Bool
  artifactPath : Path
  artifactPreserved : Bool
  checkpointVersion : ℕ
  snapshotVersion : ℕ
  timestampVersion : ℕ
  repositoryVersionId : String
  publicationId : String
  deriving DecidableEq

inductive Payload where
  | failure (detail category operation : String) (returncode : ℕ)
  | published (p : PublishPayload)
  | yanked (p : YankPayload)
  | pointer (p : DistributionPointer)
  | owner (r : RegistryPackageOwnerRecord)
  | removedOwner (packageId ownerId : String)
  | createdToken (r : RegistryPublishTokenRecord) (token : String)
  | revokedToken (tokenId : String)
  deriving DecidableEq

structure HttpResponse where
  status : ℕ
  message : String
  payload : Payload
  deriving DecidableEq

def failureResponse (status : ℕ) (message detail category operation : String)
    (returncode : ℕ := 17) : HttpResponse :=
  { status, message, payload := .failure detail category operation returncode }

/-- `JsonResponse(200, SuccessEnvelope(…))`. -/
def successResponse (message : String) (payload : Payload) : HttpResponse :=
  { status := 200, message, payload }

/-- `error.what()`. -/
def Failure.what : Failure → String
  | .fault _ => "fault"
  | .error detail => detail

/-- `RegistryTokenFromHeaders`. -/
def registryTokenFromHeaders (headers : List (String × String)) : Option String :=
  match (getKey headers "x-styio-registry-token").filter (· ≠ "") with
  | some token => some token
  | none => (getKey headers "authorization").bind fun value =>
    if "Bearer ".toList <+: value.toList then some (String.ofList (value.toList.drop 7)) else none

/-- `RegistryActorId`. -/
def registryActorId (env : Environment) (request : HttpRequest) : String :=
  match request.identity with
  | some identity => identity.nodeId
  | none =>
    match registryTokenFromHeaders request.headers with
    | some token =>
      "token:" ++ String.ofList ((sha256Bytes env token.toUTF8.toList).toList.take 12)
    | none => "anonymous"

def packagePatternMatches (pattern package : String) : Bool :=
  if pattern = "*" then true
  else if "/*".toList <:+ pattern.toList then pattern.toList.dropLast.isPrefixOf package.toList
  else pattern == package

def tokenMatchesPackage (token : RegistryPublishTokenRecord) (package : String) : Bool :=
  package == "" || token.packagePatterns.any (packagePatternMatches · package)

/-- The part of `RegistryWriteAuthorized` that looks at the client certificate. -/
def identityAuthorized (w : World) (identity : MtlsIdentity) (scope packageId : String) : Bool :=
  identity.role == "operator" ||
  (scope == "package:publish" && identity.role == "registry-writer") ||
  ((scope == "package:publish" || scope == "package:yank" || scope == "package:owner") &&
    packageId != "" &&
    ((w.postgres.map (·.hasRegistryPackageOwner packageId identity.nodeId)).getD false ||
      w.memory.hasRegistryPackageOwner packageId identity.nodeId))

/-- The part that looks at the publish token. -/
def tokenAuthorized (env : Environment) (host : Host) (w : World)
    (headers : List (String × String)) (scope packageId : String) : Bool :=
  match registryTokenFromHeaders headers with
  | none => false
  | some clear =>
    let hash := sha256Bytes env clear.toUTF8.toList
    let found :=
      match w.postgres with
      | some s => s.findRegistryPublishTokenByHash hash
      | none => w.memory.findRegistryPublishTokenByHash hash
    match found with
    | none => false
    | some token =>
      token.revokedAt == "" && !(token.expiresAt != "" && token.expiresAt < host.authorizedAt) &&
        scope ∈ token.scopes && tokenMatchesPackage token packageId

def registryWriteAuthorized (env : Environment) (host : Host) (fault : Option Site)
    (request : HttpRequest) (scope packageId : String) : Program Bool := do
  failAt fault .authorize
  let w ← Prog.read
  pure ((request.identity.map (identityAuthorized w · scope packageId)).getD false ||
    tokenAuthorized env host w request.headers scope packageId)

/-- `RecordRegistryAudit`; the events themselves are not kept. -/
def recordRegistryAudit (fault : Option Site) : Program Unit := failAt fault .audit

def repositoryVersionIdFor (sequence : ℕ) : String := "rv-" ++ paddedNumber sequence 6

def publicationIdFor (sequence : ℕ) : String := "pub-" ++ paddedNumber sequence 6

/-- The number of the next publication: one more than the greatest that disk, memory or Postgres
know. -/
def publicationSequence (fault : Option Site) (w : World) : ℕ :=
  let diskSequence :=
    if fault = some .listPublications then 1 else nextPublicationSequenceOnDisk w.root
  let memorySequence := w.memory.nextRepositoryVersionSequence "default"
  let persistentSequence :=
    (w.postgres.map (·.nextRepositoryVersionSequence "default")).getD memorySequence
  max (max diskSequence memorySequence) persistentSequence

/-- Past the range of `int` the source has no such number, and the request stops. -/
def nextPublicationSequence (fault : Option Site) : Program ℕ := do
  let w ← Prog.read
  onlyIf (w.postgres.isSome) (failAt fault (.postgres .nextSequence))
  require (publicationSequence fault w < 2 ^ 31) "publication sequence is out of range"
  pure (publicationSequence fault w)

/-- The publication directory while it is built. -/
def stagedPublicationPath (publicationId : String) : Path :=
  ["_tmp", "publications", publicationId]

def publicationPath (publicationId : String) : Path := ["_publications", publicationId]

/-- The manifest of a publication tree. -/
def publicationManifest (env : Environment) (t : Tree) (sequence : ℕ) (generatedAt : String) :
    PublicationManifest where
  publicationId := publicationIdFor sequence
  repositoryId := some "default"
  repositoryVersionId := some (repositoryVersionIdFor sequence)
  generatedAt := generatedAt
  treeSize := (leafSequencePaths t).length
  indexDigest := directoryDigest env t ["index"]
  trustDigest := directoryDigest env t ["trust"]
  artifactCount := countRegularFiles t ["artifacts"]

/-- The configuration file of a publication. -/
def publicationConfig (cfg : PlatformConfig) (sequence : ℕ) (generatedAt : String) :
    RegistryConfig :=
  registryConfigPayload cfg generatedAt (some
    { publicationId := publicationIdFor sequence
      repositoryVersionId := repositoryVersionIdFor sequence
      publicationPath := publicationPath (publicationIdFor sequence) ++ ["publication.json"] })

/-- Build the publication tree in `_tmp` and rename it into place. -/
def buildPublication (env : Environment) (cfg : PlatformConfig) (fault : Option Site)
    (sequence : ℕ) (generatedAt : String) : Program PublicationManifest := do
  let staged := stagedPublicationPath (publicationIdFor sequence)
  let final := publicationPath (publicationIdFor sequence)
  modifyRoot (·.removeAll staged)
  copyRegistryReadPlaneTo fault [] staged
  writeTextFile (staged ++ configPath)
    (.json (.config (publicationConfig cfg sequence generatedAt)))
  let manifest := publicationManifest env ((← rootTree).subtree staged) sequence generatedAt
  writeTextFile (staged ++ ["publication.json"]) (.json (.publication manifest))
  let t ← rootTree
  require (∀ p ∈ [configPath, rootPath, ["publication.json"]], (t.get (staged ++ p)).isSome)
    "publication verification failed before distribution update"
  require (t.isDirectory final = false) ("publication already exists: " ++ publicationIdFor sequence)
  failAt fault .renamePublication
  modifyRoot (·.rename staged final)
  pure manifest

/-- Copy the new configuration to the root and point the default distribution to it. -/
def activatePublication (cfg : PlatformConfig) (fault : Option Site) (sequence : ℕ)
    (generatedAt : String) : Program DistributionPointer := do
  failAt fault .activateConfig
  writeTextFile configPath (.json (.config (publicationConfig cfg sequence generatedAt)))
  failAt fault .readPointer
  let previous ← Prog.ofExcept (currentDistributionPointer (← rootTree) "default")
  let previousPublicationId := (previous.map Document.publicationId).getD ""
  let current : DistributionPointer :=
    { distributionId := "default"
      publicationId := publicationIdFor sequence
      repositoryVersionId := repositoryVersionIdFor sequence
      updatedAt := generatedAt
      previousPublicationId :=
        if previousPublicationId = "" then none else some previousPublicationId }
  failAt fault .writePointer
  writeTextFile (distributionPointerPath "default") (.json (.pointer current))
  pure current

/-- Enter the publication into the memory store and into Postgres. -/
def recordPublication (env : Environment) (cfg : PlatformConfig) (fault : Option Site)
    (sequence : ℕ) (changeKind changeRef generatedAt : String) (manifest : PublicationManifest)
    (current : DistributionPointer) : Program Unit := do
  let version : RegistryRepositoryVersionRecord :=
    { repositoryVersionId := repositoryVersionIdFor sequence, repositoryId := "default"
      sequence, changeKind, changeRef, createdAt := generatedAt }
  let publication : RegistryPublicationRecord :=
    { publicationId := publicationIdFor sequence
      repositoryVersionId := repositoryVersionIdFor sequence
      rootPath := publicationPath (publicationIdFor sequence)
      manifestSha256 := (File.json (.publication manifest)).sha256 env
      treeSize := manifest.treeSize, createdAt := generatedAt, verified := true }
  let distribution : RegistryDistributionRecord :=
    { distributionId := "default", repositoryId := "default", name := "default"
      baseUrl := cfg.readRootUrl
      currentPublicationId := current.publicationId
      previousPublicationId := current.previousPublicationId.getD "", updatedAt := generatedAt }
  modifyMemory fun m => ((m.recordRegistryRepositoryVersion version).recordRegistryPublication
    publication).upsertRegistryDistribution distribution
  execPostgres fault .repository id
  execPostgres fault .repositoryVersion (·.recordRegistryRepositoryVersion version)
  execPostgres fault .publication (·.recordRegistryPublication publication)
  execPostgres fault .distribution (·.upsertRegistryDistribution distribution)
  execPostgres fault .mirror id

/-- `CreateRegistryPublication`; the manifest of the new publication. -/
def createRegistryPublication (env : Environment) (cfg : PlatformConfig) (fault : Option Site)
    (changeKind changeRef generatedAt : String) : Program PublicationManifest := do
  let sequence ← nextPublicationSequence fault
  let manifest ← buildPublication env cfg fault sequence generatedAt
  let current ← activatePublication cfg fault sequence generatedAt
  recordPublication env cfg fault sequence changeKind changeRef generatedAt manifest current
  pure manifest

/-- Bring the local tree up to date with the object store before a publish. -/
def refreshFromObjectStore (cfg : PlatformConfig) (fault : Option Site) : Program Unit := do
  if cfg.usesS3ObjectStore then
    failAt fault .probeBucket
    let bucket := (← Prog.read).bucket
    if (bucket.get configPath).isSome || (bucket.get rootPath).isSome then
      syncS3RegistryStateToLocal fault
    else removeLocalRegistryMetadataCache

/-- Memory, Postgres or the served index has the release. -/
def releaseIsTaken (w : World) (package version : String) : Bool :=
  w.memory.hasPublishedRelease (registryReleaseKey package version) ||
  ((w.postgres.map fun s => (s.getRegistryPackageRelease package version).isSome).getD false) ||
  releaseExistsOnDisk w.root package version

/-- The state-store writes at the end of a publish. -/
def recordRelease (fault : Option Site) (actor : String) (draft : PublishDraft)
    (r : ReleaseRecord) (payload : PublishPayload) : Program Unit := do
  let package : RegistryPackageRecord :=
    { packageId := draft.package
      packageNamespace := String.ofList (draft.package.toList.takeWhile (· ≠ '/'))
      name := String.ofList ((draft.package.toList.dropWhile (· ≠ '/')).drop 1)
      createdAt := r.publishedAt, createdBy := draft.publisherId }
  let release : RegistryPackageReleaseRecord :=
    { packageId := draft.package, version := draft.version, manifestSha256 := r.manifestDigest
      sourceArtifactSha256 := r.sourceArtifact.sha256, dependencies := r.dependencies
      publisherId := draft.publisherId, publishedAt := r.publishedAt }
  let owner : RegistryPackageOwnerRecord :=
    { packageId := draft.package, ownerId := draft.publisherId, addedBy := actor
      addedAt := r.publishedAt }
  modifyMemory (·.recordPublishedRelease (registryReleaseKey draft.package draft.version) payload)
  execPostgres fault .package (·.upsertRegistryPackage package)
  execPostgres fault .release (·.upsertRegistryPackageRelease release)
  execPostgres fault .owner (·.addRegistryPackageOwner owner)
  modifyMemory fun m => ((m.upsertRegistryPackage package).upsertRegistryPackageRelease
    release).addRegistryPackageOwner owner

/-- The root is without `config.json` or `trust/root.json`. -/
def rootIsNew (t : Tree) : Bool := (t.get configPath).isNone || (t.get rootPath).isNone

/-- The body of the `try` block of `HandlePublishRelease`, after the check for duplicates. -/
def publishDraft (env : Environment) (cfg : PlatformConfig) (host : Host) (fault : Option Site)
    (actor : String) (draft : PublishDraft) : Program PublishPayload := do
  let createdRoot := rootIsNew (← rootTree)
  ensureRegistryRootInitialized env cfg host fault
  failAt fault .reloadKeys
  failAt fault .readArchive
  match archiveFile host (← rootTree) draft.archivePath with
  | none => Prog.fail (.error "failed to read file")
  | some archive =>
    let r := buildReleaseRecord env draft host.now archive
    let appended ← appendRegistryReleaseToLocal env fault archive r
    let versions ← refreshSignedRegistryMetadata env cfg host fault host.now
    let publication ← createRegistryPublication env cfg fault "publish"
      (registryReleaseKey draft.package draft.version) host.now
    onlyIf cfg.usesS3ObjectStore (uploadRegistryTreeToS3 fault)
    let payload : PublishPayload :=
      { registryReadRoot := cfg.readRootUrl, usesS3ObjectStore := cfg.usesS3ObjectStore
        createdRoot, package := draft.package, version := draft.version
        publisherId := draft.publisherId, publishedAt := host.now
        archiveSha256 := r.sourceArtifact.sha256
        archiveSizeBytes := r.sourceArtifact.sizeBytes
        artifactPath := r.sourceArtifact.path, indexPath := appended.indexPath
        logLeafPath := appended.logLeafPath, sequence := appended.sequence
        dependencies := draft.dependencies, devDependencies := draft.devDependencies
        checkpointVersion := versions.checkpointVersion
        snapshotVersion := versions.snapshotVersion
        timestampVersion := versions.timestampVersion, namespaces := versions.namespaces
        repositoryVersionId := publication.repositoryVersionId.getD ""
        publicationId := publication.publicationId }
    recordRelease fault actor draft r payload
    recordRegistryAudit fault
    pure payload

/-- The fields that a publish request may have, all of them non-empty strings. -/
def publishFields : List String :=
  ["archive_path", "manifest_path", "package", "output_path", "publisher_id", "version"]

def malformedPublish (detail : String) : HttpResponse :=
  failureResponse 400 "malformed registry publish request" detail "UsageError" "publishRelease" 2

/-- The `try` block of `HandlePublishRelease`. -/
def tryPublish (env : Environment) (cfg : PlatformConfig) (host : Host) (fault : Option Site)
    (actor : String) (draft : PublishDraft) : Program HttpResponse := do
  refreshFromObjectStore cfg fault
  let w ← Prog.read
  onlyIf (w.postgres.isSome) (failAt fault (.postgres .lookupRelease))
  if releaseIsTaken w draft.package draft.version then
    recordRegistryAudit fault
    return failureResponse 409 "registry publish failed" "package version is already published"
      "PublishError" "publishRelease"
  else
    let payload ← publishDraft env cfg host fault actor draft
    return successResponse "published registry v2 release" (.published payload)

/-- The `catch` block of a handler: record the failure and answer with it. -/
def answerFailure (fault : Option Site) (message operation : String) (e : Failure) :
    Program HttpResponse := do
  recordRegistryAudit fault
  return failureResponse 422 message e.what "PublishError" operation

/-- `HandlePublishRelease`. An error that leaves the handler means that no response is sent. -/
def handlePublishRelease (env : Environment) (cfg : PlatformConfig) (host : Host)
    (fault : Option Site) (request : HttpRequest) : Program HttpResponse :=
  match request.body with
  | none => pure (malformedPublish "request body must be a JSON object")
  | some fields =>
    match validateOptionalStringFields fields publishFields with
    | some detail => pure (malformedPublish detail)
    | none => do
      let draft ← Prog.handle (Except.ok <$> buildPublishDraft env host fault request fields)
        fun e => pure (.error e)
      match draft with
      | .error e => pure (malformedPublish e.what)
      | .ok draft =>
        if ← registryWriteAuthorized env host fault request "package:publish" draft.package then
          Prog.handle (tryPublish env cfg host fault (registryActorId env request) draft)
            (answerFailure fault "registry publish failed" "publishRelease")
        else
          recordRegistryAudit fault
          pure (failureResponse 403 "registry publish denied"
            "token or identity lacks package:publish" "AuthError" "publishRelease" 2)

/-- A record with its yank state changed. -/
def setYanked (yanked : Bool) (reason yankedAt : String) (r : ReleaseRecord) : ReleaseRecord :=
  { r with
    yanked := yanked
    yankedReason := some reason
    yankedAt := if yanked then some yankedAt else none }

/-- The loop over the records of a package: change those of the version. -/
def yankRecords (version : String) (yanked : Bool) (reason yankedAt : String)
    (records : List ReleaseRecord) : List ReleaseRecord :=
  records.map fun r => if r.version = version then setYanked yanked reason yankedAt r else r

/-- The artifact path of the last record of the version. -/
def yankedArtifactPath (version : String) (records : List ReleaseRecord) : Path :=
  ((records.filter (·.version = version)).getLast?.map (·.sourceArtifact.path)).getD []

/-- `request.body.value("reason", "")`, and no reason for an unyank. -/
def yankReason (fields : String → JsonField) (yanked : Bool) : String :=
  match yanked, fields "reason" with
  | true, .text reason => reason
  | _, _ => ""

def yankOperation (yanked : Bool) : String :=
  if yanked then "yankPackageRelease" else "unyankPackageRelease"

/-- The `try` block of `HandleSetPackageReleaseYanked`. -/
def tryYank (env : Environment) (cfg : PlatformConfig) (host : Host) (fault : Option Site)
    (package version : String) (yanked : Bool) (reason : String) : Program HttpResponse := do
  let records ← Prog.ofExcept (readPackageIndexRecords (← rootTree) package)
  if records.any (·.version = version) then
    writePackageIndexRecords package (yankRecords version yanked reason host.yankedAt records)
    failAt fault .loadKeys
    let versions ← refreshSignedRegistryMetadata env cfg host fault host.now
    let publication ← createRegistryPublication env cfg fault (if yanked then "yank" else "unyank")
      (registryReleaseKey package version) host.now
    execPostgres fault .yank (·.setRegistryPackageReleaseYanked package version yanked reason)
    modifyMemory (·.setRegistryPackageReleaseYanked package version yanked reason)
    recordRegistryAudit fault
    onlyIf cfg.usesS3ObjectStore (uploadRegistryTreeToS3 fault)
    let path := yankedArtifactPath version records
    return successResponse (if yanked then "yanked package release" else "unyanked package release")
      (.yanked
        { packageId := package, version, yanked, artifactPath := path
          artifactPreserved := ((← rootTree).get path).isSome
          checkpointVersion := versions.checkpointVersion
          snapshotVersion := versions.snapshotVersion
          timestampVersion := versions.timestampVersion
          repositoryVersionId := publication.repositoryVersionId.getD ""
          publicationId := publication.publicationId })
  else
    recordRegistryAudit fault
    return failureResponse 404 "package release mutation failed" "package release is not found"
      "NotFound" (yankOperation yanked)

def yankRejected (detail : String) (yanked : Bool) : HttpResponse :=
  failureResponse 400 "package release mutation rejected" detail "ValidationError"
    (yankOperation yanked) 2

/-- `HandleSetPackageReleaseYanked`; package and version come from the route. -/
def handleSetPackageReleaseYanked (env : Environment) (cfg : PlatformConfig) (host : Host)
    (fault : Option Site) (namespaceName name version : String) (request : HttpRequest)
    (yanked : Bool) : Program HttpResponse :=
  let package := namespaceName ++ "/" ++ name
  match validatePackageName package, request.body with
  | some detail, _ => pure (yankRejected detail yanked)
  | none, none => pure (yankRejected "request body must be an object" yanked)
  | none, some fields =>
    if fields "reason" = .other then
      pure (yankRejected "reason must be a string when present" yanked)
    else do
      if ← registryWriteAuthorized env host fault request "package:yank" package then
        Prog.handle
          (tryYank env cfg host fault package version yanked (yankReason fields yanked))
          (answerFailure fault "package release mutation failed" (yankOperation yanked))
      else
        recordRegistryAudit fault
        pure (failureResponse 403 "package release mutation denied"
          "token or identity lacks package:yank" "AuthError" (yankOperation yanked) 2)

/-- Write the pointer of a distribution and enter it into the state stores. -/
def pointDistribution (cfg : PlatformConfig) (fault : Option Site)
    (distributionId publicationId : String) (publication : Document)
    (previousPublicationId : Option String) (updatedAt : String) :
    Program DistributionPointer := do
  match publication.repositoryVersionId with
  | none => Prog.fail (.error "key 'repository_version_id' not found")
  | some repositoryVersionId =>
    let current : DistributionPointer :=
      { distributionId, publicationId, repositoryVersionId, updatedAt, previousPublicationId }
    failAt fault .writePointer
    writeTextFile (distributionPointerPath distributionId) (.json (.pointer current))
    let record : RegistryDistributionRecord :=
      { distributionId, repositoryId := publication.repositoryId, name := distributionId
        baseUrl := cfg.readRootUrl, currentPublicationId := publicationId
        previousPublicationId := previousPublicationId.getD "", updatedAt }
    execPostgres fault .distribution (·.upsertRegistryDistribution record)
    modifyMemory (·.upsertRegistryDistribution record)
    pure current

/-- Point a distribution to a publication, after putting it on the read plane when the
distribution is the default one. -/
def installPublication (cfg : PlatformConfig) (fault : Option Site)
    (distributionId publicationId : String) (publication : Document)
    (previousPublicationId : Option String) (updatedAt : String) :
    Program DistributionPointer := do
  onlyIf (distributionId = "default") (materializePublicationToRoot cfg fault publicationId)
  pointDistribution cfg fault distributionId publicationId publication previousPublicationId
    updatedAt

/-- The `try` block of `HandlePromoteDistribution`. -/
def tryPromote (cfg : PlatformConfig) (host : Host) (fault : Option Site)
    (distributionId publicationId : String) (f : File) : Program HttpResponse := do
  let publication ← Prog.ofExcept ((f.parse.map Except.ok).getD (.error parseError))
  failAt fault .readPointer
  let previous ← Prog.ofExcept (currentDistributionPointer (← rootTree) distributionId)
  let previousPublicationId := (previous.map Document.publicationId).getD ""
  let current ← installPublication cfg fault distributionId publicationId publication
    (if previousPublicationId = "" then none else some previousPublicationId) host.now
  recordRegistryAudit fault
  return successResponse "promoted distribution" (.pointer current)

/-- `HandlePromoteDistribution`; the distribution comes from the route. -/
def handlePromoteDistribution (env : Environment) (cfg : PlatformConfig) (host : Host)
    (fault : Option Site) (distributionId : String) (request : HttpRequest) :
    Program HttpResponse :=
  match request.body.bind (nonEmptyString · "publication_id") with
  | none => pure (failureResponse 400 "distribution promotion rejected"
      "publication_id is required" "ValidationError" "promoteDistribution" 2)
  | some publicationId => do
    if ← registryWriteAuthorized env host fault request "repository:promote" "" then
      match publicationFile cfg (← rootTree) publicationId with
      | none =>
        recordRegistryAudit fault
        pure (failureResponse 404 "distribution promotion failed" "publication is not found"
          "NotFound" "promoteDistribution")
      | some f =>
        Prog.handle (tryPromote cfg host fault distributionId publicationId f)
          (answerFailure fault "distribution promotion failed" "promoteDistribution")
    else
      recordRegistryAudit fault
      pure (failureResponse 403 "distribution promotion denied"
        "token or identity lacks repository:promote" "AuthError" "promoteDistribution" 2)

/-- The `try` block of `HandleRollbackDistribution`. -/
def tryRollback (cfg : PlatformConfig) (host : Host) (fault : Option Site)
    (distributionId publicationId : String) (pointer : Document) (f : File) :
    Program HttpResponse := do
  let publication ← Prog.ofExcept ((f.parse.map Except.ok).getD (.error parseError))
  let current ← installPublication cfg fault distributionId publicationId publication
    (some pointer.publicationId) host.now
  recordRegistryAudit fault
  return successResponse "rolled back distribution" (.pointer current)

/-- `HandleRollbackDistribution`. The pointer is read outside the `try` block. -/
def handleRollbackDistribution (env : Environment) (cfg : PlatformConfig) (host : Host)
    (fault : Option Site) (distributionId : String) (request : HttpRequest) :
    Program HttpResponse := do
  if ← registryWriteAuthorized env host fault request "repository:promote" "" then
    failAt fault .readPointer
    let pointer ← Prog.ofExcept (currentDistributionPointer (← rootTree) distributionId)
    let publicationId := (pointer.map Document.previousPublicationId).getD ""
    if publicationId = "" then
      recordRegistryAudit fault
      pure (failureResponse 409 "distribution rollback failed"
        "previous publication is not available" "StateError" "rollbackDistribution")
    else
      match publicationFile cfg (← rootTree) publicationId with
      | none =>
        recordRegistryAudit fault
        pure (failureResponse 404 "distribution rollback failed"
          "previous publication is not found" "NotFound" "rollbackDistribution")
      | some f =>
        Prog.handle
          (tryRollback cfg host fault distributionId publicationId
            (pointer.getD (.other "")) f)
          (answerFailure fault "distribution rollback failed" "rollbackDistribution")
  else
    recordRegistryAudit fault
    pure (failureResponse 403 "distribution rollback denied"
      "token or identity lacks repository:promote" "AuthError" "rollbackDistribution" 2)

end StyioPlatform.Registry
