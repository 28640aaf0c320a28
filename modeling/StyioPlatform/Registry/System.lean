import Mathlib.Logic.Relation
import StyioPlatform.Registry.Publication

/-! The registry as a system: requests, restarts and runs, and the rule that an invariant kept by
every stage of a request is kept by the handlers. -/
namespace StyioPlatform.Registry

open FileTree Prog

/-- The write requests of the registry. -/
inductive Request where
  | publishRelease (request : HttpRequest)
  | setYanked (namespaceName name version : String) (yanked : Bool) (request : HttpRequest)
  | promoteDistribution (distributionId : String) (request : HttpRequest)
  | rollbackDistribution (distributionId : String) (request : HttpRequest)

/-- The request makes a publication. -/
def Request.publishes : Request → Bool
  | .publishRelease _ => true
  | .setYanked .. => true
  | _ => false

def handleRequest (env : Environment) (cfg : PlatformConfig) (host : Host) (fault : Option Site) :
    Request → Program HttpResponse
  | .publishRelease request => handlePublishRelease env cfg host fault request
  | .setYanked namespaceName name version yanked request =>
    handleSetPackageReleaseYanked env cfg host fault namespaceName name version request yanked
  | .promoteDistribution distributionId request =>
    handlePromoteDistribution env cfg host fault distributionId request
  | .rollbackDistribution distributionId request =>
    handleRollbackDistribution env cfg host fault distributionId request

/-- The request was answered with 200, and the node is then in `w'`. -/
def Succeeds (env : Environment) (cfg : PlatformConfig) (host : Host) (request : Request)
    (w w' : World) : Prop :=
  ∃ r, handleRequest env cfg host none request w = (.ok r, w') ∧ r.status = 200

/-- One request that was answered with 200. -/
def SuccessStep (env : Environment) (cfg : PlatformConfig) (w w' : World) : Prop :=
  ∃ host request, Succeeds env cfg host request w w'

/-- The status of an answer, 0 when none is sent. -/
def answerStatus : Except Failure HttpResponse → ℕ
  | .ok r => r.status
  | .error _ => 0

/-- The node after the requests were handled in turn. -/
def serve (env : Environment) (cfg : PlatformConfig) (host : Host) : List Request → World → World
  | [], w => w
  | r :: rest, w => serve env cfg host rest (handleRequest env cfg host none r w).2

/-- Each of the requests is answered with 200. -/
def accepts (env : Environment) (cfg : PlatformConfig) (host : Host) :
    List Request → World → Bool
  | [], _ => true
  | r :: rest, w =>
    let result := handleRequest env cfg host none r w
    answerStatus result.1 == 200 && accepts env cfg host rest result.2

theorem succeeds_of_answerStatus {env : Environment} {cfg : PlatformConfig} {host : Host}
    {r : Request} {w : World}
    (h : answerStatus (handleRequest env cfg host none r w).1 = 200) :
    Succeeds env cfg host r w (handleRequest env cfg host none r w).2 := by
  rcases hrun : handleRequest env cfg host none r w with ⟨_ | a, w'⟩
  · rw [hrun] at h
    cases h
  · rw [hrun] at h
    exact ⟨a, hrun, h⟩

/-- Accepted requests make a run. -/
theorem reflTransGen_of_accepts {env : Environment} {cfg : PlatformConfig} {host : Host}
    {l : List Request} {w : World} (h : accepts env cfg host l w = true) :
    Relation.ReflTransGen (SuccessStep env cfg) w (serve env cfg host l w) := by
  induction l generalizing w with
  | nil => exact .refl
  | cons r l ih =>
    rw [accepts, Bool.and_eq_true, beq_iff_eq] at h
    exact .head ⟨host, r, succeeds_of_answerStatus h.1⟩ (ih h.2)

/-- A new registry: an empty root, and no release or repository version in the stores. Tokens
and owners may be there. -/
structure Initial (w : World) : Prop where
  root : w.root = .empty
  written : w.written = []
  publishedReleases : w.memory.publishedReleases = []
  repositoryVersions : w.memory.repositoryVersions = []
  postgres : ∀ s ∈ w.postgres, s.releases = [] ∧ s.repositoryVersions = []

/-- One step of a node that may fail: a request that can break off anywhere, or a restart. -/
inductive Step (env : Environment) (cfg : PlatformConfig) (w : World) : World → Prop where
  | request (host : Host) (fault : Option Site) (r : Request) :
      Step env cfg w (handleRequest env cfg host fault r w).2
  | restart : Step env cfg w w.restart

variable {env : Environment} {cfg : PlatformConfig} {host : Host} {fault : Option Site}
  {I : World → Prop}

/-- The invariant does not depend on the files of `S`. -/
def StableUnder (S : Path → Prop) (I : World → Prop) : Prop :=
  ∀ w w', OnlyChanges S w w' → I w → I w'

theorem Changes.keeps_of_stable {α : Type} {S : Path → Prop} {x : Program α} (h : Changes S x)
    (hI : StableUnder S I) : Keeps I x := fun w hw => hI w _ (h w) hw

theorem keeps_failAt {site : Site} : Keeps I (failAt fault site) := by
  intro w hw
  unfold failAt
  split <;> exact hw

theorem keeps_audit : Keeps I (recordRegistryAudit fault) := keeps_failAt

theorem keeps_rootTree : Keeps I rootTree := fun _ h => h

theorem keeps_onlyIf {c : Prop} [Decidable c] {x : Program Unit} (h : c → Keeps I x) :
    Keeps I (onlyIf c x) := by
  unfold onlyIf
  split
  · next hc => exact h hc
  · exact keeps_pure

theorem keeps_require {c : Prop} [Decidable c] {detail : String} : Keeps I (require c detail) :=
  keeps_ite keeps_pure keeps_fail

theorem keeps_authorized {request : HttpRequest} {scope packageId : String} :
    Keeps I (registryWriteAuthorized env host fault request scope packageId) :=
  keeps_bind keeps_failAt fun _ => keeps_bind keeps_read fun _ => keeps_pure

theorem keeps_answerFailure {message operation : String} {e : Failure} :
    Keeps I (answerFailure fault message operation e) := keeps_bind keeps_audit fun _ => keeps_pure

/-- The stages of a publish after the check for duplicates. -/
theorem keeps_publishDraft {actor : String} {draft : PublishDraft}
    (hensure : Keeps I (ensureRegistryRootInitialized env cfg host fault))
    (happend : ∀ archive,
      Keeps I (appendRegistryReleaseToLocal env fault archive
        (buildReleaseRecord env draft host.now archive)))
    (hrefresh : Keeps I (refreshSignedRegistryMetadata env cfg host fault host.now))
    (hcreate : Keeps I (createRegistryPublication env cfg fault "publish"
      (registryReleaseKey draft.package draft.version) host.now))
    (hupload : cfg.usesS3ObjectStore = true → Keeps I (uploadRegistryTreeToS3 fault))
    (hrecord : ∀ r payload, Keeps I (recordRelease fault actor draft r payload)) :
    Keeps I (publishDraft env cfg host fault actor draft) := by
  refine keeps_bind keeps_rootTree fun _ => keeps_bind hensure fun _ =>
    keeps_bind keeps_failAt fun _ => keeps_bind keeps_failAt fun _ =>
    keeps_bind keeps_rootTree fun t => ?_
  cases archiveFile host t draft.archivePath with
  | none => exact keeps_fail
  | some archive =>
    exact keeps_bind (happend archive) fun _ => keeps_bind hrefresh fun _ =>
      keeps_bind hcreate fun _ => keeps_bind (keeps_onlyIf hupload) fun _ =>
      keeps_bind (hrecord _ _) fun _ => keeps_bind keeps_audit fun _ => keeps_pure

theorem keeps_tryPublish {actor : String} {draft : PublishDraft}
    (hsync : Keeps I (refreshFromObjectStore cfg fault))
    (hpublish : Keeps I (publishDraft env cfg host fault actor draft)) :
    Keeps I (tryPublish env cfg host fault actor draft) := by
  refine keeps_bind hsync fun _ => keeps_bind keeps_read fun w =>
    keeps_bind (keeps_onlyIf fun _ => keeps_failAt) fun _ => ?_
  exact keeps_ite (keeps_bind keeps_audit fun _ => keeps_pure)
    (keeps_bind hpublish fun _ => keeps_pure)

theorem keeps_handlePublishRelease {request : HttpRequest}
    (hdraft : ∀ fields, Keeps I (buildPublishDraft env host fault request fields))
    (htry : ∀ actor draft, Keeps I (tryPublish env cfg host fault actor draft)) :
    Keeps I (handlePublishRelease env cfg host fault request) := by
  unfold handlePublishRelease
  cases request.body with
  | none => exact keeps_pure
  | some fields =>
    dsimp only
    cases validateOptionalStringFields fields publishFields with
    | some detail => exact keeps_pure
    | none =>
      refine keeps_bind (keeps_handle (keeps_bind (hdraft fields) fun _ => keeps_pure)
        fun _ => keeps_pure) fun draft => ?_
      cases draft with
      | error e => exact keeps_pure
      | ok draft =>
        exact keeps_bind keeps_authorized fun _ => keeps_ite
          (keeps_handle (htry _ draft) fun _ => keeps_answerFailure)
          (keeps_bind keeps_audit fun _ => keeps_pure)

/-- A yank, with what is known of the index file that it rewrites. -/
theorem keeps_tryYank_of_read {package version : String} {yanked : Bool} {reason : String}
    (hwrite : ∀ w records, I w → readPackageIndexRecords w.root package = .ok records →
      records.any (·.version = version) = true →
      I (w.write (registryIndexPathForPackage package)
        (.jsonl (yankRecords version yanked reason host.yankedAt records))))
    (hrefresh : Keeps I (refreshSignedRegistryMetadata env cfg host fault host.now))
    (hcreate : ∀ kind, Keeps I (createRegistryPublication env cfg fault kind
      (registryReleaseKey package version) host.now))
    (hpostgres : Keeps I (execPostgres fault .yank
      (·.setRegistryPackageReleaseYanked package version yanked reason)))
    (hmemory : Keeps I (modifyMemory
      (·.setRegistryPackageReleaseYanked package version yanked reason)))
    (hupload : cfg.usesS3ObjectStore = true → Keeps I (uploadRegistryTreeToS3 fault)) :
    Keeps I (tryYank env cfg host fault package version yanked reason) := by
  rw [keeps_iff]
  intro w hw
  rw [tryYank, wp_bind, wp_rootTree, wp_bind, wp_ofExcept]
  refine ⟨fun records hread => ?_, fun _ _ => hw⟩
  rw [wp_ite]
  refine ⟨fun hfound => ?_, fun _ => (keeps_bind keeps_audit fun _ => keeps_pure).wp hw⟩
  rw [wp_bind, writePackageIndexRecords, wp_writeTextFile]
  refine Keeps.wp ?_ (hwrite w records hw hread hfound)
  exact keeps_bind keeps_failAt fun _ => keeps_bind hrefresh fun _ =>
    keeps_bind (hcreate _) fun _ => keeps_bind hpostgres fun _ => keeps_bind hmemory fun _ =>
    keeps_bind keeps_audit fun _ => keeps_bind (keeps_onlyIf hupload) fun _ =>
    keeps_bind keeps_rootTree fun _ => keeps_pure

theorem keeps_tryYank {package version : String} {yanked : Bool} {reason : String}
    (hwrite : ∀ records, Keeps I (writePackageIndexRecords package records))
    (hrefresh : Keeps I (refreshSignedRegistryMetadata env cfg host fault host.now))
    (hcreate : ∀ kind, Keeps I (createRegistryPublication env cfg fault kind
      (registryReleaseKey package version) host.now))
    (hpostgres : Keeps I (execPostgres fault .yank
      (·.setRegistryPackageReleaseYanked package version yanked reason)))
    (hmemory : Keeps I (modifyMemory
      (·.setRegistryPackageReleaseYanked package version yanked reason)))
    (hupload : cfg.usesS3ObjectStore = true → Keeps I (uploadRegistryTreeToS3 fault)) :
    Keeps I (tryYank env cfg host fault package version yanked reason) :=
  keeps_tryYank_of_read (fun w _ hw _ _ => hwrite _ w hw) hrefresh hcreate hpostgres hmemory hupload

theorem keeps_handleSetPackageReleaseYanked {namespaceName name version : String}
    {request : HttpRequest} {yanked : Bool}
    (htry : ∀ reason, Keeps I
      (tryYank env cfg host fault (namespaceName ++ "/" ++ name) version yanked reason)) :
    Keeps I (handleSetPackageReleaseYanked env cfg host fault namespaceName name version request
      yanked) := by
  unfold handleSetPackageReleaseYanked
  dsimp only
  split
  · exact keeps_pure
  · exact keeps_pure
  · exact keeps_ite keeps_pure (keeps_bind keeps_authorized fun _ => keeps_ite
      (keeps_handle (htry _) fun _ => keeps_answerFailure)
      (keeps_bind keeps_audit fun _ => keeps_pure))

theorem keeps_handlePromoteDistribution {distributionId : String} {request : HttpRequest}
    (hinstall : ∀ publicationId publication previous, Keeps I
      (installPublication cfg fault distributionId publicationId publication previous host.now)) :
    Keeps I (handlePromoteDistribution env cfg host fault distributionId request) := by
  unfold handlePromoteDistribution
  cases request.body.bind (nonEmptyString · "publication_id") with
  | none => exact keeps_pure
  | some publicationId =>
    refine keeps_bind keeps_authorized fun _ => keeps_ite (keeps_bind keeps_rootTree fun t => ?_)
      (keeps_bind keeps_audit fun _ => keeps_pure)
    cases publicationFile cfg t publicationId with
    | none => exact keeps_bind keeps_audit fun _ => keeps_pure
    | some f =>
      refine keeps_handle ?_ fun _ => keeps_answerFailure
      exact keeps_bind keeps_ofExcept fun _ => keeps_bind keeps_failAt fun _ =>
        keeps_bind keeps_rootTree fun _ => keeps_bind keeps_ofExcept fun _ =>
        keeps_bind (hinstall _ _ _) fun _ => keeps_bind keeps_audit fun _ => keeps_pure

theorem keeps_handleRollbackDistribution {distributionId : String} {request : HttpRequest}
    (hinstall : ∀ publicationId publication previous, Keeps I
      (installPublication cfg fault distributionId publicationId publication previous host.now)) :
    Keeps I (handleRollbackDistribution env cfg host fault distributionId request) := by
  refine keeps_bind keeps_authorized fun _ => keeps_ite (keeps_bind keeps_failAt fun _ =>
    keeps_bind keeps_rootTree fun _ => keeps_bind keeps_ofExcept fun pointer => ?_)
    (keeps_bind keeps_audit fun _ => keeps_pure)
  refine keeps_ite (keeps_bind keeps_audit fun _ => keeps_pure)
    (keeps_bind keeps_rootTree fun t => ?_)
  cases publicationFile cfg t ((pointer.map Document.previousPublicationId).getD "") with
  | none => exact keeps_bind keeps_audit fun _ => keeps_pure
  | some f =>
    refine keeps_handle ?_ fun _ => keeps_answerFailure
    exact keeps_bind keeps_ofExcept fun _ => keeps_bind (hinstall _ _ _) fun _ =>
      keeps_bind keeps_audit fun _ => keeps_pure

/-- A small environment to run requests in: the digest keeps the first bytes of its input, and the
canonical text of a record shows whether it is yanked. -/
def sampleEnvironment : Environment where
  sha256 bytes := (bytes ++ List.replicate 32 0).take 32
  canonicalJson
    | .record r => [if r.yanked then 1 else 0]
    | .leaf l => [.ofNat l.sequence]
    | _ => []
  jsonText _ := []
  sign _ _ := "signature"
  verifySignature _ _ sig := sig == "signature"
  loadManifest _ := .error "no manifest"

def sampleKeys : RegistryKeyDirectory where
  key role := { role, keyid := "key", privateKeyPem := "private", publicKeyPem := "public" }
  publicKeyPem_eq _ _ _ := rfl

def sampleConfig : PlatformConfig where
  registryRoot := ["srv", "registry"]
  registryName := "sample"
  readRootUrl := "https://registry"
  keys := sampleKeys

/-- Every path of the host is a file that holds its own name. -/
def sampleHost : Host where
  registryTime := "2026-01-01"
  now := "2026-01-01"
  yankedAt := "2026-01-02"
  authorizedAt := "2026-01-01"
  expires _ := "2027-01-01"
  files path := some path.toUTF8.toList

def sampleStart : World := { root := .empty }

theorem sampleStart_initial : Initial sampleStart := ⟨rfl, rfl, rfl, rfl, nofun⟩

/-- A request of an operator with the given fields. -/
def operatorRequest (fields : List (String × String)) : HttpRequest where
  identity := some { role := "operator", nodeId := "node" }
  body := some fun field => ((getKey fields field).map JsonField.text).getD .absent

def publishOf (package version archive : String) : Request :=
  .publishRelease (operatorRequest
    [("package", package), ("version", version), ("archive_path", archive)])

def yankOf (namespaceName name version : String) : Request :=
  .setYanked namespaceName name version true (operatorRequest [])

def promoteOf (publicationId : String) : Request :=
  .promoteDistribution "default" (operatorRequest [("publication_id", publicationId)])

def rollbackOf : Request := .rollbackDistribution "default" (operatorRequest [])

/-- The sample registry after the requests. -/
def sampleAfter (requests : List Request) : World :=
  serve sampleEnvironment sampleConfig sampleHost requests sampleStart

end StyioPlatform.Registry
