import StyioPlatform.Registry.Install

/-! What a request that was answered with 200 has done, and that an operator's request is
answered so where nothing blocks it. -/
namespace StyioPlatform.Registry

open FileTree Prog

variable {env : Environment} {cfg : PlatformConfig} {host : Host} {fault : Option Site}
  {w w' : World} {n : ℕ}

/-- A draft: a valid package name, a version, and an archive that can be read. The archive may
have been staged in the tree. -/
structure Drafted (env : Environment) (host : Host) (w : World) (draft : PublishDraft)
    (w₀ : World) : Prop where
  validName : validatePackageName draft.package = none
  version_ne : draft.version ≠ ""
  archive : (archiveFile host w₀.root draft.archivePath).isSome
  staged : w₀ = w ∨
    ∃ f, w₀ = w.write (stagingPath draft.package draft.version) f ∧
      draft.archivePath = .staged (stagingPath draft.package draft.version)

theorem draftIdentity_ok {fields : String → JsonField} {identity : ManifestPackage}
    (h : draftIdentity env fields = .ok identity) :
    validatePackageName identity.name = none ∧ identity.version ≠ "" := by
  unfold draftIdentity checkIdentity at h
  split at h
  · cases h
  · split at h
    · cases h
    · split at h
      · cases h
      · next hversion =>
        split at h
        · cases h
        · next hname =>
          cases h
          exact ⟨hname, hversion⟩

/-- Where the archive of a draft lies, if it can be read. -/
def draftArchivePath (host : Host) (identity : ManifestPackage) (fields : String → JsonField) :
    Option ArchivePath :=
  match nonEmptyString fields "archive_path" with
  | some path => if (host.files path).isSome then some (.host path) else none
  | none => some (.staged (stagingPath identity.name identity.version))

/-- The draft that a request leads to; `none` where it is malformed or cannot be built. -/
def draftOf (env : Environment) (host : Host) (fault : Option Site) (request : HttpRequest) :
    Option PublishDraft :=
  request.body.bind fun fields =>
    match validateOptionalStringFields fields publishFields, draftIdentity env fields with
    | none, .ok identity =>
      if fault = some .draft then none
      else (draftArchivePath host identity fields).map fun archivePath =>
        { package := identity.name, version := identity.version
          publisherId := draftPublisherId request fields, archivePath
          dependencies := identity.dependencies, devDependencies := identity.devDependencies }
    | _, _ => none

/-- The node with the archive of a draft staged. -/
def stagedWorld (draft : PublishDraft) (w : World) : World :=
  match draft.archivePath with
  | .host _ => w
  | .staged path => w.write path (.json (.staged draft.package draft.version draft.publisherId))

theorem drafted_of_draftOf {request : HttpRequest} {draft : PublishDraft}
    (h : draftOf env host fault request = some draft) :
    Drafted env host w draft (stagedWorld draft w) := by
  obtain ⟨fields, -, h⟩ := Option.bind_eq_some_iff.mp h
  split at h
  · next identity _ hidentity =>
    split at h
    · cases h
    · obtain ⟨archivePath, hpath, rfl⟩ := Option.map_eq_some_iff.mp h
      obtain ⟨hname, hversion⟩ := draftIdentity_ok hidentity
      unfold draftArchivePath at hpath
      split at hpath
      · split at hpath
        · next hfile =>
          cases hpath
          exact ⟨hname, hversion, by simpa [archiveFile] using hfile, Or.inl rfl⟩
        · cases hpath
      · cases hpath
        exact ⟨hname, hversion, by simp [archiveFile, stagedWorld], Or.inr ⟨_, rfl, rfl⟩⟩
  · cases h

theorem wp_buildPublishDraft {request : HttpRequest} {fields : String → JsonField}
    {Q : PublishDraft → World → Prop} {E : Failure → World → Prop}
    (hbody : request.body = some fields)
    (hvalid : validateOptionalStringFields fields publishFields = none)
    (hQ : ∀ draft, draftOf env host fault request = some draft → Q draft (stagedWorld draft w))
    (hE : draftOf env host fault request = none → ∀ e, E e w) :
    wp (buildPublishDraft env host fault request fields) Q E w := by
  rw [buildPublishDraft, wp_bind, wp_ofExcept]
  refine ⟨fun identity hidentity => ?_, fun e he => hE ?_ e⟩
  swap
  · simp [draftOf, hbody, hvalid, he]
  rw [wp_bind, wp_failAt]
  refine ⟨fun hf => hE ?_ _, fun hf => ?_⟩
  · simp [draftOf, hbody, hvalid, hidentity, hf]
  dsimp only
  have hdraft : draftOf env host fault request =
      (draftArchivePath host identity fields).map fun archivePath =>
        { package := identity.name, version := identity.version
          publisherId := draftPublisherId request fields, archivePath
          dependencies := identity.dependencies, devDependencies := identity.devDependencies } := by
    simp [draftOf, hbody, hvalid, hidentity, hf]
  cases hpath : nonEmptyString fields "archive_path" with
  | some path =>
    rw [wp_ite]
    refine ⟨fun hfile => hQ _ ?_, fun hfile => hE ?_ _⟩
    · rw [hdraft, draftArchivePath, hpath]
      simp [hfile]
    · rw [hdraft, draftArchivePath, hpath]
      simp [hfile]
  | none =>
    rw [wp_bind, wp_writeTextFile, wp_pure]
    refine hQ ⟨_, _, _, .staged _, _, _⟩ ?_
    rw [hdraft, draftArchivePath, hpath]
    rfl

/-- The client may write: `RegistryWriteAuthorized` as it answers in a state. -/
def authorized (env : Environment) (host : Host) (w : World) (request : HttpRequest)
    (scope packageId : String) : Bool :=
  (request.identity.map (identityAuthorized w · scope packageId)).getD false ||
    tokenAuthorized env host w request.headers scope packageId

theorem wp_authorized {request : HttpRequest} {scope packageId : String}
    {Q : Bool → World → Prop} {E : Failure → World → Prop}
    (hQ : fault ≠ some .authorize → Q (authorized env host w request scope packageId) w)
    (hE : fault = some .authorize → E (.fault .authorize) w) :
    wp (registryWriteAuthorized env host fault request scope packageId) Q E w := by
  rw [registryWriteAuthorized, wp_bind, wp_failAt]
  exact ⟨hE, hQ⟩

/-- A request that fails is not answered with 200. -/
theorem wp_answerFailure {message operation : String} {e : Failure}
    {Q : HttpResponse → World → Prop} {E : Failure → World → Prop}
    (hQ : ∀ r, r.status = 422 → Q r w) (hE : fault = some .audit → E (.fault .audit) w) :
    wp (answerFailure fault message operation e) Q E w := by
  rw [answerFailure, wp_bind, recordRegistryAudit, wp_failAt]
  exact ⟨hE, fun _ => hQ _ rfl⟩

theorem wp_audit {Q : Unit → World → Prop} {E : Failure → World → Prop} (hQ : Q () w)
    (hE : fault = some .audit → E (.fault .audit) w) : wp (recordRegistryAudit fault) Q E w := by
  rw [recordRegistryAudit, wp_failAt]
  exact ⟨hE, fun _ => hQ⟩

theorem refreshFromObjectStore_local (hlocal : cfg.usesS3ObjectStore = false) :
    refreshFromObjectStore cfg fault = pure () := by
  simp [refreshFromObjectStore, hlocal]

theorem authorized_stagedWorld {draft : PublishDraft} {request : HttpRequest}
    {scope packageId : String} :
    authorized env host (stagedWorld draft w) request scope packageId =
      authorized env host w request scope packageId := by
  unfold stagedWorld
  split <;> rfl

/-- The ways through a publish: it is rejected, denied, or tried with a draft. -/
theorem wp_handlePublishRelease {request : HttpRequest} {Q : HttpResponse → World → Prop}
    {E : Failure → World → Prop}
    (hrejected : draftOf env host fault request = none → ∀ r, r.status = 400 → Q r w)
    (hauthorize : ∀ draft, draftOf env host fault request = some draft →
      fault = some .authorize → E (.fault .authorize) (stagedWorld draft w))
    (hdenied : ∀ draft, draftOf env host fault request = some draft →
      authorized env host w request "package:publish" draft.package = false →
      (∀ r, r.status = 403 → Q r (stagedWorld draft w)) ∧
      (fault = some .audit → E (.fault .audit) (stagedWorld draft w)))
    (htry : ∀ draft, draftOf env host fault request = some draft → fault ≠ some .authorize →
      authorized env host w request "package:publish" draft.package = true →
      wp (tryPublish env cfg host fault (registryActorId env request) draft) Q
        (fun _ w₁ => (∀ r, r.status = 422 → Q r w₁) ∧
          (fault = some .audit → E (.fault .audit) w₁)) (stagedWorld draft w)) :
    wp (handlePublishRelease env cfg host fault request) Q E w := by
  unfold handlePublishRelease
  cases hbody : request.body with
  | none => exact hrejected (by simp [draftOf, hbody]) _ rfl
  | some fields =>
    dsimp only
    cases hvalid : validateOptionalStringFields fields publishFields with
    | some detail => exact hrejected (by simp [draftOf, hbody, hvalid]) _ rfl
    | none =>
      rw [wp_bind, wp_handle]
      change wp (buildPublishDraft env host fault request fields >>= _) _ _ _
      rw [wp_bind]
      refine wp_buildPublishDraft hbody hvalid (fun draft hdraft => ?_)
        fun hnone e => hrejected hnone _ rfl
      change wp (registryWriteAuthorized env host fault request "package:publish" draft.package >>=
        _) _ _ _
      rw [wp_bind]
      refine wp_authorized (fun hf => ?_) (hauthorize draft hdraft)
      rw [wp_ite, authorized_stagedWorld]
      refine ⟨fun hauth => ?_, fun hauth => ?_⟩
      · rw [wp_handle]
        exact wp_mono (htry draft hdraft hf hauth) (fun _ _ h => h)
          fun _ _ h => wp_answerFailure h.1 h.2
      · obtain ⟨hQ, hE⟩ := hdenied draft hdraft (by simpa using hauth)
        rw [wp_bind]
        exact wp_audit (hQ _ rfl) hE

/-- The ways through the `try` block: the release is taken, or it is published. -/
theorem wp_tryPublish {actor : String} {draft : PublishDraft} {Q : HttpResponse → World → Prop}
    {E : Failure → World → Prop}
    (hsync : wp (refreshFromObjectStore cfg fault) (fun _ w₁ =>
      (fault = some (.postgres .lookupRelease) → w₁.postgres.isSome →
        E (.fault (.postgres .lookupRelease)) w₁) ∧
      (releaseIsTaken w₁ draft.package draft.version = true →
        (∀ r, r.status = 409 → Q r w₁) ∧ (fault = some .audit → E (.fault .audit) w₁)) ∧
      (releaseIsTaken w₁ draft.package draft.version = false →
        ¬ (w₁.postgres.isSome ∧ fault = some (.postgres .lookupRelease)) →
        wp (publishDraft env cfg host fault actor draft)
          (fun payload w' => Q (successResponse "published registry v2 release"
            (.published payload)) w') E w₁)) E w) :
    wp (tryPublish env cfg host fault actor draft) Q E w := by
  rw [tryPublish, wp_bind]
  refine wp_mono hsync ?_ fun _ _ h => h
  rintro _ w₁ ⟨hpostgres, htaken, hpublish⟩
  rw [wp_bind, wp_read, wp_bind, wp_onlyIf, wp_failAt]
  have hrest : ¬ (w₁.postgres.isSome ∧ fault = some (.postgres .lookupRelease)) →
      wp (if releaseIsTaken w₁ draft.package draft.version = true then do
        recordRegistryAudit fault
        return failureResponse 409 "registry publish failed"
          "package version is already published" "PublishError" "publishRelease"
      else do
        let payload ← publishDraft env cfg host fault actor draft
        return successResponse "published registry v2 release" (.published payload)) Q E w₁ := by
    intro hlookup
    rw [wp_ite]
    refine ⟨fun h => ?_, fun h => ?_⟩
    · rw [wp_bind]
      exact wp_audit ((htaken h).1 _ rfl) (htaken h).2
    · rw [wp_bind]
      exact wp_mono (hpublish (by simpa using h) hlookup) (fun _ _ h => h) fun _ _ h => h
  exact ⟨fun hp => ⟨fun hf => hpostgres hf hp, fun hf => hrest fun h => hf h.2⟩,
    fun hp => hrest fun h => hp h.1⟩

theorem Drafted.changes {draft : PublishDraft} {w₀ : World} (h : Drafted env host w draft w₀) :
    OnlyChanges InStaging w w₀ := by
  rcases h.staged with rfl | ⟨f, rfl, -⟩
  · exact .refl
  · exact OnlyChanges.refl.write rfl

theorem Drafted.numbered {draft : PublishDraft} {w₀ : World} (h : Drafted env host w draft w₀)
    (hn : Numbered w n) : Numbered w₀ n := by
  refine hn.of_agreeing h.changes fun p hp => ?_
  rw [show p.head? = _ from hp]
  simp

/-- A publish that was answered with 200 has published a release that was free. -/
theorem publish_succeeded {request : HttpRequest} (hlocal : cfg.usesS3ObjectStore = false)
    (hn : Numbered w n) (h : Succeeds env cfg host (.publishRelease request) w w') :
    ∃ draft w₀, Drafted env host w draft w₀ ∧
      releaseIsTaken w₀ draft.package draft.version = false ∧
      ReleasePublished env cfg host draft n w₀ w' := by
  obtain ⟨r, hrun, hr⟩ := h
  have hwp : wp (handlePublishRelease env cfg host none request)
      (fun r w' => r.status = 200 → ∃ draft w₀, Drafted env host w draft w₀ ∧
        releaseIsTaken w₀ draft.package draft.version = false ∧
        ReleasePublished env cfg host draft n w₀ w') (fun _ _ => True) w := by
    refine wp_handlePublishRelease (fun _ r hr h => by omega) (fun _ _ _ => trivial)
      (fun _ _ _ => ⟨fun r hr h => by omega, fun _ => trivial⟩) fun draft hdraft _ _ => ?_
    have hdrafted := drafted_of_draftOf (w := w) hdraft
    refine wp_tryPublish ?_
    rw [refreshFromObjectStore_local hlocal, wp_pure]
    refine ⟨nofun, fun _ => ⟨fun r hr h => by omega, nofun⟩, fun htaken _ => ?_⟩
    refine wp_mono (wp_publishDraft hlocal (hdrafted.numbered hn))
      (fun _ w₁ h _ => ⟨draft, _, hdrafted, htaken, h⟩)
      fun _ _ _ => ⟨fun r hr h => by omega, fun _ => trivial⟩
  exact hwp.of_ok hrun hr

/-- The ways through a yank: it is rejected, denied, or tried. -/
theorem wp_handleSetPackageReleaseYanked {namespaceName name version : String} {yanked : Bool}
    {request : HttpRequest} {Q : HttpResponse → World → Prop} {E : Failure → World → Prop}
    (hrejected : ∀ r, r.status = 400 ∨ r.status = 403 → Q r w)
    (hauthorize : fault = some .authorize → E (.fault .authorize) w)
    (haudit : fault = some .audit → E (.fault .audit) w)
    (htry : ∀ reason, validatePackageName (namespaceName ++ "/" ++ name) = none →
      wp (tryYank env cfg host fault (namespaceName ++ "/" ++ name) version yanked reason) Q
        (fun _ w₁ => (∀ r, r.status = 422 → Q r w₁) ∧
          (fault = some .audit → E (.fault .audit) w₁)) w) :
    wp (handleSetPackageReleaseYanked env cfg host fault namespaceName name version request yanked)
      Q E w := by
  unfold handleSetPackageReleaseYanked
  dsimp only
  split
  · exact hrejected _ (Or.inl rfl)
  · exact hrejected _ (Or.inl rfl)
  · next hname _ =>
    rw [wp_ite]
    refine ⟨fun _ => hrejected _ (Or.inl rfl), fun _ => ?_⟩
    rw [wp_bind]
    refine wp_authorized (fun _ => ?_) hauthorize
    rw [wp_ite]
    refine ⟨fun _ => ?_, fun _ => ?_⟩
    · rw [wp_handle]
      exact wp_mono (htry _ hname) (fun _ _ h => h) fun _ _ h => wp_answerFailure h.1 h.2
    · rw [wp_bind]
      exact wp_audit (hrejected _ (Or.inr rfl)) haudit

/-- A yank that was answered with 200 has rewritten the records of a listed release. -/
theorem yank_succeeded {namespaceName name version : String} {yanked : Bool}
    {request : HttpRequest} (hlocal : cfg.usesS3ObjectStore = false) (hn : Numbered w n)
    (h : Succeeds env cfg host (.setYanked namespaceName name version yanked request) w w') :
    validatePackageName (namespaceName ++ "/" ++ name) = none ∧ ∃ reason,
      ReleaseYanked env cfg host (namespaceName ++ "/" ++ name) version yanked reason n w w' := by
  obtain ⟨r, hrun, hr⟩ := h
  have hwp : wp (handleSetPackageReleaseYanked env cfg host none namespaceName name version request
      yanked) (fun r w' => r.status = 200 →
        validatePackageName (namespaceName ++ "/" ++ name) = none ∧ ∃ reason,
          ReleaseYanked env cfg host (namespaceName ++ "/" ++ name) version yanked reason n w w')
      (fun _ _ => True) w := by
    refine wp_handleSetPackageReleaseYanked (fun r hr h => by omega) (fun _ => trivial)
      (fun _ => trivial) fun reason hname => ?_
    refine wp_mono (wp_tryYank hlocal hn) ?_ fun _ _ _ =>
      ⟨fun r hr h => by omega, fun _ => trivial⟩
    rintro r w₁ (⟨-, hyanked⟩ | ⟨hr, -⟩) h
    · exact ⟨hname, reason, hyanked⟩
    · omega
  exact hwp.of_ok hrun hr

/-- The publication that a promote asks for. -/
def requestedPublication (request : HttpRequest) : Option String :=
  request.body.bind (nonEmptyString · "publication_id")

/-- `previous_publication_id` of a promote: the current one, if there is one. -/
def promotePrevious (pointer : Option Document) : Option String :=
  let previousPublicationId := (pointer.map Document.publicationId).getD ""
  if previousPublicationId = "" then none else some previousPublicationId

/-- What a promote or rollback installs, when it gets so far. -/
structure InstallTarget where
  distributionId : String
  publicationId : String
  publication : Document
  previous : Option String

/-- The request is authorised to promote, and the pointer can be read. -/
def mayInstall (env : Environment) (host : Host) (fault : Option Site) (w : World)
    (request : HttpRequest) : Prop :=
  fault ≠ some .authorize ∧ fault ≠ some .readPointer ∧
    authorized env host w request "repository:promote" "" = true

instance {request : HttpRequest} : Decidable (mayInstall env host fault w request) :=
  inferInstanceAs (Decidable (_ ∧ _ ∧ _))

/-- The manifest of a publication that can be found and read. -/
def publicationManifestOf (cfg : PlatformConfig) (t : Tree) (publicationId : String) :
    Option Document := (publicationFile cfg t publicationId).bind File.parse

/-- The target of a promote: the publication that the body names. -/
def promoteTarget (cfg : PlatformConfig) (t : Tree) (distributionId : String)
    (request : HttpRequest) : Option InstallTarget :=
  (requestedPublication request).bind fun publicationId =>
    (publicationManifestOf cfg t publicationId).bind fun publication =>
      match currentDistributionPointer t distributionId with
      | .ok pointer =>
        some { distributionId, publicationId, publication, previous := promotePrevious pointer }
      | .error _ => none

/-- The target of a rollback: the previous publication of the pointer. -/
def rollbackTarget (cfg : PlatformConfig) (t : Tree) (distributionId : String) :
    Option InstallTarget :=
  match currentDistributionPointer t distributionId with
  | .ok (some pointer) =>
    if pointer.previousPublicationId = "" then none
    else (publicationManifestOf cfg t pointer.previousPublicationId).map fun publication =>
      { distributionId, publicationId := pointer.previousPublicationId, publication
        previous := some pointer.publicationId }
  | _ => none

/-- What the request is going to install; `none` where it stops before it changes anything. -/
def installTarget (env : Environment) (cfg : PlatformConfig) (host : Host) (fault : Option Site)
    (w : World) : Request → Option InstallTarget
  | .promoteDistribution distributionId request =>
    if mayInstall env host fault w request then promoteTarget cfg w.root distributionId request
    else none
  | .rollbackDistribution distributionId request =>
    if mayInstall env host fault w request then rollbackTarget cfg w.root distributionId else none
  | _ => none

section install

variable {Q : HttpResponse → World → Prop} {E : Failure → World → Prop} {distributionId : String}
  {request : HttpRequest}

/-- The end of a promote or rollback: the audit entry and the answer. -/
theorem wp_finishInstall {target : InstallTarget} {message failed operation : String}
    (hinstall : wp (installPublication cfg fault target.distributionId target.publicationId
        target.publication target.previous host.now)
      (fun _ w' => (fault ≠ some .audit → ∀ r, r.status = 200 → Q r w') ∧
        (fault = some .audit → E (.fault .audit) w'))
      (fun _ w' => (∀ r, r.status = 422 → Q r w') ∧
        (fault = some .audit → E (.fault .audit) w')) w) :
    wp (do
      let current ← installPublication cfg fault target.distributionId target.publicationId
        target.publication target.previous host.now
      recordRegistryAudit fault
      return successResponse message (.pointer current)) Q
      (fun e w' => wp (answerFailure fault failed operation e) Q E w') w := by
  rw [wp_bind]
  refine wp_mono hinstall ?_ fun _ _ h => wp_answerFailure h.1 h.2
  intro _ w' h
  rw [wp_bind, recordRegistryAudit, wp_failAt]
  refine ⟨fun hf => ?_, fun hf => h.1 hf _ rfl⟩
  rw [answerFailure, wp_bind, recordRegistryAudit, wp_failAt]
  exact ⟨fun _ => h.2 hf, fun hn => (hn hf).elim⟩

theorem parse_of_ok {f : File} {d : Document}
    (h : (f.parse.map Except.ok).getD (.error parseError) = .ok d) : f.parse = some d := by
  cases hp : f.parse with
  | none => simp [hp] at h
  | some d' => simpa [hp] using h

theorem parse_of_error {f : File} {e : Failure}
    (h : (f.parse.map Except.ok).getD (.error parseError) = .error e) : f.parse = none := by
  cases hp : f.parse with
  | none => rfl
  | some d => simp [hp] at h

/-- The ways through a promote: it stops without a change, or it installs its target. -/
theorem wp_handlePromoteDistribution
    (hstop : installTarget env cfg host fault w (.promoteDistribution distributionId request) =
      none → (∀ r, r.status ≠ 200 → Q r w) ∧ ∀ e, E e w)
    (hinstall : ∀ target, installTarget env cfg host fault w
        (.promoteDistribution distributionId request) = some target →
      wp (installPublication cfg fault target.distributionId target.publicationId
          target.publication target.previous host.now)
        (fun _ w' => (fault ≠ some .audit → ∀ r, r.status = 200 → Q r w') ∧
          (fault = some .audit → E (.fault .audit) w'))
        (fun _ w' => (∀ r, r.status = 422 → Q r w') ∧
          (fault = some .audit → E (.fault .audit) w')) w) :
    wp (handlePromoteDistribution env cfg host fault distributionId request) Q E w := by
  have hfail : installTarget env cfg host fault w (.promoteDistribution distributionId request) =
      none → ∀ e message operation, wp (answerFailure fault message operation e) Q E w := fun h _ _ _ =>
    wp_answerFailure (fun r hr => (hstop h).1 r (by omega)) fun _ => (hstop h).2 _
  unfold handlePromoteDistribution
  cases hid : request.body.bind (nonEmptyString · "publication_id") with
  | none =>
    refine (hstop ?_).1 _ (by simp [failureResponse])
    simp [installTarget, promoteTarget, requestedPublication, hid]
  | some publicationId =>
    rw [wp_bind]
    refine wp_authorized (fun hauthorize => ?_) fun hf => (hstop ?_).2 _
    swap
    · simp [installTarget, mayInstall, hf]
    rw [wp_ite]
    refine ⟨fun hauth => ?_, fun hauth => ?_⟩
    swap
    · have hnone : installTarget env cfg host fault w
          (.promoteDistribution distributionId request) = none := by
        simp [installTarget, mayInstall, hauth]
      rw [wp_bind]
      exact wp_audit ((hstop hnone).1 _ (by simp [failureResponse])) fun _ => (hstop hnone).2 _
    rw [wp_bind, wp_rootTree]
    cases hfile : publicationFile cfg w.root publicationId with
    | none =>
      have hnone : installTarget env cfg host fault w
          (.promoteDistribution distributionId request) = none := by
        simp [installTarget, promoteTarget, requestedPublication, hid, publicationManifestOf, hfile]
      rw [wp_bind]
      exact wp_audit ((hstop hnone).1 _ (by simp [failureResponse])) fun _ => (hstop hnone).2 _
    | some f =>
      rw [wp_handle, tryPromote, wp_bind, wp_ofExcept]
      refine ⟨fun publication hparse => ?_, fun e he => hfail ?_ _ _ _⟩
      swap
      · simp [installTarget, promoteTarget, requestedPublication, hid, publicationManifestOf, hfile,
          parse_of_error he]
      rw [wp_bind, wp_failAt]
      refine ⟨fun hf => hfail (by simp [installTarget, mayInstall, hf]) _ _ _, fun hread => ?_⟩
      rw [wp_bind, wp_rootTree, wp_bind, wp_ofExcept]
      refine ⟨fun pointer hpointer => ?_, fun e he => hfail ?_ _ _ _⟩
      · have htarget : installTarget env cfg host fault w
            (.promoteDistribution distributionId request) =
            some ⟨distributionId, publicationId, publication, promotePrevious pointer⟩ := by
          simp [installTarget, mayInstall, hauthorize, hread, hauth, promoteTarget,
            requestedPublication, hid, hpointer, publicationManifestOf, hfile, parse_of_ok hparse]
        exact wp_finishInstall (hinstall _ htarget)
      · simp [installTarget, promoteTarget, requestedPublication, hid, he]

/-- The ways through a rollback: it stops without a change, or it installs its target. -/
theorem wp_handleRollbackDistribution
    (hstop : installTarget env cfg host fault w (.rollbackDistribution distributionId request) =
      none → (∀ r, r.status ≠ 200 → Q r w) ∧ ∀ e, E e w)
    (hinstall : ∀ target, installTarget env cfg host fault w
        (.rollbackDistribution distributionId request) = some target →
      wp (installPublication cfg fault target.distributionId target.publicationId
          target.publication target.previous host.now)
        (fun _ w' => (fault ≠ some .audit → ∀ r, r.status = 200 → Q r w') ∧
          (fault = some .audit → E (.fault .audit) w'))
        (fun _ w' => (∀ r, r.status = 422 → Q r w') ∧
          (fault = some .audit → E (.fault .audit) w')) w) :
    wp (handleRollbackDistribution env cfg host fault distributionId request) Q E w := by
  have hreject : installTarget env cfg host fault w
      (.rollbackDistribution distributionId request) = none → ∀ r, r.status ≠ 200 →
      wp (do recordRegistryAudit fault; pure r) Q E w := by
    intro hnone r hr
    rw [wp_bind]
    exact wp_audit ((hstop hnone).1 r hr) fun _ => (hstop hnone).2 _
  rw [handleRollbackDistribution, wp_bind]
  refine wp_authorized (fun hauthorize => ?_) fun hf => (hstop ?_).2 _
  swap
  · simp [installTarget, mayInstall, hf]
  rw [wp_ite]
  refine ⟨fun hauth => ?_, fun hauth => hreject ?_ _ (by simp [failureResponse])⟩
  swap
  · simp [installTarget, mayInstall, hauth]
  rw [wp_bind, wp_failAt]
  refine ⟨fun hf => (hstop ?_).2 _, fun hread => ?_⟩
  · simp [installTarget, mayInstall, hf]
  have hmay : mayInstall env host fault w request := ⟨hauthorize, hread, hauth⟩
  rw [wp_bind, wp_rootTree, wp_bind, wp_ofExcept]
  refine ⟨fun pointer hpointer => ?_, fun e he => (hstop ?_).2 e⟩
  swap
  · simp [installTarget, rollbackTarget, he]
  cases pointer with
  | none =>
    rw [wp_ite]
    refine ⟨fun _ => hreject ?_ _ (by simp [failureResponse]), fun h => (h rfl).elim⟩
    simp [installTarget, rollbackTarget, hpointer]
  | some pointer =>
    rw [wp_ite]
    refine ⟨fun hempty => hreject ?_ _ (by simp [failureResponse]), fun hne => ?_⟩
    · simp only [installTarget, rollbackTarget, hpointer]
      rw [if_pos (show pointer.previousPublicationId = "" from hempty), ite_self]
    have hne : ¬ pointer.previousPublicationId = "" := hne
    rw [wp_bind, wp_rootTree]
    dsimp only [Option.map_some, Option.getD_some]
    have htarget : installTarget env cfg host fault w
        (.rollbackDistribution distributionId request) =
        (publicationManifestOf cfg w.root pointer.previousPublicationId).map fun publication =>
          ⟨distributionId, pointer.previousPublicationId, publication,
            some pointer.publicationId⟩ := by
      simp only [installTarget, rollbackTarget, hpointer]
      rw [if_pos hmay, if_neg hne]
    cases hfile : publicationFile cfg w.root pointer.previousPublicationId with
    | none =>
      refine hreject ?_ _ (by simp [failureResponse])
      rw [htarget, publicationManifestOf, hfile]
      rfl
    | some f =>
      rw [wp_handle, tryRollback, wp_bind, wp_ofExcept]
      refine ⟨fun publication hparse => ?_, fun e he => ?_⟩
      · rw [publicationManifestOf, hfile, Option.bind_some, parse_of_ok hparse] at htarget
        exact wp_finishInstall (hinstall _ htarget)
      · have hnone : installTarget env cfg host fault w
            (.rollbackDistribution distributionId request) = none := by
          rw [htarget, publicationManifestOf, hfile, Option.bind_some, parse_of_error he]
          rfl
        exact wp_answerFailure (fun r hr => (hstop hnone).1 r (by omega)) fun _ => (hstop hnone).2 _

/-- The ways through a promote or rollback. -/
theorem wp_handleInstall {request : Request} (hr : request.publishes = false)
    (hstop : installTarget env cfg host fault w request = none →
      (∀ r, r.status ≠ 200 → Q r w) ∧ ∀ e, E e w)
    (hinstall : ∀ target, installTarget env cfg host fault w request = some target →
      wp (installPublication cfg fault target.distributionId target.publicationId
          target.publication target.previous host.now)
        (fun _ w' => (fault ≠ some .audit → ∀ r, r.status = 200 → Q r w') ∧
          (fault = some .audit → E (.fault .audit) w'))
        (fun _ w' => (∀ r, r.status = 422 → Q r w') ∧
          (fault = some .audit → E (.fault .audit) w')) w) :
    wp (handleRequest env cfg host fault request) Q E w := by
  cases request with
  | publishRelease request => cases hr
  | setYanked namespaceName name version yanked request => cases hr
  | promoteDistribution distributionId request =>
    exact wp_handlePromoteDistribution hstop hinstall
  | rollbackDistribution distributionId request =>
    exact wp_handleRollbackDistribution hstop hinstall

end install

/-- The requested publication was installed. -/
def Promoted (cfg : PlatformConfig) (host : Host) (distributionId : String)
    (request : HttpRequest) (w w' : World) : Prop :=
  ∃ publicationId f publication pointer,
    requestedPublication request = some publicationId ∧
    publicationFile cfg w.root publicationId = some f ∧ f.parse = some publication ∧
    currentDistributionPointer w.root distributionId = .ok pointer ∧
    Installed cfg distributionId publicationId publication host.now (promotePrevious pointer) w w'

/-- The previous publication was installed. -/
def RolledBack (cfg : PlatformConfig) (host : Host) (distributionId : String) (w w' : World) :
    Prop :=
  ∃ f publication pointer,
    currentDistributionPointer w.root distributionId = .ok (some pointer) ∧
    publicationFile cfg w.root pointer.previousPublicationId = some f ∧
    f.parse = some publication ∧
    Installed cfg distributionId pointer.previousPublicationId publication host.now
      (some pointer.publicationId) w w'

theorem installed_of_succeeds {request : Request} (hr : request.publishes = false)
    (h : Succeeds env cfg host request w w') :
    ∃ target, installTarget env cfg host none w request = some target ∧
      Installed cfg target.distributionId target.publicationId target.publication host.now
        target.previous w w' := by
  obtain ⟨r, hrun, hr'⟩ := h
  have hwp : wp (handleRequest env cfg host none request) (fun r w' => r.status = 200 →
      ∃ target, installTarget env cfg host none w request = some target ∧
        Installed cfg target.distributionId target.publicationId target.publication host.now
          target.previous w w') (fun _ _ => True) w := by
    refine wp_handleInstall hr (fun _ => ⟨fun r hne h => (hne h).elim, fun _ => trivial⟩) ?_
    intro target htarget
    refine wp_mono wp_installPublication (fun _ w₁ h => ⟨fun _ r _ _ => ?_, fun _ => trivial⟩)
      fun _ _ _ => ⟨fun r hr h => by omega, fun _ => trivial⟩
    exact ⟨target, htarget, h.2.installed h.1⟩
  exact hwp.of_ok hrun hr'

theorem publicationManifestOf_eq_some {t : Tree} {id : String} {publication : Document} :
    publicationManifestOf cfg t id = some publication ↔
      ∃ f, publicationFile cfg t id = some f ∧ f.parse = some publication :=
  Option.bind_eq_some_iff

theorem promote_succeeded {distributionId : String} {request : HttpRequest}
    (h : Succeeds env cfg host (.promoteDistribution distributionId request) w w') :
    Promoted cfg host distributionId request w w' := by
  obtain ⟨target, htarget, hi⟩ := installed_of_succeeds rfl h
  simp only [installTarget] at htarget
  split at htarget
  · obtain ⟨id, hid, htarget⟩ := Option.bind_eq_some_iff.mp htarget
    obtain ⟨publication, hmanifest, htarget⟩ := Option.bind_eq_some_iff.mp htarget
    obtain ⟨f, hf, hparse⟩ := publicationManifestOf_eq_some.mp hmanifest
    split at htarget
    · next pointer hpointer =>
      cases htarget
      exact ⟨id, f, publication, pointer, hid, hf, hparse, hpointer, hi⟩
    · cases htarget
  · cases htarget

theorem rollback_succeeded {distributionId : String} {request : HttpRequest}
    (h : Succeeds env cfg host (.rollbackDistribution distributionId request) w w') :
    RolledBack cfg host distributionId w w' := by
  obtain ⟨target, htarget, hi⟩ := installed_of_succeeds rfl h
  simp only [installTarget, rollbackTarget] at htarget
  split at htarget
  · split at htarget
    · next pointer hpointer =>
      split at htarget
      · cases htarget
      · obtain ⟨publication, hmanifest, htarget⟩ := Option.map_eq_some_iff.mp htarget
        obtain ⟨f, hf, hparse⟩ := publicationManifestOf_eq_some.mp hmanifest
        cases htarget
        exact ⟨f, publication, pointer, hpointer, hf, hparse, hi⟩
    · cases htarget
  · cases htarget

end StyioPlatform.Registry
