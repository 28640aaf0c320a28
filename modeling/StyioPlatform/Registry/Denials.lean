import StyioPlatform.Registry.Grants

/-! The front door of the control plane (`Router.cpp`, `Authorization.cpp`), and what a request
that was answered with 401 or 403 has left behind. -/
namespace StyioPlatform.Registry

open FileTree Prog

def isInternalRole (identity : MtlsIdentity) : Bool :=
  ["control-plane", "worker", "mirror", "registry-writer", "operator", "cluster-registrar",
    "package-owner"].contains identity.role

/-- The `operation_id` of the route. -/
def ControlRequest.operation : ControlRequest → String
  | .write (.publishRelease _) => "publishRelease"
  | .write (.setYanked _ _ _ yanked _) => yankOperation yanked
  | .write (.promoteDistribution _ _) => "promoteDistribution"
  | .write (.rollbackDistribution _ _) => "rollbackDistribution"
  | .addPackageOwner _ _ _ => "addPackageOwner"
  | .removePackageOwner _ _ _ _ => "removePackageOwner"
  | .createPublishToken _ _ _ => "createPublishToken"
  | .revokePublishToken _ _ => "revokePublishToken"

/-- The roles that `IsAuthorizedForOperation` has for the routes of these requests. -/
def ControlRequest.roles : ControlRequest → List String
  | .write (.publishRelease _) => ["registry-writer", "operator", "package-owner"]
  | .write (.promoteDistribution _ _) => ["operator"]
  | .write (.rollbackDistribution _ _) => ["operator"]
  | _ => ["operator", "package-owner", "registry-writer"]

/-- `IsRegistryTokenCapableOperation`, for the routes of these requests. -/
def ControlRequest.tokenCapable : ControlRequest → Bool
  | .createPublishToken _ _ _ => false
  | .revokePublishToken _ _ => false
  | _ => true

def accessDenied (status : ℕ) (message detail operation : String) : HttpResponse :=
  failureResponse status message detail "AuthError" operation 2

/-- `RequireIdentity`: the answer to a request that is turned away; all the routes are internal. -/
def requireIdentity (mtlsRequired : Bool) (r : ControlRequest) : Option HttpResponse :=
  if !mtlsRequired then none
  else
    match r.http.identity with
    | none =>
      if r.tokenCapable && (registryTokenFromHeaders r.http.headers).isSome then none
      else some (accessDenied 401 "mTLS identity is required" "missing client certificate identity"
        r.operation)
    | some identity =>
      if !isInternalRole identity then
        some (accessDenied 403 "mTLS identity is not authorized"
          "internal route requires a service role" r.operation)
      else if !r.roles.contains identity.role then
        some (accessDenied 403 "mTLS identity is not authorized"
          "identity role is not allowed for this operation" r.operation)
      else none

/-- The settings and the state of the router that a request meets before its handler. -/
structure FrontDoor where
  mtlsRequired : Bool := true
  /-- What the rate limiter says to this request. -/
  allows : Bool := true

/-- `Dispatch`, of a request whose route was found. -/
def dispatch (env : Environment) (cfg : PlatformConfig) (door : FrontDoor) (host : Host)
    (fault : Option Site) (r : ControlRequest) : Program HttpResponse :=
  match requireIdentity door.mtlsRequired r with
  | some response => pure response
  | none =>
    if door.allows then handleControlRequest env cfg host fault r
    else pure (failureResponse 429 "request rate limited" "rate limit exceeded" "RateLimitError"
      r.operation)

/-- The request was refused for lack of authority. -/
def HttpResponse.denied (response : HttpResponse) : Prop :=
  response.status = 401 ∨ response.status = 403

/-- The files and the records of the two states are the same. -/
def Untouched (w w' : World) : Prop :=
  w'.root = w.root ∧ w'.bucket = w.bucket ∧ w'.memory = w.memory ∧ w'.postgres = w.postgres

variable {env : Environment} {cfg : PlatformConfig} {door : FrontDoor} {host : Host}
  {fault : Option Site} {w w' : World} {r : ControlRequest} {request : HttpRequest}

/-- The state after a request that its handler denied. -/
def afterDenial (env : Environment) (host : Host) (fault : Option Site) (w : World) :
    ControlRequest → World
  | .write (.publishRelease request) =>
    ((draftOf env host fault request).map fun draft => stagedWorld draft w).getD w
  | _ => w

section answers

/-- The program answers, if at all, otherwise than by a denial. -/
def NeverDenies (x : Program HttpResponse) : Prop := Returns (fun response => ¬ response.denied) x

theorem neverDenies_pure {response : HttpResponse} (h : ¬ response.denied) :
    NeverDenies (pure response) := returns_pure h

theorem neverDenies_bind {α : Type} {x : Program α} {k : α → Program HttpResponse}
    (h : ∀ a, NeverDenies (k a)) : NeverDenies (x >>= k) := returns_bind h

theorem neverDenies_ite {c : Prop} [Decidable c] {x y : Program HttpResponse}
    (hx : NeverDenies x) (hy : NeverDenies y) : NeverDenies (if c then x else y) := by
  split
  · exact hx
  · exact hy

/-- A handler that answers, or fails and answers with the failure. -/
theorem neverDenies_handle {x : Program HttpResponse} {message operation : String}
    (hx : NeverDenies x) :
    NeverDenies (Prog.handle x (answerFailure fault message operation)) := by
  intro s response t h
  simp only [Prog.handle] at h
  rcases hrun : x s with ⟨e | a, s'⟩
  · rw [hrun] at h
    refine neverDenies_bind (fun _ => neverDenies_pure ?_) s' response t h
    simp [failureResponse, HttpResponse.denied]
  · rw [hrun] at h
    cases h
    exact hx s _ _ hrun

theorem not_denied_success {message : String} {payload : Payload} :
    ¬ (successResponse message payload).denied := by
  simp [successResponse, HttpResponse.denied]

/-- What a program that never denies leaves behind does not matter. -/
theorem wp_of_neverDenies {x : Program HttpResponse} {P : World → Prop} (h : NeverDenies x) :
    wp x (fun response w' => response.denied → P w') (fun _ _ => True) w := by
  refine wp_mono wp_self ?_ fun _ _ _ => trivial
  intro response w' hrun hdenied
  exact absurd hdenied (h w response w' hrun)

/-- A handler that asks for a scope first and denies without it. -/
theorem wp_guarded {scope package : String} {x : Program HttpResponse} {response : HttpResponse}
    (hx : NeverDenies x) :
    wp (do
      if ← registryWriteAuthorized env host fault request scope package then x
      else
        recordRegistryAudit fault
        pure response : Program HttpResponse)
      (fun response w' => response.denied → w' = w) (fun _ _ => True) w := by
  rw [wp_bind]
  refine wp_authorized (fun _ => ?_) fun _ => trivial
  rw [wp_ite]
  refine ⟨fun _ => wp_of_neverDenies hx, fun _ => ?_⟩
  rw [wp_bind]
  exact wp_audit (fun _ => rfl) fun _ => trivial

theorem not_denied_failure {status returncode : ℕ} {message detail category operation : String}
    (h : status ≠ 401 ∧ status ≠ 403) :
    ¬ (failureResponse status message detail category operation returncode).denied := by
  simp [failureResponse, HttpResponse.denied, h]

theorem neverDenies_tryPublish {actor : String} {draft : PublishDraft} :
    NeverDenies (tryPublish env cfg host fault actor draft) := by
  refine neverDenies_bind fun _ => neverDenies_bind fun _ => neverDenies_bind fun _ => ?_
  refine neverDenies_ite (neverDenies_bind fun _ => neverDenies_pure ?_)
    (neverDenies_bind fun _ => neverDenies_pure not_denied_success)
  exact not_denied_failure (by decide)

theorem neverDenies_tryYank {package version reason : String} {yanked : Bool} :
    NeverDenies (tryYank env cfg host fault package version yanked reason) := by
  refine neverDenies_bind fun _ => neverDenies_bind fun _ => neverDenies_ite ?_ ?_
  · refine neverDenies_bind fun _ => neverDenies_bind fun _ => neverDenies_bind fun _ =>
      neverDenies_bind fun _ => neverDenies_bind fun _ => neverDenies_bind fun _ =>
      neverDenies_bind fun _ => neverDenies_bind fun _ => neverDenies_bind fun _ =>
      neverDenies_pure not_denied_success
  · exact neverDenies_bind fun _ => neverDenies_pure (not_denied_failure (by decide))

theorem neverDenies_tryPromote {distributionId publicationId : String} {f : File} :
    NeverDenies (tryPromote cfg host fault distributionId publicationId f) :=
  neverDenies_bind fun _ => neverDenies_bind fun _ => neverDenies_bind fun _ =>
    neverDenies_bind fun _ => neverDenies_bind fun _ => neverDenies_bind fun _ =>
    neverDenies_pure not_denied_success

theorem neverDenies_tryRollback {distributionId publicationId : String} {pointer : Document}
    {f : File} : NeverDenies (tryRollback cfg host fault distributionId publicationId pointer f) :=
  neverDenies_bind fun _ => neverDenies_bind fun _ => neverDenies_bind fun _ =>
    neverDenies_pure not_denied_success

theorem neverDenies_issuePublishToken {ownerId random : String} {body : Json} :
    NeverDenies (issuePublishToken env host fault ownerId random body) :=
  neverDenies_bind fun _ => neverDenies_bind fun _ => neverDenies_bind fun _ =>
    neverDenies_bind fun _ => neverDenies_bind fun _ => neverDenies_bind fun _ =>
    neverDenies_bind fun _ => neverDenies_bind fun _ => neverDenies_pure not_denied_success

end answers

section handlers

/-- Where a handler denies, the state is the given one. -/
def DeniesIn (w w₀ : World) (x : Program HttpResponse) : Prop :=
  wp x (fun response w' => response.denied → w' = w₀) (fun _ _ => True) w

theorem deniesIn_answer {response : HttpResponse} (h : ¬ response.denied) :
    DeniesIn w w' (pure response) := fun hdenied => absurd hdenied h

theorem deniesIn_publishRelease :
    DeniesIn w (afterDenial env host fault w (.write (.publishRelease request)))
      (handlePublishRelease env cfg host fault request) := by
  apply wp_handlePublishRelease
  · intro hnone response hstatus _
    simp [afterDenial, hnone]
  · exact fun _ _ _ => trivial
  · intro draft hdraft _
    exact ⟨fun _ _ _ => by simp [afterDenial, hdraft], fun _ => trivial⟩
  · intro draft hdraft _ _
    refine wp_mono (wp_of_neverDenies neverDenies_tryPublish) (fun _ _ h => h) ?_
    intro _ _ _
    refine ⟨fun response hstatus hdenied => ?_, fun _ => trivial⟩
    rcases hdenied with h | h <;> omega

theorem deniesIn_setYanked {namespaceName name version : String} {yanked : Bool} :
    DeniesIn w w (handleSetPackageReleaseYanked env cfg host fault namespaceName name version
      request yanked) := by
  unfold handleSetPackageReleaseYanked
  dsimp only
  split
  · exact deniesIn_answer (not_denied_failure (by decide))
  · exact deniesIn_answer (not_denied_failure (by decide))
  · split
    · exact deniesIn_answer (not_denied_failure (by decide))
    · exact wp_guarded (neverDenies_handle neverDenies_tryYank)

theorem deniesIn_promote {distributionId : String} :
    DeniesIn w w (handlePromoteDistribution env cfg host fault distributionId request) := by
  unfold handlePromoteDistribution
  split
  · exact deniesIn_answer (not_denied_failure (by decide))
  · refine wp_guarded (neverDenies_bind fun _ => ?_)
    split
    · exact neverDenies_bind fun _ => neverDenies_pure (not_denied_failure (by decide))
    · exact neverDenies_handle neverDenies_tryPromote

theorem deniesIn_rollback {distributionId : String} :
    DeniesIn w w (handleRollbackDistribution env cfg host fault distributionId request) := by
  refine wp_guarded (neverDenies_bind fun _ => neverDenies_bind fun _ => neverDenies_bind fun _ => ?_)
  refine neverDenies_ite ?_ (neverDenies_bind fun _ => ?_)
  · exact neverDenies_bind fun _ => neverDenies_pure (not_denied_failure (by decide))
  · split
    · exact neverDenies_bind fun _ => neverDenies_pure (not_denied_failure (by decide))
    · exact neverDenies_handle neverDenies_tryRollback

theorem deniesIn_addPackageOwner {namespaceName name : String} :
    DeniesIn w w (handleAddPackageOwner env host fault namespaceName name request) := by
  unfold handleAddPackageOwner
  split
  · exact deniesIn_answer (not_denied_failure (by decide))
  split
  · exact deniesIn_answer (not_denied_failure (by decide))
  split
  · exact deniesIn_answer (not_denied_failure (by decide))
  refine wp_guarded (neverDenies_bind fun _ => neverDenies_bind fun _ => neverDenies_ite ?_ ?_)
  · exact neverDenies_bind fun _ => neverDenies_pure (not_denied_failure (by decide))
  · exact neverDenies_bind fun _ => neverDenies_bind fun _ => neverDenies_bind fun _ =>
      neverDenies_bind fun _ => neverDenies_bind fun _ => neverDenies_pure not_denied_success

theorem deniesIn_removePackageOwner {namespaceName name ownerId : String} :
    DeniesIn w w (handleRemovePackageOwner env host fault namespaceName name ownerId request) := by
  unfold handleRemovePackageOwner
  split
  · exact deniesIn_answer (not_denied_failure (by decide))
  refine wp_guarded (neverDenies_bind fun _ => neverDenies_bind fun _ => neverDenies_bind fun _ =>
    neverDenies_bind fun _ => neverDenies_ite (neverDenies_pure not_denied_success) ?_)
  exact neverDenies_pure (not_denied_failure (by decide))

theorem deniesIn_createPublishToken {random : String} {body : Json} :
    DeniesIn w w (handleCreatePublishToken env host fault random request body) := by
  unfold handleCreatePublishToken
  split
  · exact deniesIn_answer (not_denied_failure (by decide))
  split
  · exact deniesIn_answer (not_denied_failure (by decide))
  rw [DeniesIn, wp_bind]
  have howner : Keeps (· = w) (jsonTextOr body "owner_id" (registryActorId env request)) :=
    keeps_jsonTextOr
  refine wp_mono (howner.wp rfl) ?_ fun _ _ _ => trivial
  rintro ownerId _ rfl
  rw [wp_ite]
  refine ⟨fun _ => wp_of_neverDenies neverDenies_issuePublishToken, fun _ => ?_⟩
  rw [wp_bind]
  exact wp_audit (fun _ => rfl) fun _ => trivial

theorem deniesIn_revokePublishToken {tokenId : String} :
    DeniesIn w w (handleRevokePublishToken env host fault tokenId request) := by
  rw [DeniesIn, handleRevokePublishToken, wp_bind, wp_read, wp_bind, wp_onlyIf, wp_failAt]
  -- looking the token up changes nothing, whichever table it is in
  have hlookup : ∀ {A B C D R : Prop}, R → (A → (B → True) ∧ (C → R)) ∧ (D → R) :=
    fun hrest => ⟨fun _ => ⟨fun _ => trivial, fun _ => hrest⟩, fun _ => hrest⟩
  refine hlookup ?_
  dsimp only
  split
  · exact wp_of_neverDenies (neverDenies_bind fun _ =>
      neverDenies_pure (not_denied_failure (by decide)))
  · rw [wp_ite]
    refine ⟨fun _ => wp_of_neverDenies (neverDenies_bind fun _ => neverDenies_bind fun _ =>
      neverDenies_bind fun _ => neverDenies_pure not_denied_success), fun _ => ?_⟩
    rw [wp_bind]
    exact wp_audit (fun _ => rfl) fun _ => trivial

theorem deniesIn_handleControlRequest (r : ControlRequest) :
    DeniesIn w (afterDenial env host fault w r) (handleControlRequest env cfg host fault r) := by
  cases r with
  | write request =>
    cases request with
    | publishRelease request => exact deniesIn_publishRelease
    | setYanked namespaceName name version yanked request => exact deniesIn_setYanked
    | promoteDistribution distributionId request => exact deniesIn_promote
    | rollbackDistribution distributionId request => exact deniesIn_rollback
  | addPackageOwner namespaceName name request => exact deniesIn_addPackageOwner
  | removePackageOwner namespaceName name ownerId request => exact deniesIn_removePackageOwner
  | createPublishToken random request body => exact deniesIn_createPublishToken
  | revokePublishToken tokenId request => exact deniesIn_revokePublishToken

end handlers

/-- What a publish stages for its draft is in the tree already. -/
def StagedBefore (w : World) (draft : PublishDraft) : Prop :=
  ∀ path, draft.archivePath = .staged path →
    w.root.get path = some (.json (.staged draft.package draft.version draft.publisherId))

/-- The request does not come to the staging of an archive that is not there yet: it is no publish,
or it is turned away at the door, or its archive is on the host. -/
def StagesNothing (env : Environment) (door : FrontDoor) (host : Host) (fault : Option Site)
    (w : World) (r : ControlRequest) : Prop :=
  requireIdentity door.mtlsRequired r = none → ∀ request, r = .write (.publishRelease request) →
    ∀ draft, draftOf env host fault request = some draft → StagedBefore w draft

theorem untouched_stagedWorld_iff {draft : PublishDraft} :
    Untouched w (stagedWorld draft w) ↔ StagedBefore w draft := by
  cases hpath : draft.archivePath with
  | host path => simp [Untouched, stagedWorld, StagedBefore, hpath]
  | staged path =>
    simp only [Untouched, stagedWorld, StagedBefore, hpath, World.write, ArchivePath.staged.injEq,
      forall_eq', and_true]
    constructor
    · intro h
      rw [← h, get_put_self]
    · intro h
      ext q
      rw [get_put]
      split
      · next hq => rw [hq, h]
      · rfl

theorem untouched_afterDenial_iff (hdoor : requireIdentity door.mtlsRequired r = none) :
    Untouched w (afterDenial env host fault w r) ↔ StagesNothing env door host fault w r := by
  by_cases hpublish : ∃ request, r = .write (.publishRelease request)
  · obtain ⟨request, rfl⟩ := hpublish
    simp only [StagesNothing, hdoor, true_implies, ControlRequest.write.injEq,
      Request.publishRelease.injEq, forall_eq', afterDenial]
    cases hdraft : draftOf env host fault request with
    | none => simp [Untouched]
    | some draft => simpa using untouched_stagedWorld_iff
  · have hsame : afterDenial env host fault w r = w := by
      unfold afterDenial
      split
      · exact absurd ⟨_, rfl⟩ hpublish
      · rfl
    rw [hsame]
    refine ⟨fun _ _ request he => absurd ⟨request, he⟩ hpublish, fun _ => ⟨rfl, rfl, rfl, rfl⟩⟩

theorem untouched_of_denied_iff {response : HttpResponse}
    (h : dispatch env cfg door host fault r w = (.ok response, w')) (hdenied : response.denied) :
    Untouched w w' ↔ StagesNothing env door host fault w r := by
  cases hdoor : requireIdentity door.mtlsRequired r with
  | some answer =>
    simp only [dispatch, hdoor] at h
    cases h
    refine ⟨fun _ hnone => ?_, fun _ => ⟨rfl, rfl, rfl, rfl⟩⟩
    rw [hdoor] at hnone
    cases hnone
  | none =>
    simp only [dispatch, hdoor] at h
    split at h
    · have hlast : w' = afterDenial env host fault w r :=
        (deniesIn_handleControlRequest r).of_ok h hdenied
      rw [hlast]
      exact untouched_afterDenial_iff hdoor
    · cases h
      exact absurd hdenied (not_denied_failure (by decide))

/-- A stranger's publish, with the fields given. -/
def strangerPublish (fields : List (String × String)) : ControlRequest :=
  .write (.publishRelease
    { operatorRequest fields with
      identity := some { role := "package-owner", nodeId := "stranger" } })

theorem untouched_of_denied_archive : ∃ response w',
    dispatch sampleEnvironment sampleConfig {} sampleHost none
        (strangerPublish [("package", "a/b"), ("version", "1"), ("archive_path", "one")])
        sampleStart = (.ok response, w') ∧ response.denied ∧ Untouched sampleStart w' := by
  have hrun : ∃ response w', dispatch sampleEnvironment sampleConfig {} sampleHost none
      (strangerPublish [("package", "a/b"), ("version", "1"), ("archive_path", "one")])
      sampleStart = (.ok response, w') ∧ response.denied :=
    ⟨_, _, rfl, Or.inr (by decide +kernel)⟩
  obtain ⟨response, w', h, hdenied⟩ := hrun
  refine ⟨response, w', h, hdenied, (untouched_of_denied_iff h hdenied).mpr ?_⟩
  intro _ request he draft hdraft
  cases he
  cases hdraft
  intro path hpath
  cases hpath

/-- The archive that a denied publish stages stays in the tree. -/
theorem not_untouched_of_denied_publish : ∃ response w',
    dispatch sampleEnvironment sampleConfig {} sampleHost none
        (strangerPublish [("package", "a/b"), ("version", "1")]) sampleStart = (.ok response, w') ∧
      response.denied ∧ sampleStart.root.get (stagingPath "a/b" "1") = none ∧
      w'.root.get (stagingPath "a/b" "1") ≠ none := by
  refine ⟨_, _, rfl, Or.inr (by decide +kernel), rfl, by decide +kernel⟩

end StyioPlatform.Registry
