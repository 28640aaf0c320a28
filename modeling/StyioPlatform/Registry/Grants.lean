import StyioPlatform.Registry.Authority
import StyioPlatform.Registry.Requests
import StyioPlatform.Registry.Tables

/-! Which requests reach the tables of owners and tokens, and what they do there. -/
namespace StyioPlatform.Registry

open Prog

/-- The tables of owners and tokens in memory and in Postgres, with the number of the next token
there. -/
structure Grants where
  owners : List (String × RegistryPackageOwnerRecord)
  tokens : List (String × RegistryPublishTokenRecord)
  storedOwners : Option (List ((String ×ₗ String) × RegistryPackageOwnerRecord))
  storedTokens : Option (List (String × RegistryPublishTokenRecord))
  storedSequence : Option ℕ

def World.grants (w : World) : Grants where
  owners := w.memory.owners
  tokens := w.memory.tokens
  storedOwners := w.postgres.map (·.owners)
  storedTokens := w.postgres.map (·.tokens)
  storedSequence := w.postgres.map (·.nextRegistryTokenSequence)

variable {env : Environment} {cfg : PlatformConfig} {host : Host} {fault : Option Site}
  {w w' : World} {J : Grants → Prop}

theorem grants_of_tables (h : w'.tables = w.tables) : w'.grants = w.grants := by
  obtain ⟨hmemory, hpostgres⟩ := Prod.mk.inj h
  have howners := congrArg (Option.map (·.owners)) hpostgres
  have htokens := congrArg (Option.map (·.tokens)) hpostgres
  have hsequence := congrArg (Option.map (·.nextRegistryTokenSequence)) hpostgres
  simp only [Option.map_map] at howners htokens hsequence
  rw [World.grants, World.grants, Grants.mk.injEq]
  exact ⟨congrArg (·.owners) hmemory, congrArg (·.tokens) hmemory, howners, htokens, hsequence⟩

/-- A stage that leaves the tables alone. -/
theorem KeepsTables.keepsGrants {α : Type} {x : Program α} (h : KeepsTables x) :
    Keeps (fun w => J w.grants) x :=
  h.keeps fun _ _ htables hw => (grants_of_tables htables) ▸ hw

/-- A statement on the memory store that leaves owners and tokens alone. -/
theorem keepsGrants_modifyMemory {f : MemoryStateStore → MemoryStateStore}
    (howners : ∀ m, (f m).owners = m.owners) (htokens : ∀ m, (f m).tokens = m.tokens) :
    Keeps (fun w => J w.grants) (modifyMemory f) := by
  intro w hw
  have hgrants : ({ w with memory := f w.memory } : World).grants = w.grants := by
    simp only [World.grants, howners, htokens]
  exact hgrants ▸ hw

/-- A statement on Postgres that leaves owners and tokens alone. -/
theorem keepsGrants_execPostgres {statement : PostgresStatement} {f : PostgresStore → PostgresStore}
    (howners : ∀ s, (f s).owners = s.owners) (htokens : ∀ s, (f s).tokens = s.tokens)
    (hsequence : ∀ s, (f s).nextRegistryTokenSequence = s.nextRegistryTokenSequence) :
    Keeps (fun w => J w.grants) (execPostgres fault statement f) := by
  rw [keeps_iff]
  intro w hw
  apply wp_execPostgres
  · have hgrants : ({ w with postgres := w.postgres.map f } : World).grants = w.grants := by
      cases h : w.postgres <;> simp [World.grants, h, howners, htokens, hsequence]
    exact hgrants ▸ hw
  · intro _ _
    exact hw

/-- Yanks, promotions and rollbacks do not reach the tables. -/
theorem keepsGrants_handleRequest {request : Request} (h : ∀ r, request ≠ .publishRelease r) :
    Keeps (fun w => J w.grants) (handleRequest env cfg host fault request) := by
  cases request with
  | publishRelease r => exact absurd rfl (h r)
  | setYanked namespaceName name version yanked r =>
    apply keeps_handleSetPackageReleaseYanked
    intro reason
    apply keeps_tryYank
    · exact fun _ => keepsTables_writeTextFile.keepsGrants
    · exact changes_refreshSignedRegistryMetadata.keepsTables.keepsGrants
    · exact fun _ => keepsTables_createRegistryPublication.keepsGrants
    · apply keepsGrants_execPostgres
      all_goals
        intro s
        unfold PostgresStore.setRegistryPackageReleaseYanked
        split <;> rfl
    · apply keepsGrants_modifyMemory
      · intro m
        unfold MemoryStateStore.setRegistryPackageReleaseYanked
        dsimp only
        split <;> rfl
      · intro m
        unfold MemoryStateStore.setRegistryPackageReleaseYanked
        dsimp only
        split <;> rfl
    · exact fun _ => keepsTables_uploadRegistryTreeToS3.keepsGrants
  | promoteDistribution distributionId r =>
    exact keeps_handlePromoteDistribution fun _ _ _ => keepsTables_installPublication.keepsGrants
  | rollbackDistribution distributionId r =>
    exact keeps_handleRollbackDistribution fun _ _ _ => keepsTables_installPublication.keepsGrants

/-- A publish keeps what the entry of its publisher keeps. -/
theorem keepsGrants_tryPublish {actor : String} {draft : PublishDraft}
    (hpostgres : ∀ r, Keeps (fun w => J w.grants) (execPostgres fault .owner
      (·.addRegistryPackageOwner
        { packageId := draft.package, ownerId := draft.publisherId, addedBy := actor
          addedAt := r })))
    (hmemory : ∀ r, Keeps (fun w => J w.grants) (modifyMemory
      (·.addRegistryPackageOwner
        { packageId := draft.package, ownerId := draft.publisherId, addedBy := actor
          addedAt := r }))) :
    Keeps (fun w => J w.grants) (tryPublish env cfg host fault actor draft) := by
  apply keeps_tryPublish
  · exact keepsTables_refreshFromObjectStore.keepsGrants
  apply keeps_publishDraft
  · exact changes_ensure.keepsTables.keepsGrants
  · exact fun _ => changes_appendRegistryReleaseToLocal.keepsTables.keepsGrants
  · exact changes_refreshSignedRegistryMetadata.keepsTables.keepsGrants
  · exact keepsTables_createRegistryPublication.keepsGrants
  · exact fun _ => keepsTables_uploadRegistryTreeToS3.keepsGrants
  · intro r payload
    refine keeps_bind (keepsGrants_modifyMemory (fun _ => rfl) fun _ => rfl) fun _ =>
      keeps_bind (keepsGrants_execPostgres (fun _ => rfl) (fun _ => rfl) fun _ => rfl) fun _ =>
      keeps_bind (keepsGrants_execPostgres (fun _ => rfl) (fun _ => rfl) fun _ => rfl) fun _ =>
      keeps_bind (hpostgres r.publishedAt) fun _ => ?_
    intro w hw
    exact hmemory r.publishedAt w hw

theorem tables_stagedWorld {draft : PublishDraft} : (stagedWorld draft w).tables = w.tables := by
  unfold stagedWorld
  split <;> rfl

/-- A publish keeps what its draft keeps. -/
theorem grants_handlePublishRelease {request : HttpRequest} (hw : J w.grants)
    (htry : ∀ draft, draftOf env host fault request = some draft →
      Keeps (fun w' => J w'.grants)
        (tryPublish env cfg host fault (registryActorId env request) draft)) :
    J (handlePublishRelease env cfg host fault request w).2.grants := by
  have hstaged : ∀ draft, J (stagedWorld draft w).grants := by
    intro draft
    have hgrants : (stagedWorld draft w).grants = w.grants := grants_of_tables tables_stagedWorld
    rwa [hgrants]
  apply wp.of_snd (P := fun w' : World => J w'.grants)
  apply wp_handlePublishRelease
  · exact fun _ _ _ => hw
  · exact fun draft _ _ => hstaged draft
  · exact fun draft _ _ => ⟨fun _ _ => hstaged draft, fun _ => hstaged draft⟩
  · intro draft hdraft _ _
    exact wp_mono ((htry draft hdraft).wp (hstaged draft)) (fun _ _ h => h)
      fun _ _ h => ⟨fun _ _ => h, fun _ => h⟩

section rules

variable {I : World → Prop} {request : HttpRequest}

theorem keeps_denied {r : HttpResponse} : Keeps I (do recordRegistryAudit fault; pure r) :=
  keeps_bind keeps_audit fun _ => keeps_pure

theorem keeps_textFieldOr {fields : String → JsonField} {field default : String} :
    Keeps I (textFieldOr fields field default) := by
  unfold textFieldOr
  split
  · exact keeps_pure
  · exact keeps_pure
  · exact keeps_fail

theorem keeps_jsonTextOr {body : Json} {field default : String} :
    Keeps I (jsonTextOr body field default) := by
  unfold jsonTextOr
  split
  · exact keeps_pure
  · exact keeps_fail

/-- What follows the text of a field is reached with that text. -/
theorem keeps_bind_jsonTextOr {body : Json} {field default : String} {k : String → Program HttpResponse}
    (hk : ∀ text, body.textOr field default = some text → Keeps I (k text)) :
    Keeps I (jsonTextOr body field default >>= k) := by
  rw [jsonTextOr]
  cases htext : body.textOr field default with
  | none => exact fun _ h => h
  | some text => exact hk text htext

/-- A handler that asks for a scope first does the rest with the authority for it. -/
theorem holds_of_authorized {scope package : String} {x y : Program HttpResponse} (hw : I w)
    (hx : authorized env host w request scope package = true → Keeps I x) (hy : Keeps I y) :
    I ((do
      if ← registryWriteAuthorized env host fault request scope package then x
      else y : Program HttpResponse) w).2 := by
  apply wp.of_snd
  rw [wp_bind]
  apply wp_authorized
  · intro _
    rw [wp_ite]
    exact ⟨fun h => (hx h).wp hw, fun _ => hy.wp hw⟩
  · exact fun _ => hw

theorem holds_handleAddPackageOwner (namespaceName name : String) (hw : I w)
    (hpostgres : ∀ record : RegistryPackageOwnerRecord,
      validatePackageName record.packageId = none →
      authorized env host w request "package:owner" record.packageId = true →
      Keeps I (execPostgres fault .owner (·.addRegistryPackageOwner record)))
    (hmemory : ∀ record : RegistryPackageOwnerRecord,
      validatePackageName record.packageId = none →
      authorized env host w request "package:owner" record.packageId = true →
      Keeps I (modifyMemory (·.addRegistryPackageOwner record))) :
    I (handleAddPackageOwner env host fault namespaceName name request w).2 := by
  unfold handleAddPackageOwner
  cases hvalid : validatePackageName (namespaceName ++ "/" ++ name) with
  | some detail => exact hw
  | none =>
    cases request.body with
    | none => exact hw
    | some fields =>
      dsimp only
      cases nonEmptyString fields "owner_id" with
      | none => exact hw
      | some ownerId =>
        apply holds_of_authorized hw
        · intro hauthorized
          refine keeps_bind keeps_rootTree fun _ => keeps_bind keeps_ofExcept fun records => ?_
          refine keeps_ite keeps_denied ?_
          exact keeps_bind keeps_textFieldOr fun _ => keeps_bind keeps_textFieldOr fun _ =>
            keeps_bind (hpostgres _ hvalid hauthorized) fun _ =>
            keeps_bind (hmemory _ hvalid hauthorized) fun _ =>
            keeps_bind keeps_audit fun _ => keeps_pure
        · exact keeps_denied

theorem holds_handleRemovePackageOwner (namespaceName name ownerId : String) (hw : I w)
    (hpostgres : ∀ package, validatePackageName package = none →
      authorized env host w request "package:owner" package = true →
      Keeps I (execPostgres fault .removeOwner (·.removeRegistryPackageOwner package ownerId)))
    (hmemory : ∀ package, validatePackageName package = none →
      authorized env host w request "package:owner" package = true →
      Keeps I (modifyMemory (·.removeRegistryPackageOwner package ownerId))) :
    I (handleRemovePackageOwner env host fault namespaceName name ownerId request w).2 := by
  unfold handleRemovePackageOwner
  cases hvalid : validatePackageName (namespaceName ++ "/" ++ name) with
  | some detail => exact hw
  | none =>
    apply holds_of_authorized hw
    · intro hauthorized
      exact keeps_bind keeps_read fun _ => keeps_bind (hpostgres _ hvalid hauthorized) fun _ =>
        keeps_bind (keeps_onlyIf fun _ => hmemory _ hvalid hauthorized) fun _ =>
        keeps_bind keeps_audit fun _ => keeps_ite keeps_pure keeps_pure
    · exact keeps_denied

/-- The record of a token as a creation asks for it. -/
def Requested (env : Environment) (w : World) (random : String) (body : Json)
    (t : RegistryPublishTokenRecord) : Prop :=
  t.tokenHash = tokenHash env (clearToken (nextRegistryTokenId w) random) ∧
    t.scopes = requestedScopes body ∧ t.packagePatterns = requestedPatterns body

theorem holds_handleCreatePublishToken (random : String) (body : Json) (hw : I w)
    (htakePostgres : Keeps I (execPostgres fault .nextToken (·.takeRegistryTokenId)))
    (htakeMemory : Keeps I (modifyMemory (·.takeRegistryTokenId)))
    (hpostgres : ∀ t, Requested env w random body t →
      body.textOr "expires_at" "" = some t.expiresAt →
      Keeps I (execPostgres fault .token (·.upsertRegistryPublishToken t)))
    (hmemory : ∀ t, Requested env w random body t →
      body.textOr "expires_at" "" = some t.expiresAt →
      Keeps I (modifyMemory (·.upsertRegistryPublishToken t))) :
    I (handleCreatePublishToken env host fault random request body w).2 := by
  unfold handleCreatePublishToken
  split
  · exact hw
  cases (stringArrayError body "scopes").or (stringArrayError body "package_patterns") with
  | some detail => exact hw
  | none =>
    dsimp only
    apply wp.of_snd
    rw [wp_bind, jsonTextOr]
    cases body.textOr "owner_id" (registryActorId env request) with
    | none => exact hw
    | some ownerId =>
      rw [wp_pure, wp_ite]
      refine ⟨fun _ => ?_, fun _ => keeps_denied.wp hw⟩
      rw [issuePublishToken, wp_bind, wp_read]
      refine Keeps.wp ?_ hw
      exact keeps_bind htakePostgres fun _ =>
        keeps_bind (keeps_onlyIf fun _ => htakeMemory) fun _ => keeps_bind keeps_failAt fun _ =>
        keeps_bind_jsonTextOr fun _ htext =>
        keeps_bind (hpostgres _ ⟨rfl, rfl, rfl⟩ htext) fun _ =>
        keeps_bind (hmemory _ ⟨rfl, rfl, rfl⟩ htext) fun _ =>
        keeps_bind keeps_audit fun _ => keeps_pure

theorem keeps_handleRevokePublishToken (tokenId : String)
    (hpostgres : ∀ revokedAt, Keeps I
      (execPostgres fault .revokeToken (·.revokeRegistryPublishToken tokenId revokedAt)))
    (hmemory : ∀ revokedAt, Keeps I
      (modifyMemory (·.revokeRegistryPublishToken tokenId revokedAt))) :
    Keeps I (handleRevokePublishToken env host fault tokenId request) := by
  refine keeps_bind keeps_read fun w =>
    keeps_bind (keeps_onlyIf fun _ => keeps_failAt) fun _ => ?_
  dsimp only
  split
  · exact keeps_denied
  · exact keeps_ite (keeps_bind (hpostgres _) fun _ => keeps_bind (hmemory _) fun _ =>
      keeps_bind keeps_audit fun _ => keeps_pure) keeps_denied

end rules

end StyioPlatform.Registry
