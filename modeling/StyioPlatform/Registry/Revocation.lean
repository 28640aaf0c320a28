import StyioPlatform.Registry.Owners
import StyioPlatform.Registry.Tokens

/-! Several nodes over one Postgres database, each with its own memory store: what becomes of an
owner who is removed, or of a token that is revoked, at one of them. -/
namespace StyioPlatform.Registry

open Prog

/-- The nodes, whose Postgres is the shared one, and what was withdrawn so far. -/
structure Cluster (ι : Type) where
  nodes : ι → World
  postgres : PostgresStore
  /-- The owners that were removed and not added again since. -/
  removed : List (String × String) := []
  revoked : List String := []

/-- The node as its handlers see it. -/
def Cluster.world {ι : Type} (c : Cluster ι) (i : ι) : World :=
  { c.nodes i with postgres := some c.postgres }

/-- What can happen at a node. The clock of a host always shows something. -/
inductive ClusterEvent (ι : Type) where
  | request (i : ι) (host : Host) (clock : host.now ≠ "") (fault : Option Site)
      (request : ControlRequest)
  | restart (i : ι)

/-- The request was answered with 200. -/
def answeredOk (x : Except Failure HttpResponse) : Bool :=
  match x with
  | .ok response => response.status == 200
  | .error _ => false

/-- The owner whom the request asks to remove. -/
def removalOf : ControlRequest → List (String × String)
  | .removePackageOwner namespaceName name ownerId _ => [(namespaceName ++ "/" ++ name, ownerId)]
  | _ => []

/-- The token that the request asks to revoke. -/
def revocationOf : ControlRequest → List String
  | .revokePublishToken tokenId _ => [tokenId]
  | _ => []

def Cluster.step {ι : Type} [DecidableEq ι] (env : Environment) (cfg : ι → PlatformConfig)
    (c : Cluster ι) : ClusterEvent ι → Cluster ι
  | .request i host _ fault r =>
    let run := handleControlRequest env (cfg i) host fault r (c.world i)
    let postgres := run.2.postgres.getD c.postgres
    { nodes := Function.update c.nodes i run.2
      postgres
      removed := ((if answeredOk run.1 then removalOf r else []) ++ c.removed).filter fun x =>
        !postgres.hasRegistryPackageOwner x.1 x.2
      revoked := (if answeredOk run.1 then revocationOf r else []) ++ c.revoked }
  | .restart i => { c with nodes := Function.update c.nodes i (c.nodes i).restart }

/-- A request without a token, of a certificate that has no authority of its own. -/
structure ByOwner (ownerId : String) (request : HttpRequest) : Prop where
  token : registryTokenFromHeaders request.headers = none
  identity : ∀ identity ∈ request.identity, identity.nodeId = ownerId ∧
    identity.role ≠ "operator" ∧ identity.role ≠ "registry-writer"

/-- The headers present the token of that id. -/
def Presents (env : Environment) (s : PostgresStore) (headers : List (String × String))
    (tokenId : String) : Prop :=
  ∃ clear token, registryTokenFromHeaders headers = some clear ∧
    s.findRegistryPublishTokenByHash (sha256Bytes env clear.toUTF8.toList) = some token ∧
    token.tokenId = tokenId

/-- What was withdrawn opens no node. -/
structure Cluster.Withdrawn {ι : Type} (env : Environment) (c : Cluster ι) : Prop where
  owners : ∀ x ∈ c.removed, ∀ i host request scope, ByOwner x.2 request →
    authorized env host (c.world i) request scope x.1 = false
  tokens : ∀ id ∈ c.revoked, ∀ i host headers scope package, Presents env c.postgres headers id →
    tokenAuthorized env host (c.world i) headers scope package = false

/-- No other node still lists an owner who is removed. -/
def HeldHereOnly {ι : Type} (env : Environment) (cfg : ι → PlatformConfig) (c : Cluster ι) :
    ClusterEvent ι → Prop
  | .request i host _ fault r =>
    answeredOk (handleControlRequest env (cfg i) host fault r (c.world i)).1 = true →
      ∀ x ∈ removalOf r, ∀ j ≠ i, (c.nodes j).memory.hasRegistryPackageOwner x.1 x.2 = false
  | .restart _ => True

variable {env : Environment} {cfg : PlatformConfig} {host : Host} {fault : Option Site}
  {w w' : World} {request : HttpRequest} {s : PostgresStore}

section owners

/-- The owners in memory are those of before, or Postgres has them. -/
def Covered (w : World) (g : Grants) : Prop :=
  ∃ rows, g.storedOwners = some rows ∧ ∀ p o, validatePackageName p = none →
    hasKey g.owners (p ++ "/" ++ o) = true →
    w.memory.hasRegistryPackageOwner p o = true ∨ hasKey rows (toLex (p, o)) = true

theorem covered_self (h : w.postgres = some s) : Covered w w.grants :=
  ⟨s.owners, by simp [World.grants, h], fun _ _ _ hkey => Or.inl hkey⟩

theorem keeps_covered_memory {f : MemoryStateStore → MemoryStateStore}
    (hf : ∀ m, (f m).owners = m.owners) :
    Keeps (fun w' => Covered w w'.grants) (modifyMemory f) := by
  rintro w' ⟨rows, hrows, h⟩
  refine ⟨rows, hrows, fun p o hp hkey => h p o hp ?_⟩
  simpa [modifyMemory, Prog.modify, World.grants, hf] using hkey

/-- A statement on Postgres that removes no owner. -/
theorem keeps_covered_postgres {statement : PostgresStatement} {f : PostgresStore → PostgresStore}
    (hf : ∀ s k, hasKey s.owners k = true → hasKey (f s).owners k = true) :
    Keeps (fun w' => Covered w w'.grants) (execPostgres fault statement f) := by
  rw [keeps_iff]
  rintro w' ⟨rows, hrows, h⟩
  apply wp_execPostgres
  · cases hs : w'.postgres with
    | none => simp [World.grants, hs] at hrows
    | some s =>
      simp only [World.grants, hs, Option.map_some, Option.some.injEq] at hrows
      subst hrows
      refine ⟨(f s).owners, by simp [World.grants], fun p o hp hkey => ?_⟩
      exact (h p o hp hkey).imp_right (hf s _)
  · intro _ _
    exact ⟨rows, hrows, h⟩

/-- An owner enters Postgres first, so that memory may have it after that. -/
theorem wp_covered_entry {record : RegistryPackageOwnerRecord} {statement : PostgresStatement}
    {f : MemoryStateStore → MemoryStateStore} (hvalid : validatePackageName record.packageId = none)
    (hf : ∀ m, (f m).owners = (m.addRegistryPackageOwner record).owners)
    (hw : Covered w w'.grants) :
    wp (execPostgres fault statement (·.addRegistryPackageOwner record))
      (fun _ w' => Covered w ({ w' with memory := f w'.memory } : World).grants)
      (fun _ w' => Covered w w'.grants) w' := by
  obtain ⟨rows, hrows, h⟩ := hw
  apply wp_execPostgres
  · cases hs : w'.postgres with
    | none => simp [World.grants, hs] at hrows
    | some s =>
      simp only [World.grants, hs, Option.map_some, Option.some.injEq] at hrows
      subst hrows
      refine ⟨(s.addRegistryPackageOwner record).owners, by simp [World.grants], ?_⟩
      intro p o hp hkey
      simp only [World.grants, hf, MemoryStateStore.addRegistryPackageOwner] at hkey
      simp only [PostgresStore.addRegistryPackageOwner, hasKey_upsertRow]
      rcases hasKey_setKey.mp hkey with hkey | hkey
      · obtain ⟨rfl, rfl⟩ := ownerKey_injective hp hvalid hkey
        exact Or.inr (Or.inl rfl)
      · exact (h p o hp hkey).imp_right Or.inr
  · intro _ _
    exact ⟨rows, hrows, h⟩

theorem covered_handlePublishRelease (hs : w.postgres = some s) :
    Covered w (handlePublishRelease env cfg host fault request w).2.grants := by
  apply grants_handlePublishRelease (covered_self hs)
  intro draft hdraft
  have hvalid := (drafted_of_draftOf (w := w) hdraft).validName
  apply keeps_tryPublish
  · exact keepsTables_refreshFromObjectStore.keepsGrants
  apply keeps_publishDraft
  · exact changes_ensure.keepsTables.keepsGrants
  · exact fun _ => changes_appendRegistryReleaseToLocal.keepsTables.keepsGrants
  · exact changes_refreshSignedRegistryMetadata.keepsTables.keepsGrants
  · exact keepsTables_createRegistryPublication.keepsGrants
  · exact fun _ => keepsTables_uploadRegistryTreeToS3.keepsGrants
  · intro r payload
    refine keeps_bind (keeps_covered_memory fun _ => rfl) fun _ =>
      keeps_bind (keeps_covered_postgres fun _ _ h => h) fun _ =>
      keeps_bind (keeps_covered_postgres fun _ _ h => h) fun _ => ?_
    rw [keeps_iff]
    intro w' hw'
    rw [wp_bind]
    exact wp_mono (wp_covered_entry hvalid (fun _ => rfl) hw') (fun _ _ h => h) fun _ _ h => h

theorem covered_handleAddPackageOwner {namespaceName name : String} (hs : w.postgres = some s) :
    Covered w (handleAddPackageOwner env host fault namespaceName name request w).2.grants := by
  have hw : Covered w w.grants := covered_self hs
  unfold handleAddPackageOwner
  cases hvalid : validatePackageName (namespaceName ++ "/" ++ name) with
  | some detail => exact hw
  | none =>
    cases request.body with
    | none => exact hw
    | some fields =>
      dsimp only
      cases nonEmptyString fields "owner_id" with
      | none => exact hw
      | some ownerId =>
        refine holds_of_authorized (I := fun (w' : World) => Covered w w'.grants) hw (fun _ => ?_)
          keeps_denied
        refine keeps_bind keeps_rootTree fun _ => keeps_bind keeps_ofExcept fun records => ?_
        refine keeps_ite keeps_denied ?_
        refine keeps_bind keeps_textFieldOr fun ownerKind =>
          keeps_bind keeps_textFieldOr fun role => ?_
        rw [keeps_iff]
        intro w' hw'
        rw [wp_bind]
        refine wp_mono (wp_covered_entry hvalid (fun _ => rfl) hw') ?_ fun _ _ h => h
        intro _ w₁ h₁
        exact (keeps_bind keeps_audit fun _ => keeps_pure :
          Keeps (fun (w' : World) => Covered w w'.grants) _).wp h₁

/-- The memory has no owner that is new. -/
def Fewer (w w' : World) : Prop :=
  w'.postgres.isSome ∧ ∀ key, hasKey w'.memory.owners key = true →
    hasKey w.memory.owners key = true

/-- A removal enters no owner. -/
theorem covered_handleRemovePackageOwner {namespaceName name ownerId : String}
    (hs : w.postgres = some s) :
    Covered w
      (handleRemovePackageOwner env host fault namespaceName name ownerId request w).2.grants := by
  have hfewer : Fewer w
      (handleRemovePackageOwner env host fault namespaceName name ownerId request w).2 := by
    apply holds_handleRemovePackageOwner (I := Fewer w)
    · exact ⟨by simp [hs], fun _ h => h⟩
    · intro package _ _
      rw [keeps_iff]
      intro w' hw'
      apply wp_execPostgres
      · exact ⟨by simpa using hw'.1, hw'.2⟩
      · exact fun _ _ => hw'
    · intro package _ _ w' hw'
      exact ⟨hw'.1, fun key hkey => hw'.2 key (hasKey_eraseKey.mp hkey).2⟩
  obtain ⟨hsome, hmemory⟩ := hfewer
  obtain ⟨s', hs'⟩ := Option.isSome_iff_exists.mp hsome
  exact ⟨s'.owners, by simp [World.grants, hs'], fun p o _ hkey => Or.inl (hmemory _ hkey)⟩

theorem covered_handleCreatePublishToken {random : String} {body : Json}
    (hs : w.postgres = some s) :
    Covered w (handleCreatePublishToken env host fault random request body w).2.grants := by
  apply holds_handleCreatePublishToken (I := fun (w' : World) => Covered w w'.grants) random body
    (covered_self hs)
  · exact keeps_covered_postgres fun _ _ h => h
  · exact keeps_covered_memory fun _ => rfl
  · exact fun _ _ _ => keeps_covered_postgres fun _ _ h => h
  · exact fun _ _ _ => keeps_covered_memory fun _ => rfl

theorem covered_handleRevokePublishToken {tokenId : String} (hs : w.postgres = some s) :
    Covered w (handleRevokePublishToken env host fault tokenId request w).2.grants := by
  refine keeps_handleRevokePublishToken (I := fun (w' : World) => Covered w w'.grants) tokenId ?_ ?_
    w (covered_self hs)
  · intro revokedAt
    apply keeps_covered_postgres
    intro s k hk
    unfold PostgresStore.revokeRegistryPublishToken
    split <;> exact hk
  · intro revokedAt
    apply keeps_covered_memory
    intro m
    unfold MemoryStateStore.revokeRegistryPublishToken
    split <;> rfl

/-- One request leaves in the memory of its node no owner that is new there and not in Postgres. -/
theorem covered_handleControlRequest (r : ControlRequest) (hs : w.postgres = some s) :
    Covered w (handleControlRequest env cfg host fault r w).2.grants := by
  cases r with
  | write request =>
    by_cases hpublish : ∃ r, request = .publishRelease r
    · obtain ⟨r, rfl⟩ := hpublish
      exact covered_handlePublishRelease hs
    · exact keepsGrants_handleRequest (J := Covered w) (not_exists.mp hpublish) w (covered_self hs)
  | addPackageOwner namespaceName name request => exact covered_handleAddPackageOwner hs
  | removePackageOwner namespaceName name ownerId request =>
    exact covered_handleRemovePackageOwner hs
  | createPublishToken random request body => exact covered_handleCreatePublishToken hs
  | revokePublishToken tokenId request => exact covered_handleRevokePublishToken hs

/-- A removal that was answered with 200 has taken the owner out of Postgres and of the memory of
its node. -/
theorem removed_of_answeredOk {namespaceName name ownerId : String}
    (hok : answeredOk
      (handleRemovePackageOwner env host fault namespaceName name ownerId request w).1 = true) :
    validatePackageName (namespaceName ++ "/" ++ name) = none ∧
    (handleRemovePackageOwner env host fault namespaceName name ownerId request
      w).2.memory.hasRegistryPackageOwner (namespaceName ++ "/" ++ name) ownerId = false := by
  cases hvalid : validatePackageName (namespaceName ++ "/" ++ name) with
  | some detail =>
    simp [handleRemovePackageOwner, hvalid, answeredOk, ownerRejected, failureResponse, pure] at hok
  | none =>
    refine ⟨rfl, ?_⟩
    have hwp : wp (removePackageOwner env host fault (namespaceName ++ "/" ++ name) ownerId request)
        (fun response w' => response.status = 200 → w'.memory.hasRegistryPackageOwner
          (namespaceName ++ "/" ++ name) ownerId = false) (fun _ _ => True) w := by
      rw [removePackageOwner, wp_bind]
      refine wp_authorized (fun _ => ?_) fun _ => trivial
      rw [wp_ite]
      refine ⟨fun _ => ?_, fun _ => ?_⟩
      · rw [wp_bind, wp_read, wp_bind]
        refine wp_execPostgres ?_ fun _ _ => trivial
        rw [wp_bind, wp_onlyIf]
        refine ⟨fun hremoved => ?_, fun hremoved => ?_⟩
        · rw [modifyMemory, wp_modify, wp_bind]
          refine wp_audit ?_ fun _ => trivial
          rw [if_pos hremoved]
          intro _
          simp [MemoryStateStore.hasRegistryPackageOwner,
            MemoryStateStore.removeRegistryPackageOwner, Bool.eq_false_iff, hasKey_eraseKey]
        · rw [wp_bind]
          refine wp_audit ?_ fun _ => trivial
          rw [if_neg (by simpa using hremoved)]
          intro h
          exact absurd h (by decide)
      · rw [wp_bind]
        refine wp_audit (fun h => ?_) fun _ => trivial
        exact absurd h (by simp [ownerDenied, failureResponse])
    rw [handleRemovePackageOwner, hvalid] at hok ⊢
    dsimp only at hok ⊢
    rcases hrun : removePackageOwner env host fault (namespaceName ++ "/" ++ name) ownerId request w
      with ⟨_ | response, w'⟩
    · simp [hrun, answeredOk] at hok
    · rw [hrun] at hok
      exact hwp.of_ok hrun (by simpa [answeredOk] using hok)

end owners

section tokens

/-- The rows of the tokens are numbered below the counter, and those of the given ids are
revoked. -/
structure TokensSound (revoked : List String) (rows : List (String × RegistryPublishTokenRecord))
    (n : ℕ) : Prop where
  tokenId : ∀ x ∈ rows, x.2.tokenId = x.1
  numbered : ∀ x ∈ rows, ∃ k < n, x.1 = registryTokenIdFor k
  known : ∀ id ∈ revoked, ∃ k < n, id = registryTokenIdFor k
  revoked : ∀ x ∈ rows, x.1 ∈ revoked → x.2.revokedAt ≠ ""

variable {revoked : List String} {rows : List (String × RegistryPublishTokenRecord)} {n : ℕ}

def KeepsTokens (revoked : List String) (g : Grants) : Prop :=
  ∃ rows n, g.storedTokens = some rows ∧ g.storedSequence = some n ∧ TokensSound revoked rows n

theorem keepsTokens_iff (hs : w.postgres = some s) : KeepsTokens revoked w.grants ↔
    TokensSound revoked s.tokens s.nextRegistryTokenSequence := by
  simp [KeepsTokens, World.grants, hs]

theorem registryTokenIdFor_injective : Function.Injective registryTokenIdFor := by
  intro k l h
  have hlist := congrArg String.toList h
  simp only [registryTokenIdFor, paddedNumber, String.toList_append, String.toList_ofList,
    List.append_cancel_left_eq] at hlist
  exact paddedDigits_injective 12 hlist

theorem TokensSound.take (h : TokensSound revoked rows n) : TokensSound revoked rows (n + 1) where
  tokenId := h.tokenId
  numbered x hx := by
    obtain ⟨k, hk, he⟩ := h.numbered x hx
    exact ⟨k, by omega, he⟩
  known id hid := by
    obtain ⟨k, hk, he⟩ := h.known id hid
    exact ⟨k, by omega, he⟩
  revoked := h.revoked

/-- A new token has the number of the counter, which no row and no revoked token has. -/
theorem TokensSound.create {t : RegistryPublishTokenRecord} (h : TokensSound revoked rows n)
    (ht : t.tokenId = registryTokenIdFor n) :
    TokensSound revoked (setKey rows t.tokenId t) (n + 1) where
  tokenId x hx := by
    rcases mem_setKey.mp hx with rfl | ⟨hx, -⟩
    · rfl
    · exact h.tokenId x hx
  numbered x hx := by
    rcases mem_setKey.mp hx with rfl | ⟨hx, -⟩
    · exact ⟨n, by omega, ht⟩
    · exact h.take.numbered x hx
  known := h.take.known
  revoked x hx hid := by
    rcases mem_setKey.mp hx with rfl | ⟨hx, -⟩
    · obtain ⟨k, hk, he⟩ := h.known _ hid
      have := registryTokenIdFor_injective (ht.symm.trans he)
      omega
    · exact h.revoked x hx hid

theorem TokensSound.revoke {tokenId now : String} {t : RegistryPublishTokenRecord}
    (h : TokensSound revoked rows n) (ht : (tokenId, t) ∈ rows) (hnow : now ≠ "") :
    TokensSound (tokenId :: revoked) (setKey rows tokenId { t with revokedAt := now }) n where
  tokenId x hx := by
    rcases mem_setKey.mp hx with rfl | ⟨hx, -⟩
    · exact h.tokenId (tokenId, t) ht
    · exact h.tokenId x hx
  numbered x hx := by
    rcases mem_setKey.mp hx with rfl | ⟨hx, -⟩
    · exact h.numbered (tokenId, t) ht
    · exact h.numbered x hx
  known id hid := by
    rcases List.mem_cons.mp hid with rfl | hid
    · exact h.numbered _ ht
    · exact h.known id hid
  revoked x hx hid := by
    rcases mem_setKey.mp hx with rfl | ⟨hx, hne⟩
    · exact hnow
    · rcases List.mem_cons.mp hid with he | hid
      · exact absurd he hne
      · exact h.revoked x hx hid

theorem TokensSound.of_subset {revoked' : List String} (h : TokensSound revoked rows n)
    (hsub : ∀ id ∈ revoked', id ∈ revoked) : TokensSound revoked' rows n where
  tokenId := h.tokenId
  numbered := h.numbered
  known id hid := h.known id (hsub id hid)
  revoked x hx hid := h.revoked x hx (hsub _ hid)

theorem keeps_keepsTokens_memory {f : MemoryStateStore → MemoryStateStore} :
    Keeps (fun w' => KeepsTokens revoked w'.grants) (modifyMemory f) := fun _ h => h

/-- A statement on Postgres that leaves the tokens and their counter alone. -/
theorem keeps_keepsTokens_postgres {statement : PostgresStatement}
    {f : PostgresStore → PostgresStore} (htokens : ∀ s, (f s).tokens = s.tokens)
    (hsequence : ∀ s, (f s).nextRegistryTokenSequence = s.nextRegistryTokenSequence) :
    Keeps (fun w' => KeepsTokens revoked w'.grants) (execPostgres fault statement f) := by
  rw [keeps_iff]
  intro w h
  apply wp_execPostgres
  · cases hs : w.postgres with
    | none => simp [KeepsTokens, World.grants, hs] at h
    | some s =>
      rw [keepsTokens_iff hs] at h
      rw [keepsTokens_iff rfl, htokens, hsequence]
      exact h
  · exact fun _ _ => h

theorem exists_upsertRow_eq {t : RegistryPublishTokenRecord} :
    ∃ t', t'.tokenId = t.tokenId ∧ upsertRow rows t.tokenId t
      (fun old => { t with createdAt := old.createdAt }) = setKey rows t.tokenId t' := by
  unfold upsertRow
  split
  · exact ⟨t, rfl, rfl⟩
  · next old _ => exact ⟨{ t with createdAt := old.createdAt }, rfl, rfl⟩

theorem wp_issuePublishToken {ownerId random : String} {body : Json} (hs : w.postgres = some s)
    (h : TokensSound revoked s.tokens s.nextRegistryTokenSequence) :
    wp (issuePublishToken env host fault ownerId random body)
      (fun _ w' => KeepsTokens revoked w'.grants)
      (fun _ w' => KeepsTokens revoked w'.grants) w := by
  rw [issuePublishToken, wp_bind, wp_read, wp_bind]
  refine wp_execPostgres ?_ fun _ _ => (keepsTokens_iff hs).mpr h
  have htaken : ∀ w' : World, w'.postgres = some s.takeRegistryTokenId →
      KeepsTokens revoked w'.grants := fun w' hw' => (keepsTokens_iff hw').mpr h.take
  -- between the two statements Postgres stays as the first one leaves it
  have hbefore : ∀ {x : Program Unit} {k : Unit → Program HttpResponse} {w' : World},
      Keeps (fun w' : World => w'.postgres = some s.takeRegistryTokenId) x →
      w'.postgres = some s.takeRegistryTokenId →
      (∀ w' : World, w'.postgres = some s.takeRegistryTokenId →
        wp (k ()) (fun _ w' => KeepsTokens revoked w'.grants)
          (fun _ w' => KeepsTokens revoked w'.grants) w') →
      wp (x >>= k) (fun _ w' => KeepsTokens revoked w'.grants)
        (fun _ w' => KeepsTokens revoked w'.grants) w' := by
    intro x k w' hx hw' hk
    rw [wp_bind]
    exact wp_mono (hx.wp hw') (fun _ w₁ h₁ => hk w₁ h₁) fun _ w₁ h₁ => htaken w₁ h₁
  refine hbefore (keeps_onlyIf fun _ => keeps_modify fun _ h => h) (by simp [hs]) fun w₁ hw₁ => ?_
  refine hbefore keeps_failAt hw₁ fun w₂ hw₂ => ?_
  rw [wp_bind]
  have htext : Keeps (fun w' : World => w'.postgres = some s.takeRegistryTokenId)
      (jsonTextOr body "expires_at" "") := keeps_jsonTextOr
  refine wp_mono (htext.wp hw₂) ?_ fun _ w₃ hw₃ => htaken w₃ hw₃
  intro expiresAt w₃ hw₃
  rw [wp_bind]
  refine wp_execPostgres ?_ fun _ _ => htaken w₃ hw₃
  have hcreated : ∀ t : RegistryPublishTokenRecord,
      t.tokenId = registryTokenIdFor s.nextRegistryTokenSequence →
      KeepsTokens revoked ({ w₃ with
        postgres := w₃.postgres.map (·.upsertRegistryPublishToken t) } : World).grants := by
    intro t ht
    rw [hw₃, Option.map_some, keepsTokens_iff rfl]
    obtain ⟨t', ht', hrows⟩ := @exists_upsertRow_eq s.tokens t
    have hsound := h.create (ht'.trans ht)
    rw [ht', ← hrows] at hsound
    exact hsound
  refine Keeps.wp ?_ (hcreated _ (by simp [nextRegistryTokenId, hs]))
  exact keeps_bind keeps_keepsTokens_memory fun _ => keeps_bind keeps_audit fun _ => keeps_pure

theorem keepsTokens_handleCreatePublishToken {random : String} {body : Json}
    (hs : w.postgres = some s) (h : TokensSound revoked s.tokens s.nextRegistryTokenSequence) :
    KeepsTokens revoked
      (handleCreatePublishToken env host fault random request body w).2.grants := by
  have hw : KeepsTokens revoked w.grants := (keepsTokens_iff hs).mpr h
  rw [handleCreatePublishToken]
  split
  · exact hw
  cases (stringArrayError body "scopes").or (stringArrayError body "package_patterns") with
  | some detail => exact hw
  | none =>
    dsimp only
    apply wp.of_snd (P := fun (w' : World) => KeepsTokens revoked w'.grants)
    rw [wp_bind]
    have howner : Keeps (fun w' => w' = w)
        (jsonTextOr body "owner_id" (registryActorId env request)) := keeps_jsonTextOr
    refine wp_mono (howner.wp rfl) ?_ ?_
    · rintro ownerId _ rfl
      rw [wp_ite]
      exact ⟨fun _ => wp_issuePublishToken hs h, fun _ => keeps_denied.wp hw⟩
    · rintro _ _ rfl
      exact hw

/-- What a revocation does: nothing, or the token is revoked in Postgres. -/
theorem wp_handleRevokePublishToken {tokenId : String} (hs : w.postgres = some s) :
    wp (handleRevokePublishToken env host fault tokenId request)
      (fun response w' => (w'.postgres = some s ∧ response.status ≠ 200) ∨
        ∃ t, (tokenId, t) ∈ s.tokens ∧ w'.postgres = some { s with
          tokens := setKey s.tokens tokenId { t with revokedAt := host.now } })
      (fun _ w' => w'.postgres = some s ∨ ∃ t, (tokenId, t) ∈ s.tokens ∧ w'.postgres =
        some { s with tokens := setKey s.tokens tokenId { t with revokedAt := host.now } }) w := by
  rw [handleRevokePublishToken, wp_bind, wp_read, wp_bind, wp_onlyIf, wp_failAt]
  refine ⟨fun _ => ⟨fun _ => Or.inl hs, fun _ => ?_⟩, fun h => absurd h (by simp [hs])⟩
  simp only [hs]
  cases hfound : s.getRegistryPublishToken tokenId with
  | none =>
    rw [wp_bind]
    exact wp_audit (Or.inl ⟨hs, by simp [failureResponse]⟩) fun _ => Or.inl hs
  | some t =>
    dsimp only
    have hmem : (tokenId, t) ∈ s.tokens := mem_of_getKey hfound
    rw [wp_ite]
    refine ⟨fun _ => ?_, fun _ => ?_⟩
    · rw [wp_bind]
      refine wp_execPostgres ?_ fun _ _ => Or.inl hs
      have hrevoked : w.postgres.map (·.revokeRegistryPublishToken tokenId host.now) =
          some { s with tokens := setKey s.tokens tokenId { t with revokedAt := host.now } } := by
        rw [PostgresStore.getRegistryPublishToken] at hfound
        simp [hs, PostgresStore.revokeRegistryPublishToken, hfound]
      rw [wp_bind, modifyMemory, wp_modify, wp_bind]
      exact wp_audit (Or.inr ⟨t, hmem, hrevoked⟩) fun _ => Or.inr ⟨t, hmem, hrevoked⟩
    · rw [wp_bind]
      exact wp_audit (Or.inl ⟨hs, by simp [failureResponse]⟩) fun _ => Or.inl hs

theorem keepsTokens_handlePublishRelease (hw : KeepsTokens revoked w.grants) :
    KeepsTokens revoked (handlePublishRelease env cfg host fault request w).2.grants := by
  apply grants_handlePublishRelease hw
  intro draft _
  apply keepsGrants_tryPublish
  · exact fun _ => keeps_keepsTokens_postgres (fun _ => rfl) fun _ => rfl
  · exact fun _ => keeps_keepsTokens_memory

/-- A request that revokes no token leaves those revoked that are. -/
theorem keepsTokens_handleControlRequest {r : ControlRequest} (hr : revocationOf r = [])
    (hs : w.postgres = some s) (h : TokensSound revoked s.tokens s.nextRegistryTokenSequence) :
    KeepsTokens revoked (handleControlRequest env cfg host fault r w).2.grants := by
  have hw : KeepsTokens revoked w.grants := (keepsTokens_iff hs).mpr h
  cases r with
  | write request =>
    by_cases hpublish : ∃ r, request = .publishRelease r
    · obtain ⟨r, rfl⟩ := hpublish
      exact keepsTokens_handlePublishRelease hw
    · exact keepsGrants_handleRequest (J := KeepsTokens revoked) (not_exists.mp hpublish) w hw
  | addPackageOwner namespaceName name request =>
    apply holds_handleAddPackageOwner (I := fun (w' : World) => KeepsTokens revoked w'.grants)
      namespaceName name hw
    · exact fun _ _ _ => keeps_keepsTokens_postgres (fun _ => rfl) fun _ => rfl
    · exact fun _ _ _ => keeps_keepsTokens_memory
  | removePackageOwner namespaceName name ownerId request =>
    apply holds_handleRemovePackageOwner (I := fun (w' : World) => KeepsTokens revoked w'.grants)
      namespaceName name ownerId hw
    · exact fun _ _ _ => keeps_keepsTokens_postgres (fun _ => rfl) fun _ => rfl
    · exact fun _ _ _ => keeps_keepsTokens_memory
  | createPublishToken random request body => exact keepsTokens_handleCreatePublishToken hs h
  | revokePublishToken tokenId request => cases hr

/-- A token whose revocation is answered with 200 joins the revoked ones. -/
theorem keepsTokens_handleRevokePublishToken {tokenId : String} (hclock : host.now ≠ "")
    (hs : w.postgres = some s) (h : TokensSound revoked s.tokens s.nextRegistryTokenSequence) :
    KeepsTokens ((if answeredOk (handleRevokePublishToken env host fault tokenId request w).1
        then [tokenId] else []) ++ revoked)
      (handleRevokePublishToken env host fault tokenId request w).2.grants := by
  have hwp := @wp_handleRevokePublishToken env host fault w request s tokenId hs
  have hdone : ∀ (w' : World) t, (tokenId, t) ∈ s.tokens → w'.postgres = some { s with
      tokens := setKey s.tokens tokenId { t with revokedAt := host.now } } →
      ∀ revoked', (∀ id ∈ revoked', id ∈ tokenId :: revoked) → KeepsTokens revoked' w'.grants := by
    intro w' t ht hw' revoked' hsub
    rw [keepsTokens_iff hw']
    exact (h.revoke ht hclock).of_subset hsub
  rcases hrun : handleRevokePublishToken env host fault tokenId request w with ⟨e | response, w'⟩
  · rcases hwp.of_error hrun with hw' | ⟨t, ht, hw'⟩
    · exact (keepsTokens_iff hw').mpr h
    · exact hdone w' t ht hw' revoked fun _ hid => List.mem_cons_of_mem _ hid
  · rcases hwp.of_ok hrun with ⟨hw', hstatus⟩ | ⟨t, ht, hw'⟩
    · rw [keepsTokens_iff hw']
      simpa [answeredOk, hstatus] using h
    · apply hdone w' t ht hw'
      intro id hid
      split at hid
      · exact hid
      · exact List.mem_cons_of_mem _ hid

end tokens

section cluster

variable {ι : Type} {c : Cluster ι}

/-- What every step keeps: the removed owners are in no memory and the revoked tokens are marked. -/
structure Cluster.Sound (c : Cluster ι) : Prop where
  valid : ∀ x ∈ c.removed, validatePackageName x.1 = none
  stored : ∀ x ∈ c.removed, c.postgres.hasRegistryPackageOwner x.1 x.2 = false
  memory : ∀ x ∈ c.removed, ∀ i, (c.nodes i).memory.hasRegistryPackageOwner x.1 x.2 = false
  tokens : TokensSound c.revoked c.postgres.tokens c.postgres.nextRegistryTokenSequence

theorem Cluster.Sound.owners (h : c.Sound) {x : String × String} (hx : x ∈ c.removed) (i : ι)
    {scope : String} (hrequest : ByOwner x.2 request) :
    authorized env host (c.world i) request scope x.1 = false := by
  have htoken : tokenAuthorized env host (c.world i) request.headers scope x.1 = false := by
    simp [tokenAuthorized, hrequest.token]
  have hidentity : ∀ identity ∈ request.identity,
      identityAuthorized (c.world i) identity scope x.1 = false := by
    intro identity hidentity
    obtain ⟨hnode, hoperator, hwriter⟩ := hrequest.identity identity hidentity
    have hmemory := h.memory x hx i
    have hstored := h.stored x hx
    simp [identityAuthorized, Cluster.world, hnode, hoperator, hwriter, hmemory, hstored]
  rw [authorized, htoken, Bool.or_false]
  cases hr : request.identity with
  | none => rfl
  | some identity => exact hidentity identity hr

theorem Cluster.Sound.rejects (h : c.Sound) {id : String} (hid : id ∈ c.revoked) (i : ι)
    {headers : List (String × String)} {scope package : String}
    (hpresents : Presents env c.postgres headers id) :
    tokenAuthorized env host (c.world i) headers scope package = false := by
  obtain ⟨clear, token, hclear, hfound, rfl⟩ := hpresents
  obtain ⟨x, hx, hxt⟩ := Option.map_eq_some_iff.mp hfound
  have hmem : x ∈ c.postgres.tokens := List.mem_of_find?_eq_some hx
  have hrevoked : token.revokedAt ≠ "" := by
    rw [← hxt]
    apply h.tokens.revoked x hmem
    rw [← h.tokens.tokenId x hmem, hxt]
    exact hid
  simp only [tokenAuthorized, hclear, Cluster.world, hfound]
  simp [hrevoked]

theorem Cluster.Sound.withdrawn (h : c.Sound) : c.Withdrawn env where
  owners _ hx i _ _ _ hrequest := h.owners hx i hrequest
  tokens _ hid i _ _ _ _ hpresents := h.rejects hid i hpresents

variable [DecidableEq ι] {cfgs : ι → PlatformConfig}

theorem Cluster.Sound.restart (h : c.Sound) (i : ι) :
    (c.step env cfgs (.restart i)).Sound where
  valid := h.valid
  stored := h.stored
  memory x hx j := by
    rcases eq_or_ne j i with rfl | hj
    · simp [Cluster.step, World.restart, MemoryStateStore.hasRegistryPackageOwner, hasKey]
    · simpa [Cluster.step, hj] using h.memory x hx j
  tokens := h.tokens

/-- One request keeps the revoked tokens marked and marks the one that it revokes. -/
theorem TokensSound.answer {revoked : List String} (clock : host.now ≠ "") (r : ControlRequest)
    (hs : w.postgres = some s) (h : TokensSound revoked s.tokens s.nextRegistryTokenSequence) :
    KeepsTokens ((if answeredOk (handleControlRequest env cfg host fault r w).1
        then revocationOf r else []) ++ revoked)
      (handleControlRequest env cfg host fault r w).2.grants := by
  by_cases hr : revocationOf r = []
  · have hkept := @keepsTokens_handleControlRequest env cfg host fault w s revoked r hr hs h
    simpa [hr] using hkept
  · cases r with
    | revokePublishToken tokenId request => exact keepsTokens_handleRevokePublishToken clock hs h
    | _ => exact absurd rfl hr

/-- An owner whom a request removes with 200 has a package name, and its node no longer lists it. -/
theorem removal_of_answeredOk {r : ControlRequest} {x : String × String}
    (hok : answeredOk (handleControlRequest env cfg host fault r w).1 = true)
    (hx : x ∈ removalOf r) :
    validatePackageName x.1 = none ∧
    (handleControlRequest env cfg host fault r w).2.memory.hasRegistryPackageOwner x.1 x.2 =
      false := by
  cases r with
  | removePackageOwner namespaceName name ownerId request =>
    obtain rfl := List.mem_singleton.mp hx
    exact removed_of_answeredOk hok
  | _ => cases hx

/-- A removed owner is in the memory of no node, whether the request removes it or not. -/
theorem Cluster.Sound.answer (h : c.Sound) {i : ι} {clock : host.now ≠ ""} {r : ControlRequest}
    (hheld : HeldHereOnly env cfgs c (.request i host clock fault r)) :
    (c.step env cfgs (.request i host clock fault r)).Sound := by
  have htokens := @TokensSound.answer env (cfgs i) host fault (c.world i) c.postgres c.revoked
    clock r rfl h.tokens
  obtain ⟨rows, hrows, hcovered⟩ :=
    @covered_handleControlRequest env (cfgs i) host fault (c.world i) c.postgres r rfl
  have hremoval := fun x => @removal_of_answeredOk env (cfgs i) host fault (c.world i) r x
  simp only [HeldHereOnly] at hheld
  simp only [Cluster.step]
  generalize handleControlRequest env (cfgs i) host fault r (c.world i) = run at *
  obtain ⟨answer, w'⟩ := run
  obtain ⟨s', hs', rfl⟩ : ∃ s', w'.postgres = some s' ∧ s'.owners = rows := by
    simpa [World.grants] using hrows
  dsimp only at htokens hcovered hheld hremoval ⊢
  rw [keepsTokens_iff hs'] at htokens
  simp only [hs', Option.getD_some]
  have hmem : ∀ x ∈ ((if answeredOk answer then removalOf r else []) ++ c.removed).filter
      (fun x => !s'.hasRegistryPackageOwner x.1 x.2),
      ((answeredOk answer = true ∧ x ∈ removalOf r) ∨ x ∈ c.removed) ∧
        s'.hasRegistryPackageOwner x.1 x.2 = false := by
    intro x hx
    rw [List.mem_filter, List.mem_append] at hx
    refine ⟨hx.1.imp_left fun hx => ?_, by simpa using hx.2⟩
    split at hx
    · next hok => exact ⟨hok, hx⟩
    · cases hx
  have hvalid : ∀ x ∈ ((if answeredOk answer then removalOf r else []) ++ c.removed).filter
      (fun x => !s'.hasRegistryPackageOwner x.1 x.2), validatePackageName x.1 = none := by
    intro x hx
    rcases (hmem x hx).1 with ⟨hok, hnew⟩ | hold
    · exact (hremoval x hok hnew).1
    · exact h.valid x hold
  refine ⟨hvalid, fun x hx => (hmem x hx).2, fun x hx j => ?_, htokens⟩
  obtain ⟨hremoved, hstored⟩ := hmem x hx
  dsimp only
  rcases eq_or_ne j i with rfl | hj
  · rw [Function.update_self]
    rcases hremoved with ⟨hok, hnew⟩ | hold
    · exact (hremoval x hok hnew).2
    · rw [Bool.eq_false_iff]
      intro hkey
      -- the node would have had it before, or have it in Postgres
      rcases hcovered x.1 x.2 (hvalid x hx) hkey with hbefore | hpostgres
      · exact absurd hbefore (by simpa [Cluster.world] using h.memory x hold j)
      · exact absurd hpostgres (by simpa [PostgresStore.hasRegistryPackageOwner] using hstored)
  · rw [Function.update_of_ne hj]
    rcases hremoved with ⟨hok, hnew⟩ | hold
    · exact hheld hok x hnew j hj
    · exact h.memory x hold j

theorem Cluster.Sound.step (h : c.Sound) {event : ClusterEvent ι}
    (hheld : HeldHereOnly env cfgs c event) : (c.step env cfgs event).Sound := by
  cases event with
  | request i host clock fault r => exact h.answer hheld
  | restart i => exact h.restart i

/-- In a run in which an owner is only removed at the last node that lists it, what is withdrawn
at one node opens none. -/
theorem withdrawn_run {postgres : PostgresStore} {nodes : ι → World}
    {events : List (ClusterEvent ι)}
    (htokens : TokensSound [] postgres.tokens postgres.nextRegistryTokenSequence)
    (hheld : Along (Cluster.step env cfgs) (HeldHereOnly env cfgs) events { nodes, postgres }) :
    (events.foldl (Cluster.step env cfgs) { nodes, postgres }).Withdrawn env := by
  apply Cluster.Sound.withdrawn
  apply hheld.foldl (I := Cluster.Sound)
  · exact ⟨nofun, nofun, nofun, htokens⟩
  · exact fun c event hc hevent => hc.step hevent

instance [Fintype ι] : ∀ event, Decidable (HeldHereOnly env cfgs c event)
  | .request i host _ fault r => inferInstanceAs (Decidable
      (answeredOk (handleControlRequest env (cfgs i) host fault r (c.world i)).1 = true →
        ∀ x ∈ removalOf r, ∀ j ≠ i, (c.nodes j).memory.hasRegistryPackageOwner x.1 x.2 = false))
  | .restart _ => isTrue trivial

/-- A request at one of the two nodes of the sample. -/
def sampleAt (node : Bool) (r : ControlRequest) : ClusterEvent Bool :=
  .request node sampleHost (by decide) none r

def addOwnerOf (ownerId : String) : ControlRequest :=
  .addPackageOwner "a" "b" (operatorRequest [("owner_id", ownerId)])

def removeOwnerOf (ownerId : String) : ControlRequest :=
  .removePackageOwner "a" "b" ownerId (operatorRequest [])

/-- Two nodes and their database before the first request. -/
def sampleCluster : Cluster Bool where
  nodes _ := sampleStart
  postgres := {}

/-- The node that entered the owner removes it, and the other one revokes a token. -/
def withdrawals : List (ClusterEvent Bool) :=
  [sampleAt false (.write (publishOf "a/b" "1" "one")),
    sampleAt false (addOwnerOf "mallory"),
    sampleAt false (.createPublishToken "5f" (operatorRequest []) (.object [])),
    sampleAt false (removeOwnerOf "mallory"),
    sampleAt true (.revokePublishToken "tok-000000000001" (operatorRequest []))]

theorem withdrawn_withdrawals :
    (TokensSound [] sampleCluster.postgres.tokens sampleCluster.postgres.nextRegistryTokenSequence ∧
      Along (Cluster.step sampleEnvironment fun _ => sampleConfig)
        (HeldHereOnly sampleEnvironment fun _ => sampleConfig) withdrawals sampleCluster ∧
      (withdrawals.foldl (Cluster.step sampleEnvironment fun _ => sampleConfig)
        sampleCluster).removed = [("a/b", "mallory")] ∧
      (withdrawals.foldl (Cluster.step sampleEnvironment fun _ => sampleConfig)
        sampleCluster).revoked = ["tok-000000000001"]) ∧
    (withdrawals.foldl (Cluster.step sampleEnvironment fun _ => sampleConfig)
      sampleCluster).Withdrawn sampleEnvironment := by
  have htokens : TokensSound [] sampleCluster.postgres.tokens
      sampleCluster.postgres.nextRegistryTokenSequence := ⟨nofun, nofun, nofun, nofun⟩
  have hheld : Along (Cluster.step sampleEnvironment fun _ => sampleConfig)
      (HeldHereOnly sampleEnvironment fun _ => sampleConfig) withdrawals sampleCluster := by
    decide +kernel
  exact ⟨⟨htokens, hheld, by decide +kernel, by decide +kernel⟩, withdrawn_run htokens hheld⟩

/-- One node enters the owner and the other one removes it: the first goes on to accept it. -/
theorem not_withdrawn_elsewhere :
    ¬ ([sampleAt false (.write (publishOf "a/b" "1" "one")),
      sampleAt false (addOwnerOf "mallory"),
      sampleAt true (removeOwnerOf "mallory")].foldl
        (Cluster.step sampleEnvironment fun _ => sampleConfig)
        sampleCluster).Withdrawn sampleEnvironment := by
  intro h
  have hmallory := h.owners ("a/b", "mallory") (by decide +kernel) false sampleHost
    { identity := some { role := "package-owner", nodeId := "mallory" }, body := none }
    "package:publish" ⟨rfl, by simp⟩
  revert hmallory
  decide +kernel

end cluster

end StyioPlatform.Registry
