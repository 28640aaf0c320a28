import StyioPlatform.Registry.Owners

/-! Publish tokens. A creation checks that the caller names itself as owner, and stores whatever
scopes and patterns the body asks for; so a token has no more authority than its creator in the
runs in which creators ask for no more than they have. -/
namespace StyioPlatform.Registry

open Prog

/-- A token that was handed out: by whom it was asked for, and the registry before that. -/
structure Creation where
  identity : MtlsIdentity
  clear : String
  world : World

/-- A registry and the tokens created so far. -/
structure History where
  world : World
  created : List Creation := []

/-- The clear token of an answer. -/
def answeredToken : Except Failure HttpResponse → Option String
  | .ok { payload := .createdToken _ clear, .. } => some clear
  | _ => none

/-- The creation that an event makes. -/
def creationOf (env : Environment) (w : World) : Event → Option Creation
  | .request host fault (.createPublishToken random request body) => do
    let identity ← request.identity
    let clear ← answeredToken
      (handleCreatePublishToken env host fault random request body w).1
    pure { identity, clear, world := w }
  | _ => none

def History.step (env : Environment) (cfg : PlatformConfig) (h : History) (event : Event) :
    History where
  world := event.apply env cfg h.world
  created := h.created ++ (creationOf env h.world event).toList

/-- A request without a client certificate is accepted with a token of the history only if the
creator was entitled to it, when creating the token or now. -/
def Unamplified (env : Environment) (scope package : String) (h : History) : Prop :=
  ∀ c ∈ h.created, ∀ host request, request.identity = none →
    registryTokenFromHeaders request.headers = some c.clear →
    Accepts env host h.world request scope package →
    identityAuthorized c.world c.identity scope package = true ∨
      identityAuthorized h.world c.identity scope package = true

/-- Scopes and patterns reach a scope on a package. -/
def covers (scopes patterns : List String) (scope package : String) : Bool :=
  scope ∈ scopes && (package == "" || patterns.any (packagePatternMatches · package))

/-- A creation that asks for the scope on the package has it. -/
def WithinAuthority (scope package : String) (h : History) : Event → Prop
  | .request _ _ (.createPublishToken _ request body) =>
    covers (requestedScopes body) (requestedPatterns body) scope package = true →
      ∀ identity ∈ request.identity, identityAuthorized h.world identity scope package = true
  | _ => True

/-- The tokens of memory store and Postgres. -/
def Grants.tokenRecords (g : Grants) : List RegistryPublishTokenRecord :=
  g.tokens.map (·.2) ++ (g.storedTokens.getD []).map (·.2)

/-- The digest of a token that is about to be made is that of no token made before. -/
def FreshToken (env : Environment) (h : History) : Event → Prop
  | .request _ _ (.createPublishToken random _ _) =>
    let hash := tokenHash env (clearToken (nextRegistryTokenId h.world) random)
    (∀ t ∈ h.world.grants.tokenRecords, t.tokenHash ≠ hash) ∧
      ∀ c ∈ h.created, tokenHash env c.clear ≠ hash
  | _ => True

variable {env : Environment} {cfg : PlatformConfig} {host : Host} {fault : Option Site}
  {w w' : World} {request : HttpRequest} {scope package : String}

/-- The creators of a token, by its digest, were entitled to what it covers. -/
def Justified (env : Environment) (scope package : String) (created : List Creation)
    (t : RegistryPublishTokenRecord) : Prop :=
  ∀ c ∈ created, t.tokenHash = tokenHash env c.clear →
    covers t.scopes t.packagePatterns scope package = true →
    identityAuthorized c.world c.identity scope package = true

section tables

variable {M : RegistryPublishTokenRecord → Prop}

/-- All tokens of the tables have the property. -/
def AllTokens (M : RegistryPublishTokenRecord → Prop) (g : Grants) : Prop :=
  ∀ t ∈ g.tokenRecords, M t

theorem allTokens_iff : AllTokens M w.grants ↔
    (∀ x ∈ w.memory.tokens, M x.2) ∧ ∀ s ∈ w.postgres, ∀ x ∈ s.tokens, M x.2 := by
  simp only [AllTokens, Grants.tokenRecords, World.grants, List.forall_mem_append,
    List.forall_mem_map]
  cases w.postgres <;> simp

theorem keeps_allTokens_memory {f : MemoryStateStore → MemoryStateStore}
    (hf : ∀ m : MemoryStateStore, (∀ x ∈ m.tokens, M x.2) → ∀ x ∈ (f m).tokens, M x.2) :
    Keeps (fun w => AllTokens M w.grants) (modifyMemory f) := by
  intro w h
  rw [allTokens_iff] at h ⊢
  exact ⟨hf w.memory h.1, h.2⟩

theorem keeps_allTokens_postgres {statement : PostgresStatement}
    {f : PostgresStore → PostgresStore}
    (hf : ∀ s : PostgresStore, (∀ x ∈ s.tokens, M x.2) → ∀ x ∈ (f s).tokens, M x.2) :
    Keeps (fun w => AllTokens M w.grants) (execPostgres fault statement f) := by
  rw [keeps_iff]
  intro w h
  apply wp_execPostgres
  · rw [allTokens_iff] at h ⊢
    refine ⟨h.1, ?_⟩
    intro s' hs'
    obtain ⟨s, hs, rfl⟩ := Option.mem_map.mp hs'
    exact hf s (h.2 s hs)
  · intro _ _
    exact h

theorem forall_mem_setKey {l : List (String × RegistryPublishTokenRecord)} {k : String}
    {t : RegistryPublishTokenRecord} (hl : ∀ x ∈ l, M x.2) (ht : M t) :
    ∀ x ∈ setKey l k t, M x.2 := by
  intro x hx
  rcases mem_setKey.mp hx with rfl | ⟨hx, -⟩
  · exact ht
  · exact hl x hx

end tables

section events

variable {M : RegistryPublishTokenRecord → Prop}

/-- A property that a revocation does not change is kept by it. -/
theorem keeps_allTokens_revoke_postgres {tokenId revokedAt : String}
    (hM : ∀ t revokedAt, M t → M { t with revokedAt := revokedAt }) :
    Keeps (fun w => AllTokens M w.grants)
      (execPostgres fault .revokeToken (·.revokeRegistryPublishToken tokenId revokedAt)) := by
  apply keeps_allTokens_postgres
  intro s hs
  unfold PostgresStore.revokeRegistryPublishToken
  split
  · exact hs
  · rename_i t hget
    exact forall_mem_setKey hs (hM _ _ (hs _ (mem_of_getKey hget)))

theorem keeps_allTokens_revoke_memory {tokenId revokedAt : String}
    (hM : ∀ t revokedAt, M t → M { t with revokedAt := revokedAt }) :
    Keeps (fun w => AllTokens M w.grants)
      (modifyMemory (·.revokeRegistryPublishToken tokenId revokedAt)) := by
  apply keeps_allTokens_memory
  intro m hm
  unfold MemoryStateStore.revokeRegistryPublishToken
  split
  · exact hm
  · rename_i t hget
    exact forall_mem_setKey hm (hM _ _ (hm _ (mem_of_getKey hget)))

/-- A creation keeps a property of all tokens that what it asks for has. -/
theorem allTokens_handleCreatePublishToken {random : String} {body : Json}
    (hw : AllTokens M w.grants)
    (ht : ∀ t, Requested env w random body t → body.textOr "expires_at" "" = some t.expiresAt →
      M t) :
    AllTokens M (handleCreatePublishToken env host fault random request body w).2.grants := by
  apply holds_handleCreatePublishToken (I := fun (w' : World) => AllTokens M w'.grants) random body
    hw
  · exact keeps_allTokens_postgres fun _ h => h
  · exact keeps_allTokens_memory fun _ h => h
  · intro t hrequested htext
    apply keeps_allTokens_postgres
    intro s hs
    simp only [PostgresStore.upsertRegistryPublishToken, upsertRow]
    split
    · exact forall_mem_setKey hs (ht t hrequested htext)
    · exact forall_mem_setKey hs (ht _ hrequested htext)
  · intro t hrequested htext
    apply keeps_allTokens_memory
    intro m hm
    exact forall_mem_setKey hm (ht t hrequested htext)

/-- Events that create no token keep the property. -/
theorem allTokens_apply {event : Event}
    (hM : ∀ t revokedAt, M t → M { t with revokedAt := revokedAt }) (hw : AllTokens M w.grants)
    (hevent : ∀ host fault random request body,
      event ≠ .request host fault (.createPublishToken random request body)) :
    AllTokens M (event.apply env cfg w).grants := by
  cases event with
  | restart =>
    rw [allTokens_iff] at hw ⊢
    exact ⟨nofun, hw.2⟩
  | request host fault r =>
    cases r with
    | write request =>
      by_cases hpublish : ∃ r, request = .publishRelease r
      · obtain ⟨r, rfl⟩ := hpublish
        refine keeps_handlePublishRelease (I := fun (w' : World) => AllTokens M w'.grants)
          (fun _ => ?_) (fun _ _ => ?_) w hw
        · exact changes_buildPublishDraft.keepsTables.keepsGrants
        · apply keepsGrants_tryPublish
          · exact fun _ => keeps_allTokens_postgres fun _ h => h
          · exact fun _ => keeps_allTokens_memory fun _ h => h
      · exact keepsGrants_handleRequest (J := AllTokens M) (not_exists.mp hpublish) w hw
    | addPackageOwner namespaceName name r =>
      apply holds_handleAddPackageOwner (I := fun (w' : World) => AllTokens M w'.grants)
        namespaceName name hw
      · exact fun _ _ _ => keeps_allTokens_postgres fun _ h => h
      · exact fun _ _ _ => keeps_allTokens_memory fun _ h => h
    | removePackageOwner namespaceName name ownerId r =>
      apply holds_handleRemovePackageOwner (I := fun (w' : World) => AllTokens M w'.grants)
        namespaceName name ownerId hw
      · exact fun _ _ _ => keeps_allTokens_postgres fun _ h => h
      · exact fun _ _ _ => keeps_allTokens_memory fun _ h => h
    | createPublishToken random r body => exact absurd rfl (hevent host fault random r body)
    | revokePublishToken tokenId r =>
      exact keeps_handleRevokePublishToken (I := fun (w' : World) => AllTokens M w'.grants) tokenId
        (fun _ => keeps_allTokens_revoke_postgres hM) (fun _ => keeps_allTokens_revoke_memory hM)
        w hw

/-- A token that is accepted is one of the registry's, and has the digest of the clear text. -/
theorem exists_of_tokenAuthorized {headers : List (String × String)} {clear : String}
    (hw : AllTokens M w.grants) (hclear : registryTokenFromHeaders headers = some clear)
    (h : tokenAuthorized env host w headers scope package = true) :
    ∃ t, M t ∧ t.tokenHash = tokenHash env clear ∧
      (t.revokedAt = "" ∧ ¬ (t.expiresAt ≠ "" ∧ t.expiresAt < host.authorizedAt)) ∧
      covers t.scopes t.packagePatterns scope package = true := by
  simp only [tokenAuthorized, hclear] at h
  rw [allTokens_iff] at hw
  split at h
  · cases h
  · rename_i t hfound
    have hfind : ∀ l : List (String × RegistryPublishTokenRecord), (∀ x ∈ l, M x.2) →
        (l.find? (·.2.tokenHash = tokenHash env clear)).map (·.2) = some t →
        M t ∧ t.tokenHash = tokenHash env clear := by
      intro l hl hfound
      obtain ⟨x, hx, rfl⟩ := Option.map_eq_some_iff.mp hfound
      have hhash := List.find?_some hx
      rw [decide_eq_true_eq] at hhash
      exact ⟨hl x (List.mem_of_find?_eq_some hx), hhash⟩
    have ht : M t ∧ t.tokenHash = tokenHash env clear := by
      split at hfound
      · rename_i s hs
        exact hfind s.tokens (hw.2 s hs) hfound
      · exact hfind w.memory.tokens hw.1 hfound
    simp only [Bool.and_eq_true, beq_iff_eq, Bool.not_eq_true', Bool.and_eq_false_iff,
      bne_eq_false_iff_eq, decide_eq_true_eq, decide_eq_false_iff_not] at h
    refine ⟨t, ht.1, ht.2, ⟨h.1.1.1, ?_⟩, ?_⟩
    · rintro ⟨hne, hlt⟩
      exact h.1.1.2.elim hne fun hnot => hnot hlt
    · rw [covers, Bool.and_eq_true, decide_eq_true_eq]
      exact ⟨h.1.2, h.2⟩

end events

variable {created : List Creation}

/-- An answer holds no token but the one that the creation was about to make. -/
def AnswersWith (clear : String) (r : HttpResponse) : Prop :=
  ∀ token, answeredToken (.ok r) = some token → token = clear

theorem wp_of_returns {x : Program HttpResponse} {R : HttpResponse → Prop} (h : Returns R x) :
    wp x (fun r _ => R r) (fun _ _ => True) w := by
  rcases hx : x w with ⟨e | r, w'⟩
  · rw [wp_of_eq_error hx]
    trivial
  · rw [wp_of_eq_ok hx]
    exact h w r w' hx

/-- The token of an answer is the one that the creation was about to make. -/
theorem answeredToken_handleCreatePublishToken {random : String} {body : Json} {token : String}
    (h : answeredToken (handleCreatePublishToken env host fault random request body w).1 =
      some token) : token = clearToken (nextRegistryTokenId w) random := by
  have hwp : wp (handleCreatePublishToken env host fault random request body)
      (fun r _ => AnswersWith (clearToken (nextRegistryTokenId w) random) r)
      (fun _ _ => True) w := by
    have hfailure : ∀ {status : ℕ} {message detail kind operation : String} {cliExitCode : ℕ},
        AnswersWith (clearToken (nextRegistryTokenId w) random)
          (failureResponse status message detail kind operation cliExitCode) := by
      intro _ _ _ _ _ _ clear hclear
      cases hclear
    unfold handleCreatePublishToken
    split
    · exact hfailure
    cases (stringArrayError body "scopes").or (stringArrayError body "package_patterns") with
    | some detail => exact hfailure
    | none =>
      dsimp only
      rw [wp_bind, jsonTextOr]
      cases body.textOr "owner_id" (registryActorId env request) with
      | none => trivial
      | some ownerId =>
        rw [wp_pure, wp_ite]
        constructor
        · intro _
          rw [issuePublishToken, wp_bind, wp_read]
          apply wp_of_returns
          refine returns_bind fun _ => returns_bind fun _ => returns_bind fun _ =>
            returns_bind fun _ => returns_bind fun _ => returns_bind fun _ =>
            returns_bind fun _ => returns_pure ?_
          intro clear hclear
          cases hclear
          rfl
        · intro _
          apply wp_of_returns
          exact returns_bind fun _ => returns_pure hfailure
  rcases hrun : handleCreatePublishToken env host fault random request body w with ⟨e | r, w'⟩
  · rw [hrun] at h
    cases h
  · rw [hrun] at h
    exact hwp.of_ok hrun token h

/-- The tables stay justified, event by event. -/
theorem justified_step {h : History} {event : Event} (hfresh : FreshToken env h event)
    (hwithin : WithinAuthority scope package h event)
    (hh : AllTokens (Justified env scope package h.created) h.world.grants) :
    AllTokens (Justified env scope package (h.step env cfg event).created)
      (h.step env cfg event).world.grants := by
  by_cases hcreate : ∃ host fault random request body,
      event = .request host fault (.createPublishToken random request body)
  · obtain ⟨host, fault, random, request, body, rfl⟩ := hcreate
    have hcreation : ∀ c ∈ (creationOf env h.world
        (.request host fault (.createPublishToken random request body))).toList,
        c.clear = clearToken (nextRegistryTokenId h.world) random ∧ c.world = h.world ∧
          c.identity ∈ request.identity := by
      intro c hc
      simp only [creationOf, Option.mem_toList, Option.bind_eq_bind,
        Option.bind_eq_some_iff] at hc
      obtain ⟨identity, hidentity, clear, hclear, hc⟩ := hc
      cases hc
      exact ⟨answeredToken_handleCreatePublishToken hclear, rfl, hidentity⟩
    apply allTokens_handleCreatePublishToken
    · intro t ht c hc hhash
      rcases List.mem_append.mp hc with hc | hc
      · exact hh t ht c hc hhash
      · rw [(hcreation c hc).1] at hhash
        exact absurd hhash (hfresh.1 t ht)
    · rintro t ⟨hhash, hscopes, hpatterns⟩ _ c hc hclear hcovers
      rcases List.mem_append.mp hc with hc | hc
      · exact absurd (hclear.symm.trans hhash) (hfresh.2 c hc)
      · obtain ⟨-, hworld, hidentity⟩ := hcreation c hc
        rw [hscopes, hpatterns] at hcovers
        rw [hworld]
        exact hwithin hcovers c.identity hidentity
  · have hnone : creationOf env h.world event = none := by
      unfold creationOf
      split
      · rename_i host fault random request body
        exact absurd ⟨host, fault, random, request, body, rfl⟩ hcreate
      · rfl
    have hcreated : (h.step env cfg event).created = h.created := by
      simp [History.step, hnone]
    rw [hcreated]
    apply allTokens_apply (fun _ _ h => h) hh
    intro host fault random request body hevent
    exact hcreate ⟨host, fault, random, request, body, hevent⟩

/-- What a token authorizes in a justified registry, its creator was entitled to. -/
theorem unamplified_of_justified {h : History}
    (hh : AllTokens (Justified env scope package h.created) h.world.grants) :
    Unamplified env scope package h := by
  intro c hc host request hidentity htoken haccepts
  left
  rw [accepts_iff, authorized, hidentity] at haccepts
  simp only [Option.map_none, Option.getD_none, Bool.false_or] at haccepts
  obtain ⟨t, ht, hhash, -, hcovers⟩ := exists_of_tokenAuthorized hh htoken haccepts
  exact ht c hc hhash hcovers

/-- In a run in which no creation asks for the scope on the package without having it, no token
carries it further than its creator could. -/
theorem unamplified_run {start : World} {events : List Event}
    (hfresh : Along (History.step env cfg) (FreshToken env) events { world := start })
    (hwithin : Along (History.step env cfg) (WithinAuthority scope package) events
      { world := start }) :
    Unamplified env scope package (events.foldl (History.step env cfg) { world := start }) := by
  apply unamplified_of_justified
  have hboth : Along (History.step env cfg)
      (fun h event => FreshToken env h event ∧ WithinAuthority scope package h event) events
      { world := start } := hfresh.and hwithin
  apply hboth.foldl (I := fun (h : History) =>
    AllTokens (Justified env scope package h.created) h.world.grants)
  · intro t _ c hc
    cases hc
  · exact fun h event hh hevent => justified_step hevent.1 hevent.2 hh

/-- Somebody asks for a token with the given scopes, on all packages. -/
def tokenCreation (role nodeId : String) (scopes : List String) : Event :=
  .request sampleHost none (.createPublishToken "5f"
    { identity := some { role, nodeId }, body := none }
    (.object [("package_patterns", .array [.string "*"]),
      ("scopes", .array (scopes.map Json.string))]))

/-- A registry writer asks for what it may do itself. -/
theorem unamplified_writerToken :
    (Along (History.step sampleEnvironment sampleConfig) (FreshToken sampleEnvironment)
      [tokenCreation "registry-writer" "writer" ["package:publish"]] { world := sampleStart } ∧
    Along (History.step sampleEnvironment sampleConfig) (WithinAuthority "package:publish" "a/b")
      [tokenCreation "registry-writer" "writer" ["package:publish"]] { world := sampleStart }) ∧
    Unamplified sampleEnvironment "package:publish" "a/b"
      ([tokenCreation "registry-writer" "writer" ["package:publish"]].foldl
        (History.step sampleEnvironment sampleConfig) { world := sampleStart }) := by
  have hfresh : Along (History.step sampleEnvironment sampleConfig) (FreshToken sampleEnvironment)
      [tokenCreation "registry-writer" "writer" ["package:publish"]] { world := sampleStart } :=
    ⟨⟨nofun, nofun⟩, trivial⟩
  have hwithin : Along (History.step sampleEnvironment sampleConfig)
      (WithinAuthority "package:publish" "a/b")
      [tokenCreation "registry-writer" "writer" ["package:publish"]] { world := sampleStart } := by
    refine ⟨fun _ identity hidentity => ?_, trivial⟩
    cases hidentity
    decide +kernel
  exact ⟨⟨hfresh, hwithin⟩, unamplified_run hfresh hwithin⟩

/-- Somebody who owns no package asks for the scope of owners on all of them. -/
theorem not_unamplified_ownerToken :
    ¬ Unamplified sampleEnvironment "package:owner" "a/b"
      ([tokenCreation "package-owner" "mallory" ["package:owner"]].foldl
        (History.step sampleEnvironment sampleConfig) { world := sampleStart }) := by
  intro h
  have hmallory := h
    { identity := { role := "package-owner", nodeId := "mallory" }
      clear := "styio_pat_tok-000000000001_5f", world := sampleStart }
    (List.mem_singleton.mpr rfl) sampleHost
    { headers := [("x-styio-registry-token", "styio_pat_tok-000000000001_5f")], body := none } rfl
    (by decide +kernel) (by rw [accepts_iff]; decide +kernel)
  revert hmallory
  decide +kernel

end StyioPlatform.Registry
