import StyioPlatform.Lib.Paths
import StyioPlatform.Registry.Requests

/-! Promotes and rollbacks on a host that has other files beside those of the registry. The id of a
publication is followed as a path over the whole host. -/
namespace StyioPlatform.Registry

open FileTree Prog

/-- The files of the host: those outside of the registry root, and the tree of the registry. -/
def hostTree (cfg : PlatformConfig) (outside t : Tree) : Tree :=
  (outside.removeAll cfg.registryRoot).graft cfg.registryRoot t

namespace OnHost

section handlers

variable (env : Environment) (cfg : PlatformConfig) (outside : Tree) (host : Host)
  (fault : Option Site)

def isDirectory (t : Tree) (p : Path) : Bool :=
  decide (p <+: cfg.registryRoot) || (hostTree cfg outside t).isDirectory p

def pathNames (text : String) : Path := (text.toList.splitOn '/').map String.ofList

/-- `registry_root / "_publications" / publication_id`, as a path of the host. -/
def publicationRoot (t : Tree) (publicationId : String) : Option Path :=
  if publicationId.toList.head? = some '/' then
    walk (isDirectory cfg outside t) (pathNames publicationId) []
  else
    walk (isDirectory cfg outside t) ("_publications" :: pathNames publicationId) cfg.registryRoot

/-- `publication_root / "publication.json"`. -/
def publicationFile (t : Tree) (publicationId : String) : Option File :=
  (publicationRoot cfg outside t publicationId).bind fun root =>
    (hostTree cfg outside t).get (root ++ ["publication.json"])

/-- `CopyRegistryReadPlaneTo` from a directory of the host to the registry root. -/
def copyRegistryReadPlaneTo (source : Path) : Program Unit := do
  let t ← rootTree
  let plane := ((hostTree cfg outside t).subtree source).restrict inReadPlane
  match fault with
  | some (.copyReadPlane copied) =>
    modifyRoot (·.graft [] (plane.restrict (· ∈ copied)))
    Prog.fail (.fault (.copyReadPlane copied))
  | _ =>
    modifyRoot (·.graft [] plane)
    require ((plane.get ["config.json"]).isSome) "failed to copy registry publication config"

/-- `MaterializePublicationToRoot`: remove the read plane, then copy the publication. -/
def materializePublicationToRoot (publicationId : String) : Program Unit := do
  modifyRoot (·.restrict fun p => !inReadPlane p)
  let t ← rootTree
  match publicationRoot cfg outside t publicationId with
  | none => Prog.fail (.error "failed to copy registry publication config")
  | some source => copyRegistryReadPlaneTo cfg outside fault source

def installPublication (distributionId publicationId : String) (publication : Document)
    (previousPublicationId : Option String) (updatedAt : String) :
    Program DistributionPointer := do
  onlyIf (distributionId = "default") (materializePublicationToRoot cfg outside fault publicationId)
  pointDistribution cfg fault distributionId publicationId publication previousPublicationId
    updatedAt

/-- The `try` block of `HandlePromoteDistribution`. -/
def tryPromote (distributionId publicationId : String) (f : File) : Program HttpResponse := do
  let publication ← Prog.ofExcept ((f.parse.map Except.ok).getD (.error parseError))
  failAt fault .readPointer
  let previous ← Prog.ofExcept (currentDistributionPointer (← rootTree) distributionId)
  let previousPublicationId := (previous.map Document.publicationId).getD ""
  let current ← installPublication cfg outside fault distributionId publicationId publication
    (if previousPublicationId = "" then none else some previousPublicationId) host.now
  recordRegistryAudit fault
  return successResponse "promoted distribution" (.pointer current)

def handlePromoteDistribution (distributionId : String) (request : HttpRequest) :
    Program HttpResponse :=
  match request.body.bind (nonEmptyString · "publication_id") with
  | none => pure (failureResponse 400 "distribution promotion rejected"
      "publication_id is required" "ValidationError" "promoteDistribution" 2)
  | some publicationId => do
    if ← registryWriteAuthorized env host fault request "repository:promote" "" then
      match publicationFile cfg outside (← rootTree) publicationId with
      | none =>
        recordRegistryAudit fault
        pure (failureResponse 404 "distribution promotion failed" "publication is not found"
          "NotFound" "promoteDistribution")
      | some f =>
        Prog.handle (tryPromote cfg outside host fault distributionId publicationId f)
          (answerFailure fault "distribution promotion failed" "promoteDistribution")
    else
      recordRegistryAudit fault
      pure (failureResponse 403 "distribution promotion denied"
        "token or identity lacks repository:promote" "AuthError" "promoteDistribution" 2)

/-- The `try` block of `HandleRollbackDistribution`. -/
def tryRollback (distributionId publicationId : String) (pointer : Document) (f : File) :
    Program HttpResponse := do
  let publication ← Prog.ofExcept ((f.parse.map Except.ok).getD (.error parseError))
  let current ← installPublication cfg outside fault distributionId publicationId publication
    (some pointer.publicationId) host.now
  recordRegistryAudit fault
  return successResponse "rolled back distribution" (.pointer current)

def handleRollbackDistribution (distributionId : String) (request : HttpRequest) :
    Program HttpResponse := do
  if ← registryWriteAuthorized env host fault request "repository:promote" "" then
    failAt fault .readPointer
    let pointer ← Prog.ofExcept (currentDistributionPointer (← rootTree) distributionId)
    let publicationId := (pointer.map Document.previousPublicationId).getD ""
    if publicationId = "" then
      recordRegistryAudit fault
      pure (failureResponse 409 "distribution rollback failed"
        "previous publication is not available" "StateError" "rollbackDistribution")
    else
      match publicationFile cfg outside (← rootTree) publicationId with
      | none =>
        recordRegistryAudit fault
        pure (failureResponse 404 "distribution rollback failed"
          "previous publication is not found" "NotFound" "rollbackDistribution")
      | some f =>
        Prog.handle
          (tryRollback cfg outside host fault distributionId publicationId
            (pointer.getD (.other "")) f)
          (answerFailure fault "distribution rollback failed" "rollbackDistribution")
  else
    recordRegistryAudit fault
    pure (failureResponse 403 "distribution rollback denied"
      "token or identity lacks repository:promote" "AuthError" "rollbackDistribution" 2)

def handleRequest : Request → Program HttpResponse
  | .promoteDistribution distributionId request =>
    handlePromoteDistribution env cfg outside host fault distributionId request
  | .rollbackDistribution distributionId request =>
    handleRollbackDistribution env cfg outside host fault distributionId request
  | request => Registry.handleRequest env cfg host fault request

end handlers

end OnHost

variable {env : Environment} {cfg : PlatformConfig} {outside t : Tree} {host : Host}
  {fault : Option Site} {w w' : World} {p q : Path} {id : String}

@[simp] theorem get_hostTree_root : (hostTree cfg outside t).get (cfg.registryRoot ++ p) = t.get p := by
  rw [hostTree, get_graft_append, get_removeAll_append]
  exact Option.or_none

theorem get_hostTree_of_not_below (h : ¬ cfg.registryRoot <+: p) :
    (hostTree cfg outside t).get p = outside.get p := by
  rw [hostTree, get_graft_of_not_below h, get_removeAll_of_not_below h]

theorem subtree_hostTree_root : (hostTree cfg outside t).subtree (cfg.registryRoot ++ p) =
    t.subtree p := by
  ext q
  rw [get_subtree, get_subtree, List.append_assoc, get_hostTree_root]

/-- Where a walk ends does not depend on the directories on the way. -/
theorem walk_eq_foldl_enter {directory : Path → Bool} {names : List String}
    (h : walk directory names p = some q) : q = names.foldl enter p := by
  fun_induction walk directory names p with
  | case1 p =>
    cases h
    rfl
  | case2 p name rest hname ih =>
    rw [List.foldl_cons, enter, if_pos hname]
    exact ih h
  | case3 p rest hname ih =>
    rw [List.foldl_cons, enter, if_neg hname, if_pos rfl]
    exact ih h
  | case4 p name rest hname hup hdirectory ih =>
    rw [List.foldl_cons, enter, if_neg hname, if_neg hup]
    exact ih h
  | case5 => cases h

/-- Where the id of a publication leads, on any host. -/
def namedDirectory (cfg : PlatformConfig) (id : String) : Path :=
  if id.toList.head? = some '/' then (OnHost.pathNames id).foldl enter []
  else ("_publications" :: OnHost.pathNames id).foldl enter cfg.registryRoot

theorem publicationRoot_eq_namedDirectory (h : OnHost.publicationRoot cfg outside t id = some p) :
    p = namedDirectory cfg id := by
  rw [OnHost.publicationRoot] at h
  rw [namedDirectory]
  split at h
  · next habsolute =>
    rw [if_pos habsolute]
    exact walk_eq_foldl_enter h
  · next habsolute =>
    rw [if_neg habsolute]
    exact walk_eq_foldl_enter h

section empty

/-! Without other files the handlers are those of the registry. -/

theorem isDirectory_empty : OnHost.isDirectory cfg .empty t p = hostDirectory cfg t p := by
  rw [OnHost.isDirectory, hostDirectory]
  by_cases habove : p <+: cfg.registryRoot
  · simp [habove]
  · congr 1
    rw [Bool.eq_iff_iff, Bool.and_eq_true, decide_eq_true_eq, isDirectory_iff, isDirectory_iff]
    constructor
    · rintro ⟨q, f, hq, hf⟩
      have hbelow : cfg.registryRoot <+: p ++ q := by
        by_contra hnot
        rw [get_hostTree_of_not_below hnot] at hf
        cases hf
      -- the registry root lies above the path or on the way down from it
      rcases List.prefix_or_prefix_of_prefix hbelow (List.prefix_append p q) with hroot | hroot
      · obtain ⟨s, rfl⟩ := hroot
        rw [List.append_assoc, get_hostTree_root] at hf
        exact ⟨List.prefix_append _ _, q, f, hq, by simpa using hf⟩
      · exact (habove hroot).elim
    · rintro ⟨⟨s, rfl⟩, q, f, hq, hf⟩
      refine ⟨q, f, hq, ?_⟩
      rw [List.append_assoc, get_hostTree_root]
      simpa using hf

theorem publicationRoot_empty : publicationRoot cfg t id =
    (OnHost.publicationRoot cfg .empty t id).bind fun p =>
      if cfg.registryRoot <+: p then some (p.drop cfg.registryRoot.length) else none := by
  have hdirectory : OnHost.isDirectory cfg .empty t = hostDirectory cfg t :=
    funext fun _ => isDirectory_empty
  rw [OnHost.publicationRoot, publicationRoot, hdirectory]
  rfl

/-- No manifest lies outside of the registry root. -/
theorem get_manifest_empty (hroot : t.get [] = none) (hp : ¬ cfg.registryRoot <+: p) :
    (hostTree cfg .empty t).get (p ++ ["publication.json"]) = none := by
  by_cases hbelow : cfg.registryRoot <+: p ++ ["publication.json"]
  · have heq : cfg.registryRoot = p ++ ["publication.json"] := by
      rcases List.prefix_concat_iff.mp hbelow with heq | hprefix
      · exact heq
      · exact (hp hprefix).elim
    have hget := @get_hostTree_root cfg .empty t []
    rw [List.append_nil, hroot] at hget
    rwa [← heq]
  · rw [get_hostTree_of_not_below hbelow]
    rfl

theorem publicationFile_empty (hroot : t.get [] = none) :
    OnHost.publicationFile cfg .empty t id = publicationFile cfg t id := by
  rw [OnHost.publicationFile, publicationFile, publicationRoot_empty]
  cases OnHost.publicationRoot cfg .empty t id with
  | none => rfl
  | some p =>
    simp only [Option.bind_some]
    by_cases hp : cfg.registryRoot <+: p
    · obtain ⟨s, rfl⟩ := hp
      rw [if_pos (List.prefix_append _ _), List.append_assoc, get_hostTree_root]
      simp
    · rw [if_neg hp, get_manifest_empty hroot hp]
      rfl

theorem rootTree_bind {α : Type} {k : Tree → Program α} :
    (rootTree >>= k) w = k w.root w := rfl

theorem materializePublicationToRoot_empty
    (hroot : OnHost.publicationRoot cfg .empty w.root id = some p) (hp : cfg.registryRoot <+: p) :
    OnHost.materializePublicationToRoot cfg .empty fault id w =
      materializePublicationToRoot cfg fault id w := by
  obtain ⟨s, rfl⟩ := hp
  change (match OnHost.publicationRoot cfg .empty (cleared w.root) id with
    | none => (Prog.fail (.error "failed to copy registry publication config") : Program Unit)
    | some source => OnHost.copyRegistryReadPlaneTo cfg .empty fault source)
      (w.setRoot (cleared w.root)) =
    (match publicationRoot cfg (cleared w.root) id with
    | none => (Prog.fail (.error "failed to copy registry publication config") : Program Unit)
    | some source => copyRegistryReadPlaneTo fault source []) (w.setRoot (cleared w.root))
  rw [publicationRoot_empty]
  cases hcleared : OnHost.publicationRoot cfg .empty (cleared w.root) id with
  | none => rfl
  | some p' =>
    obtain rfl : p' = cfg.registryRoot ++ s :=
      (publicationRoot_eq_namedDirectory hcleared).trans
        (publicationRoot_eq_namedDirectory hroot).symm
    simp only [Option.bind_some, if_pos (List.prefix_append _ _), List.drop_left]
    refine bind_congr_at keeps_rootTree fun t => ?_
    rw [subtree_hostTree_root] <;> rfl

theorem installPublication_empty {distributionId updatedAt : String} {publication : Document}
    {previous : Option String} (hroot : OnHost.publicationRoot cfg .empty w.root id = some p)
    (hp : cfg.registryRoot <+: p) :
    OnHost.installPublication cfg .empty fault distributionId id publication previous updatedAt w =
      installPublication cfg fault distributionId id publication previous updatedAt w := by
  refine bind_congr_first ?_
  unfold onlyIf
  split
  · exact materializePublicationToRoot_empty hroot hp
  · rfl

/-- A manifest that is found lies in the registry. -/
theorem exists_publicationRoot_empty {f : File} (hroot : t.get [] = none)
    (hf : OnHost.publicationFile cfg .empty t id = some f) :
    ∃ p, OnHost.publicationRoot cfg .empty t id = some p ∧ cfg.registryRoot <+: p := by
  obtain ⟨p, hp, hget⟩ := Option.bind_eq_some_iff.mp hf
  refine ⟨p, hp, ?_⟩
  by_contra hnot
  rw [get_manifest_empty hroot hnot] at hget
  cases hget

theorem handlePromoteDistribution_empty {distributionId : String} {request : HttpRequest}
    (hroot : w.root.get [] = none) :
    OnHost.handlePromoteDistribution env cfg .empty host fault distributionId request w =
      handlePromoteDistribution env cfg host fault distributionId request w := by
  rw [OnHost.handlePromoteDistribution, handlePromoteDistribution]
  cases request.body.bind (nonEmptyString · "publication_id") with
  | none => rfl
  | some id =>
    refine bind_congr_at keeps_authorized fun authorized => ?_
    cases authorized with
    | false => rfl
    | true =>
      simp only [if_true]
      rw [rootTree_bind, rootTree_bind, publicationFile_empty hroot]
      cases hf : publicationFile cfg w.root id with
      | none => rfl
      | some f =>
        obtain ⟨p, hp, hbelow⟩ := exists_publicationRoot_empty hroot (publicationFile_empty hroot ▸ hf)
        refine handle_congr ?_
        refine bind_congr_at keeps_ofExcept fun publication => ?_
        refine bind_congr_at keeps_failAt fun _ => ?_
        refine bind_congr_at keeps_rootTree fun _ => ?_
        refine bind_congr_at keeps_ofExcept fun previous => ?_
        exact bind_congr_first (installPublication_empty hp hbelow)

theorem handleRollbackDistribution_empty {distributionId : String} {request : HttpRequest}
    (hroot : w.root.get [] = none) :
    OnHost.handleRollbackDistribution env cfg .empty host fault distributionId request w =
      handleRollbackDistribution env cfg host fault distributionId request w := by
  refine bind_congr_at keeps_authorized fun authorized => ?_
  cases authorized with
  | false => rfl
  | true =>
    refine bind_congr_at keeps_failAt fun _ => ?_
    refine bind_congr_at keeps_rootTree fun _ => ?_
    refine bind_congr_at keeps_ofExcept fun pointer => ?_
    generalize (pointer.map Document.previousPublicationId).getD "" = id
    by_cases hempty : id = ""
    · simp only [hempty, if_true]
    · simp only [hempty, if_false]
      rw [rootTree_bind, rootTree_bind, publicationFile_empty hroot]
      cases hf : publicationFile cfg w.root id with
      | none => rfl
      | some f =>
        obtain ⟨p, hp, hbelow⟩ := exists_publicationRoot_empty hroot (publicationFile_empty hroot ▸ hf)
        refine handle_congr ?_
        refine bind_congr_at keeps_ofExcept fun publication => ?_
        exact bind_congr_first (installPublication_empty hp hbelow)

theorem handleRequest_empty {r : Request} (hroot : w.root.get [] = none) :
    OnHost.handleRequest env cfg .empty host fault r w = handleRequest env cfg host fault r w := by
  cases r with
  | promoteDistribution distributionId request => exact handlePromoteDistribution_empty hroot
  | rollbackDistribution distributionId request => exact handleRollbackDistribution_empty hroot
  | publishRelease request => rfl
  | setYanked namespaceName name version yanked request => rfl

end empty

end StyioPlatform.Registry
