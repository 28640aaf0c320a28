import StyioPlatform.Protocols.Routing

/-! The routes of the service (`RouteCatalog.cpp`, `RegistryRoutes.cpp`): every path fits one route
at most, and the path of a route, with values for its parameters, is led to that route. -/
namespace StyioPlatform.Router

open Routing

structure ServiceRoute extends RouteSpec where
  /-- Only the service's own roles may call it. -/
  internal : Bool := false
  deriving DecidableEq

def buildPlatformControlPlaneRoutes : List ServiceRoute := [
  { operationId := "health", method := .get, path := "/health" },
  { operationId := "nodeSelf", method := .get, path := "/nodes/self" },
  { operationId := "submitJob", method := .post, path := "/jobs" },
  { operationId := "getJob", method := .get, path := "/jobs/{job_id}" },
  { operationId := "getJobEvents", method := .get, path := "/jobs/{job_id}/events" },
  { operationId := "cancelJob", method := .post, path := "/jobs/{job_id}/cancel" },
  { operationId := "registerWorker", method := .post, internal := true,
    path := "/workers/register" },
  { operationId := "registerCompileContainer", method := .post, internal := true,
    path := "/compile-containers/register" },
  { operationId := "getCompileContainer", method := .get, internal := true,
    path := "/compile-containers/{container_id}" },
  { operationId := "switchCompileContainerWorkspace", method := .post, internal := true,
    path := "/compile-containers/{container_id}/switch-workspace" },
  { operationId := "claimJob", method := .post, path := "/jobs/claim", internal := true },
  { operationId := "heartbeatJob", method := .post, internal := true,
    path := "/jobs/{job_id}/heartbeat" },
  { operationId := "completeJob", method := .post, internal := true,
    path := "/jobs/{job_id}/complete" },
  { operationId := "registerWorkgroupCluster", method := .post, internal := true,
    path := "/workgroups/{workgroup_id}/clusters/register" },
  { operationId := "listWorkgroupClusters", method := .get, internal := true,
    path := "/workgroups/{workgroup_id}/clusters" },
  { operationId := "mirrorStatus", method := .get, path := "/mirrors/{mirror_id}/status" },
  { operationId := "listDocumentationGovernance", method := .get, internal := true,
    path := "/docs/governance" },
  { operationId := "planDocumentationChange", method := .post, internal := true,
    path := "/docs/change-plan" },
  { operationId := "listEcosystemRepositories", method := .get, internal := true,
    path := "/ecosystem/repositories" },
  { operationId := "planEcosystemRelease", method := .post, internal := true,
    path := "/ecosystem/releases/plan" },
  { operationId := "createRecoverySnapshot", method := .post, internal := true,
    path := "/ops/recovery/snapshots" },
  { operationId := "listRecoverySnapshots", method := .get, internal := true,
    path := "/ops/recovery/snapshots" },
  { operationId := "restoreRecoverySnapshot", method := .post, internal := true,
    path := "/ops/recovery/snapshots/{snapshot_id}/restore" },
  { operationId := "listAuditEvents", method := .get, internal := true,
    path := "/ops/audit-events" },
  { operationId := "platformMetrics", method := .get, path := "/ops/metrics", internal := true },
  { operationId := "storageStatus", method := .get, path := "/storage/status", internal := true },
  { operationId := "exchangeExternalIdentity", method := .post, internal := true,
    path := "/identity/external/exchange" }]

def buildRegistryControlPlaneRoutes : List ServiceRoute := [
  { operationId := "registryStatus", method := .get, internal := true,
    path := "/api/spio-registry-control/v1/status" },
  { operationId := "registryDescriptor", method := .get, internal := true,
    path := "/api/spio-registry-control/v1/descriptor" },
  { operationId := "publishRelease", method := .post, internal := true,
    path := "/api/spio-registry-control/v1/publish" },
  { operationId := "verifyRegistry", method := .post, internal := true,
    path := "/api/spio-registry-control/v1/verify" },
  { operationId := "getPackage", method := .get, internal := true,
    path := "/api/spio-registry-control/v1/packages/{namespace}/{name}" },
  { operationId := "listPackageReleases", method := .get, internal := true,
    path := "/api/spio-registry-control/v1/packages/{namespace}/{name}/releases" },
  { operationId := "getPackageRelease", method := .get, internal := true,
    path := "/api/spio-registry-control/v1/packages/{namespace}/{name}/releases/{version}" },
  { operationId := "yankPackageRelease", method := .post, internal := true,
    path := "/api/spio-registry-control/v1/packages/{namespace}/{name}/releases/{version}/yank" },
  { operationId := "unyankPackageRelease", method := .post, internal := true,
    path := "/api/spio-registry-control/v1/packages/{namespace}/{name}/releases/{version}/unyank" },
  { operationId := "listPackageOwners", method := .get, internal := true,
    path := "/api/spio-registry-control/v1/packages/{namespace}/{name}/owners" },
  { operationId := "addPackageOwner", method := .post, internal := true,
    path := "/api/spio-registry-control/v1/packages/{namespace}/{name}/owners" },
  { operationId := "removePackageOwner", method := .delete, internal := true,
    path := "/api/spio-registry-control/v1/packages/{namespace}/{name}/owners/{owner_id}" },
  { operationId := "createPublishToken", method := .post, internal := true,
    path := "/api/spio-registry-control/v1/tokens" },
  { operationId := "listPublishTokens", method := .get, internal := true,
    path := "/api/spio-registry-control/v1/tokens" },
  { operationId := "revokePublishToken", method := .delete, internal := true,
    path := "/api/spio-registry-control/v1/tokens/{token_id}" },
  { operationId := "listRepositories", method := .get, internal := true,
    path := "/api/spio-registry-control/v1/repositories" },
  { operationId := "listRepositoryVersions", method := .get, internal := true,
    path := "/api/spio-registry-control/v1/repositories/{repository_id}/versions" },
  { operationId := "getPublication", method := .get, internal := true,
    path := "/api/spio-registry-control/v1/publications/{publication_id}" },
  { operationId := "verifyPublication", method := .post, internal := true,
    path := "/api/spio-registry-control/v1/publications/{publication_id}/verify" },
  { operationId := "listDistributions", method := .get, internal := true,
    path := "/api/spio-registry-control/v1/distributions" },
  { operationId := "promoteDistribution", method := .post, internal := true,
    path := "/api/spio-registry-control/v1/distributions/{distribution_id}/promote" },
  { operationId := "rollbackDistribution", method := .post, internal := true,
    path := "/api/spio-registry-control/v1/distributions/{distribution_id}/rollback" },
  { operationId := "listReleaseChannels", method := .get, internal := true,
    path := "/api/spio-registry-control/v1/release-channels" },
  { operationId := "rolloutReleaseChannel", method := .post, internal := true,
    path := "/api/spio-registry-control/v1/release-channels/{channel}/rollout" }]

/-- The routes of a `PlatformRouter`. -/
def serviceRoutes : List ServiceRoute :=
  buildPlatformControlPlaneRoutes ++ buildRegistryControlPlaneRoutes

section paths

variable {routes : List RouteSpec} {route route' : RouteSpec} {method : HttpMethod} {path : String}
  {specs specs' actuals parts : List String} {params params' found found' : List (String × String)}
  {values : String → String} {name : String} {l : List Char} {m : RouteMatch}

/-- Some path has both shapes. -/
def overlap : List String → List String → Bool
  | [], [] => true
  | spec :: specs, spec' :: specs' =>
    (isParameter spec || isParameter spec' || decide (spec.toList = spec'.toList)) &&
      overlap specs specs'
  | _, _ => false

theorem overlap_of_match (h : matchSegments specs actuals params = some found)
    (h' : matchSegments specs' actuals params' = some found') : overlap specs specs' = true := by
  induction specs generalizing actuals specs' params params' with
  | nil =>
    cases actuals with
    | nil =>
      cases specs' with
      | nil => rfl
      | cons spec' specs' => simp [matchSegments] at h'
    | cons actual actuals => simp [matchSegments] at h
  | cons spec specs ih =>
    cases actuals with
    | nil => simp [matchSegments] at h
    | cons actual actuals =>
      cases specs' with
      | nil => simp [matchSegments] at h'
      | cons spec' specs' =>
        rw [overlap, Bool.and_eq_true]
        rw [matchSegments] at h h'
        by_cases hspec : isParameter spec
        · rw [if_pos hspec] at h
          refine ⟨by simp [hspec], ?_⟩
          split at h'
          · exact ih h h'
          · split at h'
            · exact ih h h'
            · cases h'
        · rw [if_neg hspec] at h
          split at h
          · next heq =>
            split at h'
            · next hspec' => exact ⟨by simp [hspec'], ih h h'⟩
            · split at h'
              · next heq' => exact ⟨by simp [heq, heq'], ih h h'⟩
              · cases h'
          · cases h

/-- Routes of one method that some path fits are the same. -/
def Unambiguous (routes : List RouteSpec) : Prop :=
  ∀ r ∈ routes, ∀ r' ∈ routes, r.method = r'.method →
    overlap (splitRoute r.path) (splitRoute r'.path) = true → r = r'

theorem overlap_comm : overlap specs specs' = overlap specs' specs := by
  induction specs generalizing specs' with
  | nil => cases specs' <;> rfl
  | cons spec specs ih =>
    cases specs' with
    | nil => rfl
    | cons spec' specs' =>
      rw [overlap, overlap, ih, Bool.or_comm (isParameter spec)]
      simp only [eq_comm]

theorem unambiguous_of_pairwise (h : routes.Pairwise fun r r' => r.method = r'.method →
    overlap (splitRoute r.path) (splitRoute r'.path) = true → r = r') : Unambiguous routes := by
  have hsymm : Std.Symm fun r r' : RouteSpec => r.method = r'.method →
      overlap (splitRoute r.path) (splitRoute r'.path) = true → r = r' :=
    ⟨fun _ _ hxy hmethod hoverlap => (hxy hmethod.symm (overlap_comm.trans hoverlap)).symm⟩
  exact fun r hr r' hr' => h.forall_of_forall (fun _ _ _ _ => rfl) hr hr'

/-- The route that a path is led to, with what it takes from the path. -/
def Fits (m : RouteMatch) (method : HttpMethod) (path : String) : Prop :=
  m.route.method = method ∧
    matchSegments (splitRoute m.route.path) (splitRoute path) [] = some m.parameters

theorem fits_of_matchRoute (h : matchRoute routes method path = some m) :
    m.route ∈ routes ∧ Fits m method path := by
  obtain ⟨route, hmem, hroute⟩ := List.exists_of_findSome?_eq_some h
  split at hroute
  · next hmethod =>
    obtain ⟨parameters, hmatch, rfl⟩ := Option.map_eq_some_iff.mp hroute
    exact ⟨hmem, hmethod, hmatch⟩
  · cases hroute

/-- In an unambiguous catalog it does not matter where a route stands. -/
theorem matchRoute_eq_some_iff (hroutes : Unambiguous routes) :
    matchRoute routes method path = some m ↔ m.route ∈ routes ∧ Fits m method path := by
  refine ⟨fits_of_matchRoute, fun ⟨hmem, hfits⟩ => ?_⟩
  have hsome : (matchRoute routes method path).isSome := by
    rw [matchRoute, List.findSome?_isSome_iff]
    exact ⟨m.route, hmem, by simp [hfits.1, hfits.2]⟩
  obtain ⟨m', hm'⟩ := Option.isSome_iff_exists.mp hsome
  obtain ⟨hmem', hfits'⟩ := fits_of_matchRoute hm'
  have hroute : m'.route = m.route := hroutes _ hmem' _ hmem (hfits'.1.trans hfits.1.symm)
    (overlap_of_match hfits'.2 hfits.2)
  have hparameters : m'.parameters = m.parameters := by
    have := hfits'.2
    rw [hroute, hfits.2] at this
    exact (Option.some.inj this).symm
  rw [hm']
  cases m
  cases m'
  simp_all

/-- The names of the parameters of a route. -/
def parameterNames (specs : List String) : List String :=
  (specs.filter isParameter).map parameterName

theorem parameterNames_cons {spec : String} : parameterNames (spec :: specs) =
    if isParameter spec then parameterName spec :: parameterNames specs
    else parameterNames specs := by
  rw [parameterNames, List.filter_cons]
  split <;> rfl

/-- The segments of a path for the route, with values for its parameters. -/
def fillSegments (values : String → String) (specs : List String) : List String :=
  specs.map fun spec => if isParameter spec then values (parameterName spec) else spec

/-- The path with these segments. -/
def pathOf (parts : List String) : String :=
  String.ofList (parts.flatMap fun part => '/' :: part.toList)

theorem segments_sep_cons {sep : Char} : segments sep (sep :: l) = segments sep l := by
  have h := @segments_append_cons _ _ sep [] l
  simpa [segments] using h

theorem segments_flatMap (h : ∀ part ∈ parts, IsSegment part) :
    segments '/' (parts.flatMap fun part => '/' :: part.toList) = parts.map String.toList := by
  induction parts with
  | nil => simp [segments]
  | cons part parts ih =>
    have hrest := ih fun p hp => h p (List.mem_cons_of_mem _ hp)
    obtain ⟨hne, hsep⟩ := h part List.mem_cons_self
    have hpart : segments '/' part.toList = [part.toList] :=
      segments_of_not_mem hsep (by simpa using hne)
    rw [List.flatMap_cons, List.cons_append, segments_sep_cons, List.map_cons]
    cases parts with
    | nil => simpa using hpart
    | cons next parts =>
      rw [List.flatMap_cons, List.cons_append] at hrest ⊢
      rw [segments_append_cons, hpart, ← hrest, segments_sep_cons]
      rfl

theorem splitRoute_pathOf (h : ∀ part ∈ parts, IsSegment part) :
    splitRoute (pathOf parts) = parts := by
  rw [splitRoute, pathOf, String.toList_ofList, segments_flatMap h, List.map_map]
  simp

theorem matchSegments_fillSegments : ∃ found,
    matchSegments specs (fillSegments values specs) params = some found ∧ ∀ name,
      getKey found name =
        if name ∈ parameterNames specs then some (values name) else getKey params name := by
  induction specs generalizing params with
  | nil => exact ⟨params, rfl, fun name => by simp [parameterNames]⟩
  | cons spec specs ih =>
    by_cases hspec : isParameter spec
    · obtain ⟨found, hfound, hkeys⟩ :=
        @ih (setKey params (parameterName spec) (values (parameterName spec)))
      refine ⟨found, by simpa [fillSegments, matchSegments, hspec] using hfound, fun name => ?_⟩
      rw [hkeys, getKey_setKey, parameterNames_cons, if_pos hspec]
      by_cases hname : name = parameterName spec <;> simp [hname]
    · obtain ⟨found, hfound, hkeys⟩ := @ih params
      refine ⟨found, by simpa [fillSegments, matchSegments, hspec] using hfound, fun name => ?_⟩
      rw [hkeys, parameterNames_cons, if_neg hspec]

/-- The path of a route leads to the route, with the values that were put into the path. -/
theorem matchRoute_fillSegments (hroutes : Unambiguous routes) (hmem : route ∈ routes)
    (hvalues : ∀ name ∈ parameterNames (splitRoute route.path), IsSegment (values name)) :
    ∃ found, matchRoute routes route.method (pathOf (fillSegments values (splitRoute route.path))) =
        some ⟨route, found⟩ ∧
      ∀ name ∈ parameterNames (splitRoute route.path), getKey found name = some (values name) := by
  have hparts : ∀ part ∈ fillSegments values (splitRoute route.path), IsSegment part := by
    intro part hpart
    obtain ⟨spec, hspec, rfl⟩ := List.mem_map.mp hpart
    split
    · next hparam =>
      exact hvalues _ (List.mem_map_of_mem (List.mem_filter.mpr ⟨hspec, hparam⟩))
    · exact isSegment_of_mem_splitRoute hspec
  obtain ⟨found, hfound, hkeys⟩ := @matchSegments_fillSegments (splitRoute route.path) [] values
  refine ⟨found, (matchRoute_eq_some_iff hroutes).mpr ⟨hmem, rfl, ?_⟩, fun name hname => ?_⟩
  · rwa [splitRoute_pathOf hparts]
  · rw [hkeys, if_pos hname]

end paths

end StyioPlatform.Router
