import StyioPlatform.Registry.Denials
import StyioPlatform.Service.Router

/-! Runs of the service: which handlers run for whom, what the router counts, and how often one
subject gets through. -/
namespace StyioPlatform.Router

open Routing RateLimiter Security

section catalog

variable {route : ServiceRoute} {method : HttpMethod} {path : String}
  {parameters : List (String × String)} {operation : String} {handler : Handler}

theorem unambiguous_serviceRoutes : Unambiguous (serviceRoutes.map (·.toRouteSpec)) :=
  unambiguous_of_pairwise (by decide +kernel)

theorem serviceRoutes_injective : ∀ r ∈ serviceRoutes, ∀ r' ∈ serviceRoutes,
    r.toRouteSpec = r'.toRouteSpec → r = r' := by
  decide +kernel

/-- Every route has its handler, so that the answer for a missing one is never given. -/
theorem isSome_dispatchMatchedOperation : ∀ r ∈ serviceRoutes,
    (dispatchMatchedOperation r.operationId).isSome = true ∧ ':' ∉ r.operationId.toList := by
  decide +kernel

theorem matchService_eq_some_iff : matchService method path = some (route, parameters) ↔
    route ∈ serviceRoutes ∧ Fits ⟨route.toRouteSpec, parameters⟩ method path := by
  rw [matchService, Option.bind_eq_some_iff]
  constructor
  · rintro ⟨m, hm, hfind⟩
    obtain ⟨route', hroute', heq⟩ := Option.map_eq_some_iff.mp hfind
    obtain ⟨rfl, rfl⟩ := Prod.mk.inj heq
    have hspec : route'.toRouteSpec = m.route := by simpa using List.find?_some hroute'
    refine ⟨List.mem_of_find?_eq_some hroute', ?_⟩
    rw [hspec]
    exact (fits_of_matchRoute hm).2
  · rintro ⟨hmem, hfits⟩
    refine ⟨⟨route.toRouteSpec, parameters⟩, (matchRoute_eq_some_iff unambiguous_serviceRoutes).mpr
      ⟨List.mem_map_of_mem hmem, hfits⟩, ?_⟩
    have hsome : (serviceRoutes.find? (·.toRouteSpec = route.toRouteSpec)).isSome :=
      List.find?_isSome.mpr ⟨route, hmem, by simp⟩
    obtain ⟨found, hfound⟩ := Option.isSome_iff_exists.mp hsome
    have hspec : found.toRouteSpec = route.toRouteSpec := by simpa using List.find?_some hfound
    rw [hfound, serviceRoutes_injective _ (List.mem_of_find?_eq_some hfound) _ hmem hspec]
    rfl

/-- The path of a route, with a segment for each of its parameters, leads to the handler of that
route and to no other one, and the handler finds the values that were put into the path. -/
theorem route_reached (route : ServiceRoute) (values : String → String)
    (hroute : route ∈ serviceRoutes)
    (hvalues : ∀ name ∈ parameterNames (splitRoute route.path), IsSegment (values name)) :
    ∃ parameters handler,
      (∀ r q, matchService route.method (pathOf (fillSegments values (splitRoute route.path))) =
        some (r, q) ↔ r = route ∧ q = parameters) ∧
      dispatchMatchedOperation route.operationId = some handler ∧
      ∀ name ∈ parameterNames (splitRoute route.path),
        getKey parameters name = some (values name) := by
  obtain ⟨parameters, hmatch, hkeys⟩ := matchRoute_fillSegments unambiguous_serviceRoutes
    (List.mem_map_of_mem hroute) hvalues
  obtain ⟨handler, hhandler⟩ := Option.isSome_iff_exists.mp
    (isSome_dispatchMatchedOperation route hroute).1
  have hfound := matchService_eq_some_iff.mpr ⟨hroute, (fits_of_matchRoute hmatch).2⟩
  refine ⟨parameters, handler, fun r q => ?_, hhandler, hkeys⟩
  rw [hfound]
  simp [eq_comm]

/-- The release of a package. -/
def sampleRoute : ServiceRoute :=
  { operationId := "getPackageRelease", method := .get, internal := true,
    path := "/api/spio-registry-control/v1/packages/{namespace}/{name}/releases/{version}" }

theorem route_reached_sample : ∃ parameters handler,
    (∀ r q, matchService .get (pathOf (fillSegments (fun name => name ++ "-1")
        (splitRoute sampleRoute.path))) = some (r, q) ↔ r = sampleRoute ∧ q = parameters) ∧
      dispatchMatchedOperation "getPackageRelease" = some handler ∧
      ∀ name ∈ parameterNames (splitRoute sampleRoute.path),
        getKey parameters name = some (name ++ "-1") := by
  refine route_reached sampleRoute (fun name => name ++ "-1") (by decide +kernel) ?_
  intro name hname
  have hnames : ∀ name ∈ parameterNames (splitRoute sampleRoute.path),
      name ++ "-1" ≠ "" ∧ '/' ∉ (name ++ "-1").toList := by decide +kernel
  exact hnames name hname

end catalog

section policy

/-- The roles that a handler is for. -/
def Handler.roles : Handler → List String
  | .registryStatus | .registryDescriptor | .mirrorStatus =>
    ["control-plane", "registry-writer", "mirror", "operator"]
  | .getPackage | .listPackageReleases | .getPackageRelease | .listPackageOwners
  | .listRepositories | .listRepositoryVersions | .getPublication | .listDistributions =>
    ["control-plane", "registry-writer", "mirror", "operator", "package-owner"]
  | .publishRelease | .setPackageReleaseYanked _ | .addPackageOwner | .removePackageOwner
  | .createPublishToken | .listPublishTokens | .revokePublishToken =>
    ["registry-writer", "operator", "package-owner"]
  | .verifyRegistry | .verifyPublication | .listReleaseChannels =>
    ["registry-writer", "mirror", "operator"]
  | .promoteDistribution | .rollbackDistribution | .rolloutReleaseChannel => ["operator"]
  | .createRecoverySnapshot | .restoreRecoverySnapshot | .listAuditEvents | .metrics
  | .storageStatus | .listDocumentationGovernance | .planDocumentationChange
  | .listEcosystemRepositories | .planEcosystemRelease => ["operator", "control-plane"]
  | .listRecoverySnapshots => ["operator", "control-plane", "mirror"]
  | .registerWorkgroupCluster => ["control-plane", "operator", "cluster-registrar"]
  | _ => platformServiceRoles

/-- A publish token may stand in for the certificate; the handler judges the token. -/
def Handler.takesToken : Handler → Bool
  | .publishRelease | .setPackageReleaseYanked _ | .addPackageOwner | .removePackageOwner
  | .promoteDistribution | .rollbackDistribution => true
  | _ => false

/-- Who may reach a handler. -/
inductive Admitted (mtlsRequired : Bool) (request : HttpRequest) (handler : Handler) : Prop where
  | exchange (h : handler = .exchangeExternalIdentity)
  | unprotected (h : mtlsRequired = false)
  | token (clear : String) (hidentity : request.identity = none)
      (hheader : Registry.registryTokenFromHeaders request.headers = some clear)
      (hhandler : handler.takesToken = true)
  | role (identity : MtlsIdentity) (hidentity : request.identity = some identity)
      (hrole : identity.role ∈ handler.roles)

variable {route : ServiceRoute} {handler : Handler} {request : HttpRequest} {required : Bool}
  {identity : MtlsIdentity}

theorem exchange_iff : ∀ r ∈ serviceRoutes, r.operationId = "exchangeExternalIdentity" ↔
    dispatchMatchedOperation r.operationId = some .exchangeExternalIdentity := by
  decide +kernel

theorem takesToken_iff : ∀ r ∈ serviceRoutes,
    (r.internal && isRegistryTokenCapableOperation r.operationId) =
      (dispatchMatchedOperation r.operationId).any Handler.takesToken := by
  decide +kernel

theorem roles_iff : ∀ r ∈ serviceRoutes, ∀ role ∈ platformServiceRoles,
    ((!r.internal || isInternalRole ⟨role, "", ""⟩) &&
        isAuthorizedForOperation r.operationId ⟨role, "", ""⟩) =
      (dispatchMatchedOperation r.operationId).any fun h => decide (role ∈ h.roles) := by
  decide +kernel

theorem isAuthorizedForOperation_role {operation : String} :
    isAuthorizedForOperation operation identity =
      isAuthorizedForOperation operation ⟨identity.role, "", ""⟩ := by
  simp only [isAuthorizedForOperation, roleIn, isInternalRole]

/-- Where certificates are required, the role of a certificate decides, and without a certificate a
token does. -/
theorem admitted_iff (hother : handler ≠ .exchangeExternalIdentity) :
    Admitted true request handler ↔
      match request.identity with
      | none => (Registry.registryTokenFromHeaders request.headers).isSome = true ∧
          handler.takesToken = true
      | some identity => identity.role ∈ handler.roles := by
  constructor
  · rintro (h | h | ⟨clear, hidentity, hheader, htakes⟩ | ⟨identity, hidentity, hrole⟩)
    · exact absurd h hother
    · cases h
    · rw [hidentity, hheader]
      exact ⟨rfl, htakes⟩
    · rw [hidentity]
      exact hrole
  · cases hidentity : request.identity with
    | none =>
      rintro ⟨hsome, htakes⟩
      obtain ⟨clear, hheader⟩ := Option.isSome_iff_exists.mp hsome
      exact .token clear hidentity hheader htakes
    | some identity => exact .role identity hidentity

/-- The checks of the router let through whom the handler is for. -/
theorem requireIdentity_eq_none_iff (hroute : route ∈ serviceRoutes)
    (hhandler : dispatchMatchedOperation route.operationId = some handler)
    (hroles : ∀ identity, request.identity = some identity →
      identity.role ∈ platformServiceRoles) :
    requireIdentity required route request = none ↔ Admitted required request handler := by
  have hexchange := exchange_iff route hroute
  have htoken := takesToken_iff route hroute
  rw [hhandler] at hexchange htoken
  rw [Option.any_some] at htoken
  unfold requireIdentity
  dsimp only
  split
  · next h =>
    exact iff_of_true rfl (.exchange (Option.some.inj (hexchange.mp h)))
  · next hother =>
    have hne : handler ≠ .exchangeExternalIdentity := fun h => hother (hexchange.mpr (h ▸ rfl))
    split
    · next h => exact iff_of_true rfl (.unprotected (by simpa using h))
    · next hrequired =>
      obtain rfl : required = true := by simpa using hrequired
      rw [admitted_iff hne, Bool.and_assoc request.identity.isNone, htoken]
      cases hidentity : request.identity with
      | none =>
        cases hheader : Registry.registryTokenFromHeaders request.headers <;>
          cases htakes : handler.takesToken <;> simp
      | some identity =>
        have hrole := roles_iff route hroute identity.role (hroles identity hidentity)
        rw [hhandler, Option.any_some, ← isAuthorizedForOperation_role] at hrole
        have hinternal : isInternalRole ⟨identity.role, "", ""⟩ = isInternalRole identity := rfl
        rw [hinternal] at hrole
        dsimp only
        rw [← decide_eq_true_iff (p := identity.role ∈ handler.roles), ← hrole]
        simp only [Option.isNone_some, Bool.false_and, Bool.false_eq_true, if_false]
        cases route.internal <;> cases isInternalRole identity <;>
          cases isAuthorizedForOperation route.operationId identity <;> simp

end policy

section runs

variable {σ : Type} (server : Server) (handlers : Handlers σ)

/-- A request that got past the identity check. -/
structure Admission where
  nowSeconds : ℤ
  request : HttpRequest
  route : ServiceRoute
  parameters : List (String × String)
  handler : Handler

/-- The call that the limiter sees. -/
def Admission.call (x : Admission) : RateLimiter.Call :=
  ⟨requestSubject server x.request, x.route.operationId, x.nowSeconds⟩

def admission (a : Arrival) : Option Admission :=
  match requestOf server a with
  | .error _ => none
  | .ok request =>
    (matchService request.method request.path).bind fun found =>
      if (requireIdentity server.mtlsRequired found.1 request).isSome then none
      else (dispatchMatchedOperation found.1.operationId).map fun handler =>
        { nowSeconds := a.nowSeconds, request, route := found.1, parameters := found.2, handler }

/-- The stores after the handler of an admitted request. -/
def served (x : Admission) (stores : σ) : σ :=
  if x.handler = .metrics then stores
  else (handlers x.handler ⟨x.route.toRouteSpec, x.parameters⟩ x.request stores).2

/-- A router that has answered the arrivals in turn. -/
def afterArrivals (arrivals : List Arrival) (stores : σ) : RouterState σ :=
  arrivals.foldl (fun s a => (dispatchRawRequest server handlers a s).2) { stores }

/-- The calls that the limiter sees. -/
def callsOf (arrivals : List Arrival) : List RateLimiter.Call :=
  (arrivals.filterMap (admission server)).map (Admission.call server)

/-- The admitted requests, each with what the limiter says to it. -/
def ledger (arrivals : List Arrival) : List (Admission × Bool) :=
  (arrivals.filterMap (admission server)).zip
    ((outcomes 600 60 (callsOf server arrivals)).map (·.2))

/-- The requests whose handlers run. -/
def handled (arrivals : List Arrival) : List Admission :=
  ((ledger server arrivals).filter (·.2)).map (·.1)

/-- What the router knows after the arrivals: its limiter has seen the admitted calls, its metrics
count them, and the stores are what the handlers that ran have made of them. -/
structure Accounts (arrivals : List Arrival) (stores : σ) (s : RouterState σ) : Prop where
  rateLimiter : s.rateLimiter = RateLimiter.after 600 60 (callsOf server arrivals)
  totalRequests : s.metrics.totalRequests = (ledger server arrivals).length
  byOperation : ∀ operation, (s.metrics.byOperation.get operation).getD 0 =
    (ledger server arrivals).countP fun x => decide (x.1.route.operationId = operation)
  byStatus : ∀ statusCode, (s.metrics.byStatus.get statusCode).getD 0 =
    (ledger server arrivals).countP fun x => decide ((if x.2 then 0 else 429) = statusCode)
  stores : s.stores =
    (handled server arrivals).foldl (fun stores x => served handlers x stores) stores

variable {server handlers} {arrivals : List Arrival} {a : Arrival} {x : Admission} {stores : σ}
  {s : RouterState σ}

theorem admission_eq_some (h : admission server a = some x) :
    requestOf server a = .ok x.request ∧ x.nowSeconds = a.nowSeconds ∧
      matchService x.request.method x.request.path = some (x.route, x.parameters) ∧
      requireIdentity server.mtlsRequired x.route x.request = none ∧
      dispatchMatchedOperation x.route.operationId = some x.handler := by
  unfold admission at h
  split at h
  · cases h
  · next request hrequest =>
    obtain ⟨found, hfound, hrest⟩ := Option.bind_eq_some_iff.mp h
    split at hrest
    · cases hrest
    · next hidentity =>
      obtain ⟨handler, hhandler, rfl⟩ := Option.map_eq_some_iff.mp hrest
      exact ⟨hrequest, rfl, hfound, by simpa using hidentity, hhandler⟩

/-- What one arrival does to the router. -/
theorem dispatchRawRequest_eq : (dispatchRawRequest server handlers a s).2 =
    match admission server a with
    | none => s
    | some x =>
      let r := allow 600 60 s.rateLimiter (x.call server)
      { rateLimiter := r.2
        metrics := s.metrics.record x.route.operationId (if r.1 then 0 else 429)
        stores := if r.1 then served handlers x s.stores else s.stores } := by
  unfold dispatchRawRequest admission
  cases requestOf server a with
  | error response => rfl
  | ok request =>
    dsimp only
    unfold dispatch
    cases hmatch : matchService request.method request.path with
    | none => rfl
    | some found =>
      obtain ⟨route, parameters⟩ := found
      cases hidentity : requireIdentity server.mtlsRequired route request with
      | some refusal => simp [hidentity]
      | none =>
        obtain ⟨handler, hhandler⟩ := Option.isSome_iff_exists.mp
          (isSome_dispatchMatchedOperation route (matchService_eq_some_iff.mp hmatch).1).1
        simp only [Option.bind_some, hidentity, Option.isSome_none, Bool.false_eq_true, if_false,
          hhandler, Option.map_some, Admission.call]
        by_cases hallow : (allow 600 60 s.rateLimiter
            ⟨requestSubject server request, route.operationId, a.nowSeconds⟩).1 = true
        · simp only [hallow, Bool.not_true, Bool.false_eq_true, if_false, if_true, served]
          cases handler <;> rfl
        · simp [hallow]

theorem ledger_calls : (ledger server arrivals).map (fun x => (x.1.call server, x.2)) =
    outcomes 600 60 (callsOf server arrivals) := by
  have hmap := @outcomes_map 600 60 (callsOf server arrivals)
  have hzip : (ledger server arrivals).map (fun x => (x.1.call server, x.2)) =
      (callsOf server arrivals).zip ((outcomes 600 60 (callsOf server arrivals)).map (·.2)) := by
    rw [ledger, callsOf, List.zip_map_left]
    rfl
  rw [hzip]
  nth_rewrite 1 [← hmap]
  exact (List.zip_of_prod rfl rfl).symm

theorem callsOf_concat_none (h : admission server a = none) :
    callsOf server (arrivals ++ [a]) = callsOf server arrivals := by
  simp [callsOf, h]

theorem callsOf_concat (h : admission server a = some x) :
    callsOf server (arrivals ++ [a]) = callsOf server arrivals ++ [x.call server] := by
  simp [callsOf, h]

theorem ledger_concat_none (h : admission server a = none) :
    ledger server (arrivals ++ [a]) = ledger server arrivals := by
  simp [ledger, callsOf_concat_none h, h]

theorem ledger_concat (h : admission server a = some x) : ledger server (arrivals ++ [a]) =
    ledger server arrivals ++ [(x, answer 600 60 (callsOf server arrivals) (x.call server))] := by
  have hlength : (arrivals.filterMap (admission server)).length =
      ((outcomes 600 60 (callsOf server arrivals)).map (·.2)).length := by
    have := congrArg List.length (@outcomes_map 600 60 (callsOf server arrivals))
    simpa [callsOf] using this.symm
  rw [ledger, callsOf_concat h, outcomes_concat, List.filterMap_append, List.map_append,
    List.zip_append hlength]
  simp [ledger, h]

theorem get_counted {κ : Type} [LinearOrder κ] {counts : OrderedMap κ ℤ} {key k : κ} :
    ((counted counts key).get k).getD 0 = (counts.get k).getD 0 + if key = k then 1 else 0 := by
  by_cases h : key = k
  · simp [counted, h]
  · rw [counted, OrderedMap.get_set_of_ne (Ne.symm h), if_neg h, add_zero]

theorem Accounts.step (h : Accounts server handlers arrivals stores s) :
    Accounts server handlers (arrivals ++ [a]) stores
      (dispatchRawRequest server handlers a s).2 := by
  rw [dispatchRawRequest_eq]
  cases hadmission : admission server a with
  | none =>
    obtain ⟨hlimiter, htotal, hoperation, hstatus, hstores⟩ := h
    constructor
    · rw [callsOf_concat_none hadmission, hlimiter]
    · rw [ledger_concat_none hadmission, htotal]
    · rw [ledger_concat_none hadmission]
      exact hoperation
    · rw [ledger_concat_none hadmission]
      exact hstatus
    · rw [handled, ledger_concat_none hadmission]
      exact hstores
  | some x =>
    have hanswer : (allow 600 60 s.rateLimiter (x.call server)).1 =
        answer 600 60 (callsOf server arrivals) (x.call server) := by
      rw [h.rateLimiter]
      rfl
    dsimp only
    rw [hanswer]
    constructor
    · rw [callsOf_concat hadmission, after_concat, h.rateLimiter]
      rfl
    · rw [ledger_concat hadmission, PlatformRequestMetrics.record]
      simp [h.totalRequests]
    · intro operation
      rw [ledger_concat hadmission, PlatformRequestMetrics.record, get_counted,
        h.byOperation operation]
      simp only [List.countP_append, List.countP_singleton, decide_eq_true_eq]
      split <;> simp
    · intro statusCode
      rw [ledger_concat hadmission, PlatformRequestMetrics.record, get_counted,
        h.byStatus statusCode]
      simp only [List.countP_append, List.countP_singleton, decide_eq_true_eq]
      by_cases hcode : (if answer 600 60 (callsOf server arrivals) (x.call server) = true
        then 0 else 429) = statusCode <;> simp [hcode]
    · rw [handled, ledger_concat hadmission, List.filter_append, List.map_append,
        List.foldl_append, ← handled, ← h.stores]
      cases answer 600 60 (callsOf server arrivals) (x.call server) <;> rfl

theorem accounts_afterArrivals :
    Accounts server handlers arrivals stores (afterArrivals server handlers arrivals stores) := by
  induction arrivals using List.reverseRecOn with
  | nil => exact ⟨rfl, rfl, fun _ => rfl, fun _ => rfl, rfl⟩
  | append_singleton arrivals a ih =>
    rw [afterArrivals, List.foldl_append, ← afterArrivals]
    exact ih.step

theorem mem_of_mem_handled (h : x ∈ handled server arrivals) :
    ∃ a ∈ arrivals, admission server a = some x := by
  obtain ⟨entry, hentry, rfl⟩ := List.mem_map.mp h
  have hzip := List.mem_of_mem_filter hentry
  exact List.mem_filterMap.mp (List.of_mem_zip hzip).1

/-- The identity of a request is one of the service's roles. -/
theorem identity_role {request : HttpRequest} (h : requestOf server a = .ok request)
    {identity : MtlsIdentity} (hidentity : request.identity = some identity) :
    identity.role ∈ platformServiceRoles := by
  unfold requestOf at h
  split at h
  · cases h
  · dsimp only at h
    split at h
    · cases h
    · cases h
      simp only [identityForRequest] at hidentity
      split at hidentity
      · next peer hpeer =>
        cases hidentity
        obtain ⟨uris, -, huris⟩ := Option.bind_eq_some_iff.mp hpeer
        obtain ⟨uri, -, huri⟩ := List.exists_of_findSome?_eq_some huris
        exact (mem_platformServiceRoles_of_parse huri).1
      · unfold identityFromHeaders at hidentity
        split at hidentity
        · cases hidentity
        · obtain ⟨uri, -, huri⟩ := Option.bind_eq_some_iff.mp hidentity
          exact (mem_platformServiceRoles_of_parse huri).1

theorem identity_of_peer {request : HttpRequest} (h : requestOf server a = .ok request)
    (hproxy : server.trustProxyIdentityHeaders = false) :
    request.identity = a.peer.bind identityFromPeerCertificate := by
  unfold requestOf at h
  split at h
  · cases h
  · dsimp only at h
    split at h
    · cases h
    · cases h
      cases hpeer : a.peer.bind identityFromPeerCertificate <;>
        simp [identityForRequest, identityFromHeaders, hproxy]

/-- The router keeps the account of its run, and a handler runs only for an arrival on its route
whose sender may reach the handler; headers cannot replace a certificate where no proxy is
trusted. -/
theorem service_accounts (server : Server) (handlers : Handlers σ) (arrivals : List Arrival)
    (stores : σ) :
    Accounts server handlers arrivals stores (afterArrivals server handlers arrivals stores) ∧
      ∀ x ∈ handled server arrivals, ∃ a ∈ arrivals,
        requestOf server a = .ok x.request ∧ x.route ∈ serviceRoutes ∧
        Fits ⟨x.route.toRouteSpec, x.parameters⟩ x.request.method x.request.path ∧
        dispatchMatchedOperation x.route.operationId = some x.handler ∧
        Admitted server.mtlsRequired x.request x.handler ∧
        (server.trustProxyIdentityHeaders = false →
          x.request.identity = a.peer.bind identityFromPeerCertificate) := by
  refine ⟨accounts_afterArrivals, fun x hx => ?_⟩
  obtain ⟨a, ha, hadmission⟩ := mem_of_mem_handled hx
  obtain ⟨hrequest, -, hmatch, hidentity, hhandler⟩ := admission_eq_some hadmission
  obtain ⟨hroute, hfits⟩ := matchService_eq_some_iff.mp hmatch
  refine ⟨a, ha, hrequest, hroute, hfits, hhandler, ?_, identity_of_peer hrequest⟩
  exact (requireIdentity_eq_none_iff hroute hhandler fun _ => identity_role hrequest).mp hidentity

end runs

section limits

variable {server : Server} {arrivals : List Arrival} {a : Arrival} {x : Admission}
  {c e : RateLimiter.Call}
  {times : List ℤ} {t : ℤ}

/-- A bucket has not counted more calls than there were. -/
theorem count_recorded (h : times.length < 2 ^ 31) :
    0 ≤ (recorded 600 60 times).1.count ∧ (recorded 600 60 times).1.count ≤ times.length := by
  induction times using List.reverseRecOn with
  | nil => exact ⟨le_refl _, le_refl _⟩
  | append_singleton times t ih =>
    rw [List.length_append, List.length_singleton] at h
    obtain ⟨hnonneg, hle⟩ := ih (by omega)
    have hone : (0 + 1 : ℤ).bmod (2 ^ 32) = 1 := by decide
    have hnext : ((recorded 600 60 times).1.count + 1).bmod (2 ^ 32) =
        (recorded 600 60 times).1.count + 1 := by
      rw [Int.bmod_eq_of_le] <;> omega
    rw [recorded_concat, record, allowBucket, List.length_append, List.length_singleton]
    dsimp only
    split
    · rw [hone]
      omega
    · rw [hnext]
      omega

/-- The arrival makes a call of the same subject for the same operation. -/
def mine (server : Server) (c : RateLimiter.Call) (a : Arrival) : Bool :=
  (admission server a).any fun x => samePair c (x.call server)

theorem plain_of_admission (h : admission server a = some x) :
    ':' ∉ (x.call server).operation.toList := by
  obtain ⟨-, -, hmatch, -, -⟩ := admission_eq_some h
  exact (isSome_dispatchMatchedOperation _ (matchService_eq_some_iff.mp hmatch).1).2

theorem plain_of_mem_callsOf (h : e ∈ callsOf server arrivals) : ':' ∉ e.operation.toList := by
  obtain ⟨x, hx, rfl⟩ := List.mem_map.mp h
  obtain ⟨a, -, hadmission⟩ := List.mem_filterMap.mp hx
  exact plain_of_admission hadmission

theorem callsOf_filter : callsOf server (arrivals.filter (mine server c)) =
    (callsOf server arrivals).filter (samePair c) := by
  induction arrivals with
  | nil => rfl
  | cons a arrivals ih =>
    cases hadmission : admission server a with
    | none =>
      have hmine : mine server c a = false := by simp [mine, hadmission]
      rw [List.filter_cons, hmine, if_neg Bool.false_ne_true, ih]
      simp [callsOf, hadmission]
    | some x =>
      have hmine : mine server c a = samePair c (x.call server) := by simp [mine, hadmission]
      have hcons : ∀ rest, callsOf server (a :: rest) = x.call server :: callsOf server rest :=
        fun rest => by simp [callsOf, hadmission]
      rw [List.filter_cons, hmine, hcons, List.filter_cons]
      split
      · rw [hcons, ih]
      · exact ih

theorem samePair_congr (h : samePair c e = true) : samePair c = samePair e := by
  obtain ⟨hsubject, hoperation⟩ := samePair_iff.mp h
  funext d
  rw [samePair, samePair, hsubject, hoperation]

/-- What others send changes nothing for the calls of a subject for an operation. -/
theorem ledger_filter : (ledger server arrivals).filter (fun x => samePair c (x.1.call server)) =
    ledger server (arrivals.filter (mine server c)) := by
  induction arrivals using List.reverseRecOn with
  | nil => rfl
  | append_singleton arrivals a ih =>
    cases hadmission : admission server a with
    | none =>
      have hmine : mine server c a = false := by simp [mine, hadmission]
      rw [ledger_concat_none hadmission, ih, List.filter_append, List.filter_singleton, hmine]
      simp
    | some x =>
      have hmine : mine server c a = samePair c (x.call server) := by simp [mine, hadmission]
      rw [ledger_concat hadmission, List.filter_append, ih, List.filter_append,
        List.filter_singleton, List.filter_singleton, hmine]
      cases hpair : samePair c (x.call server) with
      | false => simp
      | true =>
        have hplain := plain_of_admission hadmission
        have htimes : timesOf (x.call server) (callsOf server (arrivals.filter (mine server c))) =
            timesOf (x.call server) (callsOf server arrivals) := by
          rw [callsOf_filter, samePair_congr hpair, timesOf_filter]
        simp only [cond_true]
        rw [ledger_concat hadmission,
          answer_eq (by omega) (by omega) hplain fun e => plain_of_mem_callsOf,
          answer_eq (by omega) (by omega) hplain fun e => plain_of_mem_callsOf, htimes]

/-- The times at which a subject calls an operation are those of some of the arrivals. -/
theorem timesOf_callsOf : (timesOf c (callsOf server arrivals)).Sublist
    (arrivals.map (·.nowSeconds)) := by
  have hcalls : ((callsOf server arrivals).map (·.nowSeconds)).Sublist
      (arrivals.map (·.nowSeconds)) := by
    induction arrivals with
    | nil => exact .slnil
    | cons a arrivals ih =>
      cases hadmission : admission server a with
      | none => simpa [callsOf, hadmission] using ih.cons _
      | some x =>
        have htime : (x.call server).nowSeconds = a.nowSeconds := (admission_eq_some hadmission).2.1
        simpa [callsOf, hadmission, htime] using ih
  exact (List.filter_sublist.map _).trans hcalls

/-- A subject does not get an operation more than twice the limit in any minute. -/
theorem countP_ledger_le (hlength : arrivals.length < 2 ^ 31 - 1)
    (hpos : ∀ a ∈ arrivals, 0 < a.nowSeconds)
    (horder : arrivals.Pairwise fun a b => a.nowSeconds ≤ b.nowSeconds) :
    (ledger server arrivals).countP (fun x => x.2 && (samePair c (x.1.call server) &&
      decide (t ≤ x.1.nowSeconds ∧ x.1.nowSeconds < t + 60))) ≤ 1200 := by
  by_cases hc : ':' ∈ c.operation.toList
  · -- no route has such an operation
    refine le_trans (le_of_eq (List.countP_eq_zero.mpr fun x hx hcounted => ?_)) (Nat.zero_le _)
    obtain ⟨a, -, hadmission⟩ := List.mem_filterMap.mp (List.of_mem_zip hx).1
    simp only [Bool.and_eq_true, samePair_iff] at hcounted
    exact plain_of_admission hadmission (hcounted.2.1.2 ▸ hc)
  · have htimes := @timesOf_callsOf server arrivals c
    have hwindowed := @windowed_recorded 600 60 (timesOf c (callsOf server arrivals)) (by omega)
      (by omega)
      (fun t ht => by
        obtain ⟨a, ha, rfl⟩ := List.mem_map.mp (htimes.subset ht)
        exact hpos a ha)
      ((List.pairwise_map.mpr horder).sublist htimes)
      (fun before t rest h => by
        have hlen := htimes.length_le
        rw [h] at hlen
        simp only [List.length_append, List.length_cons, List.length_map] at hlen
        have hcount := @count_recorded before (by omega)
        exact .inr (by omega))
    have hbounded := hwindowed.bounded t
    rw [← outcomes_filter (by omega) (by omega) hc fun e => plain_of_mem_callsOf, ← ledger_calls,
      List.countP_map, List.countP_filter, List.countP_map] at hbounded
    refine Int.ofNat_le.mp (le_trans (Int.ofNat_le.mpr (List.countP_mono_left fun x _ hx => ?_))
      hbounded)
    simp only [Bool.and_eq_true, Function.comp_apply] at hx ⊢
    exact ⟨⟨hx.1, hx.2.2⟩, hx.2.1⟩

/-- Which calls of a subject for an operation get through depends on these calls alone, and at most
1200 get through in any minute. -/
theorem subject_limited (server : Server) (c : RateLimiter.Call) (arrivals : List Arrival)
    (hlength : arrivals.length < 2 ^ 31 - 1) (hpos : ∀ a ∈ arrivals, 0 < a.nowSeconds)
    (horder : arrivals.Pairwise fun a b => a.nowSeconds ≤ b.nowSeconds) :
    (ledger server arrivals).filter (fun x => samePair c (x.1.call server)) =
        ledger server (arrivals.filter (mine server c)) ∧
      ∀ t, ((handled server arrivals).countP fun x => samePair c (x.call server) &&
        decide (t ≤ x.nowSeconds ∧ x.nowSeconds < t + 60)) ≤ 1200 := by
  refine ⟨ledger_filter, fun t => ?_⟩
  rw [handled, List.countP_map, List.countP_filter]
  refine le_trans (List.countP_mono_left fun x _ hx => ?_)
    (@countP_ledger_le server arrivals c t hlength hpos horder)
  simpa [and_comm] using hx

def sampleServer : Server where
  mtlsRequired := true
  trustProxyIdentityHeaders := false
  sha256 bytes := bytes
  parseJson _ := .error "no JSON"

/-- An operator asks for the metrics. -/
def sampleArrival (nowSeconds : ℤ) : Arrival where
  nowSeconds
  peer := some ["spiffe://styio-platform/tenant/platform/role/operator/node/one"]
  raw := { method := "GET", target := "/ops/metrics", headers := [], body := [] }

theorem subject_limited_sample :
    let c : RateLimiter.Call := ⟨"one", "platformMetrics", 0⟩
    let arrivals := [sampleArrival 1, sampleArrival 2]
    (ledger sampleServer arrivals).filter (fun x => samePair c (x.1.call sampleServer)) =
        ledger sampleServer (arrivals.filter (mine sampleServer c)) ∧
      ∀ t, ((handled sampleServer arrivals).countP fun x => samePair c (x.call sampleServer) &&
        decide (t ≤ x.nowSeconds ∧ x.nowSeconds < t + 60)) ≤ 1200 :=
  subject_limited sampleServer ⟨"one", "platformMetrics", 0⟩ [sampleArrival 1, sampleArrival 2]
    (by decide) (by decide) (by decide)

end limits

section registry

variable {route : ServiceRoute} {request : HttpRequest} {required : Bool}
  {identity : MtlsIdentity} {r : Registry.ControlRequest}

/-- The operations of the registry's write requests. -/
def controlOperations : List String :=
  ["publishRelease", "yankPackageRelease", "unyankPackageRelease", "promoteDistribution",
    "rollbackDistribution", "addPackageOwner", "removePackageOwner", "createPublishToken",
    "revokePublishToken"]

theorem internal_of_control : ∀ route ∈ serviceRoutes, route.operationId ∈ controlOperations →
    route.internal = true ∧ route.operationId ≠ "exchangeExternalIdentity" := by
  decide +kernel

/-- What the front door of the registry's write requests knows of an operation is what the router
knows of it. -/
theorem control_eq : r.operation ∈ controlOperations ∧
    isRegistryTokenCapableOperation r.operation = r.tokenCapable ∧
    isAuthorizedForOperation r.operation identity = r.roles.contains identity.role := by
  cases r with
  | write q =>
    cases q with
    | setYanked namespaceName name version yanked request =>
      cases yanked <;>
        exact ⟨by simp [controlOperations, Registry.ControlRequest.operation,
          Registry.yankOperation], rfl, rfl⟩
    | publishRelease request =>
      exact ⟨by simp [controlOperations, Registry.ControlRequest.operation], rfl, rfl⟩
    | promoteDistribution distributionId request =>
      exact ⟨by simp [controlOperations, Registry.ControlRequest.operation], rfl, rfl⟩
    | rollbackDistribution distributionId request =>
      exact ⟨by simp [controlOperations, Registry.ControlRequest.operation], rfl, rfl⟩
  | addPackageOwner namespaceName name request =>
    exact ⟨by simp [controlOperations, Registry.ControlRequest.operation], rfl, rfl⟩
  | removePackageOwner namespaceName name ownerId request =>
    exact ⟨by simp [controlOperations, Registry.ControlRequest.operation], rfl, rfl⟩
  | createPublishToken random request body =>
    exact ⟨by simp [controlOperations, Registry.ControlRequest.operation], rfl, rfl⟩
  | revokePublishToken tokenId request =>
    exact ⟨by simp [controlOperations, Registry.ControlRequest.operation], rfl, rfl⟩

theorem isInternalRole_eq : isInternalRole identity =
    Registry.isInternalRole ⟨identity.role, identity.nodeId⟩ := by
  simp [isInternalRole, Registry.isInternalRole, Bool.or_assoc]

/-- The router lets a write request of the registry through when the registry's front door does. -/
theorem requireIdentity_control (hroute : route ∈ serviceRoutes)
    (hoperation : route.operationId = r.operation)
    (hidentity : r.http.identity = request.identity.map fun i => ⟨i.role, i.nodeId⟩)
    (hheaders : r.http.headers = request.headers) :
    (requireIdentity required route request).isNone =
      (Registry.requireIdentity required r).isNone := by
  have hmem : route.operationId ∈ controlOperations := hoperation ▸ (@control_eq ⟨"", "", ""⟩ r).1
  obtain ⟨hinternal, hother⟩ := internal_of_control route hroute hmem
  have htoken : isRegistryTokenCapableOperation route.operationId = r.tokenCapable :=
    hoperation ▸ (@control_eq ⟨"", "", ""⟩ r).2.1
  have hroles : ∀ identity, isAuthorizedForOperation route.operationId identity =
      r.roles.contains identity.role := fun identity => hoperation ▸ (@control_eq identity r).2.2
  unfold requireIdentity Registry.requireIdentity
  rw [if_neg hother, hheaders, hidentity, htoken, hinternal]
  cases required with
  | false => rfl
  | true =>
    cases request.identity with
    | none =>
      cases r.tokenCapable <;> cases Registry.registryTokenFromHeaders request.headers <;> rfl
    | some identity =>
      simp only [Bool.not_true, Bool.false_eq_true, if_false, Option.isNone_some, Bool.false_and,
        Option.map_some, Bool.true_and, hroles, isInternalRole_eq]
      split
      · rfl
      · split <;> rfl

end registry

end StyioPlatform.Router
