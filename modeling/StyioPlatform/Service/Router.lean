import Mathlib.Data.List.Count
import StyioPlatform.Lib.Json
import StyioPlatform.Registry.ControlPlane
import StyioPlatform.Security.Authorization
import StyioPlatform.Service.HttpFraming
import StyioPlatform.Service.RateLimiter
import StyioPlatform.Service.RouteCatalog

/-! The router (`Router.cpp`) and the requests that the server hands to it (`BeastServer.cpp`): a
request is led to its route, its identity is checked, it is counted, and then its handler runs. -/
namespace StyioPlatform.Router

open Routing RateLimiter Security

structure HttpRequest where
  method : HttpMethod
  path : String
  headers : List (String × String)
  body : Json
  identity : Option MtlsIdentity

structure HttpResponse where
  statusCode : ℕ
  body : Json

/-- The handlers of a `PlatformRouter`. -/
inductive Handler where
  | health
  | nodeSelf
  | registerWorkgroupCluster
  | listWorkgroupClusters
  | submitJob
  | getJob
  | getJobEvents
  | cancelJob
  | registerWorker
  | registerCompileContainer
  | getCompileContainer
  | switchCompileContainerWorkspace
  | claimJob
  | heartbeatJob
  | completeJob
  | listDocumentationGovernance
  | planDocumentationChange
  | listEcosystemRepositories
  | planEcosystemRelease
  | mirrorStatus
  | registryStatus
  | registryDescriptor
  | publishRelease
  | verifyRegistry
  | getPackage
  | listPackageReleases
  | getPackageRelease
  | setPackageReleaseYanked (yanked : Bool)
  | listPackageOwners
  | addPackageOwner
  | removePackageOwner
  | createPublishToken
  | listPublishTokens
  | revokePublishToken
  | listRepositories
  | listRepositoryVersions
  | getPublication
  | verifyPublication
  | listDistributions
  | promoteDistribution
  | rollbackDistribution
  | listReleaseChannels
  | rolloutReleaseChannel
  | createRecoverySnapshot
  | listRecoverySnapshots
  | restoreRecoverySnapshot
  | listAuditEvents
  | metrics
  | storageStatus
  | exchangeExternalIdentity
  deriving DecidableEq

def dispatchPlatformNodeOperation : String → Option Handler
  | "health" => some .health
  | "nodeSelf" => some .nodeSelf
  | "registerWorkgroupCluster" => some .registerWorkgroupCluster
  | "listWorkgroupClusters" => some .listWorkgroupClusters
  | _ => none

def dispatchWorkspaceOperation : String → Option Handler
  | "submitJob" => some .submitJob
  | "getJob" => some .getJob
  | "getJobEvents" => some .getJobEvents
  | "cancelJob" => some .cancelJob
  | "registerWorker" => some .registerWorker
  | "registerCompileContainer" => some .registerCompileContainer
  | "getCompileContainer" => some .getCompileContainer
  | "switchCompileContainerWorkspace" => some .switchCompileContainerWorkspace
  | "claimJob" => some .claimJob
  | "heartbeatJob" => some .heartbeatJob
  | "completeJob" => some .completeJob
  | _ => none

def dispatchGovernanceOperation : String → Option Handler
  | "listDocumentationGovernance" => some .listDocumentationGovernance
  | "planDocumentationChange" => some .planDocumentationChange
  | "listEcosystemRepositories" => some .listEcosystemRepositories
  | "planEcosystemRelease" => some .planEcosystemRelease
  | _ => none

def dispatchRegistryOperation : String → Option Handler
  | "mirrorStatus" => some .mirrorStatus
  | "registryStatus" => some .registryStatus
  | "registryDescriptor" => some .registryDescriptor
  | "publishRelease" => some .publishRelease
  | "verifyRegistry" => some .verifyRegistry
  | "getPackage" => some .getPackage
  | "listPackageReleases" => some .listPackageReleases
  | "getPackageRelease" => some .getPackageRelease
  | "yankPackageRelease" => some (.setPackageReleaseYanked true)
  | "unyankPackageRelease" => some (.setPackageReleaseYanked false)
  | "listPackageOwners" => some .listPackageOwners
  | "addPackageOwner" => some .addPackageOwner
  | "removePackageOwner" => some .removePackageOwner
  | "createPublishToken" => some .createPublishToken
  | "listPublishTokens" => some .listPublishTokens
  | "revokePublishToken" => some .revokePublishToken
  | "listRepositories" => some .listRepositories
  | "listRepositoryVersions" => some .listRepositoryVersions
  | "getPublication" => some .getPublication
  | "verifyPublication" => some .verifyPublication
  | "listDistributions" => some .listDistributions
  | "promoteDistribution" => some .promoteDistribution
  | "rollbackDistribution" => some .rollbackDistribution
  | "listReleaseChannels" => some .listReleaseChannels
  | "rolloutReleaseChannel" => some .rolloutReleaseChannel
  | _ => none

def dispatchOperationsOperation : String → Option Handler
  | "createRecoverySnapshot" => some .createRecoverySnapshot
  | "listRecoverySnapshots" => some .listRecoverySnapshots
  | "restoreRecoverySnapshot" => some .restoreRecoverySnapshot
  | "listAuditEvents" => some .listAuditEvents
  | "platformMetrics" => some .metrics
  | "storageStatus" => some .storageStatus
  | "exchangeExternalIdentity" => some .exchangeExternalIdentity
  | _ => none

/-- The handler that `DispatchMatchedOperation` runs for the operation. -/
def dispatchMatchedOperation (operation : String) : Option Handler :=
  (dispatchPlatformNodeOperation operation).or <|
    (dispatchWorkspaceOperation operation).or <|
      (dispatchGovernanceOperation operation).or <|
        (dispatchRegistryOperation operation).or (dispatchOperationsOperation operation)

section envelopes

def successEnvelope (message : String) (payload : Json) : Json := .ofFields
  [("returncode", .int 0), ("message", .string message), ("stdout", .string ""),
    ("stderr", .string ""), ("payload", payload)]

def failureEnvelope (message detail category operation : String) (returncode : ℤ := 17) : Json :=
  .ofFields [("returncode", .int returncode), ("message", .string message), ("stdout", .string ""),
    ("stderr", .string detail),
    ("error_payload", .ofFields [("category", .string category), ("detail", .string detail),
      ("operation_id", .string operation)])]

def registryFailureEnvelope (message detail category : String) (returncode : ℤ := 17) : Json :=
  .ofFields [("returncode", .int returncode), ("message", .string message), ("stdout", .string ""),
    ("stderr", .string detail),
    ("error_payload", .ofFields [("category", .string category), ("detail", .string detail)])]

def failureResponse (status : ℕ) (message detail category operation : String)
    (returncode : ℤ := 17) : HttpResponse :=
  if isRegistryOperation operation then
    ⟨status, registryFailureEnvelope message detail category returncode⟩
  else ⟨status, failureEnvelope message detail category operation returncode⟩

end envelopes

structure PlatformRequestMetrics where
  totalRequests : ℤ := 0
  byOperation : OrderedMap String ℤ := .empty
  byStatus : OrderedMap ℕ ℤ := .empty

/-- One more at the key. -/
def counted {κ : Type} [LinearOrder κ] (counts : OrderedMap κ ℤ) (key : κ) : OrderedMap κ ℤ :=
  counts.set key ((counts.get key).getD 0 + 1)

def PlatformRequestMetrics.record (m : PlatformRequestMetrics) (operation : String)
    (statusCode : ℕ) : PlatformRequestMetrics where
  totalRequests := m.totalRequests + 1
  byOperation := counted m.byOperation operation
  byStatus := counted m.byStatus statusCode

def PlatformRequestMetrics.snapshot (m : PlatformRequestMetrics) : Json := .ofFields
  [("total_requests", .int m.totalRequests),
    ("by_operation", .ofFields (m.byOperation.entries.map fun x => (x.1, .int x.2))),
    ("by_status", .ofFields (m.byStatus.entries.map fun x => (toString x.1, .int x.2)))]

def rateLimiterSnapshot (buckets : Buckets) : Json := .ofFields
  [("buckets", .ofFields (buckets.entries.map fun x =>
    (x.1, .ofFields [("window_start", .int x.2.windowStart), ("count", .int x.2.count)])))]

/-- What the router owns: its own counts, and the stores that the handlers work on. -/
structure RouterState (σ : Type) where
  rateLimiter : Buckets := .empty
  metrics : PlatformRequestMetrics := {}
  stores : σ

/-- The settings and the surroundings of a server. -/
structure Server where
  /-- `mtls.required`. -/
  mtlsRequired : Bool
  /-- `mtls.trust_proxy_identity_headers`. -/
  trustProxyIdentityHeaders : Bool
  /-- OpenSSL's `SHA256`. -/
  sha256 : HttpFraming.Bytes → HttpFraming.Bytes
  /-- `nlohmann::json::parse`, with the text of its error. -/
  parseJson : HttpFraming.Bytes → Except String Json

/-- The handlers over the stores, but for `HandleMetrics`; no response is an exception. -/
abbrev Handlers (σ : Type) :=
  Handler → RouteMatch → HttpRequest → σ → Option HttpResponse × σ

/-- `MatchRoute`, with the route as the service has it. -/
def matchService (method : HttpMethod) (path : String) :
    Option (ServiceRoute × List (String × String)) :=
  (matchRoute (serviceRoutes.map (·.toRouteSpec)) method path).bind fun m =>
    (serviceRoutes.find? (·.toRouteSpec = m.route)).map (·, m.parameters)

/-- `RequireIdentity`: the answer to a request that is turned away. -/
def requireIdentity (mtlsRequired : Bool) (route : ServiceRoute) (request : HttpRequest) :
    Option HttpResponse :=
  let operation := route.operationId
  if operation = "exchangeExternalIdentity" then none
  else if !mtlsRequired then none
  else if request.identity.isNone && route.internal && isRegistryTokenCapableOperation operation &&
      (Registry.registryTokenFromHeaders request.headers).isSome then none
  else
    match request.identity with
    | none => some (failureResponse 401 "mTLS identity is required"
        "missing client certificate identity" "AuthError" operation 2)
    | some identity =>
      if route.internal && !isInternalRole identity then
        some (failureResponse 403 "mTLS identity is not authorized"
          "internal route requires a service role" "AuthError" operation 2)
      else if !isAuthorizedForOperation operation identity then
        some (failureResponse 403 "mTLS identity is not authorized"
          "identity role is not allowed for this operation" "AuthError" operation 2)
      else none

/-- `RequestSubject`. -/
def requestSubject (server : Server) (request : HttpRequest) : String :=
  match request.identity with
  | some identity => identity.nodeId
  | none =>
    match Registry.registryTokenFromHeaders request.headers with
    | some token =>
      let hash := Registry.hexBytes (server.sha256 token.toUTF8.toList)
      "token:" ++ String.ofList (hash.toList.take 12)
    | none => "anonymous"

def handleMetrics {σ : Type} (s : RouterState σ) : HttpResponse :=
  ⟨200, successEnvelope "loaded platform metrics" (.ofFields
    [("requests", s.metrics.snapshot), ("rate_limiter", rateLimiterSnapshot s.rateLimiter)])⟩

section dispatch

variable {σ : Type} (server : Server) (handlers : Handlers σ)

/-- The handler of a route, over what the router owns. -/
def runHandler (handler : Handler) (m : RouteMatch) (request : HttpRequest) (s : RouterState σ) :
    Option HttpResponse × RouterState σ :=
  match handler with
  | .metrics => (some (handleMetrics s), s)
  | handler =>
    let r := handlers handler m request s.stores
    (r.1, { s with stores := r.2 })

/-- `PlatformRouter::Dispatch`. -/
def dispatch (nowSeconds : ℤ) (request : HttpRequest) (s : RouterState σ) :
    Option HttpResponse × RouterState σ :=
  match matchService request.method request.path with
  | none =>
    (some ⟨404, failureEnvelope "route not found" request.path "NotFound" "unknown" 17⟩, s)
  | some (route, parameters) =>
    match requireIdentity server.mtlsRequired route request with
    | some refusal => (some refusal, s)
    | none =>
      let operation := route.operationId
      let r := allow 600 60 s.rateLimiter ⟨requestSubject server request, operation, nowSeconds⟩
      let s := { s with rateLimiter := r.2 }
      if !r.1 then
        (some (failureResponse 429 "request rate limited" "rate limit exceeded" "RateLimitError"
          operation 17), { s with metrics := s.metrics.record operation 429 })
      else
        let s := { s with metrics := s.metrics.record operation 0 }
        match dispatchMatchedOperation operation with
        | some handler => runHandler handlers handler ⟨route.toRouteSpec, parameters⟩ request s
        | none => (some ⟨500, failureEnvelope "route handler missing" operation "InternalError"
            operation⟩, s)

end dispatch

section requests

def stripQuery (target : String) : String :=
  let path := target.toList.takeWhile (· ≠ '?')
  if path = [] then "/" else String.ofList path

/-- `kPlatformApiBase`. -/
def platformApiBase : String := "/api/styio-platform/v1"

def normalizePlatformPath (target : String) : String :=
  let target := stripQuery target
  if target = platformApiBase then "/"
  else if (platformApiBase ++ "/").toList <+: target.toList then
    String.ofList (target.toList.drop platformApiBase.toList.length)
  else target

/-- The first identity among the URI names of a peer certificate. -/
def identityFromPeerCertificate (uris : List String) : Option MtlsIdentity :=
  (uris.filter (· ≠ "")).findSome? parseMtlsUriSan

def identityFromHeaders (server : Server) (headers : List (String × String)) :
    Option MtlsIdentity :=
  if !server.trustProxyIdentityHeaders then none
  else (getKey headers "x-styio-mtls-uri-san").bind parseMtlsUriSan

def identityForRequest (server : Server) (headers : List (String × String))
    (peerIdentity : Option MtlsIdentity) : Option MtlsIdentity :=
  match peerIdentity with
  | some identity => some identity
  | none => identityFromHeaders server headers

def badRequestBody (detail : String) : Json :=
  failureEnvelope "malformed HTTP request" detail "UsageError" "httpAdapter" 2

def parseHttpMethod : String → Option HttpMethod
  | "GET" => some .get
  | "POST" => some .post
  | "DELETE" => some .delete
  | _ => none

/-- A request as it comes in: when, from which peer, and what was read. -/
structure Arrival where
  nowSeconds : ℤ
  /-- The URI names of the peer's certificate, if it shows one. -/
  peer : Option (List String)
  raw : HttpFraming.RawHttpRequest

/-- The request that `DispatchRawRequest` hands to the router, or its own answer. -/
def requestOf (server : Server) (a : Arrival) : Except HttpResponse HttpRequest :=
  match parseHttpMethod a.raw.method with
  | none => .error ⟨405, badRequestBody "method must be GET, POST, or DELETE"⟩
  | some method =>
    let body := if a.raw.body = [] then .ok (.object []) else server.parseJson a.raw.body
    match body with
    | .error detail => .error ⟨400, badRequestBody detail⟩
    | .ok body => .ok
      { method
        path := normalizePlatformPath a.raw.target
        headers := a.raw.headers
        body
        identity := identityForRequest server a.raw.headers
          (a.peer.bind identityFromPeerCertificate) }

/-- `DispatchRawRequest`. -/
def dispatchRawRequest {σ : Type} (server : Server) (handlers : Handlers σ) (a : Arrival)
    (s : RouterState σ) : Option HttpResponse × RouterState σ :=
  match requestOf server a with
  | .error response => (some response, s)
  | .ok request => dispatch server handlers a.nowSeconds request s

end requests

end StyioPlatform.Router
