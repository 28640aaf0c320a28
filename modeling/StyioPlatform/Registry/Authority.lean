import StyioPlatform.Lib.Json
import StyioPlatform.Lib.Runs
import StyioPlatform.Registry.System

/-! Owners and publish tokens: the handlers of `RegistryOwnerTokenHandlers.cpp`, and the runs of
all the requests that change the registry. -/
namespace StyioPlatform.Registry

/-- `body.value(field, default)`, which throws where the field is no string. -/
def textFieldOr (fields : String → JsonField) (field default : String) : Program String :=
  match fields field with
  | .absent => pure default
  | .text value => pure value
  | .other => Prog.fail (.error "type must be string")

def ownerRejected (detail operation : String) : HttpResponse :=
  failureResponse 400 "package owner mutation rejected" detail "ValidationError" operation 2

def ownerDenied (operation : String) : HttpResponse :=
  failureResponse 403 "package owner mutation denied" "token or identity lacks package:owner"
    "AuthError" operation 2

/-- `HandleAddPackageOwner`, of a request that passed the checks of its form. -/
def addPackageOwner (env : Environment) (host : Host) (fault : Option Site)
    (package ownerId : String) (request : HttpRequest) (fields : String → JsonField) :
    Program HttpResponse := do
  if ← registryWriteAuthorized env host fault request "package:owner" package then
    let records ← Prog.ofExcept (readPackageIndexRecords (← rootTree) package)
    if records.isEmpty then
      recordRegistryAudit fault
      pure (failureResponse 404 "package owner mutation failed" "package is not found" "NotFound"
        "addPackageOwner")
    else
      let ownerKind ← textFieldOr fields "owner_kind" "user"
      let role ← textFieldOr fields "role" "owner"
      let owner : RegistryPackageOwnerRecord :=
        { packageId := package, ownerId, ownerKind, role
          addedBy := registryActorId env request, addedAt := host.now }
      execPostgres fault .owner (·.addRegistryPackageOwner owner)
      modifyMemory (·.addRegistryPackageOwner owner)
      recordRegistryAudit fault
      pure (successResponse "added package owner" (.owner owner))
  else
    recordRegistryAudit fault
    pure (ownerDenied "addPackageOwner")

/-- `HandleAddPackageOwner`; the package comes from the route. -/
def handleAddPackageOwner (env : Environment) (host : Host) (fault : Option Site)
    (namespaceName name : String) (request : HttpRequest) : Program HttpResponse :=
  match validatePackageName (namespaceName ++ "/" ++ name) with
  | some detail => pure (ownerRejected detail "addPackageOwner")
  | none =>
    match request.body with
    | none => pure (ownerRejected "owner_id is required" "addPackageOwner")
    | some fields =>
      match nonEmptyString fields "owner_id" with
      | none => pure (ownerRejected "owner_id is required" "addPackageOwner")
      | some ownerId =>
        addPackageOwner env host fault (namespaceName ++ "/" ++ name) ownerId request fields

/-- The store that is asked has the owner. -/
def knowsOwner (w : World) (packageId ownerId : String) : Bool :=
  match w.postgres with
  | some s => s.hasRegistryPackageOwner packageId ownerId
  | none => w.memory.hasRegistryPackageOwner packageId ownerId

/-- `HandleRemovePackageOwner`, of a valid package. -/
def removePackageOwner (env : Environment) (host : Host) (fault : Option Site)
    (package ownerId : String) (request : HttpRequest) : Program HttpResponse := do
  if ← registryWriteAuthorized env host fault request "package:owner" package then
    let removed := knowsOwner (← Prog.read) package ownerId
    execPostgres fault .removeOwner (·.removeRegistryPackageOwner package ownerId)
    onlyIf removed (modifyMemory (·.removeRegistryPackageOwner package ownerId))
    recordRegistryAudit fault
    if removed then pure (successResponse "removed package owner" (.removedOwner package ownerId))
    else pure (failureResponse 404 "package owner mutation failed" "package owner is not found"
      "NotFound" "removePackageOwner")
  else
    recordRegistryAudit fault
    pure (ownerDenied "removePackageOwner")

/-- `HandleRemovePackageOwner`; package and owner come from the route. -/
def handleRemovePackageOwner (env : Environment) (host : Host) (fault : Option Site)
    (namespaceName name ownerId : String) (request : HttpRequest) : Program HttpResponse :=
  match validatePackageName (namespaceName ++ "/" ++ name) with
  | some detail => pure (ownerRejected detail "removePackageOwner")
  | none => removePackageOwner env host fault (namespaceName ++ "/" ++ name) ownerId request

/-- `ValidateStringArray`. -/
def stringArrayError (body : Json) (field : String) : Option String :=
  match body.get? field with
  | none => none
  | some (.array l) =>
    if l.all fun entry => (entry.text?.filter (· ≠ "")).isSome then none
    else some (field ++ " entries must be non-empty strings")
  | some _ => some (field ++ " must be an array")

/-- `JsonStringArray`, of a field that passed the check. -/
def jsonStringArray (body : Json) (field : String) (fallback : List String) : List String :=
  match body.get? field with
  | none => fallback
  | some member => member.elements.filterMap Json.text?

/-- The scopes that a creation asks for. -/
def requestedScopes (body : Json) : List String := jsonStringArray body "scopes" ["package:publish"]

def requestedPatterns (body : Json) : List String := jsonStringArray body "package_patterns" ["*"]

/-- `body.value(field, default)` of a JSON object. -/
def jsonTextOr (body : Json) (field default : String) : Program String :=
  match body.textOr field default with
  | some text => pure text
  | none => Prog.fail (.error "type must be string")

/-- The id that `NextRegistryTokenId` returns. -/
def nextRegistryTokenId (w : World) : String :=
  registryTokenIdFor
    (match w.postgres with
    | some s => s.nextRegistryTokenSequence
    | none => w.memory.nextRegistryTokenSequence)

/-- The clear token of a creation, of which the stores keep the digest. -/
def clearToken (tokenId random : String) : String := "styio_pat_" ++ tokenId ++ "_" ++ random

def tokenHash (env : Environment) (clear : String) : String :=
  sha256Bytes env clear.toUTF8.toList

/-- Make and store a token; `random` is `SecureRandomHex(24)`. -/
def issuePublishToken (env : Environment) (host : Host) (fault : Option Site)
    (ownerId random : String) (body : Json) : Program HttpResponse := do
  let w ← Prog.read
  let clear := clearToken (nextRegistryTokenId w) random
  execPostgres fault .nextToken (·.takeRegistryTokenId)
  onlyIf w.postgres.isNone (modifyMemory (·.takeRegistryTokenId))
  failAt fault .secureRandom
  let expiresAt ← jsonTextOr body "expires_at" ""
  let token : RegistryPublishTokenRecord :=
    { tokenId := nextRegistryTokenId w, tokenHash := tokenHash env clear, ownerId
      scopes := requestedScopes body, packagePatterns := requestedPatterns body, expiresAt
      revokedAt := "", createdAt := host.now }
  execPostgres fault .token (·.upsertRegistryPublishToken token)
  modifyMemory (·.upsertRegistryPublishToken token)
  recordRegistryAudit fault
  pure (successResponse "created publish token" (.createdToken token clear))

def tokenRejected (detail : String) : HttpResponse :=
  failureResponse 400 "publish token creation rejected" detail "ValidationError"
    "createPublishToken" 2

/-- `HandleCreatePublishToken`, with the body as JSON. -/
def handleCreatePublishToken (env : Environment) (host : Host) (fault : Option Site)
    (random : String) (request : HttpRequest) (body : Json) : Program HttpResponse :=
  if !body.isObject then pure (tokenRejected "request body must be an object")
  else
    match (stringArrayError body "scopes").or (stringArrayError body "package_patterns") with
    | some detail => pure (tokenRejected detail)
    | none => do
      let ownerId ← jsonTextOr body "owner_id" (registryActorId env request)
      if ∃ identity ∈ request.identity,
          identity.role = "operator" ∨ ownerId = registryActorId env request then
        issuePublishToken env host fault ownerId random body
      else
        recordRegistryAudit fault
        pure (failureResponse 403 "publish token creation denied" "token owner must match caller"
          "AuthError" "createPublishToken" 2)

/-- `HandleRevokePublishToken`; the token comes from the route. -/
def handleRevokePublishToken (env : Environment) (host : Host) (fault : Option Site)
    (tokenId : String) (request : HttpRequest) : Program HttpResponse := do
  let w ← Prog.read
  onlyIf (w.postgres.isSome) (failAt fault (.postgres .lookupToken))
  let found :=
    match w.postgres with
    | some s => s.getRegistryPublishToken tokenId
    | none => w.memory.getRegistryPublishToken tokenId
  match found with
  | none =>
    recordRegistryAudit fault
    pure (failureResponse 404 "publish token revocation failed" "token is not found" "NotFound"
      "revokePublishToken")
  | some token =>
    if ∃ identity ∈ request.identity,
        identity.role = "operator" ∨ token.ownerId = registryActorId env request then
      execPostgres fault .revokeToken (·.revokeRegistryPublishToken tokenId host.now)
      modifyMemory (·.revokeRegistryPublishToken tokenId host.now)
      recordRegistryAudit fault
      pure (successResponse "revoked publish token" (.revokedToken tokenId))
    else
      recordRegistryAudit fault
      pure (failureResponse 403 "publish token revocation denied" "token owner must match caller"
        "AuthError" "revokePublishToken" 2)

/-- All the requests that change releases, owners or tokens. -/
inductive ControlRequest where
  | write (request : Request)
  | addPackageOwner (namespaceName name : String) (request : HttpRequest)
  | removePackageOwner (namespaceName name ownerId : String) (request : HttpRequest)
  /-- `random` is what `SecureRandomHex` returns for the token. -/
  | createPublishToken (random : String) (request : HttpRequest) (body : Json)
  | revokePublishToken (tokenId : String) (request : HttpRequest)

def Request.http : Request → HttpRequest
  | .publishRelease request => request
  | .setYanked _ _ _ _ request => request
  | .promoteDistribution _ request => request
  | .rollbackDistribution _ request => request

/-- The request as the router received it. -/
def ControlRequest.http : ControlRequest → HttpRequest
  | .write request => request.http
  | .addPackageOwner _ _ request => request
  | .removePackageOwner _ _ _ request => request
  | .createPublishToken _ request _ => request
  | .revokePublishToken _ request => request

def handleControlRequest (env : Environment) (cfg : PlatformConfig) (host : Host)
    (fault : Option Site) : ControlRequest → Program HttpResponse
  | .write request => handleRequest env cfg host fault request
  | .addPackageOwner namespaceName name request =>
    handleAddPackageOwner env host fault namespaceName name request
  | .removePackageOwner namespaceName name ownerId request =>
    handleRemovePackageOwner env host fault namespaceName name ownerId request
  | .createPublishToken random request body =>
    handleCreatePublishToken env host fault random request body
  | .revokePublishToken tokenId request => handleRevokePublishToken env host fault tokenId request

/-- What can happen to a node: a request that may break off somewhere, or a restart. -/
inductive Event where
  | request (host : Host) (fault : Option Site) (request : ControlRequest)
  | restart

def Event.apply (env : Environment) (cfg : PlatformConfig) (w : World) : Event → World
  | .request host fault r => (handleControlRequest env cfg host fault r w).2
  | .restart => w.restart

/-- `RegistryWriteAuthorized` accepts the request. -/
def Accepts (env : Environment) (host : Host) (w : World) (request : HttpRequest)
    (scope package : String) : Prop :=
  (registryWriteAuthorized env host none request scope package w).1 = .ok true

end StyioPlatform.Registry
