import StyioPlatform.Security.Identity

/-! Which role may call which operation (`Authorization.cpp`), and which operations a publish token
may stand in for a certificate (`RouteCatalog.cpp`). -/
namespace StyioPlatform.Security

variable {operation : String} {identity : MtlsIdentity}

def roleIn (identity : MtlsIdentity) (allowed : List String) : Bool :=
  allowed.contains identity.role

def isInternalRole (identity : MtlsIdentity) : Bool :=
  identity.role = "control-plane" || identity.role = "worker" || identity.role = "mirror" ||
    identity.role = "registry-writer" || identity.role = "operator" ||
    identity.role = "cluster-registrar" || identity.role = "package-owner"

def isAuthorizedForOperation (operation : String) (identity : MtlsIdentity) : Bool :=
  if operation = "registryStatus" then
    roleIn identity ["control-plane", "registry-writer", "mirror", "operator"]
  else if operation = "registryDescriptor" then
    roleIn identity ["control-plane", "registry-writer", "mirror", "operator"]
  else if operation = "publishRelease" then
    roleIn identity ["registry-writer", "operator", "package-owner"]
  else if operation = "verifyRegistry" then
    roleIn identity ["registry-writer", "mirror", "operator"]
  else if operation ∈ ["getPackage", "listPackageReleases", "getPackageRelease",
      "listPackageOwners", "listRepositories", "listRepositoryVersions", "getPublication",
      "listDistributions"] then
    roleIn identity ["control-plane", "registry-writer", "mirror", "operator", "package-owner"]
  else if operation ∈ ["yankPackageRelease", "unyankPackageRelease", "addPackageOwner",
      "removePackageOwner"] then
    roleIn identity ["operator", "package-owner", "registry-writer"]
  else if operation ∈ ["createPublishToken", "listPublishTokens", "revokePublishToken"] then
    roleIn identity ["operator", "package-owner", "registry-writer"]
  else if operation ∈ ["promoteDistribution", "rollbackDistribution"] then
    roleIn identity ["operator"]
  else if operation = "listReleaseChannels" then
    roleIn identity ["operator", "registry-writer", "mirror"]
  else if operation = "rolloutReleaseChannel" then
    roleIn identity ["operator"]
  else if operation ∈ ["createRecoverySnapshot", "restoreRecoverySnapshot", "listAuditEvents",
      "platformMetrics", "storageStatus"] then
    roleIn identity ["operator", "control-plane"]
  else if operation = "listRecoverySnapshots" then
    roleIn identity ["operator", "control-plane", "mirror"]
  else if operation = "verifyPublication" then
    roleIn identity ["operator", "mirror", "registry-writer"]
  else if operation = "mirrorStatus" then
    roleIn identity ["control-plane", "registry-writer", "mirror", "operator"]
  else if operation ∈ ["listDocumentationGovernance", "planDocumentationChange"] then
    roleIn identity ["control-plane", "operator"]
  else if operation ∈ ["listEcosystemRepositories", "planEcosystemRelease"] then
    roleIn identity ["control-plane", "operator"]
  else if operation = "registerWorkgroupCluster" then
    roleIn identity ["control-plane", "operator", "cluster-registrar"]
  else if operation = "listWorkgroupClusters" then isInternalRole identity
  else true

/-- The operations whose errors keep the shape of the registry. -/
def isRegistryOperation (operation : String) : Bool :=
  ["registryStatus", "registryDescriptor", "publishRelease", "verifyRegistry", "getPackage",
    "listPackageReleases", "getPackageRelease", "yankPackageRelease", "unyankPackageRelease",
    "listPackageOwners", "addPackageOwner", "removePackageOwner", "createPublishToken",
    "listPublishTokens", "revokePublishToken", "listRepositories", "listRepositoryVersions",
    "getPublication", "verifyPublication", "listDistributions", "promoteDistribution",
    "rollbackDistribution", "listReleaseChannels", "rolloutReleaseChannel",
    "mirrorStatus"].contains operation

def isRegistryTokenCapableOperation (operation : String) : Bool :=
  operation = "publishRelease" || operation = "yankPackageRelease" ||
    operation = "unyankPackageRelease" || operation = "addPackageOwner" ||
    operation = "removePackageOwner" || operation = "promoteDistribution" ||
    operation = "rollbackDistribution"

/-- What a certificate shows is one of the roles of the service. -/
theorem mem_platformServiceRoles_of_parse {value : String}
    (h : parseMtlsUriSan value = some identity) :
    identity.role ∈ platformServiceRoles ∧ identity.nodeId ≠ "" := by
  unfold parseMtlsUriSan at h
  split at h
  · dsimp only at h
    split at h
    · cases h
    · next hfields =>
      cases h
      simpa [isPlatformServiceRole] using hfields
  · cases h

end StyioPlatform.Security
