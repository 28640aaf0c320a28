import Mathlib.Data.String.Basic
import StyioPlatform.Lib.Json

/-! The policy under which the cloud runs a project (`Execution.cpp`) and its form as JSON
(`Contract.cpp`). -/
namespace StyioPlatform.Protocols

/-- What the policy and the jobs of a client depend on besides the project: the predefined
values of the build, the environment and the working directory. -/
structure ClientHost where
  /-- `DetectCloudPlatform`. -/
  platform : String := "linux"
  /-- `DetectCloudArchitecture`. -/
  architecture : String := "x86_64"
  /-- `DetectCloudBaseImageRevision`. -/
  baseImageRevision : String := "dev-unset"
  /-- `ResolveSourceOriginBaseline`. -/
  sourceOrigin : String := "https://github.com/eBioRing/Styio.git"
  /-- The working directory, which is an absolute path. -/
  currentPath : String := "/"
  absolute : currentPath.toList.head? = some '/' := by decide

structure ProjectToolchainState where
  mode : String := "binary"
  channel : String := "stable"
  buildMode : String := "minimal"
  riskClass : String := "untrusted-user"
  preferredExecutionLane : String := "isolated"
  securityProfile : String := "sandbox-default"
  sourceRevision : Option String := none

structure SharedCachePolicy where
  sharedToolchainReadOnly : Bool := true
  sharedSourceReadOnly : Bool := true
  sharedRegistryReadOnly : Bool := true
  workerLocalReuse : Bool := false
  sharedCachePromotionEligible : Bool := false
  promotionPolicy : String := "verified-only"

structure WorkerPoolKey where
  platform : String
  architecture : String
  executionLane : String
  workerTrustTier : String
  toolchainMode : String
  channel : String
  buildMode : String
  compilerFingerprint : String
  baseImageRevision : String
  deriving DecidableEq

structure CloudExecutionPolicy where
  riskClass : String
  requestedExecutionLane : String
  executionLane : String
  workerTrustTier : String
  requestedSecurityProfile : String
  securityProfile : String
  fallbackApplied : Bool := false
  platformProtectionPriority : Bool := true
  tenantIsolationPriority : Bool := true
  networkEgressDefaultDeny : Bool := true
  requiresContainerSandbox : Bool := true
  routingReason : String
  cachePolicy : SharedCachePolicy
  workerPoolKey : WorkerPoolKey

def isSupportedCloudRiskClass (value : String) : Bool :=
  ["trusted-internal", "partner-controlled", "untrusted-user"].contains value

def isSupportedCloudExecutionLane (value : String) : Bool :=
  ["isolated", "warm-shared"].contains value

def isSupportedCloudSecurityProfile (value : String) : Bool :=
  ["sandbox-default", "partner-restricted", "trusted-warm"].contains value

def defaultSecurityProfile (riskClass executionLane : String) : String :=
  if executionLane = "warm-shared" then "trusted-warm"
  else if riskClass = "partner-controlled" then "partner-restricted"
  else "sandbox-default"

def defaultWorkerTrustTier (riskClass executionLane : String) : String :=
  if executionLane = "warm-shared" then "internal-warm"
  else if riskClass = "trusted-internal" then "trusted-isolated"
  else if riskClass = "partner-controlled" then "partner-isolated"
  else "untrusted-isolated"

def compilerFingerprintForState (state : ProjectToolchainState) : String :=
  if state.mode = "build" then state.sourceRevision.getD "source-revision-unset"
  else "published-" ++ state.channel ++ "-" ++ state.buildMode

/-- The risk class, the lane, whether a default was applied, and why. -/
structure Routing where
  riskClass : String
  executionLane : String
  fallbackApplied : Bool := false
  routingReason : String := ""

/-- Replace what is not supported by a default. -/
def Routing.supported (r : Routing) : Routing :=
  let r :=
    if isSupportedCloudRiskClass r.riskClass then r
    else { r with
      riskClass := "untrusted-user"
      fallbackApplied := true
      routingReason := "unknown risk class fell back to untrusted-user" }
  if isSupportedCloudExecutionLane r.executionLane then r
  else { r with
    executionLane := "isolated"
    fallbackApplied := true
    routingReason := "unknown execution lane fell back to isolated" }

/-- Keep workloads that are not trusted out of the shared lane. -/
def Routing.guarded (r : Routing) : Routing :=
  if r.riskClass = "untrusted-user" ∧ r.executionLane ≠ "isolated" then
    { r with
      executionLane := "isolated"
      fallbackApplied := true
      routingReason := "untrusted-user jobs require isolated execution" }
  else if r.riskClass = "partner-controlled" ∧ r.executionLane = "warm-shared" then
    { r with
      executionLane := "isolated"
      fallbackApplied := true
      routingReason :=
        "partner-controlled jobs require explicit allowlist before warm-shared execution" }
  else if r.routingReason = "" then
    { r with
      routingReason :=
        if r.executionLane = "warm-shared" then
          "trusted internal workload is eligible for warm-shared execution"
        else
          "default isolated execution protects the platform before enabling warm-shared reuse" }
  else r

def routingForState (state : ProjectToolchainState) : Routing :=
  Routing.guarded (Routing.supported
    { riskClass := state.riskClass, executionLane := state.preferredExecutionLane })

def resolveCloudExecutionPolicy (host : ClientHost) (state : ProjectToolchainState) :
    CloudExecutionPolicy :=
  let r := routingForState state
  let expectedSecurity := defaultSecurityProfile r.riskClass r.executionLane
  let replaced := !isSupportedCloudSecurityProfile state.securityProfile ||
    state.securityProfile ≠ expectedSecurity
  let workerTrustTier := defaultWorkerTrustTier r.riskClass r.executionLane
  { riskClass := r.riskClass
    requestedExecutionLane := state.preferredExecutionLane
    executionLane := r.executionLane
    workerTrustTier
    requestedSecurityProfile := state.securityProfile
    securityProfile := if replaced then expectedSecurity else state.securityProfile
    fallbackApplied := r.fallbackApplied || replaced
    routingReason := r.routingReason
    cachePolicy :=
      { workerLocalReuse := r.executionLane = "warm-shared"
        sharedCachePromotionEligible := r.riskClass = "trusted-internal" }
    workerPoolKey :=
      { platform := host.platform
        architecture := host.architecture
        executionLane := r.executionLane
        workerTrustTier
        toolchainMode := state.mode
        channel := state.channel
        buildMode := state.buildMode
        compilerFingerprint := compilerFingerprintForState state
        baseImageRevision := host.baseImageRevision } }

def serializeSharedCachePolicy (policy : SharedCachePolicy) : Json :=
  .ofFields [("shared_toolchain_read_only", .bool policy.sharedToolchainReadOnly),
    ("shared_source_read_only", .bool policy.sharedSourceReadOnly),
    ("shared_registry_read_only", .bool policy.sharedRegistryReadOnly),
    ("worker_local_reuse", .bool policy.workerLocalReuse),
    ("shared_cache_promotion_eligible", .bool policy.sharedCachePromotionEligible),
    ("promotion_policy", .string policy.promotionPolicy)]

def serializeWorkerPoolKey (key : WorkerPoolKey) : Json :=
  .ofFields [("platform", .string key.platform), ("architecture", .string key.architecture),
    ("execution_lane", .string key.executionLane),
    ("worker_trust_tier", .string key.workerTrustTier),
    ("toolchain_mode", .string key.toolchainMode), ("channel", .string key.channel),
    ("build_mode", .string key.buildMode),
    ("compiler_fingerprint", .string key.compilerFingerprint),
    ("base_image_revision", .string key.baseImageRevision)]

def serializeCloudExecutionPolicy (policy : CloudExecutionPolicy) : Json :=
  .ofFields [("contract_version", .int 1), ("risk_class", .string policy.riskClass),
    ("requested_execution_lane", .string policy.requestedExecutionLane),
    ("execution_lane", .string policy.executionLane),
    ("worker_trust_tier", .string policy.workerTrustTier),
    ("requested_security_profile", .string policy.requestedSecurityProfile),
    ("security_profile", .string policy.securityProfile),
    ("fallback_applied", .bool policy.fallbackApplied),
    ("platform_protection_priority", .bool policy.platformProtectionPriority),
    ("tenant_isolation_priority", .bool policy.tenantIsolationPriority),
    ("network_egress_default_deny", .bool policy.networkEgressDefaultDeny),
    ("requires_container_sandbox", .bool policy.requiresContainerSandbox),
    ("routing_reason", .string policy.routingReason),
    ("cache_policy", serializeSharedCachePolicy policy.cachePolicy),
    ("worker_pool_key", serializeWorkerPoolKey policy.workerPoolKey)]

/-- How far a project is kept apart from others. -/
inductive Isolation where
  | warm | trusted | partner | untrusted
  deriving DecidableEq

/-- What the risk class and the preferred lane of a project come to. -/
def isolation (state : ProjectToolchainState) : Isolation :=
  if state.riskClass = "trusted-internal" then
    if state.preferredExecutionLane = "warm-shared" then .warm else .trusted
  else if state.riskClass = "partner-controlled" then .partner
  else .untrusted

def Isolation.lane : Isolation → String
  | .warm => "warm-shared"
  | _ => "isolated"

def Isolation.tier : Isolation → String
  | .warm => "internal-warm"
  | .trusted => "trusted-isolated"
  | .partner => "partner-isolated"
  | .untrusted => "untrusted-isolated"

variable {host host' : ClientHost} {state state' : ProjectToolchainState}

theorem supported_eq (state : ProjectToolchainState) :
    let r := Routing.supported
      { riskClass := state.riskClass, executionLane := state.preferredExecutionLane }
    r.riskClass = (if isSupportedCloudRiskClass state.riskClass then state.riskClass
      else "untrusted-user") ∧
    r.executionLane = (if state.preferredExecutionLane = "warm-shared" then "warm-shared"
      else "isolated") := by
  by_cases hlane : isSupportedCloudExecutionLane state.preferredExecutionLane
  · have hcases : state.preferredExecutionLane = "isolated" ∨
        state.preferredExecutionLane = "warm-shared" := by
      simpa [isSupportedCloudExecutionLane] using hlane
    by_cases hrisk : isSupportedCloudRiskClass state.riskClass <;> rcases hcases with h | h <;>
      simp [Routing.supported, hrisk, h, isSupportedCloudExecutionLane]
  · have hne : state.preferredExecutionLane ≠ "warm-shared" := by
      intro h
      rw [h] at hlane
      exact hlane (by decide)
    by_cases hrisk : isSupportedCloudRiskClass state.riskClass <;>
      simp [Routing.supported, hrisk, hlane, hne]

theorem guarded_riskClass (r : Routing) : r.guarded.riskClass = r.riskClass := by
  unfold Routing.guarded
  split_ifs <;> rfl

theorem guarded_executionLane (r : Routing) (hlane : r.executionLane = "warm-shared" ∨
    r.executionLane = "isolated") (hrisk : isSupportedCloudRiskClass r.riskClass) :
    r.guarded.executionLane = if r.riskClass = "trusted-internal" then r.executionLane
      else "isolated" := by
  have hcases : r.riskClass = "trusted-internal" ∨ r.riskClass = "partner-controlled" ∨
      r.riskClass = "untrusted-user" := by
    simpa [isSupportedCloudRiskClass] using hrisk
  rcases hcases with h | h | h <;> rcases hlane with h' | h' <;>
    simp [Routing.guarded, h, h', apply_ite Routing.executionLane]

/-- The lane and the trust tier of a policy are those of the isolation. -/
theorem routing_eq (state : ProjectToolchainState) :
    (routingForState state).executionLane = (isolation state).lane ∧
      defaultWorkerTrustTier (routingForState state).riskClass
        (routingForState state).executionLane = (isolation state).tier := by
  obtain ⟨hrisk, hlane⟩ := supported_eq state
  rw [routingForState, guarded_riskClass, guarded_executionLane, hrisk, hlane]
  · by_cases h : state.riskClass = "trusted-internal"
    · by_cases h' : state.preferredExecutionLane = "warm-shared" <;>
        simp [isolation, h, h', isSupportedCloudRiskClass, defaultWorkerTrustTier, Isolation.lane,
          Isolation.tier]
    · by_cases h' : state.riskClass = "partner-controlled"
      · simp [isolation, h', isSupportedCloudRiskClass, defaultWorkerTrustTier, Isolation.lane,
          Isolation.tier]
      · by_cases h'' : state.riskClass = "untrusted-user" <;>
          simp [isolation, h, h', h'', isSupportedCloudRiskClass, defaultWorkerTrustTier,
            Isolation.lane, Isolation.tier]
  · rw [hlane]
    split
    · exact Or.inl rfl
    · exact Or.inr rfl
  · rw [hrisk]
    split
    · assumption
    · decide

/-- The projects between which the pool of a worker need not tell. -/
structure SamePool (host host' : ClientHost) (state state' : ProjectToolchainState) : Prop where
  platform : host.platform = host'.platform
  architecture : host.architecture = host'.architecture
  baseImageRevision : host.baseImageRevision = host'.baseImageRevision
  isolation : isolation state = isolation state'
  mode : state.mode = state'.mode
  channel : state.channel = state'.channel
  buildMode : state.buildMode = state'.buildMode
  /-- A toolchain that is built from source is told by its revision. -/
  revision : state.mode = "build" → state.sourceRevision.getD "source-revision-unset" =
    state'.sourceRevision.getD "source-revision-unset"

theorem Isolation.tier_injective : Function.Injective Isolation.tier := by
  intro a b h
  cases a <;> cases b <;> first | rfl | exact absurd h (by decide)

theorem workerPoolKey_eq_iff :
    (resolveCloudExecutionPolicy host state).workerPoolKey =
      (resolveCloudExecutionPolicy host' state').workerPoolKey ↔
    SamePool host host' state state' := by
  obtain ⟨hlane, htier⟩ := routing_eq state
  obtain ⟨hlane', htier'⟩ := routing_eq state'
  simp only [resolveCloudExecutionPolicy, WorkerPoolKey.mk.injEq]
  rw [htier, htier', hlane, hlane']
  constructor
  · rintro ⟨h1, h2, -, h4, h5, h6, h7, h8, h9⟩
    refine ⟨h1, h2, h9, Isolation.tier_injective h4, h5, h6, h7, fun hmode => ?_⟩
    simpa [compilerFingerprintForState, hmode, ← h5] using h8
  · intro h
    refine ⟨h.platform, h.architecture, by rw [h.isolation], by rw [h.isolation], h.mode, h.channel,
      h.buildMode, ?_, h.baseImageRevision⟩
    simp only [compilerFingerprintForState, ← h.mode]
    split
    · exact h.revision ‹_›
    · rw [h.channel, h.buildMode]

end StyioPlatform.Protocols
