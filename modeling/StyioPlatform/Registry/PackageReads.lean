import StyioPlatform.Registry.Index
import StyioPlatform.Registry.PublishFailures

/-! The read endpoints of a package, which answer from Postgres or from the served index, and how
the two stay in step. -/
namespace StyioPlatform.Registry

open FileTree Prog

/-- One release in the payload that `PackagePayloadFromIndex` builds. -/
structure IndexedRelease where
  version : String
  publisherId : String
  publishedAt : String
  yanked : Bool
  sourceArtifactSha256 : String
  sourceArtifactPath : Path

inductive ReleasePayload where
  | stored (record : RegistryPackageReleaseRecord)
  | indexed (record : ReleaseRecord)

namespace PostgresStore

end PostgresStore

/-- What a client learns of a release. -/
structure ReleaseState where
  version : String
  yanked : Bool
  sourceArtifactSha256 : String
  deriving DecidableEq

def ReleaseRecord.state (r : ReleaseRecord) : ReleaseState :=
  ⟨r.version, r.yanked, r.sourceArtifact.sha256⟩

def RegistryPackageReleaseRecord.state (r : RegistryPackageReleaseRecord) : ReleaseState :=
  ⟨r.version, r.yanked, r.sourceArtifactSha256⟩

def IndexedRelease.state (r : IndexedRelease) : ReleaseState :=
  ⟨r.version, r.yanked, r.sourceArtifactSha256⟩

def ReleasePayload.state : ReleasePayload → ReleaseState
  | .stored r => r.state
  | .indexed r => r.state

/-- The releases that an index lists, if it can be read. -/
def indexStates (t : Tree) (package : String) : Option (Finset ReleaseState) :=
  match readPackageIndexRecords t package with
  | .ok records => some (records.map ReleaseRecord.state).toFinset
  | .error _ => none

/-- The two trees list the same releases of every package. -/
def SameReleases (t u : Tree) : Prop :=
  ∀ package, validatePackageName package = none → indexStates t package = indexStates u package

/-- A promote or rollback of the default distribution installs a publication that lists the
releases which the served index lists already. -/
def KeepsReleases (env : Environment) (cfg : PlatformConfig) (host : Host) (w : World)
    (request : Request) : Prop :=
  ∀ target, installTarget env cfg host none w request = some target →
    target.distributionId = "default" →
    SameReleases (copiedPlane cfg none w.root target.publicationId) w.root

/-- A request that was answered with 200 and installed no other releases. -/
def KeepingStep (env : Environment) (cfg : PlatformConfig) (w w' : World) : Prop :=
  ∃ host request, Succeeds env cfg host request w w' ∧ KeepsReleases env cfg host w request

section reads

variable {w : World} {s : PostgresStore} {package namespaceName name : String} {t u : Tree}
  {rows : List ((String ×ₗ String) × RegistryPackageReleaseRecord)}

/-- The releases that the rows of Postgres list for a package. -/
def storedStates (rows : List ((String ×ₗ String) × RegistryPackageReleaseRecord))
    (package : String) : Finset ReleaseState :=
  (((rows.map (·.2)).filter (·.packageId = package)).map (·.state)).toFinset

/-- The rows are filed under the release that they are about, one for each. -/
structure RowsKeyed (rows : List ((String ×ₗ String) × RegistryPackageReleaseRecord)) : Prop where
  key : ∀ x ∈ rows, x.1 = toLex (x.2.packageId, x.2.version)
  nodup : (rows.map (·.1)).Nodup

theorem RowsKeyed.eq_of_key (h : RowsKeyed rows) {k : String ×ₗ String}
    {r r' : RegistryPackageReleaseRecord} (hr : (k, r) ∈ rows) (hr' : (k, r') ∈ rows) : r = r' := by
  have := List.inj_on_of_nodup_map h.nodup hr hr' rfl
  exact congrArg Prod.snd this

/-- A release is listed when its row is there. -/
theorem RowsKeyed.mem_storedStates (h : RowsKeyed rows) {x : ReleaseState} :
    x ∈ storedStates rows package ↔
      ∃ r, (toLex (package, x.version), r) ∈ rows ∧ r.state = x := by
  simp only [storedStates, List.mem_toFinset, List.mem_map, List.mem_filter, decide_eq_true_eq]
  constructor
  · rintro ⟨r, ⟨⟨y, hy, rfl⟩, rfl⟩, rfl⟩
    refine ⟨y.2, ?_, rfl⟩
    have hkey := h.key y hy
    rw [← show y.1 = toLex (y.2.packageId, y.2.state.version) from hkey]
    exact hy
  · rintro ⟨r, hr, rfl⟩
    have hkey := Prod.mk.inj (toLex.injective (h.key _ hr))
    exact ⟨r, ⟨⟨_, hr, rfl⟩, hkey.1.symm⟩, rfl⟩

theorem indexStates_eq_some {l : Finset ReleaseState} (h : indexStates t package = some l) :
    ∃ records, readPackageIndexRecords t package = .ok records ∧
      l = (records.map ReleaseRecord.state).toFinset := by
  unfold indexStates at h
  split at h
  · next records hread => exact ⟨records, hread, (Option.some.inj h).symm⟩
  · cases h

/-- Index and Postgres list the same releases. -/
structure InStep (cfg : PlatformConfig) (w : World) : Prop where
  postgres : ∃ s, w.postgres = some s ∧ RowsKeyed s.releases ∧
    ∀ package, validatePackageName package = none →
      indexStates w.root package = some (storedStates s.releases package)
  bucket : cfg.usesS3ObjectStore = true → SameReleases w.bucket w.root
  registry : cfg.usesS3ObjectStore = true → bucketHasRegistry w.bucket = false →
    SameReleases .empty w.root

end reads

end StyioPlatform.Registry
