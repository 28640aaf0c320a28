import StyioPlatform.Protocols.Routing
import StyioPlatform.Registry.HostInstall
import StyioPlatform.Registry.InstallFailures
import StyioPlatform.Registry.Publications

/-! Which directory a promote or rollback installs and which files it writes, on a host where
anything outside of `_publications` may have any content. -/
namespace StyioPlatform.Registry

open FileTree Prog Routing

/-- The node with the files of its host that lie outside of the registry root. -/
structure HostState where
  world : World
  outside : Tree

/-- The state of the node after a request. -/
def HostState.after (env : Environment) (cfg : PlatformConfig) (host : Host) (fault : Option Site)
    (r : Request) (s : HostState) : HostState :=
  { s with world := (OnHost.handleRequest env cfg s.outside host fault r s.world).2 }

/-- A request that can break off anywhere, a restart, or any change of the files of the host other
than those in `_publications`. -/
inductive HostStep (env : Environment) (cfg : PlatformConfig) (s : HostState) : HostState → Prop where
  | request (host : Host) (fault : Option Site) (r : Request) :
      HostStep env cfg s (s.after env cfg host fault r)
  | restart : HostStep env cfg s { s with world := s.world.restart }
  | edit (t outside : Tree)
      (h : ∀ p, p.head? = some "_publications" → t.get p = s.world.root.get p) :
      HostStep env cfg s ⟨s.world.setRoot t, outside⟩

abbrev HostRun (env : Environment) (cfg : PlatformConfig) : HostState → HostState → Prop :=
  Relation.ReflTransGen (HostStep env cfg)

/-- A file lies below the directory, in the registry or in the bucket. -/
def HasPublication (w : World) (name : String) : Prop :=
  ∃ q, (w.root.get (publicationPath name ++ q)).isSome ∨
    (w.bucket.get (publicationPath name ++ q)).isSome

/-- A directory that `createRegistryPublication` brings forth. -/
def Made (env : Environment) (cfg : PlatformConfig) (name : String) : Prop :=
  ∃ w fault changeKind changeRef generatedAt, ¬ HasPublication w name ∧
    HasPublication
      (createRegistryPublication env cfg fault changeKind changeRef generatedAt w).2 name

/-- The directory came into being with a publish or yank of the run, as one of those that
`createRegistryPublication` makes. -/
structure CreatedIn (env : Environment) (cfg : PlatformConfig) (s₀ s : HostState) (name : String) :
    Prop where
  made : Made env cfg name
  created : ∃ s₁ host fault r, HostRun env cfg s₀ s₁ ∧ r.publishes = true ∧
    HostRun env cfg (s₁.after env cfg host fault r) s ∧ ¬ HasPublication s₁.world name ∧
    HasPublication (s₁.after env cfg host fault r).world name

/-- The files that the request may write. -/
def InstallPath (distributionId : String) (p : Path) : Prop :=
  inReadPlane p = true ∨ p = ["_distributions", distributionId, "current.json"]

/-- Only a directory of the registry directly under `_publications` was installed and named, and
only the read plane and the pointer of the distribution were written. -/
structure Confined (env : Environment) (cfg : PlatformConfig) (s₀ s : HostState)
    (distributionId publicationId : String) (w' : World) : Prop where
  directory : ∃ name, CreatedIn env cfg s₀ s name ∧
    OnHost.publicationRoot cfg s.outside s.world.root publicationId =
      some (cfg.registryRoot ++ publicationPath name) ∧
    (distributionId = "default" → ∀ p, inReadPlane p = true →
      w'.root.get p = s.world.root.get (publicationPath name ++ p))
  changes : AgreeOff (InstallPath distributionId) s.world.root w'.root
  written : ∃ files, w'.written = s.world.written ++ files ∧
    ∀ x ∈ files, InstallPath distributionId x.1

variable {env : Environment} {cfg : PlatformConfig} {outside t : Tree} {host : Host}
  {fault : Option Site} {w w' : World} {p q : Path} {id distributionId name : String}
  {request : HttpRequest} {P : String → Prop} {s s' s₀ : HostState}

section install

/-- What a promote or rollback that was answered with 200 has done. -/
structure OnHost.Installed (cfg : PlatformConfig) (outside : Tree) (distributionId id : String)
    (w w' : World) : Prop where
  manifest : (OnHost.publicationFile cfg outside w.root id).isSome
  plane : distributionId = "default" → ∃ source,
    OnHost.publicationRoot cfg outside (cleared w.root) id = some source ∧
    ∀ p, inReadPlane p = true →
      w'.root.get p = (hostTree cfg outside (cleared w.root)).get (source ++ p)
  changes : AgreeOff (fun p => inReadPlane p = true ∨ p = distributionPointerPath distributionId)
    w.root w'.root
  written : ∃ f, w'.written = w.written ++ [(distributionPointerPath distributionId, f)]

end install

section publications

/-! Only the creation of a publication brings files into a new directory of `_publications`. -/

end publications

section confinement

end confinement

section samples

end samples

end StyioPlatform.Registry
