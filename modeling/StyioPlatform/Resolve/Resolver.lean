import Mathlib.Data.List.Sort
import StyioPlatform.Lib.KeyedList
import StyioPlatform.Manifest.Document

/-! The single-version resolver (`Resolver.cpp`). A path is absolute and the list of its names;
the file system and the fetched snapshots do not change while it runs. -/
namespace StyioPlatform.Resolve

open Manifest

abbrev Path := List String

def pathText (path : Path) : String := "/" ++ "/".intercalate path

def pathNames (text : String) : Path := (text.toList.splitOn '/').map String.ofList

/-- `operator/`, with a text on the right. -/
def joinPath (dir : Path) (text : String) : Path :=
  if text.toList.head? = some '/' then pathNames text else dir ++ pathNames text

def canonicalAbsolutePath (path : Path) : Path := normal path

/-- `CanonicalAbsolutePath(..).generic_string()`, which keeps a separator at the end. -/
def canonicalText (path : Path) : String :=
  let names := canonicalAbsolutePath path
  if names = [] ∨ (path.getLast?.all fun name => decide (IsName name)) then pathText names
  else pathText names ++ "/"

def pathKey (path : Path) : String := pathText (canonicalAbsolutePath path)

/-- `PathIsWithin`: the relative path is not empty and does not start with `..`. -/
def pathIsWithin (candidate root : Path) : Bool :=
  let relative := lexicallyRelative (canonicalAbsolutePath candidate) (canonicalAbsolutePath root)
  relative ≠ [] ∧ relative.head? ≠ some ".."

def manifestName : String := "spio.toml"

structure GitSnapshotResult where
  repoHash : String
  snapshotRoot : Path
  deriving DecidableEq

structure RegistryMaterializationResult where
  registryRoot : String
  version : String
  sha256 : String
  snapshotRoot : Path
  deriving DecidableEq

/-- What the resolver meets: the manifest files, of which only finitely many package names come,
and what the fetchers return for its options. A file that is no TOML has no document. -/
structure World where
  files : Path → Option (Option Table)
  names : Finset String
  mem_names : ∀ path doc manifest package, files path = some (some doc) →
    parseManifest doc = .ok manifest → manifest.package = some package → package.name ∈ names
  materializeSnapshot : (origin revision : String) → Except Failure GitSnapshotResult
  materializeRegistryPackage :
    (registryRoot packageName version : String) → Except Failure RegistryMaterializationResult
  projectVersion : String

def World.exists (w : World) (path : Path) : Bool := (w.files (canonicalAbsolutePath path)).isSome

def World.loadManifest (w : World) (path : Path) : Except Failure ManifestDocument :=
  match w.files (canonicalAbsolutePath path) with
  | some (some doc) => parseManifest doc
  | _ => .error (.thrown .validation ("failed to parse manifest '" ++ pathText path ++ "'"))

/-- `SourceOrigin`, with the fields that its kind has. -/
inductive SourceOrigin where
  | workspace
  | path
  | git (source rev repoHash : String) (snapshotRoot : Path)
  | registry (root version sha256 : String) (snapshotRoot : Path)
  deriving DecidableEq

namespace SourceOrigin

/-- `SourceKindString`. -/
def kindText : SourceOrigin → String
  | workspace => "workspace"
  | path => "path"
  | git .. => "git"
  | registry .. => "registry"

def snapshotRoot? : SourceOrigin → Option Path
  | git _ _ _ root => some root
  | registry _ _ _ root => some root
  | _ => none

def gitSource? : SourceOrigin → Option String
  | git source .. => some source
  | _ => none

def gitRev? : SourceOrigin → Option String
  | git _ rev .. => some rev
  | _ => none

def registryRoot? : SourceOrigin → Option String
  | registry root .. => some root
  | _ => none

def registrySha256? : SourceOrigin → Option String
  | registry _ _ sha256 _ => some sha256
  | _ => none

def repoHash? : SourceOrigin → Option String
  | git _ _ repoHash _ => some repoHash
  | _ => none

end SourceOrigin

structure ManifestSelection where
  manifestPath : Path
  origin : SourceOrigin
  deriving DecidableEq

def snapshotRelativeKey (snapshotRoot packageDir : Path) : String :=
  "/".intercalate
    (lexicallyRelative (canonicalAbsolutePath packageDir) (canonicalAbsolutePath snapshotRoot))

def buildSourceFingerprint (origin : SourceOrigin) (packageDir : Path) : String :=
  match origin with
  | .git source rev _ root =>
    "git:" ++ source ++ "#" ++ rev ++ ":" ++ snapshotRelativeKey root packageDir
  | .registry registry _ sha256 root =>
    "registry:" ++ registry ++ "#" ++ sha256 ++ ":" ++ snapshotRelativeKey root packageDir
  | _ => origin.kindText ++ ":" ++ pathKey packageDir

def buildLockId (origin : SourceOrigin) (package : PackageConfig) : String :=
  let id := origin.kindText ++ ":" ++ package.name ++ "@" ++ package.version
  match origin with
  | .git _ rev .. => id ++ "#" ++ rev
  | .registry _ _ sha256 _ => id ++ "#" ++ sha256
  | _ => id

def collectDependencies (package : PackageConfig) : List Dependency :=
  (package.dependencies ++ package.devDependencies).insertionSort (·.aliasName ≤ ·.aliasName)

def throwing {α : Type} (kind : ErrorKind) (message : String) : Except Failure α :=
  .error (.thrown kind message)

section Selection

variable (w : World)

/-- The manifest of a workspace member. -/
def memberManifest (rootManifestPath : Path) (member : String) : Path :=
  canonicalAbsolutePath (joinPath rootManifestPath.dropLast member ++ [manifestName])

/-- The manifest of a member that is there and defines a package. -/
def loadMember (rootManifestPath : Path) (kind : ErrorKind) (subject member : String) :
    Except Failure PackageConfig := do
  let path := memberManifest rootManifestPath member
  if w.exists path then
    let doc ← w.loadManifest path
    match doc.package with
    | some package => .ok package
    | none => throwing kind (subject ++ " manifest must define [package]: " ++ pathText path)
  else throwing kind (subject ++ " manifest not found: " ++ pathText path)

/-- The root selections and the directories that they are in. -/
structure RootSeeds where
  selections : List ManifestSelection
  topLevelWorkspaceDirs : List String
  deriving DecidableEq

/-- One round of the loop of `BuildRootSeeds`. -/
def seedMember (rootManifestPath : Path) (workspace : WorkspaceConfig) (member : String) :
    Except Failure Path := do
  if member ∈ workspace.exclude then
    throwing .workspace ("workspace member is also excluded: " ++ member)
  else
    let _ ← loadMember w rootManifestPath .workspace "workspace member" member
    .ok (memberManifest rootManifestPath member)

/-- `BuildRootSeeds`, after the root manifest has been loaded. -/
def buildRootSeeds (rootManifestPath : Path) : Except Failure RootSeeds := do
  let manifest ← w.loadManifest rootManifestPath
  let own := if manifest.package.isSome then [rootManifestPath] else []
  match manifest.workspace with
  | none => .ok ⟨own.map (⟨·, .workspace⟩), own.map fun path => pathKey path.dropLast⟩
  | some workspace =>
    let members ← (workspace.members.insertionSort (· ≤ ·)).mapM
      (seedMember w rootManifestPath workspace)
    let paths := own ++ members
    .ok ⟨(sorted paths.toFinset).map (⟨·, .workspace⟩), paths.map fun path => pathKey path.dropLast⟩

variable (topLevelWorkspaceDirs : List String)

/-- One round of the loop over the members in `SelectPackageManifestFromRoot`. -/
def matchingMember (rootManifestPath : Path) (workspace : WorkspaceConfig)
    (expectedPackage member : String) : Except Failure (List Path) := do
  if member ∈ workspace.exclude then .ok []
  else
    let package ← loadMember w rootManifestPath .resolution "dependency workspace member" member
    .ok (if package.name = expectedPackage then [memberManifest rootManifestPath member] else [])

/-- The members that a dependency matches. -/
def matchingMembers (rootManifestPath : Path) (doc : ManifestDocument)
    (expectedPackage : Option String) : Except Failure (List Path) :=
  match doc.workspace, expectedPackage with
  | none, _ => .ok []
  | some _, none =>
    if doc.package.isSome then .ok []
    else throwing .resolution
      ("dependency target is a workspace root and requires an explicit package: " ++
        pathText rootManifestPath)
  | some workspace, some expected =>
    List.flatten <$> (workspace.members.insertionSort (· ≤ ·)).mapM
      (matchingMember w rootManifestPath workspace expected)

/-- The root manifest, if a dependency matches it. -/
def matchingRoot (rootManifestPath : Path) (doc : ManifestDocument)
    (expectedPackage : Option String) : List Path :=
  match doc.package with
  | some package => if expectedPackage.all (· = package.name) then [rootManifestPath] else []
  | none => []

def selectedOrigin (originHint : SourceOrigin) (manifestPath : Path) : SourceOrigin :=
  match originHint with
  | .workspace | .path =>
    if pathKey manifestPath.dropLast ∈ topLevelWorkspaceDirs then .workspace else .path
  | origin => origin

def selectPackageManifestFromRoot (rootManifestPath : Path) (originHint : SourceOrigin)
    (expectedPackage : Option String) : Except Failure ManifestSelection := do
  let doc ← w.loadManifest rootManifestPath
  let members ← matchingMembers w rootManifestPath doc expectedPackage
  match matchingRoot rootManifestPath doc expectedPackage ++ members with
  | [] =>
    throwing .resolution (match expectedPackage with
      | some expected => "dependency target package '" ++ expected ++ "' was not found under " ++
          pathText rootManifestPath
      | none => "dependency target manifest does not define [package]: " ++
          pathText rootManifestPath)
  | [path] => .ok ⟨path, selectedOrigin topLevelWorkspaceDirs originHint path⟩
  | _ => throwing .resolution ("dependency target package is ambiguous under " ++
      pathText rootManifestPath)

def resolvePathDependency (parentDir : Path) (parentOrigin : SourceOrigin)
    (dependency : Dependency) : Except Failure ManifestSelection :=
  let dependencyRoot :=
    canonicalAbsolutePath (joinPath parentDir dependency.source ++ [manifestName])
  if !w.exists dependencyRoot then
    throwing .resolution ("path dependency manifest not found: " ++ pathText dependencyRoot)
  else
    match parentOrigin with
    | .git _ _ _ snapshotRoot =>
      if !pathIsWithin dependencyRoot.dropLast snapshotRoot &&
          canonicalAbsolutePath dependencyRoot.dropLast ≠ canonicalAbsolutePath snapshotRoot then
        throwing .resolution ("git-sourced path dependency escapes its pinned snapshot: " ++
          pathText dependencyRoot)
      else
        selectPackageManifestFromRoot w topLevelWorkspaceDirs dependencyRoot parentOrigin
          dependency.package
    | _ =>
      selectPackageManifestFromRoot w topLevelWorkspaceDirs dependencyRoot .path dependency.package

def looksLikeRemoteGitSource (source : String) : Bool :=
  "://".toList <:+: source.toList ∨ "git@".toList <+: source.toList

def normalizeGitSource (source : String) (baseDir : Path) : String :=
  if looksLikeRemoteGitSource source then source else canonicalText (joinPath baseDir source)

/-- The package of a snapshot that a git or registry dependency selects. -/
def selectFromSnapshot (subject : String) (snapshotRoot : Path) (origin : SourceOrigin)
    (package : Option String) : Except Failure ManifestSelection :=
  let rootManifest := snapshotRoot ++ [manifestName]
  if w.exists rootManifest then
    selectPackageManifestFromRoot w topLevelWorkspaceDirs rootManifest origin package
  else
    throwing .resolution
      (subject ++ " dependency snapshot does not contain spio.toml: " ++ pathText rootManifest)

def resolveGitDependency (parentDir : Path) (dependency : Dependency) :
    Except Failure ManifestSelection :=
  match dependency.rev with
  | none => .error .missing
  | some rev => do
    let source := normalizeGitSource dependency.source parentDir
    let snapshot ← w.materializeSnapshot source rev
    selectFromSnapshot w topLevelWorkspaceDirs "git" snapshot.snapshotRoot
      (.git source rev snapshot.repoHash snapshot.snapshotRoot) dependency.package

def resolveRegistryDependency (dependency : Dependency) : Except Failure ManifestSelection :=
  let subject := "registry dependency '" ++ dependency.aliasName ++ "' must declare "
  match dependency.package, dependency.version with
  | none, _ => throwing .resolution (subject ++ "package = \"namespace/name\"")
  | some _, none => throwing .resolution (subject ++ "version = \"x.y.z\"")
  | some package, some version => do
    let materialized ← w.materializeRegistryPackage dependency.source package version
    selectFromSnapshot w topLevelWorkspaceDirs "registry" materialized.snapshotRoot
      (.registry materialized.registryRoot materialized.version materialized.sha256
        materialized.snapshotRoot) dependency.package

/-- The manifest that a dependency of a package selects. -/
def selectDependency (parentDir : Path) (parentOrigin : SourceOrigin) (dependency : Dependency) :
    Except Failure ManifestSelection :=
  match dependency.sourceKind with
  | .path => resolvePathDependency w topLevelWorkspaceDirs parentDir parentOrigin dependency
  | .git => resolveGitDependency w topLevelWorkspaceDirs parentDir dependency
  | .registry => resolveRegistryDependency w topLevelWorkspaceDirs dependency

end Selection

namespace ManifestSelection

variable (w : World) (s : ManifestSelection)

/-- The directory of the selected package. -/
def packageDir : Path := (canonicalAbsolutePath s.manifestPath).dropLast

def fingerprint : String := buildSourceFingerprint s.origin s.packageDir

/-- The package that the selected manifest defines. -/
def loadPackage : Except Failure PackageConfig := do
  let path := canonicalAbsolutePath s.manifestPath
  let manifest ← w.loadManifest path
  match manifest.package with
  | some package => .ok package
  | none =>
    if s.origin = .workspace then
      throwing .workspace ("workspace package manifest must define [package]: " ++ pathText path)
    else throwing .resolution ("resolved manifest must define [package]: " ++ pathText path)

end ManifestSelection

structure ResolvedDependencyAlias where
  aliasName : String
  packageId : String
  deriving DecidableEq

/-- What a node is from the start. -/
structure Entry where
  manifestPath : Path
  packageDir : Path
  package : PackageConfig
  origin : SourceOrigin
  sourceFingerprint : String
  id : String
  deriving DecidableEq

/-- A node, with what is known once its dependencies are resolved. -/
structure Node extends Entry where
  dependencies : List String
  dependencyAliases : List ResolvedDependencyAlias
  deriving DecidableEq

/-- The state of the resolver. -/
structure Graph where
  nodes : List Node
  nodeBySourceFingerprint : List (String × ℕ)
  nodeByPackageName : List (String × ℕ)

namespace Graph

def empty : Graph := ⟨[], [], []⟩

/-- Add a node whose dependencies are not known yet. -/
def push (g : Graph) (entry : Entry) : Graph where
  nodes := g.nodes ++ [{ entry with dependencies := [], dependencyAliases := [] }]
  nodeBySourceFingerprint :=
    setKey g.nodeBySourceFingerprint entry.sourceFingerprint g.nodes.length
  nodeByPackageName := setKey g.nodeByPackageName entry.package.name g.nodes.length

/-- Record the dependencies of a node: their ids sorted without repetition, the aliases sorted. -/
def finish (g : Graph) (index : ℕ) (aliases : List ResolvedDependencyAlias) : Graph where
  nodes := g.nodes.modify index fun node =>
    { node with
      dependencies := sorted (aliases.map (·.packageId)).toFinset
      dependencyAliases := aliases.insertionSort (·.aliasName ≤ ·.aliasName) }
  nodeBySourceFingerprint := g.nodeBySourceFingerprint
  nodeByPackageName := g.nodeByPackageName

end Graph

def ManifestSelection.entry (s : ManifestSelection) (package : PackageConfig) : Entry where
  manifestPath := canonicalAbsolutePath s.manifestPath
  packageDir := s.packageDir
  package := package
  origin := s.origin
  sourceFingerprint := s.fingerprint
  id := buildLockId s.origin package

/-- How a search ends without a result: by an exception, or because the recursion is cut off. -/
inductive Stop where
  | failed (failure : Failure)
  | exhausted
  deriving DecidableEq

def attempt {α : Type} (x : Except Failure α) : Except Stop α := x.mapError .failed

section Search

variable (w : World) (topLevelWorkspaceDirs : List String)

/-- One round of the loop over the dependencies of a node, with the search for the selection. -/
def resolveDependency (resolve : Graph → ManifestSelection → Except Stop (ℕ × Graph)) (node : Entry)
    (state : Graph × List ResolvedDependencyAlias) (dependency : Dependency) :
    Except Stop (Graph × List ResolvedDependencyAlias) := do
  let selected ← attempt
    (selectDependency w topLevelWorkspaceDirs node.packageDir node.origin dependency)
  let (index, g) ← resolve state.1 selected
  match g.nodes[index]? with
  | none => attempt (.error .missing)
  | some dependencyNode =>
    if dependency.package.any (· ≠ dependencyNode.package.name) then
      attempt <| throwing .resolution ("dependency '" ++ dependency.aliasName ++
        "' expected package '" ++ dependency.package.getD "" ++ "' but found '" ++
        dependencyNode.package.name ++ "'")
    else if dependencyNode.sourceFingerprint = node.sourceFingerprint then
      attempt <| throwing .resolution
        ("package '" ++ node.package.name ++ "' cannot depend on itself")
    else .ok (g, state.2 ++ [⟨dependency.aliasName, dependencyNode.id⟩])

/-- `ResolveNode`; the first argument bounds the depth of the recursion. -/
def resolveNode : ℕ → Graph → ManifestSelection → Except Stop (ℕ × Graph)
  | 0, _, _ => .error .exhausted
  | depth + 1, g, selected =>
    match getKey g.nodeBySourceFingerprint selected.fingerprint with
    | some index => .ok (index, g)
    | none => do
      let package ← attempt (selected.loadPackage w)
      match getKey g.nodeByPackageName package.name with
      | some index =>
        match g.nodes[index]? with
        | none => attempt (.error .missing)
        | some other =>
          if other.package.version ≠ package.version then
            attempt <| throwing .resolution ("single-version-v1 conflict for package '" ++
              package.name ++ "': versions '" ++ other.package.version ++ "' and '" ++
              package.version ++ "'")
          else if other.sourceFingerprint ≠ selected.fingerprint then
            attempt <| throwing .resolution
              ("single-version-v1 source conflict for package '" ++ package.name ++ "'")
          else .ok (index, g)
      | none =>
        let node := selected.entry package
        let (g', aliases) ← (collectDependencies package).foldlM
          (resolveDependency w topLevelWorkspaceDirs (resolveNode depth) node) (g.push node, [])
        .ok (g.nodes.length, g'.finish g.nodes.length aliases)

/-- One round of the loop over the root seeds. -/
def resolveSeed (depth : ℕ) (state : Graph × List String) (seed : ManifestSelection) :
    Except Stop (Graph × List String) := do
  let (index, g) ← resolveNode w topLevelWorkspaceDirs depth state.1 seed
  match g.nodes[index]? with
  | none => attempt (.error .missing)
  | some node => .ok (g, state.2 ++ [node.id])

end Search

structure ResolvedPackage where
  manifestPath : Path
  rootDir : Path
  package : PackageConfig
  id : String
  /-- Gives `source_kind`, `git`, `rev`, `registry`, `sha256`, `repo_hash` and `snapshot_root`. -/
  origin : SourceOrigin
  dependencies : List String
  dependencyAliases : List ResolvedDependencyAlias

def Node.resolved (node : Node) : ResolvedPackage :=
  ⟨node.manifestPath, node.packageDir, node.package, node.id, node.origin, node.dependencies,
    node.dependencyAliases⟩

structure LockPackage where
  id : String
  name : String
  version : String
  sourceKind : String
  git : Option String
  rev : Option String
  registry : Option String
  sha256 : Option String
  dependencies : List String

structure LockfileDocument where
  generatedBy : String
  resolver : String
  packages : List LockPackage

def ResolvedPackage.lockPackage (p : ResolvedPackage) : LockPackage :=
  ⟨p.id, p.package.name, p.package.version, p.origin.kindText, p.origin.gitSource?,
    p.origin.gitRev?, p.origin.registryRoot?, p.origin.registrySha256?, p.dependencies⟩

structure ResolvedGraphResult where
  manifestPath : Path
  lockfilePath : Path
  rootIds : List String
  packages : List ResolvedPackage
  lockfile : LockfileDocument

/-- `ResolveGraph`. Every node has a package name of its own, which bounds the depth. -/
def resolveGraph (w : World) (rootManifestPath : Path) (seeds : RootSeeds) :
    Except Stop ResolvedGraphResult := do
  let (g, rootIds) ← seeds.selections.foldlM
    (resolveSeed w seeds.topLevelWorkspaceDirs (w.names.card + 1)) (Graph.empty, [])
  let packages := (g.nodes.map Node.resolved).insertionSort (·.id ≤ ·.id)
  .ok ⟨rootManifestPath, rootManifestPath.dropLast ++ ["spio.lock"], sorted rootIds.toFinset,
    packages, ⟨"spio " ++ w.projectVersion, "single-version-v1",
      packages.map ResolvedPackage.lockPackage⟩⟩

def resolveSingleVersionGraph (w : World) (manifestPath : Path) :
    Except Stop ResolvedGraphResult := do
  let rootManifestPath := canonicalAbsolutePath manifestPath
  let seeds ← attempt (buildRootSeeds w rootManifestPath)
  resolveGraph w rootManifestPath seeds

end StyioPlatform.Resolve
