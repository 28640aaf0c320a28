import StyioPlatform.Lib.DepthFirst
import StyioPlatform.Lib.Json
import StyioPlatform.Resolve.Resolver

/-! The plan of a build (`CompilePlan.cpp`): what is built from a resolved graph, in which order and
under which key. -/
namespace StyioPlatform.CompilePlan

open Resolve Manifest

abbrev Bytes := List UInt8

structure BuildPlanRequest where
  intent : String := "build"
  packageName : Option String := none
  binName : Option String := none
  testName : Option String := none
  selectLib : Bool := false
  profile : String := "dev"
  buildMode : String := "minimal"
  compilerVersion : Option String := none

/-- How a plan ends without a result: by a `PlanError`, as the resolver does, or because the
recursion is cut off. -/
inductive Failure where
  | planError (message : String)
  | resolver (stop : Stop)
  | exhausted
  deriving DecidableEq

def fail {α : Type} (message : String) : Except Failure α := .error (.planError message)

def check (holds : Bool) (message : String) : Except Failure Unit :=
  if holds then .ok () else fail message

/-- What is at a path. -/
inductive SourceFile where
  | missing
  | directory
  | unreadable
  | regular (content : Bytes)
  deriving DecidableEq

/-- The files of the host. -/
abbrev Sources := Path → SourceFile

/-- A path with a separator at its end names a directory or nothing. -/
def lookup (sources : Sources) (path : Path) : SourceFile :=
  if path.getLast? = some "" then
    match sources path.dropLast with
    | .directory => .directory
    | _ => .missing
  else sources path

def validateIntent (intent : String) : Except Failure Unit :=
  check (intent = "build" ∨ intent = "run" ∨ intent = "test")
    ("unsupported compile-plan intent for the current native core: " ++ intent)

/-- `Fnv1a64`. -/
def fnv1a64 (value : Bytes) : UInt64 :=
  value.foldl (fun hash ch => (hash ^^^ ch.toUInt64) * 1099511628211) 1469598103934665603

/-- `Hex64`. -/
def hex64 (value : UInt64) : String := String.ofList (Nat.toDigits 16 value.toNat)

/-- `AbsoluteTargetPath`, with an empty name at the end where the text has a separator there. -/
def absoluteTargetPath (package : ResolvedPackage) (relativePath : String) : Path :=
  let path := joinPath package.rootDir relativePath
  let names := canonicalAbsolutePath path
  if names = [] ∨ (path.getLast?.all fun name => decide (IsName name)) then names else names ++ [""]

def requireExistingSourceFile (sources : Sources) (path : Path) (context : String) :
    Except Failure Unit :=
  match lookup sources path with
  | .missing => fail (context ++ " source file not found: " ++ pathText path)
  | .directory => fail (context ++ " source path is not a file: " ++ pathText path)
  | _ => .ok ()

def readFile (sources : Sources) (path : Path) : Except Failure Bytes :=
  match lookup sources path with
  | .regular content => .ok content
  | _ => fail ("failed to read file required for compile-plan: " ++ pathText path)

/-- `packages_by_id`: the first package of an id. -/
def packageById (packages : List ResolvedPackage) (id : String) : Option ResolvedPackage :=
  packages.find? (·.id = id)

def unknownPackage (id : String) : String := "resolver graph references unknown package id: " ++ id

/-- `RequirePackageById`. -/
def requirePackageById (packages : List ResolvedPackage) (id : String) :
    Except Failure ResolvedPackage :=
  match packageById packages id with
  | some package => .ok package
  | none => fail (unknownPackage id)

section Entry

variable (graph : ResolvedGraphResult)

def collectRootPackages : Except Failure (List ResolvedPackage) := do
  let roots ← graph.rootIds.mapM (requirePackageById graph.packages)
  return roots.insertionSort (·.id ≤ ·.id)

def resolveEntryPackage (request : BuildPlanRequest) : Except Failure ResolvedPackage := do
  let roots ← collectRootPackages graph
  check (!roots.isEmpty) "compile-plan generation requires at least one root package"
  match request.packageName with
  | some name =>
    match roots.find? (·.package.name = name) with
    | some package => return package
    | none => fail ("selected package is not a root package of the active manifest: " ++ name)
  | none =>
    match roots.find? (·.manifestPath = graph.manifestPath), roots with
    | some package, _ => return package
    | none, [package] => return package
    | none, _ =>
      fail "workspace build is ambiguous; select a root package with --package <namespace/name>"

structure SelectedTarget where
  package : ResolvedPackage
  kind : String
  name : String
  file : Path

variable (sources : Sources)

/-- A target whose file is there. -/
def selectTarget (package : ResolvedPackage) (kind context name path : String) :
    Except Failure SelectedTarget := do
  let file := absoluteTargetPath package path
  requireExistingSourceFile sources file context
  return ⟨package, kind, name, file⟩

def selectLibTarget (package : ResolvedPackage) (lib : LibTarget) : Except Failure SelectedTarget :=
  selectTarget sources package "lib" "library" package.package.name lib.path

def selectBinTarget (package : ResolvedPackage) (bin : Target) : Except Failure SelectedTarget :=
  selectTarget sources package "bin" "binary" bin.name bin.path

def selectTestTarget (package : ResolvedPackage) (test : Target) : Except Failure SelectedTarget :=
  selectTarget sources package "test" "test" test.name test.path

/-- The target of a request that names none. -/
def resolveDefaultTarget (intent : String) (package : ResolvedPackage) :
    Except Failure SelectedTarget :=
  let config := package.package
  if intent = "test" then
    match config.tests with
    | [test] => selectTestTarget sources package test
    | [] => fail ("selected package does not define any [[test]] target: " ++ config.name)
    | _ => fail ("test target is ambiguous for package '" ++ config.name ++
        "'; select --test <name>")
  else if intent = "run" then
    match config.bins with
    | [bin] => selectBinTarget sources package bin
    | [] => fail ("selected package does not define any [[bin]] target: " ++ config.name)
    | _ => fail ("run target is ambiguous for package '" ++ config.name ++ "'; select --bin <name>")
  else
    match config.lib, config.bins with
    | some lib, [] => selectLibTarget sources package lib
    | none, [bin] => selectBinTarget sources package bin
    | _, _ => fail ("build target is ambiguous for package '" ++ config.name ++
        "'; select --lib or --bin <name>")

def resolveEntryTarget (request : BuildPlanRequest) (package : ResolvedPackage) :
    Except Failure SelectedTarget := do
  let config := package.package
  let combine := request.intent ++ " target selection cannot combine "
  check (!(request.selectLib && request.binName.isSome)) (combine ++ "--lib and --bin")
  check (!(request.selectLib && request.testName.isSome)) (combine ++ "--lib and --test")
  check (!(request.binName.isSome && request.testName.isSome)) (combine ++ "--bin and --test")
  if request.selectLib then
    check (request.intent ≠ "run") "run requires a binary target and does not accept --lib"
    check (request.intent ≠ "test")
      "test requires an explicit [[test]] target and does not accept --lib"
    match config.lib with
    | some lib => selectLibTarget sources package lib
    | none => fail ("selected package does not define [lib]: " ++ config.name)
  else
    match request.binName, request.testName with
    | some name, _ =>
      match config.bins.find? (·.name = name) with
      | some bin => selectBinTarget sources package bin
      | none => fail ("selected package does not define [[bin]].name = \"" ++ name ++ "\"")
    | none, some name =>
      match config.tests.find? (·.name = name) with
      | some test => selectTestTarget sources package test
      | none => fail ("selected package does not define [[test]].name = \"" ++ name ++ "\"")
    | none, none => resolveDefaultTarget sources request.intent package

structure ProfileConfig where
  name : String
  optLevel : ℤ
  debug : Bool
  lto : Bool

def resolveProfile (profileName : String) : Except Failure ProfileConfig :=
  if profileName = "dev" then .ok ⟨"dev", 0, true, false⟩
  else if profileName = "release" then .ok ⟨"release", 3, false, true⟩
  else fail ("unsupported build profile: " ++ profileName)

def validateUniformToolchain : Except Failure Unit :=
  match graph.packages with
  | [] => fail "compile-plan generation requires at least one resolved package"
  | baseline :: _ =>
    let subject := "compile-plan v1 requires a uniform "
    graph.packages.forM fun package => do
      check (package.package.edition = baseline.package.edition)
        (subject ++ "package.edition across the resolved graph")
      check (package.package.toolchain.channel = baseline.package.toolchain.channel)
        (subject ++ "[toolchain].channel across the resolved graph")
      check (package.package.toolchain.implicitStd = baseline.package.toolchain.implicitStd)
        (subject ++ "[toolchain].implicit-std across the resolved graph")

def buildStdPackageId (package : ResolvedPackage) : String :=
  (if package.package.toolchain.implicitStd then "builtin:std@" else "builtin:std-disabled@") ++
    package.package.toolchain.channel ++ "/" ++ package.package.edition

end Entry

/-- What the package of an id depends on. -/
def dependenciesOf (packages : List ResolvedPackage) (id : String) : Option (List String) :=
  (packageById packages id).map (·.dependencies)

def orderFailure : DepthFirst.Stop String → Failure
  | .cycle path =>
    .planError ("compile-plan requires an acyclic package graph: " ++ " -> ".intercalate path)
  | .unknown id => .planError (unknownPackage id)
  | .exhausted => .exhausted

/-- `BuildPackageOrder`. The stack of the search has a package at most once, which bounds the
depth. -/
def buildPackageOrder (graph : ResolvedGraphResult) : Except Failure (List String) :=
  (DepthFirst.visitAll (dependenciesOf graph.packages) (graph.packages.length + 1)
    ((graph.packages.map (·.id)).insertionSort (· ≤ ·))).mapError orderFailure

/-- The files of a package that the digest is made of. -/
def packageFiles (package : ResolvedPackage) : List Path :=
  package.manifestPath ::
    (package.package.lib.toList.map fun lib => absoluteTargetPath package lib.path) ++
    (package.package.bins.map fun bin => absoluteTargetPath package bin.path) ++
    (package.package.tests.map fun test => absoluteTargetPath package test.path)

/-- The files of the graph, sorted without repetition. -/
def sourceFiles (graph : ResolvedGraphResult) : List Path :=
  sorted (graph.packages.flatMap packageFiles).toFinset

/-- The bytes of a text. -/
def textBytes (text : String) : Bytes := text.toUTF8.data.toList

/-- `digest_input`: the path and the content of every file, each with a NUL after it. -/
def digestInput (files : List (Path × Bytes)) : Bytes :=
  files.flatMap fun file => textBytes (pathText file.1) ++ 0 :: file.2 ++ [0]

/-- A file with its content. -/
def readSourceFile (sources : Sources) (path : Path) : Except Failure (Path × Bytes) := do
  requireExistingSourceFile sources path "compile-plan"
  let content ← readFile sources path
  return (path, content)

/-- The digest input of a graph. -/
def sourceDigestInput (sources : Sources) (graph : ResolvedGraphResult) : Except Failure Bytes := do
  let files ← (sourceFiles graph).mapM (readSourceFile sources)
  return digestInput files

def buildSourceHash (sources : Sources) (graph : ResolvedGraphResult) : Except Failure String := do
  let input ← sourceDigestInput sources graph
  return hex64 (fnv1a64 input)

section PackageJson

variable (sources : Sources) (package : ResolvedPackage)

/-- The targets of one kind, in the order of their names. -/
def targetsJson (context : String) (targets : List Target) : Except Failure (List Json) :=
  (targets.insertionSort (·.name ≤ ·.name)).mapM fun target => do
    let path := absoluteTargetPath package target.path
    requireExistingSourceFile sources path context
    return .ofFields [("name", .string target.name), ("path", .string (pathText path))]

def libJson : Except Failure Json :=
  match package.package.lib with
  | none => .ok .null
  | some lib => do
    let path := absoluteTargetPath package lib.path
    requireExistingSourceFile sources path "library"
    return .string (pathText path)

def buildTargetsJson : Except Failure Json := do
  let bins ← targetsJson sources package "binary" package.package.bins
  let tests ← targetsJson sources package "test" package.package.tests
  let lib ← libJson sources package
  return .ofFields ([("lib", lib), ("bins", .array bins)] ++
    if tests.isEmpty then [] else [("tests", .array tests)])

/-- The member `dependency_aliases`: a later alias replaces an earlier one of the same name. -/
def dependencyAliases : Json :=
  .object (package.dependencyAliases.foldl
    (fun members entry => setKey members entry.aliasName (.string entry.packageId)) [])

def buildPackageJson : Except Failure Json := do
  let targets ← buildTargetsJson sources package
  return .ofFields [("id", .string package.id), ("name", .string package.package.name),
    ("version", .string package.package.version), ("root_dir", .string (pathText package.rootDir)),
    ("manifest_path", .string (pathText package.manifestPath)),
    ("source_kind", .string package.origin.kindText), ("targets", targets),
    ("dependency_aliases", dependencyAliases package)]

end PackageJson

/-- `cache_material`: the text that the build key is made of. -/
def cacheMaterial (request : BuildPlanRequest) (profile : ProfileConfig)
    (entryPackage : ResolvedPackage) (entryTarget : SelectedTarget) (sourceHash : String) : String :=
  "compiler=" ++ request.compilerVersion.getD "unbound" ++ ";compile-plan=1" ++ ";intent=" ++
    request.intent ++ ";edition=" ++ entryPackage.package.edition ++ ";build-mode=" ++
    request.buildMode ++ ";profile=" ++ profile.name ++ ";target=" ++ entryPackage.id ++ ":" ++
    entryTarget.kind ++ ":" ++ entryTarget.name ++ ";source=" ++ sourceHash

structure BuildPlanResult where
  manifestPath : Path
  workspaceRoot : Path
  cacheKey : String
  plan : Json
  entryPackageId : String
  entryPackageName : String
  entryTargetKind : String
  entryTargetName : String
  profileName : String
  buildMode : String
  packageCount : ℕ

namespace BuildPlanResult

variable (r : BuildPlanResult)

def buildRoot : Path := r.workspaceRoot ++ [".spio", "build", r.cacheKey]

def artifactDir : Path := r.buildRoot ++ ["artifacts"]

def diagDir : Path := r.buildRoot ++ ["diag"]

def planPath : Path := r.buildRoot ++ ["plan.json"]

end BuildPlanResult

/-- `WriteBuildCompilePlan`, up to the writing of `plan.json`. -/
def writeBuildCompilePlan (w : World) (sources : Sources) (manifestPath : Path)
    (request : BuildPlanRequest) : Except Failure BuildPlanResult := do
  check (w.exists manifestPath) ("manifest not found: " ++ pathText manifestPath)
  validateIntent request.intent
  let graph ← (resolveSingleVersionGraph w manifestPath).mapError .resolver
  validateUniformToolchain graph
  let entryPackage ← resolveEntryPackage graph request
  let entryTarget ← resolveEntryTarget sources request entryPackage
  let profile ← resolveProfile request.profile
  let packageOrder ← buildPackageOrder graph
  let sourceHash ← buildSourceHash sources graph
  let cacheKey := hex64 (fnv1a64 (textBytes
    (cacheMaterial request profile entryPackage entryTarget sourceHash)))
  let workspaceRoot := canonicalAbsolutePath graph.manifestPath.dropLast
  let buildRoot := workspaceRoot ++ [".spio", "build", cacheKey]
  let packages ← graph.packages.mapM (buildPackageJson sources)
  let toolchain := entryPackage.package.toolchain
  let plan := Json.ofFields
    [("plan_version", .int 1),
      ("generated_by", .ofFields [("tool", .string "spio"), ("version", .string w.projectVersion)]),
      ("intent", .string request.intent), ("workspace_root", .string (pathText workspaceRoot)),
      ("entry", .ofFields [("package_id", .string entryPackage.id),
        ("target_kind", .string entryTarget.kind), ("target_name", .string entryTarget.name),
        ("file", .string (pathText entryTarget.file))]),
      ("toolchain", .ofFields [("channel", .string toolchain.channel),
        ("edition", .string entryPackage.package.edition),
        ("implicit_std", .bool toolchain.implicitStd),
        ("std_package_id", .string (buildStdPackageId entryPackage))]),
      ("profile", .ofFields [("name", .string profile.name),
        ("build_mode", .string request.buildMode), ("opt_level", .int profile.optLevel),
        ("debug", .bool profile.debug), ("lto", .bool profile.lto)]),
      ("packages", .array packages),
      ("resolution", .ofFields [("resolver", .string "single-version-v1"),
        ("package_order", .array (packageOrder.map .string))]),
      ("outputs", .ofFields [("build_root", .string (pathText buildRoot)),
        ("artifact_dir", .string (pathText (buildRoot ++ ["artifacts"]))),
        ("diag_dir", .string (pathText (buildRoot ++ ["diag"])))]),
      ("emit", .ofFields [("error_format", .string "jsonl"), ("ast", .bool false),
        ("styio_ir", .bool false), ("llvm_ir", .bool false)])]
  return ⟨graph.manifestPath, workspaceRoot, cacheKey, plan, entryPackage.id,
    entryPackage.package.name, entryTarget.kind, entryTarget.name, profile.name, request.buildMode,
    graph.packages.length⟩

end StyioPlatform.CompilePlan
