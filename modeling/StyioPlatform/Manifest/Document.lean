import StyioPlatform.Lib.Fallible
import StyioPlatform.Lib.Paths

/-! Package manifests (`Manifest.cpp`): what `LoadManifest` makes of a TOML document. -/
namespace StyioPlatform.Manifest

inductive ErrorKind where
  | validation
  | workspace
  | resolution
  | fetch
  | cache
  deriving DecidableEq, Repr

/-- An exception: one of the platform with its text, or a read of an element or a value that is not
there. -/
inductive Failure where
  | thrown (kind : ErrorKind) (message : String)
  | missing
  deriving DecidableEq, Repr

/-- A parsed TOML value; the entries of a table are in the order of their keys. A float carries the
integer that it equals, if there is one. -/
inductive Toml where
  | string (value : String)
  | integer (value : Int)
  | float (integral : Option Int)
  | boolean (value : Bool)
  | time
  | array (elements : List Toml)
  | table (entries : List (String × Toml))

abbrev Table := List (String × Toml)

namespace Toml

def asTable : Toml → Option Table
  | table entries => some entries
  | _ => none

def asArray : Toml → Option (List Toml)
  | array elements => some elements
  | _ => none

/-- `value<std::string>()`. -/
def asString : Toml → Option String
  | string value => some value
  | _ => none

/-- `value<int64_t>()`, which takes lossless conversions. -/
def asInteger : Toml → Option Int
  | integer value => some value
  | float integral => integral
  | boolean value => some (if value then 1 else 0)
  | _ => none

/-- `value<bool>()`. -/
def asBool : Toml → Option Bool
  | boolean value => some value
  | integer value => some (value ≠ 0)
  | _ => none

end Toml

inductive DependencySourceKind where
  | path
  | git
  | registry
  deriving DecidableEq, Repr

structure Dependency where
  aliasName : String
  package : Option String
  sourceKind : DependencySourceKind
  source : String
  rev : Option String
  version : Option String
  deriving DecidableEq, Repr

structure Toolchain where
  channel : String
  implicitStd : Bool
  deriving DecidableEq, Repr

structure LibTarget where
  path : String
  deriving DecidableEq, Repr

/-- An entry of `[[bin]]` or `[[test]]`. -/
structure Target where
  name : String
  path : String
  deriving DecidableEq, Repr

structure WorkspaceConfig where
  members : List String
  exclude : List String
  resolver : String
  deriving DecidableEq, Repr

structure PackageConfig where
  name : String
  version : String
  edition : String
  publish : Bool
  toolchain : Toolchain
  lib : Option LibTarget
  bins : List Target
  tests : List Target
  dependencies : List Dependency
  devDependencies : List Dependency
  deriving DecidableEq, Repr

structure ManifestDocument where
  package : Option PackageConfig
  workspace : Option WorkspaceConfig
  deriving DecidableEq, Repr

def invalid {α : Type} (message : String) : Except Failure α := .error (.thrown .validation message)

def check (holds : Bool) (message : String) : Except Failure Unit :=
  if holds then .ok () else invalid message

def isNameStart (c : Char) : Bool := c.isLower || c.isDigit

def isNameChar (c : Char) : Bool := isNameStart c || c = '_' || c = '-'

/-- `[a-z0-9][a-z0-9_-]*`. -/
def isNamePart : List Char → Bool
  | [] => false
  | c :: rest => isNameStart c && rest.all isNameChar

/-- `NameRegex`. -/
def isPackageName (name : String) : Bool :=
  match name.toList.splitOn '/' with
  | [owner, package] => isNamePart owner && isNamePart package
  | _ => false

/-- `SemverRegex`. -/
def isSemver (version : String) : Bool :=
  match version.toList.splitOn '.' with
  | [major, minor, patch] =>
    [major, minor, patch].all fun part => !part.isEmpty && part.all Char.isDigit
  | _ => false

def isNonEmptyRelativePath (value : String) : Bool := value ≠ "" ∧ value.toList.head? ≠ some '/'

def isRegistryRootUrl (value : String) : Bool :=
  ["file://", "http://", "https://"].any fun scheme => scheme.toList <+: value.toList

section Fields

variable (table : Table) (key context : String)

def requireTable : Except Failure Table :=
  match (table.lookup key).bind Toml.asTable with
  | some entries => .ok entries
  | none => invalid ("missing or invalid [" ++ key ++ "] table in " ++ context)

/-- `RequireValue<std::string>`. -/
def requireString : Except Failure String :=
  match (table.lookup key).bind Toml.asString with
  | some value => .ok value
  | none => invalid ("missing or invalid '" ++ key ++ "' in " ++ context)

def optionalBool : Option Bool := (table.lookup key).bind Toml.asBool

def optionalString : Option String := (table.lookup key).bind Toml.asString

def requireStringArray (requireNonEmpty : Bool) : Except Failure (List String) := do
  match (table.lookup key).bind Toml.asArray with
  | none => invalid ("missing or invalid '" ++ key ++ "' array in " ++ context)
  | some elements =>
    let values ← elements.mapM fun node =>
      match node.asString with
      | some value => .ok value
      | none => invalid ("array '" ++ key ++ "' in " ++ context ++ " must contain only strings")
    check (!(requireNonEmpty && values.isEmpty))
      ("array '" ++ key ++ "' in " ++ context ++ " must not be empty")
    return values

end Fields

def validatePackageName (name context : String) : Except Failure Unit :=
  check (isPackageName name) (context ++ " must match namespace/name")

def validateSemver (version context : String) : Except Failure Unit :=
  check (isSemver version) (context ++ " must be strict semver x.y.z")

def validateRelativePath (path context : String) : Except Failure Unit :=
  check (isNonEmptyRelativePath path) (context ++ " must be an explicit relative path")

def validateRegistryRoot (registryRoot context : String) : Except Failure Unit :=
  check (isRegistryRootUrl registryRoot) (context ++ " must use file://, http://, or https://")

/-- One round of the loop of `ParseDependencies`. -/
def parseDependency (tableName : String) (entry : String × Toml) : Except Failure Dependency := do
  let aliasName := entry.1
  let subject := "dependency '" ++ aliasName ++ "'"
  match entry.2.asTable with
  | none => invalid (subject ++ " in [" ++ tableName ++ "] must be an inline table")
  | some dep =>
    let hasPath := (dep.lookup "path").isSome
    let hasGit := (dep.lookup "git").isSome
    let hasRegistrySource := (dep.lookup "version").isSome || (dep.lookup "registry").isSome
    check (hasPath.toNat + hasGit.toNat + hasRegistrySource.toNat = 1)
      (subject ++ " in [" ++ tableName ++ "] must declare exactly one source kind")
    let package := optionalString dep "package"
    match package with
    | some name => validatePackageName name (subject ++ " package")
    | none => .ok ()
    if hasPath then
      let source ← requireString dep "path" subject
      validateRelativePath source (subject ++ " path")
      return ⟨aliasName, package, .path, source, none, none⟩
    else if hasGit then
      let source ← requireString dep "git" subject
      check (source ≠ "") (subject ++ " git must be a non-empty string")
      let rev ← requireString dep "rev" subject
      check (rev ≠ "") (subject ++ " rev must be a non-empty string")
      return ⟨aliasName, package, .git, source, some rev, none⟩
    else
      check package.isSome
        (subject ++ " must declare package = \"namespace/name\" for registry sources")
      let version ← requireString dep "version" subject
      validateSemver version (subject ++ " version")
      let source ← requireString dep "registry" subject
      validateRegistryRoot source (subject ++ " registry")
      return ⟨aliasName, package, .registry, source, none, some version⟩

def parseDependencies (doc : Table) (tableName : String) : Except Failure (List Dependency) :=
  match (doc.lookup tableName).bind Toml.asTable with
  | none => .ok []
  | some dependencies => dependencies.mapM (parseDependency tableName)

def parseToolchain (doc : Table) : Except Failure Toolchain := do
  let toolchain ← requireTable doc "toolchain" "package manifest"
  let channel ← requireString toolchain "channel" "[toolchain]"
  check (channel ≠ "") "[toolchain].channel must be a non-empty string"
  match optionalBool toolchain "implicit-std" with
  | none => invalid "[toolchain].implicit-std must be a boolean"
  | some implicitStd => return ⟨channel, implicitStd⟩

def parseLib (doc : Table) : Except Failure (Option LibTarget) :=
  match (doc.lookup "lib").bind Toml.asTable with
  | none => .ok none
  | some lib => do
    let path ← requireString lib "path" "[lib]"
    validateRelativePath path "[lib].path"
    return some ⟨path⟩

/-- One round of the loops of `ParseBins` and `ParseTests`, for the targets read so far. -/
def parseTarget (kind : String) (targets : List Target) (node : Toml) :
    Except Failure (List Target) :=
  let header := "[[" ++ kind ++ "]]"
  match node.asTable with
  | none => invalid (header ++ " entries must be tables")
  | some entry => do
    let name ← requireString entry "name" header
    let path ← requireString entry "path" header
    check (name ≠ "") (header ++ ".name must be a non-empty string")
    validateRelativePath path (header ++ ".path")
    check (targets.all (·.name ≠ name))
      ("duplicate " ++ header ++ ".name in package manifest: " ++ name)
    return targets ++ [⟨name, path⟩]

def parseTargets (kind : String) (doc : Table) : Except Failure (List Target) :=
  match (doc.lookup kind).bind Toml.asArray with
  | none => .ok []
  | some entries => entries.foldlM (parseTarget kind) []

def parseBins : Table → Except Failure (List Target) := parseTargets "bin"

def parseTests : Table → Except Failure (List Target) := parseTargets "test"

def parsePackage (doc : Table) : Except Failure PackageConfig := do
  let table ← requireTable doc "package" "manifest"
  let name ← requireString table "name" "[package]"
  let version ← requireString table "version" "[package]"
  let edition ← requireString table "edition" "[package]"
  let publish := (optionalBool table "publish").getD false
  let toolchain ← parseToolchain doc
  let lib ← parseLib doc
  let bins ← parseBins doc
  let tests ← parseTests doc
  let dependencies ← parseDependencies doc "dependencies"
  let devDependencies ← parseDependencies doc "dev-dependencies"
  validatePackageName name "package.name"
  validateSemver version "package.version"
  check (edition ≠ "") "package.edition must be an explicit string"
  check (!(lib.isNone && bins.isEmpty && tests.isEmpty))
    "package manifests must define at least one explicit [lib], [[bin]], or [[test]] target"
  return ⟨name, version, edition, publish, toolchain, lib, bins, tests, dependencies,
    devDependencies⟩

def parseWorkspace (doc : Table) : Except Failure WorkspaceConfig := do
  let table ← requireTable doc "workspace" "manifest"
  let members ← requireStringArray table "members" "[workspace]" true
  let exclude ←
    if (table.lookup "exclude").isSome then requireStringArray table "exclude" "[workspace]" false
    else .ok []
  let resolver ← requireString table "resolver" "[workspace]"
  check (resolver = "1") "[workspace].resolver must be \"1\""
  members.forM fun member => validateRelativePath member "[workspace].members entry"
  exclude.forM fun entry => validateRelativePath entry "[workspace].exclude entry"
  return ⟨members, exclude, resolver⟩

/-- Parse a section that is there. -/
def parseIf {α : Type} (present : Bool) (parse : Except Failure α) : Except Failure (Option α) :=
  if present then some <$> parse else .ok none

/-- `LoadManifest`, on the parsed document. -/
def parseManifest (doc : Table) : Except Failure ManifestDocument := do
  let spio ← requireTable doc "spio" "manifest"
  check ((spio.lookup "manifest-version").bind Toml.asInteger = some 1)
    "spio manifest-version must be 1"
  let hasPackage := (doc.lookup "package").isSome
  let hasWorkspace := (doc.lookup "workspace").isSome
  check (hasPackage || hasWorkspace) "manifest must contain [package], [workspace], or both"
  let package ← parseIf hasPackage (parsePackage doc)
  let workspace ← parseIf hasWorkspace (parseWorkspace doc)
  return ⟨package, workspace⟩

theorem check_eq_ok {holds : Bool} {message : String} {u : Unit} :
    check holds message = .ok u ↔ holds = true := by
  cases holds <;> simp [check, invalid]

section Fields

variable {table : Table} {key value context : String}

theorem requireTable_eq {entries : Table} (h : table.lookup key = some (.table entries)) :
    requireTable table key context = .ok entries := by
  rw [requireTable, h]
  rfl

theorem requireString_eq (h : table.lookup key = some (.string value)) :
    requireString table key context = .ok value := by
  rw [requireString, h]
  rfl

theorem optionalString_eq {v : Option String} (h : table.lookup key = v.map .string) :
    optionalString table key = v := by
  rw [optionalString, h]
  cases v <;> rfl

theorem optionalBool_eq {b : Bool} (h : table.lookup key = some (.boolean b)) :
    optionalBool table key = some b := by
  rw [optionalBool, h]
  rfl

theorem requireStringArray_eq {values : List String} {nonEmpty : Bool}
    (h : table.lookup key = some (.array (values.map .string)))
    (hne : nonEmpty = true → values ≠ []) :
    requireStringArray table key context nonEmpty = .ok values := by
  have hmapM : ∀ f : Toml → Except Failure String, (∀ value, f (.string value) = .ok value) →
      (values.map Toml.string).mapM f = .ok values := by
    intro f hf
    rw [List.mapM_map]
    exact (mapM_eq_pure fun value _ => hf value).trans (congrArg _ (List.map_id values))
  rw [requireStringArray, h]
  simp only [Option.bind_some, Toml.asArray]
  rw [hmapM _ fun _ => rfl]
  have hcheck : (!(nonEmpty && values.isEmpty)) = true := by
    cases nonEmpty with
    | false => rfl
    | true => simpa using hne rfl
  change (check _ _ >>= fun _ => pure values) = _
  rw [check_eq_ok (u := ()).mpr hcheck]
  rfl

end Fields

end StyioPlatform.Manifest
