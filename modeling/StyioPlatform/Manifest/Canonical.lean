import StyioPlatform.Manifest.TomlSections
import StyioPlatform.Manifest.Validity

/-! The canonical writer of manifests (`Manifest.cpp`), and when the loader reads back what it
writes. -/
namespace StyioPlatform.Manifest

/-- The fields of a dependency in the order in which they are written. -/
def dependencyFields (d : Dependency) : List (String × String) :=
  (d.package.toList.map fun name => ("package", name)) ++
  match d.sourceKind with
  | .path => [("path", d.source)]
  | .git => [("git", d.source), ("rev", d.rev.getD "")]
  | .registry => [("version", d.version.getD ""), ("registry", d.source)]

def sortedDependencies (dependencies : List Dependency) : List Dependency :=
  dependencies.insertionSort (·.aliasName ≤ ·.aliasName)

def sortedTargets (targets : List Target) : List Target :=
  targets.insertionSort (·.name ≤ ·.name)

def emitDependency (d : Dependency) : List String :=
  [quoteTomlKey d.aliasName, " = \x7b ",
    ", ".intercalate ((dependencyFields d).map fun f => f.1 ++ " = " ++ quoteTomlString f.2), " \x7d\n"]

def emitDependencySection (sectionName : String) (dependencies : List Dependency) : List String :=
  if dependencies.isEmpty then []
  else ["[", sectionName, "]\n"] ++ (sortedDependencies dependencies).flatMap emitDependency

def emitStringArray (key : String) (values : List String) : List String :=
  [key, " = [", ", ".intercalate (values.map quoteTomlString), "]\n"]

/-- What is put out for a target, after a header. -/
def emitTarget (header : String) (t : Target) : List String :=
  [header, "name = ", quoteTomlString t.name, "\n", "path = ", quoteTomlString t.path, "\n"]

def boolText (b : Bool) : String := if b then "true" else "false"

/-- The part of `SerializeManifestCanonical` that is about the package. -/
def emitPackage (p : PackageConfig) : List String :=
  ["\n[package]\n",
    "name = ", quoteTomlString p.name, "\n",
    "version = ", quoteTomlString p.version, "\n",
    "edition = ", quoteTomlString p.edition, "\n",
    "publish = ", boolText p.publish, "\n",
    "\n[toolchain]\n",
    "channel = ", quoteTomlString p.toolchain.channel, "\n",
    "implicit-std = ", boolText p.toolchain.implicitStd, "\n"] ++
  (match p.lib with
  | some lib => ["\n[lib]\n", "path = ", quoteTomlString lib.path, "\n"]
  | none => []) ++
  (sortedTargets p.bins).flatMap (emitTarget "\n[[bin]]\n") ++
  (sortedTargets p.tests).flatMap (emitTarget "\n[[test]]\n") ++
  (if p.dependencies.isEmpty then []
  else "\n" :: emitDependencySection "dependencies" p.dependencies) ++
  (if p.devDependencies.isEmpty then []
  else "\n" :: emitDependencySection "dev-dependencies" p.devDependencies)

def emitWorkspace (w : WorkspaceConfig) : List String :=
  ["\n[workspace]\n"] ++ emitStringArray "members" w.members ++
  (if w.exclude.isEmpty then [] else emitStringArray "exclude" w.exclude) ++
  ["resolver = ", quoteTomlString w.resolver, "\n"]

/-- `SerializeManifestCanonical`. The targets and the dependencies of a loaded manifest have names of
their own, so that there is one way to sort them. -/
def serializeManifestCanonical (m : ManifestDocument) : String :=
  String.join (["[spio]\n", "manifest-version = 1\n"] ++ m.package.toList.flatMap emitPackage ++
    m.workspace.toList.flatMap emitWorkspace)

/-- `LoadManifest`, on the text of a file. -/
def loadManifest (parse : String → Option Table) (manifestPath text : String) :
    Except Failure ManifestDocument :=
  match parse text with
  | none => invalid ("failed to parse manifest '" ++ manifestPath ++ "'")
  | some doc => parseManifest doc

/-- The manifest with its targets and dependencies sorted. -/
def canonicalManifest (m : ManifestDocument) : ManifestDocument :=
  { m with package := m.package.map fun p =>
    { p with
      bins := sortedTargets p.bins
      tests := sortedTargets p.tests
      dependencies := sortedDependencies p.dependencies
      devDependencies := sortedDependencies p.devDependencies } }

section Sections

def spioSection : Section := ⟨"spio", false, [("manifest-version", .one)]⟩

def targetSection (kind : String) (t : Target) : Section :=
  ⟨kind, true, [("name", .text t.name), ("path", .text t.path)]⟩

/-- The section of some dependencies, if there are any. -/
def dependencySections (name : String) (dependencies : List Dependency) : List Section :=
  if dependencies.isEmpty then []
  else [⟨name, false, (sortedDependencies dependencies).map fun d =>
    (d.aliasName, .fields (dependencyFields d))⟩]

def packageSection (p : PackageConfig) : Section :=
  ⟨"package", false, [("name", .text p.name), ("version", .text p.version),
    ("edition", .text p.edition), ("publish", .flag p.publish)]⟩

def toolchainSection (t : Toolchain) : Section :=
  ⟨"toolchain", false, [("channel", .text t.channel), ("implicit-std", .flag t.implicitStd)]⟩

def libSections (lib : Option LibTarget) : List Section :=
  lib.toList.map fun lib => ⟨"lib", false, [("path", .text lib.path)]⟩

def packageSections (p : PackageConfig) : List Section :=
  [packageSection p, toolchainSection p.toolchain] ++ libSections p.lib ++
  (sortedTargets p.bins).map (targetSection "bin") ++
  (sortedTargets p.tests).map (targetSection "test") ++
  dependencySections "dependencies" p.dependencies ++
  dependencySections "dev-dependencies" p.devDependencies

def workspaceSection (w : WorkspaceConfig) : Section :=
  ⟨"workspace", false, [("members", .texts w.members)] ++
    (if w.exclude.isEmpty then [] else [("exclude", .texts w.exclude)]) ++
    [("resolver", .text w.resolver)]⟩

def manifestSections (m : ManifestDocument) : List Section :=
  m.package.toList.flatMap packageSections ++ m.workspace.toList.map workspaceSection

def manifestLines (m : ManifestDocument) : List Line :=
  spioSection.lines ++ (manifestSections m).flatMap fun s => .blank :: s.lines

variable {m : ManifestDocument} {p : PackageConfig} {w : WorkspaceConfig} {key kind : String}

/-- The text of some lines. -/
def linesText (lines : List Line) : List Char := lines.flatMap fun line => line.render ++ ['\n']

theorem linesText_append {lines lines' : List Line} :
    linesText (lines ++ lines') = linesText lines ++ linesText lines' := List.flatMap_append

theorem linesText_flatMap {α : Type} {l : List α} {f : α → List Line} :
    linesText (l.flatMap f) = l.flatMap fun a => linesText (f a) := List.flatMap_assoc

theorem render_flag {b : Bool} (hkey : isBareKey key) :
    (Line.pair key (.flag b)).render ++ ['\n'] =
      key.toList ++ ' ' :: '=' :: ' ' :: ((boolText b).toList ++ ['\n']) := by
  rw [Line.render, toList_quoteTomlKey, if_pos hkey, Written.render, boolText]
  simp

theorem render_fields {pairs : List (String × String)} :
    (Line.pair key (.fields pairs)).render ++ ['\n'] = (quoteTomlKey key).toList ++
      " = \x7b ".toList ++ (", ".intercalate (pairs.map fun f =>
        f.1 ++ " = " ++ quoteTomlString f.2)).toList ++ " \x7d\n".toList := by
  rw [Line.render, Written.render, String.toList_intercalate, listed, Written.items, List.map_map,
    List.map_map]
  simp [Function.comp_def, toList_quoteTomlString]

theorem toList_emitTarget {header : String} {t : Target}
    (hheader : header.toList = '\n' :: ((Line.element kind).render ++ ['\n'])) :
    (emitTarget header t).flatMap String.toList =
      linesText (.blank :: (targetSection kind t).lines) := by
  simp only [emitTarget, targetSection, Section.lines, Section.header, linesText, List.flatMap_cons,
    List.map_cons, List.map_nil, List.flatMap_nil, hheader]
  rw [render_text (by decide), render_text (by decide)]
  simp [Line.render]

theorem toList_emitDependencySection {name : String} {dependencies : List Dependency} :
    (if dependencies.isEmpty then [] else "\n" :: emitDependencySection name dependencies).flatMap
      String.toList =
        linesText ((dependencySections name dependencies).flatMap fun s => .blank :: s.lines) := by
  rw [emitDependencySection, dependencySections]
  split
  · rfl
  · have hdependency : ∀ d, (emitDependency d).flatMap String.toList =
        (Line.pair d.aliasName (.fields (dependencyFields d))).render ++ ['\n'] := by
      intro d
      rw [render_fields]
      simp [emitDependency]
    simp only [linesText, Section.lines, Section.header, List.flatMap_cons, List.flatMap_nil,
      List.flatMap_append, List.flatMap_assoc, List.map_map, List.flatMap_map, Function.comp_def,
      hdependency]
    simp [Line.render]

theorem toList_emitPackage : (emitPackage p).flatMap String.toList =
    linesText ((packageSections p).flatMap fun s => .blank :: s.lines) := by
  have hlib : (match p.lib with
      | some lib => ["\n[lib]\n", "path = ", quoteTomlString lib.path, "\n"]
      | none => []).flatMap String.toList =
        linesText ((libSections p.lib).flatMap fun s => .blank :: s.lines) := by
    cases p.lib with
    | none => rfl
    | some lib =>
      simp only [libSections, Option.toList, List.map_cons, List.map_nil, List.flatMap_cons,
        List.flatMap_nil, linesText, Section.lines, Section.header, List.cons_append]
      rw [render_text (by decide)]
      simp [Line.render]
  have htargets : ∀ (header kind : String) (targets : List Target),
      header.toList = '\n' :: ((Line.element kind).render ++ ['\n']) →
      (targets.flatMap (emitTarget header)).flatMap String.toList =
        linesText ((targets.map (targetSection kind)).flatMap fun s => .blank :: s.lines) := by
    intro header kind targets hheader
    rw [linesText_flatMap, List.flatMap_map, List.flatMap_assoc]
    exact List.flatMap_congr fun t _ => toList_emitTarget hheader
  simp only [emitPackage, packageSections, List.flatMap_append, linesText_append, hlib,
    htargets "\n[[bin]]\n" "bin" _ rfl, htargets "\n[[test]]\n" "test" _ rfl,
    toList_emitDependencySection]
  simp only [linesText, packageSection, toolchainSection, Section.lines, Section.header,
    List.flatMap_cons, List.flatMap_nil, List.map_cons, List.map_nil, List.cons_append,
    List.append_nil, List.nil_append]
  rw [render_text (by decide), render_text (by decide), render_text (by decide),
    render_flag (by decide), render_text (by decide), render_flag (by decide)]
  simp [Line.render]

theorem toList_emitWorkspace : (emitWorkspace w).flatMap String.toList =
    linesText (.blank :: (workspaceSection w).lines) := by
  have hexclude : (if w.exclude.isEmpty then [] else emitStringArray "exclude" w.exclude).flatMap
      String.toList = linesText ((if w.exclude.isEmpty then [] else
        [("exclude", Written.texts w.exclude)]).map fun p => Line.pair p.1 p.2) := by
    split
    · rfl
    · simp only [linesText, List.map_cons, List.map_nil, List.flatMap_cons, List.flatMap_nil]
      rw [render_texts (by decide)]
      simp [emitStringArray]
  simp only [emitWorkspace, List.flatMap_append, hexclude, workspaceSection, Section.lines,
    Section.header, List.map_append, List.map_cons, List.map_nil, linesText, List.flatMap_cons,
    List.flatMap_nil]
  rw [render_texts (by decide), render_text (by decide)]
  simp [emitStringArray, Line.render]

theorem serializeManifestCanonical_eq :
    serializeManifestCanonical m = documentText (manifestLines m) := by
  have hpackage : (m.package.toList.flatMap emitPackage).flatMap String.toList =
      linesText ((m.package.toList.flatMap packageSections).flatMap fun s => .blank :: s.lines) := by
    rw [List.flatMap_assoc, List.flatMap_assoc, linesText_flatMap]
    exact List.flatMap_congr fun p _ => toList_emitPackage
  have hworkspace : (m.workspace.toList.flatMap emitWorkspace).flatMap String.toList =
      linesText ((m.workspace.toList.map workspaceSection).flatMap fun s => .blank :: s.lines) := by
    rw [List.flatMap_assoc, List.flatMap_map, linesText_flatMap]
    exact List.flatMap_congr fun w _ => toList_emitWorkspace
  have hspio : ["[spio]\n", "manifest-version = 1\n"].flatMap String.toList =
      linesText spioSection.lines := rfl
  have htext : (documentText (manifestLines m)).toList = linesText (manifestLines m) :=
    String.toList_ofList
  apply String.toList_injective
  rw [htext, manifestLines, manifestSections, List.flatMap_append, linesText_append,
    linesText_append, ← hpackage, ← hworkspace, ← hspio, serializeManifestCanonical,
    String.toList_join, List.flatMap_append, List.flatMap_append, List.append_assoc]

end Sections

end StyioPlatform.Manifest
