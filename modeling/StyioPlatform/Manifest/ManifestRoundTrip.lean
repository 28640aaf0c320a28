import StyioPlatform.Manifest.Canonical

/-! When a manifest is loaded again as it was written. -/
namespace StyioPlatform.Manifest

/-- The entries of tables are in the order of their keys, each once. -/
inductive Toml.Ordered : Toml → Prop where
  | string (value : String) : Ordered (.string value)
  | integer (value : Int) : Ordered (.integer value)
  | float (integral : Option Int) : Ordered (.float integral)
  | boolean (value : Bool) : Ordered (.boolean value)
  | time : Ordered .time
  | array {elements : List Toml} : (∀ x ∈ elements, Ordered x) → Ordered (.array elements)
  | table {entries : Table} : entries.Pairwise (·.1 < ·.1) → (∀ x ∈ entries, Ordered x.2) →
      Ordered (.table entries)

/-- The manifests that `LoadManifest` can return. -/
def LoadedManifest (m : ManifestDocument) : Prop :=
  ∃ doc, (Toml.table doc).Ordered ∧ parseManifest doc = .ok m

/-- The written text loads as the canonical manifest, which is written as the same text. -/
def ManifestRoundTrips (parse : String → Option Table) (manifestPath : String)
    (m : ManifestDocument) : Prop :=
  loadManifest parse manifestPath (serializeManifestCanonical m) = .ok (canonicalManifest m) ∧
    serializeManifestCanonical (canonicalManifest m) = serializeManifestCanonical m

def dependencyStrings (d : Dependency) : List String :=
  [d.aliasName, d.source] ++ d.package.toList ++ d.rev.toList ++ d.version.toList

def packageStrings (p : PackageConfig) : List String :=
  [p.name, p.version, p.edition, p.toolchain.channel] ++ p.lib.toList.map (·.path) ++
    (p.bins ++ p.tests).flatMap (fun t => [t.name, t.path]) ++
    (p.dependencies ++ p.devDependencies).flatMap dependencyStrings

def workspaceStrings (w : WorkspaceConfig) : List String := w.resolver :: w.members ++ w.exclude

/-- No string of the manifest has a control character. -/
def CleanManifest (m : ManifestDocument) : Prop :=
  ∀ s ∈ m.package.toList.flatMap packageStrings ++ m.workspace.toList.flatMap workspaceStrings,
    IsClean s.toList

instance {m : ManifestDocument} : Decidable (CleanManifest m) :=
  inferInstanceAs (Decidable (∀ s ∈ m.package.toList.flatMap packageStrings ++
    m.workspace.toList.flatMap workspaceStrings, IsClean s.toList))

section Dependencies

variable {d : Dependency}

theorem fits_dependencyFields : (Written.fields (dependencyFields d)).Fits := by
  obtain ⟨aliasName, package, kind, source, rev, version⟩ := d
  refine ⟨?_, ?_, ?_⟩
  · cases package <;> cases kind <;> simp [dependencyFields] <;> decide
  · cases package <;> cases kind <;> simp [dependencyFields]
  · cases package <;> cases kind <;> simp [dependencyFields]

theorem clean_dependencyFields (hvalid : ValidDependency d) :
    (IsClean d.aliasName.toList ∧ (Written.fields (dependencyFields d)).Clean) ↔
      ∀ s ∈ dependencyStrings d, IsClean s.toList := by
  have hsource := hvalid.source
  obtain ⟨aliasName, package, kind, source, rev, version⟩ := d
  simp only [Written.Clean, Written.strings, dependencyFields, dependencyStrings, List.forall_mem_map,
    List.forall_mem_append, List.forall_mem_cons]
  cases kind with
  | path =>
    obtain ⟨-, rfl, rfl⟩ := hsource
    simp only [List.forall_mem_cons, Option.toList_none, List.not_mem_nil, false_imp_iff,
      implies_true, and_true]
    tauto
  | git =>
    obtain ⟨-, ⟨rev', -, rfl⟩, rfl⟩ := hsource
    simp only [List.forall_mem_cons, Option.toList_none, Option.toList_some, Option.getD_some,
      List.not_mem_nil, false_imp_iff, implies_true, and_true]
    tauto
  | registry =>
    obtain ⟨-, ⟨version', rfl, -⟩, -, rfl⟩ := hsource
    simp only [List.forall_mem_cons, Option.toList_none, Option.toList_some, Option.getD_some,
      List.not_mem_nil, false_imp_iff, implies_true, and_true]
    tauto

/-- What an inline table has for a key is the field that is written for it. -/
theorem lookup_fields {fields : List (String × String)} (hnodup : (fields.map (·.1)).Nodup) :
    ∃ t, (Written.fields fields).toml.asTable = some t ∧
      ∀ key, t.lookup key = (fields.lookup key).map Toml.string := by
  have hfold : ∀ t : Table, (fields.map fun p => (p.1, Toml.string p.2)).foldl
      (fun t p => setKey t p.1 p.2) t =
        (fields.map fun p => (p.1, Written.text p.2)).foldl (fun t p => setKey t p.1 p.2.toml) t := by
    intro t
    rw [List.foldl_map, List.foldl_map]
    rfl
  have hlookup : ∀ key, (fields.map fun p => (p.1, Written.text p.2)).lookup key =
      (fields.lookup key).map Written.text := by
    intro key
    induction fields with
    | nil => rfl
    | cons p fields ih =>
      rw [List.map_cons, List.nodup_cons] at hnodup
      rw [List.map_cons, List.lookup_cons, List.lookup_cons]
      cases key == p.1 with
      | true => rfl
      | false => exact ih hnodup.2 (fun t => by rw [List.foldl_map, List.foldl_map]; rfl)
  refine ⟨_, rfl, fun key => ?_⟩
  rw [lookup_eq_getKey, hfold, getKey_foldl_setKey (by rwa [List.map_map]), hlookup]
  cases fields.lookup key <;> rfl

/-- A dependency is loaded as it is written. -/
theorem parseDependency_fields {tableName : String} (hvalid : ValidDependency d) :
    parseDependency tableName (d.aliasName, (Written.fields (dependencyFields d)).toml) =
      .ok d := by
  obtain ⟨t, ht, hlookup⟩ := lookup_fields (fits_dependencyFields (d := d)).2.1
  have hsource := hvalid.source
  have hname := hvalid.package
  obtain ⟨aliasName, package, kind, source, rev, version⟩ := d
  have hpackage : optionalString t "package" = package := by
    apply optionalString_eq
    rw [hlookup]
    cases package <;> cases kind <;> rfl
  rw [parseDependency_eq_ok]
  refine ⟨t, ht, ?_, by rwa [hpackage], ?_⟩
  · cases package <;> cases kind <;> simp [sourceKinds, hlookup, dependencyFields, List.lookup_cons, List.lookup_nil]
  · rw [hpackage, parseSource]
    cases kind with
    | path =>
      have hpath : t.lookup "path" = some (.string source) := by
        rw [hlookup]
        cases package <;> rfl
      obtain ⟨hrelative, rfl, rfl⟩ := hsource
      rw [hpath]
      refine bind_ok_iff.mpr ⟨source, requireString_eq hpath, ?_⟩
      exact bind_ok_iff.mpr ⟨(), check_eq_ok.mpr hrelative, rfl⟩
    | git =>
      obtain ⟨hne, ⟨rev', hrev, rfl⟩, rfl⟩ := hsource
      have hpath : t.lookup "path" = none := by
        rw [hlookup]
        cases package <;> rfl
      have hgit : t.lookup "git" = some (.string source) := by
        rw [hlookup]
        cases package <;> rfl
      have hrev' : t.lookup "rev" = some (.string rev') := by
        rw [hlookup]
        cases package <;> rfl
      rw [hpath, hgit]
      refine bind_ok_iff.mpr ⟨source, requireString_eq hgit, ?_⟩
      refine bind_ok_iff.mpr ⟨(), check_eq_ok.mpr (decide_eq_true hne), ?_⟩
      refine bind_ok_iff.mpr ⟨rev', requireString_eq hrev', ?_⟩
      exact bind_ok_iff.mpr ⟨(), check_eq_ok.mpr (decide_eq_true hrev), rfl⟩
    | registry =>
      obtain ⟨hsome, ⟨version', rfl, hsemver⟩, hurl, rfl⟩ := hsource
      have hpath : t.lookup "path" = none := by
        rw [hlookup]
        cases package <;> rfl
      have hgit : t.lookup "git" = none := by
        rw [hlookup]
        cases package <;> rfl
      have hversion : t.lookup "version" = some (.string version') := by
        rw [hlookup]
        cases package <;> rfl
      have hregistry : t.lookup "registry" = some (.string source) := by
        rw [hlookup]
        cases package <;> rfl
      rw [hpath, hgit]
      refine bind_ok_iff.mpr ⟨(), check_eq_ok.mpr hsome, ?_⟩
      refine bind_ok_iff.mpr ⟨version', requireString_eq hversion, ?_⟩
      refine bind_ok_iff.mpr ⟨(), check_eq_ok.mpr hsemver, ?_⟩
      refine bind_ok_iff.mpr ⟨source, requireString_eq hregistry, ?_⟩
      exact bind_ok_iff.mpr ⟨(), check_eq_ok.mpr hurl, rfl⟩

end Dependencies

section Sections

variable {m : ManifestDocument} {p : PackageConfig} {w : WorkspaceConfig} {s : Section}
  {name kind : String} {dependencies : List Dependency} {targets : List Target}

/-- A section with a bare name, and values that can be written. -/
def FitsSection (s : Section) : Prop := isBareKey s.name ∧ ∀ x ∈ s.pairs, x.2.Fits

theorem mem_sortedDependencies {d : Dependency} :
    d ∈ sortedDependencies dependencies ↔ d ∈ dependencies := by
  simp [sortedDependencies]

theorem mem_sortedTargets {t : Target} : t ∈ sortedTargets targets ↔ t ∈ targets := by
  simp [sortedTargets]

theorem fits_dependencySections (hname : isBareKey name) :
    ∀ s ∈ dependencySections name dependencies, FitsSection s := by
  intro s hs
  rw [dependencySections] at hs
  split at hs
  · cases hs
  · rw [List.mem_singleton.mp hs]
    refine ⟨hname, fun x hx => ?_⟩
    obtain ⟨d, -, rfl⟩ := List.mem_map.mp hx
    exact fits_dependencyFields

theorem fits_manifestSections : ∀ s ∈ spioSection :: manifestSections m, FitsSection s := by
  have hnames : isBareKey "package" ∧ isBareKey "toolchain" ∧ isBareKey "lib" ∧
      isBareKey "workspace" := by decide
  have htarget : ∀ kind t, isBareKey kind → FitsSection (targetSection kind t) := by
    intro kind t hkind
    exact ⟨hkind, by simp [targetSection, Written.Fits]⟩
  have hpackage : ∀ p, ∀ s ∈ packageSections p, FitsSection s := by
    intro p s hs
    simp only [packageSections, libSections, List.mem_append, List.mem_cons, List.not_mem_nil,
      or_false, List.mem_map] at hs
    rcases hs with (((((rfl | rfl) | ⟨lib, -, rfl⟩) | ⟨t, -, rfl⟩) | ⟨t, -, rfl⟩) | hs) | hs
    · exact ⟨hnames.1, by simp [packageSection, Written.Fits]⟩
    · exact ⟨hnames.2.1, by simp [toolchainSection, Written.Fits]⟩
    · exact ⟨hnames.2.2.1, by simp [Written.Fits]⟩
    · exact htarget _ t (by decide)
    · exact htarget _ t (by decide)
    · exact fits_dependencySections (by decide) s hs
    · exact fits_dependencySections (by decide) s hs
  have hworkspace : ∀ w, FitsSection (workspaceSection w) := by
    intro w
    refine ⟨hnames.2.2.2, ?_⟩
    rw [workspaceSection]
    cases w.exclude.isEmpty <;> simp [Written.Fits]
  intro s hs
  rcases List.mem_cons.mp hs with rfl | hs
  · exact ⟨by decide, by simp [spioSection, Written.Fits]⟩
  · rcases List.mem_append.mp hs with hs | hs
    · obtain ⟨p, -, hs⟩ := List.mem_flatMap.mp hs
      exact hpackage p s hs
    · obtain ⟨w, -, rfl⟩ := List.mem_map.mp hs
      exact hworkspace w

theorem fits_manifestLines : ∀ line ∈ manifestLines m, line.Fits := by
  intro line hline
  rcases List.mem_append.mp hline with hline | hline
  · have hfits := fits_manifestSections (m := m) spioSection List.mem_cons_self
    exact fits_lines hfits.1 hfits.2 line hline
  · obtain ⟨s, hs, hline⟩ := List.mem_flatMap.mp hline
    rcases List.mem_cons.mp hline with rfl | hline
    · exact trivial
    · have hfits := fits_manifestSections (m := m) s (List.mem_cons_of_mem _ hs)
      exact fits_lines hfits.1 hfits.2 line hline

/-- No string of the section has a control character. -/
def CleanSection (s : Section) : Prop := ∀ x ∈ s.pairs, IsClean x.1.toList ∧ x.2.Clean

theorem clean_dependencySections (hvalid : ∀ d ∈ dependencies, ValidDependency d) :
    (∀ s ∈ dependencySections name dependencies, CleanSection s) ↔
      ∀ d ∈ dependencies, ∀ s ∈ dependencyStrings d, IsClean s.toList := by
  rw [dependencySections]
  split
  · next h =>
    rw [List.isEmpty_iff] at h
    subst h
    exact iff_of_true (List.forall_mem_nil _) (List.forall_mem_nil _)
  · rw [List.forall_mem_singleton, CleanSection, List.forall_mem_map]
    simp only [mem_sortedDependencies]
    exact forall₂_congr fun d hd => clean_dependencyFields (hvalid d hd)

theorem clean_packageSections (hvalid : ValidPackage p) :
    (∀ s ∈ packageSections p, CleanSection s) ↔ ∀ s ∈ packageStrings p, IsClean s.toList := by
  have hkeys : IsClean "name".toList ∧ IsClean "version".toList ∧ IsClean "edition".toList ∧
      IsClean "publish".toList ∧ IsClean "channel".toList ∧ IsClean "implicit-std".toList ∧
      IsClean "path".toList := by decide
  have hflag : ∀ b, (Written.flag b).Clean := fun _ => nofun
  simp only [packageSections, libSections, packageStrings, List.forall_mem_append,
    List.forall_mem_cons,
    List.forall_mem_map, List.forall_mem_flatMap, clean_dependencySections hvalid.dependencies,
    clean_dependencySections hvalid.devDependencies, mem_sortedTargets]
  simp only [CleanSection, packageSection, toolchainSection, targetSection, List.forall_mem_cons,
    Written.clean_text, hflag, hkeys, List.not_mem_nil, false_imp_iff, implies_true, true_and,
    and_true, and_assoc]

theorem clean_workspaceSection :
    CleanSection (workspaceSection w) ↔ ∀ s ∈ workspaceStrings w, IsClean s.toList := by
  have hkeys : IsClean "members".toList ∧ IsClean "exclude".toList ∧ IsClean "resolver".toList := by
    decide
  have htexts : ∀ values, (Written.texts values).Clean ↔ ∀ s ∈ values, IsClean s.toList :=
    fun _ => Iff.rfl
  have hexclude : (∀ x ∈ if w.exclude.isEmpty then [] else [("exclude", Written.texts w.exclude)],
      IsClean x.1.toList ∧ x.2.Clean) ↔ ∀ s ∈ w.exclude, IsClean s.toList := by
    split
    · next h =>
      rw [List.isEmpty_iff.mp h]
      exact ⟨nofun, nofun⟩
    · rw [List.forall_mem_singleton, htexts, and_iff_right hkeys.2.1]
  simp only [CleanSection, workspaceSection, workspaceStrings, List.forall_mem_append, hexclude,
    List.forall_mem_cons, Written.clean_text, htexts, hkeys, List.not_mem_nil, false_imp_iff,
    implies_true, true_and, and_true]
  tauto

theorem clean_manifestLines (hvalid : ValidManifest m) :
    (∀ line ∈ manifestLines m, line.Clean) ↔ CleanManifest m := by
  have hspio : ∀ line ∈ spioSection.lines, line.Clean := by
    rw [clean_lines]
    intro x hx
    rw [List.mem_singleton.mp hx]
    exact ⟨by decide, nofun⟩
  have hsections : (∀ line ∈ (manifestSections m).flatMap fun s => .blank :: s.lines, line.Clean) ↔
      ∀ s ∈ manifestSections m, CleanSection s := by
    rw [List.forall_mem_flatMap]
    refine forall₂_congr fun s _ => ?_
    rw [List.forall_mem_cons, clean_lines]
    exact and_iff_right trivial
  have hpackage : (∀ s ∈ m.package.toList.flatMap packageSections, CleanSection s) ↔
      ∀ s ∈ m.package.toList.flatMap packageStrings, IsClean s.toList := by
    rw [List.forall_mem_flatMap, List.forall_mem_flatMap]
    exact forall₂_congr fun p hp =>
      clean_packageSections (hvalid.package p (Option.mem_toList.mp hp))
  have hworkspace : (∀ s ∈ m.workspace.toList.map workspaceSection, CleanSection s) ↔
      ∀ s ∈ m.workspace.toList.flatMap workspaceStrings, IsClean s.toList := by
    rw [List.forall_mem_map, List.forall_mem_flatMap]
    exact forall₂_congr fun w _ => clean_workspaceSection
  rw [manifestLines, List.forall_mem_append, and_iff_right hspio, hsections, manifestSections,
    List.forall_mem_append, hpackage, hworkspace, CleanManifest, List.forall_mem_append]

end Sections

section Tables

variable {m : ManifestDocument} {p : PackageConfig} {w : WorkspaceConfig} {name : String}
  {dependencies : List Dependency}

/-- Aliases in the order of a table. -/
def OrderedAliases (dependencies : List Dependency) : Prop :=
  dependencies.Pairwise (·.aliasName < ·.aliasName)

theorem sortedDependencies_eq (h : OrderedAliases dependencies) :
    sortedDependencies dependencies = dependencies :=
  List.Pairwise.insertionSort_eq (h.imp le_of_lt)

theorem map_aliasName {l : Table} (h : l.mapM (parseDependency name) = .ok dependencies) :
    dependencies.map (·.aliasName) = l.map (·.1) := by
  induction l generalizing dependencies with
  | nil =>
    cases h
    rfl
  | cons x l ih =>
    rw [List.mapM_cons] at h
    obtain ⟨d, hd, h⟩ := bind_ok_iff.mp h
    obtain ⟨more, hmore, h⟩ := bind_ok_iff.mp h
    cases h
    rw [List.map_cons, List.map_cons, ih hmore, (parseDependency_ok hd).1]

theorem orderedAliases_of_parse {doc : Table} (hdoc : (Toml.table doc).Ordered)
    (h : parseDependencies doc name = .ok dependencies) : OrderedAliases dependencies := by
  unfold parseDependencies at h
  split at h
  · cases h
    exact List.Pairwise.nil
  · next entries hentries =>
    have hordered : entries.Pairwise (·.1 < ·.1) := by
      obtain ⟨value, hvalue, hentries⟩ := Option.bind_eq_some_iff.mp hentries
      cases value with
      | table t =>
        cases hentries
        cases hdoc with
        | table _ hmembers =>
          have hmem : (name, Toml.table entries) ∈ doc := by
            obtain ⟨before, after, hdoc, -⟩ := List.lookup_eq_some_iff.mp hvalue
            rw [hdoc]
            exact List.mem_append_right before List.mem_cons_self
          cases hmembers _ hmem with
          | table hpairwise _ => exact hpairwise
      | _ => cases hentries
    have hnames := List.pairwise_map.mpr hordered
    rw [← map_aliasName h] at hnames
    exact List.pairwise_map.mp hnames

/-- What is known of a manifest that has been loaded. -/
structure Loaded (m : ManifestDocument) : Prop where
  valid : ValidManifest m
  dependencies : ∀ p, m.package = some p → OrderedAliases p.dependencies
  devDependencies : ∀ p, m.package = some p → OrderedAliases p.devDependencies

theorem loaded_of_loadedManifest (h : LoadedManifest m) : Loaded m := by
  obtain ⟨doc, hdoc, hparse⟩ := h
  have hpackage := (parseManifest_ok hparse).1
  refine ⟨valid_of_parseManifest hparse, fun p hp => ?_, fun p hp => ?_⟩
  · obtain ⟨table, hparses⟩ := parsePackage_eq_ok.mp (hpackage p hp)
    exact orderedAliases_of_parse hdoc hparses.dependencies
  · obtain ⟨table, hparses⟩ := parsePackage_eq_ok.mp (hpackage p hp)
    exact orderedAliases_of_parse hdoc hparses.devDependencies

theorem arranged_dependencySections (h : OrderedAliases dependencies) :
    ArrangedIn [name] (dependencySections name dependencies) := by
  rw [dependencySections]
  split
  · exact ArrangedIn.nil
  · refine ArrangedIn.singleton rfl ?_
    rw [sortedDependencies_eq h, List.map_map]
    exact (List.pairwise_map.mpr h).imp ne_of_lt

theorem arranged_targetSections (kind : String) (targets : List Target) :
    ArrangedIn [kind] (targets.map (targetSection kind)) := by
  refine ArrangedIn.of_repeated fun s hs => ?_
  obtain ⟨t, -, rfl⟩ := List.mem_map.mp hs
  exact ⟨rfl, rfl, by simp [targetSection]⟩

theorem arranged_libSections (lib : Option LibTarget) : ArrangedIn ["lib"] (libSections lib) := by
  cases lib with
  | none => exact ArrangedIn.nil
  | some lib => exact ArrangedIn.singleton rfl (by simp)

def packageNames : List String :=
  ["package", "toolchain", "lib", "bin", "test", "dependencies", "dev-dependencies"]

theorem arranged_packageSections (hdependencies : OrderedAliases p.dependencies)
    (hdevDependencies : OrderedAliases p.devDependencies) :
    ArrangedIn packageNames (packageSections p) := by
  have hpackage : ArrangedIn ["package"] [packageSection p] :=
    ArrangedIn.singleton rfl (by simp [packageSection])
  have htoolchain : ArrangedIn ["toolchain"] [toolchainSection p.toolchain] :=
    ArrangedIn.singleton rfl (by simp [toolchainSection])
  have hlib := (hpackage.append htoolchain (by decide)).append (arranged_libSections p.lib)
    (by decide)
  have htargets := (hlib.append (arranged_targetSections "bin"
    (sortedTargets p.bins)) (by decide)).append (arranged_targetSections "test"
      (sortedTargets p.tests)) (by decide)
  exact (htargets.append (arranged_dependencySections hdependencies) (by decide)).append
    (arranged_dependencySections hdevDependencies) (by decide)

theorem arranged_sections (hm : Loaded m) :
    ArrangedIn (packageNames ++ ["workspace"]) (manifestSections m) := by
  have hpackage : ArrangedIn packageNames (m.package.toList.flatMap packageSections) := by
    cases hp : m.package with
    | none => exact ArrangedIn.nil
    | some p =>
      rw [Option.toList_some, List.flatMap_singleton]
      exact arranged_packageSections (hm.dependencies p hp) (hm.devDependencies p hp)
  have hworkspace : ArrangedIn ["workspace"] (m.workspace.toList.map workspaceSection) := by
    cases m.workspace with
    | none => exact ArrangedIn.nil
    | some w =>
      refine ArrangedIn.singleton rfl ?_
      rw [workspaceSection]
      cases w.exclude.isEmpty <;> simp
  exact hpackage.append hworkspace (by decide)

theorem arranged_manifestSections (hm : Loaded m) : Arranged (spioSection :: manifestSections m) := by
  have hspio : ArrangedIn ["spio"] [spioSection] :=
    ArrangedIn.singleton rfl (by simp [spioSection])
  exact (hspio.append (arranged_sections hm) (by decide)).arranged

/-- The document that the parser makes of a manifest. -/
def manifestTable (m : ManifestDocument) : Table :=
  (spioSection :: manifestSections m).foldl Section.fill []

theorem readToml_manifestLines (hm : Loaded m) (hclean : ∀ line ∈ manifestLines m, line.Clean) :
    readToml (documentText (manifestLines m)) = some (manifestTable m) := by
  have hassemble := assemble_sections [] List.nodup_nil
    (arranged_manifestSections hm) nofun
  rw [readToml_documentText fits_manifestLines hclean, manifestLines, List.filterMap_append,
    filterMap_blank, ← List.filterMap_append]
  exact hassemble

/-- Only sections of the name are looked up. -/
theorem lookup_manifestTable : (manifestTable m).lookup name = getKey
    (((spioSection :: manifestSections m).filter (·.name = name)).foldl Section.fill []) name := by
  rw [lookup_eq_getKey, manifestTable]
  exact getKey_foldl_fill_filter rfl

theorem ArrangedIn.filter {part : List Section} {n : String} (h : ArrangedIn [n] part) :
    part.filter (·.name = name) = if n = name then part else [] := by
  split
  · next heq =>
    rw [List.filter_eq_self]
    intro s hs
    rw [List.mem_singleton.mp (h.names s hs), heq, decide_eq_true rfl]
  · next hne =>
    rw [List.filter_eq_nil_iff]
    intro s hs
    rw [List.mem_singleton.mp (h.names s hs), decide_eq_true_eq]
    exact hne

/-- The sections of a package that have a name. -/
theorem filter_packageSections (hdependencies : OrderedAliases p.dependencies)
    (hdevDependencies : OrderedAliases p.devDependencies) :
    (packageSections p).filter (·.name = name) =
      (if "package" = name then [packageSection p] else []) ++
      (if "toolchain" = name then [toolchainSection p.toolchain] else []) ++
      (if "lib" = name then libSections p.lib else []) ++
      (if "bin" = name then (sortedTargets p.bins).map (targetSection "bin") else []) ++
      (if "test" = name then (sortedTargets p.tests).map (targetSection "test") else []) ++
      (if "dependencies" = name then dependencySections "dependencies" p.dependencies else []) ++
      (if "dev-dependencies" = name then
        dependencySections "dev-dependencies" p.devDependencies else []) := by
  have hpackage : ArrangedIn ["package"] [packageSection p] :=
    ArrangedIn.singleton rfl (by simp [packageSection])
  have htoolchain : ArrangedIn ["toolchain"] [toolchainSection p.toolchain] :=
    ArrangedIn.singleton rfl (by simp [toolchainSection])
  rw [packageSections, List.filter_append, List.filter_append, List.filter_append,
    List.filter_append, List.filter_append, ← List.singleton_append, List.filter_append,
    hpackage.filter, htoolchain.filter, (arranged_libSections _).filter,
    (arranged_targetSections _ _).filter, (arranged_targetSections _ _).filter,
    (arranged_dependencySections hdependencies).filter,
    (arranged_dependencySections hdevDependencies).filter]

/-- What a manifest with a package has for a name that is one of a package's sections. -/
theorem lookup_package (hp : m.package = some p) (hname : name ∈ packageNames) :
    (manifestTable m).lookup name =
      getKey (((packageSections p).filter (·.name = name)).foldl Section.fill []) name := by
  have hspio : "spio" ≠ name := by
    rintro rfl
    exact absurd hname (by decide)
  have hworkspace : "workspace" ≠ name := by
    rintro rfl
    exact absurd hname (by decide)
  have hmanifest : (spioSection :: manifestSections m).filter (·.name = name) =
      (packageSections p).filter (·.name = name) := by
    rw [List.filter_cons_of_neg (by rwa [decide_eq_true_eq]), manifestSections,
      List.filter_append, hp, Option.toList_some, List.flatMap_singleton]
    cases m.workspace <;> simp [workspaceSection, hworkspace]
  rw [lookup_manifestTable, hmanifest]

theorem getKey_fill_table {s : Section} {root : Table} (hs : s.repeated = false)
    (hname : s.name = name) : getKey (s.fill root) name = some (.table s.table) := by
  rw [Section.fill, getKey_setKey, if_pos hname.symm, hs]
  rfl

theorem lookup_spio (hm : Loaded m) :
    (manifestTable m).lookup "spio" = some (.table spioSection.table) := by
  rw [lookup_eq_getKey, manifestTable, List.foldl_cons, getKey_foldl_fill_of_ne]
  · exact getKey_fill_table rfl rfl
  · intro s hs heq
    exact absurd (heq ▸ (arranged_sections hm).names s hs) (by decide)

/-- A manifest has no section of a package that it does not have. -/
theorem lookup_package_none (hp : m.package = none) :
    (manifestTable m).lookup "package" = none := by
  rw [lookup_manifestTable, manifestSections, hp]
  cases m.workspace <;> simp [workspaceSection, spioSection, getKey]

theorem lookup_workspace (hm : Loaded m) : (manifestTable m).lookup "workspace" =
    m.workspace.map fun w => .table (workspaceSection w).table := by
  have hpackage : (m.package.toList.flatMap packageSections).filter (·.name = "workspace") = [] := by
    cases hp : m.package with
    | none => rfl
    | some p =>
      rw [Option.toList_some, List.flatMap_singleton,
        filter_packageSections (hm.dependencies p hp) (hm.devDependencies p hp)]
      simp
  rw [lookup_manifestTable, manifestSections, List.filter_cons_of_neg (by simp [spioSection]),
    List.filter_append, hpackage, List.nil_append]
  cases m.workspace with
  | none => rfl
  | some w => exact getKey_fill_table rfl rfl

/-- The sections of one name that a package has, by the name. -/
theorem lookup_part (hp : m.package = some p) (hname : name ∈ packageNames)
    (part : List Section) (hpart : (packageSections p).filter (·.name = name) = part) :
    (manifestTable m).lookup name = getKey (part.foldl Section.fill []) name := by
  rw [lookup_package hp hname, hpart]

theorem parseLib_manifestTable (hm : Loaded m) (hp : m.package = some p) :
    parseLib (manifestTable m) = .ok p.lib := by
  have hvalid := (hm.valid.package p hp).lib
  have hlookup : (manifestTable m).lookup "lib" = p.lib.map fun lib =>
      .table (Section.mk "lib" false [("path", .text lib.path)]).table := by
    rw [lookup_part hp (by decide) (libSections p.lib)]
    · cases p.lib with
      | none => rfl
      | some lib => exact getKey_fill_table rfl rfl
    · rw [filter_packageSections (hm.dependencies p hp) (hm.devDependencies p hp)]
      simp
  rw [parseLib, hlookup]
  cases hlib : p.lib with
  | none => rfl
  | some lib =>
    have hpath : (Section.mk "lib" false [("path", .text lib.path)]).table.lookup "path" =
        some (.string lib.path) := lookup_table (by simp)
    refine bind_ok_iff.mpr ⟨lib.path, requireString_eq hpath, ?_⟩
    exact bind_ok_iff.mpr ⟨(), check_eq_ok.mpr (hvalid lib hlib), rfl⟩

theorem parseToolchain_manifestTable (hm : Loaded m) (hp : m.package = some p) :
    parseToolchain (manifestTable m) = .ok p.toolchain := by
  have hlookup : (manifestTable m).lookup "toolchain" =
      some (.table (toolchainSection p.toolchain).table) := by
    rw [lookup_part hp (by decide) [toolchainSection p.toolchain]]
    · exact getKey_fill_table rfl rfl
    · rw [filter_packageSections (hm.dependencies p hp) (hm.devDependencies p hp)]
      simp
  have hkeys : ((toolchainSection p.toolchain).pairs.map (·.1)).Nodup := by simp [toolchainSection]
  have hstd : optionalBool (toolchainSection p.toolchain).table "implicit-std" =
      some p.toolchain.implicitStd := optionalBool_eq (lookup_table hkeys)
  have hchannel := (hm.valid.package p hp).channel
  rw [parseToolchain]
  refine bind_ok_iff.mpr ⟨_, requireTable_eq hlookup, ?_⟩
  refine bind_ok_iff.mpr ⟨p.toolchain.channel, requireString_eq (lookup_table hkeys), ?_⟩
  refine bind_ok_iff.mpr ⟨(), check_eq_ok.mpr (decide_eq_true hchannel), ?_⟩
  rw [hstd]
  rfl

/-- A target is loaded as it is written, if its name is new. -/
theorem parseTarget_eq {kind : String} {before : List Target} {t : Target} (hname : t.name ≠ "")
    (hpath : isNonEmptyRelativePath t.path = true) (hnew : ∀ u ∈ before, u.name ≠ t.name) :
    parseTarget kind before (.table (targetSection kind t).table) = .ok (before ++ [t]) := by
  have hkeys : ((targetSection kind t).pairs.map (·.1)).Nodup := by simp [targetSection]
  have hall : before.all (fun u => u.name ≠ t.name) = true :=
    List.all_eq_true.mpr fun u hu => decide_eq_true (hnew u hu)
  rw [parseTarget]
  refine bind_ok_iff.mpr ⟨t.name, requireString_eq (lookup_table hkeys), ?_⟩
  refine bind_ok_iff.mpr ⟨t.path, requireString_eq (lookup_table hkeys), ?_⟩
  refine bind_ok_iff.mpr ⟨(), check_eq_ok.mpr (decide_eq_true hname), ?_⟩
  refine bind_ok_iff.mpr ⟨(), check_eq_ok.mpr hpath, ?_⟩
  exact bind_ok_iff.mpr ⟨(), check_eq_ok.mpr hall, rfl⟩

/-- Targets are loaded as they are written, if their names are their own. -/
theorem parseTargets_eq {doc : Table} {kind : String} {targets : List Target}
    (hvalid : ValidTargets targets) (hlookup : doc.lookup kind =
      if targets = [] then none
      else some (.array (targets.map fun t => .table (targetSection kind t).table))) :
    parseTargets kind doc = .ok targets := by
  have hrun : ∀ before rest, before ++ rest = targets →
      (rest.map fun t => Toml.table (targetSection kind t).table).foldlM (parseTarget kind) before =
        .ok (before ++ rest) := by
    intro before rest
    induction rest generalizing before with
    | nil =>
      intro _
      rw [List.append_nil]
      rfl
    | cons t rest ih =>
      intro htargets
      have ht := hvalid.valid t (htargets ▸ by simp)
      have hnew : ∀ u ∈ before, u.name ≠ t.name := by
        have hnodup := hvalid.nodup
        rw [← htargets, List.map_append, List.nodup_append] at hnodup
        intro u hu
        exact hnodup.2.2 _ (List.mem_map_of_mem hu) _ (by simp)
      rw [List.map_cons, List.foldlM_cons, parseTarget_eq ht.1 ht.2 hnew]
      refine (ih (before ++ [t]) (by simpa using htargets)).trans ?_
      simp
  rw [parseTargets, hlookup]
  by_cases hnil : targets = []
  · rw [if_pos hnil, hnil]
    rfl
  · rw [if_neg hnil]
    exact hrun [] targets rfl

theorem ValidTargets.sorted {targets : List Target} (h : ValidTargets targets) :
    ValidTargets (sortedTargets targets) where
  nodup := ((List.perm_insertionSort _ targets).map _).nodup_iff.mpr h.nodup
  valid t ht := h.valid t (mem_sortedTargets.mp ht)

/-- The targets of a kind are loaded from the sections of that name. -/
theorem parseTargets_manifestTable {kind : String} {targets : List Target}
    (hvalid : ValidTargets targets) (hlookup : (manifestTable m).lookup kind =
      getKey (((sortedTargets targets).map (targetSection kind)).foldl Section.fill []) kind) :
    parseTargets kind (manifestTable m) = .ok (sortedTargets targets) := by
  refine parseTargets_eq hvalid.sorted ?_
  rw [hlookup]
  split
  · next hnil =>
    rw [hnil]
    rfl
  · next hne =>
    rw [getKey_foldl_fill_repeated _ (by simpa using hne), List.map_map]
    · rfl
    · intro s hs
      obtain ⟨t, -, rfl⟩ := List.mem_map.mp hs
      exact ⟨rfl, rfl⟩

theorem parseBins_manifestTable (hm : Loaded m) (hp : m.package = some p) :
    parseBins (manifestTable m) = .ok (sortedTargets p.bins) := by
  refine parseTargets_manifestTable (hm.valid.package p hp).bins
    (lookup_part hp (by decide) _ ?_)
  rw [filter_packageSections (hm.dependencies p hp) (hm.devDependencies p hp)]
  simp

theorem parseTests_manifestTable (hm : Loaded m) (hp : m.package = some p) :
    parseTests (manifestTable m) = .ok (sortedTargets p.tests) := by
  refine parseTargets_manifestTable (hm.valid.package p hp).tests
    (lookup_part hp (by decide) _ ?_)
  rw [filter_packageSections (hm.dependencies p hp) (hm.devDependencies p hp)]
  simp

/-- Dependencies are loaded from the section of their name. -/
theorem parseDependencies_manifestTable (hordered : OrderedAliases dependencies)
    (hvalid : ∀ d ∈ dependencies, ValidDependency d) (hlookup : (manifestTable m).lookup name =
      getKey ((dependencySections name dependencies).foldl Section.fill []) name) :
    parseDependencies (manifestTable m) name = .ok (sortedDependencies dependencies) := by
  have hsection : (manifestTable m).lookup name = if dependencies = [] then none
      else some (.table (dependencies.map fun d =>
        (d.aliasName, (Written.fields (dependencyFields d)).toml))) := by
    rw [hlookup, dependencySections, sortedDependencies_eq hordered]
    by_cases hnil : dependencies = []
    · rw [if_pos hnil, if_pos (List.isEmpty_iff.mpr hnil)]
      rfl
    · have hpairs : (dependencies.map fun d => (d.aliasName,
          Written.fields (dependencyFields d))).Pairwise fun x y => x.1 < y.1 :=
        List.pairwise_map.mpr hordered
      rw [if_neg hnil, if_neg (by simpa using hnil), List.foldl_cons, List.foldl_nil,
        getKey_fill_table rfl rfl, Section.table, foldl_setKey_of_pairwise hpairs (by simp),
        List.nil_append, List.map_map]
      rfl
  rw [parseDependencies, hsection, sortedDependencies_eq hordered]
  by_cases hnil : dependencies = []
  · rw [if_pos hnil, hnil]
    rfl
  · rw [if_neg hnil]
    change (dependencies.map _).mapM (parseDependency name) = _
    rw [List.mapM_map]
    exact (mapM_eq_pure fun d hd => parseDependency_fields (hvalid d hd)).trans
      (congrArg _ (List.map_id dependencies))

theorem parseWorkspace_manifestTable (hm : Loaded m) (hw : m.workspace = some w) :
    parseWorkspace (manifestTable m) = .ok w := by
  have hvalid := hm.valid.workspace w hw
  have hlookup : (manifestTable m).lookup "workspace" = some (.table (workspaceSection w).table) := by
    rw [lookup_workspace hm, hw]
    rfl
  have hkeys : ((workspaceSection w).pairs.map (·.1)).Nodup := by
    rw [workspaceSection]
    cases w.exclude.isEmpty <;> simp
  have hmembers : (workspaceSection w).table.lookup "members" =
      some (.array (w.members.map .string)) := lookup_table hkeys
  have hexclude : (workspaceSection w).table.lookup "exclude" =
      if w.exclude = [] then none else some (.array (w.exclude.map .string)) := by
    rw [lookup_table hkeys, workspaceSection]
    cases w.exclude <;> rfl
  have hresolver : (workspaceSection w).table.lookup "resolver" = some (.string w.resolver) := by
    rw [lookup_table hkeys, workspaceSection]
    cases w.exclude <;> rfl
  have hforM : ∀ (context : String) (values : List String),
      (∀ v ∈ values, isNonEmptyRelativePath v = true) →
      (values.forM fun v => validateRelativePath v context) = .ok () := by
    intro context values hvalues
    induction values with
    | nil => rfl
    | cons v values ih =>
      refine bind_ok_iff.mpr ⟨(), check_eq_ok.mpr (hvalues v List.mem_cons_self), ?_⟩
      exact ih fun u hu => hvalues u (List.mem_cons_of_mem v hu)
  rw [parseWorkspace_eq_ok]
  refine ⟨_, w.members, w.exclude, requireTable_eq hlookup,
    requireStringArray_eq hmembers fun _ => hvalid.nonEmpty, ?_, ?_⟩
  · rw [hexclude]
    by_cases hnil : w.exclude = []
    · rw [if_pos hnil, hnil]
      rfl
    · rw [if_neg hnil]
      change requireStringArray _ _ _ _ = _
      exact requireStringArray_eq (hexclude.trans (if_neg hnil)) fun h =>
        absurd h Bool.false_ne_true
  · refine bind_ok_iff.mpr ⟨w.resolver, requireString_eq hresolver, ?_⟩
    refine bind_ok_iff.mpr ⟨(), check_eq_ok.mpr (decide_eq_true hvalid.resolver), ?_⟩
    refine bind_ok_iff.mpr ⟨(), hforM _ _ hvalid.members, ?_⟩
    exact bind_ok_iff.mpr ⟨(), hforM _ _ hvalid.exclude, rfl⟩

/-- The package with its targets and dependencies sorted. -/
def canonicalPackageConfig (p : PackageConfig) : PackageConfig :=
  { p with
    bins := sortedTargets p.bins
    tests := sortedTargets p.tests
    dependencies := sortedDependencies p.dependencies
    devDependencies := sortedDependencies p.devDependencies }

theorem lookup_packageSection (hm : Loaded m) (hp : m.package = some p) :
    (manifestTable m).lookup "package" = some (.table (packageSection p).table) := by
  have hpart : (packageSections p).filter (·.name = "package") = [packageSection p] := by
    rw [filter_packageSections (hm.dependencies p hp) (hm.devDependencies p hp)]
    simp
  rw [lookup_part hp (by decide) _ hpart]
  exact getKey_fill_table rfl rfl

theorem parsePackage_manifestTable (hm : Loaded m) (hp : m.package = some p) :
    parsePackage (manifestTable m) = .ok (canonicalPackageConfig p) := by
  have hvalid := hm.valid.package p hp
  have hfilter : ∀ name, (packageSections p).filter (·.name = name) = _ := fun _ =>
    filter_packageSections (hm.dependencies p hp) (hm.devDependencies p hp)
  have hlookup := lookup_packageSection hm hp
  have hkeys : ((packageSection p).pairs.map (·.1)).Nodup := by simp [packageSection]
  have hpublish : optionalBool (packageSection p).table "publish" = some p.publish :=
    optionalBool_eq (lookup_table hkeys)
  have hsorted : ∀ targets : List Target, sortedTargets targets = [] ↔ targets = [] := by
    intro targets
    rw [← List.length_eq_zero_iff, sortedTargets, List.length_insertionSort,
      List.length_eq_zero_iff]
  have htoolchain : parseToolchain (manifestTable m) = .ok p.toolchain :=
    parseToolchain_manifestTable hm hp
  have hlib : parseLib (manifestTable m) = .ok p.lib := parseLib_manifestTable hm hp
  rw [parsePackage_eq_ok]
  refine ⟨_, requireTable_eq hlookup, requireString_eq (lookup_table hkeys),
    requireString_eq (lookup_table hkeys), requireString_eq (lookup_table hkeys), ?_,
    htoolchain, hlib, parseBins_manifestTable hm hp, parseTests_manifestTable hm hp,
    parseDependencies_manifestTable (hm.dependencies p hp) hvalid.dependencies
      (lookup_part hp (by decide) _ (by rw [hfilter]; simp)),
    parseDependencies_manifestTable (hm.devDependencies p hp) hvalid.devDependencies
      (lookup_part hp (by decide) _ (by rw [hfilter]; simp)),
    hvalid.name, hvalid.version, hvalid.edition, ?_⟩
  · rw [hpublish]
    rfl
  · rintro ⟨hlib, hbins, htests⟩
    exact hvalid.targets ⟨hlib, (hsorted _).mp hbins, (hsorted _).mp htests⟩

/-- The canonical manifest is loaded from what is written. -/
theorem parseManifest_manifestTable (hm : Loaded m) :
    parseManifest (manifestTable m) = .ok (canonicalManifest m) := by
  have hversion : (spioSection.table.lookup "manifest-version").bind Toml.asInteger = some 1 := rfl
  have hpackage : parseIf ((manifestTable m).lookup "package").isSome
      (parsePackage (manifestTable m)) = .ok (m.package.map canonicalPackageConfig) := by
    cases hp : m.package with
    | none =>
      rw [lookup_package_none hp]
      rfl
    | some p =>
      rw [lookup_packageSection hm hp, parsePackage_manifestTable hm hp]
      rfl
  have hworkspace : parseIf ((manifestTable m).lookup "workspace").isSome
      (parseWorkspace (manifestTable m)) = .ok m.workspace := by
    rw [lookup_workspace hm]
    cases hw : m.workspace with
    | none => rfl
    | some w =>
      rw [parseWorkspace_manifestTable hm hw]
      rfl
  have hpresent : (((manifestTable m).lookup "package").isSome ||
      ((manifestTable m).lookup "workspace").isSome) = true := by
    obtain ⟨hpackage', -⟩ := parseIf_ok hpackage
    obtain ⟨hworkspace', -⟩ := parseIf_ok hworkspace
    rw [← hpackage', ← hworkspace', Option.isSome_map, Bool.or_eq_true]
    exact hm.valid.present
  rw [parseManifest]
  refine bind_ok_iff.mpr ⟨_, requireTable_eq (lookup_spio hm), ?_⟩
  refine bind_ok_iff.mpr ⟨(), check_eq_ok.mpr (decide_eq_true hversion), ?_⟩
  refine bind_ok_iff.mpr ⟨(), check_eq_ok.mpr hpresent, ?_⟩
  refine bind_ok_iff.mpr ⟨_, hpackage, ?_⟩
  exact bind_ok_iff.mpr ⟨_, hworkspace, rfl⟩

end Tables

section RoundTrip

variable {parse : String → Option Table} {manifestPath : String} {m : ManifestDocument}
  {p : PackageConfig} {name kind : String} {dependencies : List Dependency} {targets : List Target}

theorem sortedTargets_sortedTargets :
    sortedTargets (sortedTargets targets) = sortedTargets targets :=
  (List.pairwise_insertionSort _ targets).insertionSort_eq

theorem dependencySections_sortedDependencies :
    dependencySections name (sortedDependencies dependencies) =
      dependencySections name dependencies := by
  have hsorted : sortedDependencies (sortedDependencies dependencies) =
      sortedDependencies dependencies :=
    (List.pairwise_insertionSort _ dependencies).insertionSort_eq
  have hempty : (sortedDependencies dependencies).isEmpty = dependencies.isEmpty := by
    rw [Bool.eq_iff_iff, List.isEmpty_iff_length_eq_zero, List.isEmpty_iff_length_eq_zero,
      sortedDependencies, List.length_insertionSort]
  rw [dependencySections, dependencySections, hsorted, hempty]

theorem packageSections_canonical :
    packageSections (canonicalPackageConfig p) = packageSections p := by
  simp only [packageSections, canonicalPackageConfig, sortedTargets_sortedTargets,
    dependencySections_sortedDependencies]
  rfl

/-- What is sorted already is written in the same order. -/
theorem manifestLines_canonical : manifestLines (canonicalManifest m) = manifestLines m := by
  have hpackage : (canonicalManifest m).package.toList.flatMap packageSections =
      m.package.toList.flatMap packageSections := by
    cases hp : m.package with
    | none => rw [canonicalManifest, hp, Option.map_none]
    | some p =>
      rw [canonicalManifest, hp, Option.map_some, Option.toList_some, Option.toList_some,
        List.flatMap_singleton, List.flatMap_singleton]
      exact packageSections_canonical
  rw [manifestLines, manifestLines, manifestSections, manifestSections, hpackage]
  rfl

/-- The round trip of a manifest. -/
theorem manifestRoundTrips_iff {parse : String → Option Table} {manifestPath : String}
    {m : ManifestDocument} (hparse : ImplementsToml parse) (hm : LoadedManifest m) :
    ManifestRoundTrips parse manifestPath m ↔ CleanManifest m := by
  have hloaded := loaded_of_loadedManifest hm
  rw [← clean_manifestLines hloaded.valid, ManifestRoundTrips, serializeManifestCanonical_eq,
    serializeManifestCanonical_eq, manifestLines_canonical, and_iff_left rfl]
  constructor
  · intro h
    by_contra hclean
    rw [loadManifest, rejects_documentText hparse fits_manifestLines hclean] at h
    cases h
  · intro hclean
    rw [loadManifest, hparse.reads _ _ (readToml_manifestLines hloaded hclean)]
    exact parseManifest_manifestTable hloaded

/-- A table of strings. -/
def textTable (fields : List (String × String)) : Toml :=
  .table (fields.map fun f => (f.1, .string f.2))

theorem ordered_textTable {fields : List (String × String)}
    (h : fields.Pairwise (·.1 < ·.1)) : (textTable fields).Ordered :=
  .table (List.pairwise_map.mpr h) (List.forall_mem_map.mpr fun f _ => .string f.2)

/-- A manifest with two members and a package, with a dependency of each kind. -/
def sampleManifestDocument (edition : String) : Table :=
  [("bin", .array [textTable [("name", "tool"), ("path", "src/tool.styio")],
      textTable [("name", "run"), ("path", "src/run.styio")]]),
    ("dependencies", .table [
      ("a b", textTable [("git", "https://host/a\"b\\"), ("rev", "main")]),
      ("local", textTable [("package", "me/local"), ("path", "../local")]),
      ("remote", textTable [("package", "me/remote"), ("registry", "https://registry"),
        ("version", "1.0.0")])]),
    ("package", textTable [("edition", edition), ("name", "me/app"), ("version", "0.1.0")]),
    ("spio", .table [("manifest-version", .integer 1)]),
    ("toolchain", .table [("channel", .string "stable"), ("implicit-std", .boolean true)]),
    ("workspace", .table [("members", .array [.string "packages/b", .string "packages/a"]),
      ("resolver", .string "1")])]

def sampleManifest (edition : String) : ManifestDocument where
  package := some
    { name := "me/app", version := "0.1.0", edition := edition, publish := false
      toolchain := ⟨"stable", true⟩
      lib := none
      bins := [⟨"tool", "src/tool.styio"⟩, ⟨"run", "src/run.styio"⟩]
      tests := []
      dependencies := [⟨"a b", none, .git, "https://host/a\"b\\", some "main", none⟩,
        ⟨"local", some "me/local", .path, "../local", none, none⟩,
        ⟨"remote", some "me/remote", .registry, "https://registry", none, some "1.0.0"⟩]
      devDependencies := [] }
  workspace := some ⟨["packages/b", "packages/a"], [], "1"⟩

theorem ordered_sampleManifestDocument (edition : String) :
    (Toml.table (sampleManifestDocument edition)).Ordered := by
  have hkeys : ["bin", "dependencies", "package", "spio", "toolchain", "workspace"].Pairwise
      (· < ·) := by decide +kernel
  have hpackage : ["edition", "name", "version"].Pairwise (· < ·) := by decide +kernel
  refine .table (List.pairwise_map.mp hkeys) ?_
  simp only [sampleManifestDocument, List.forall_mem_cons, List.not_mem_nil, false_imp_iff,
    implies_true, and_true]
  refine ⟨?_, ?_, ?_, ?_, ?_, ?_⟩
  · refine .array ?_
    simp only [List.forall_mem_cons, List.not_mem_nil, false_imp_iff, implies_true, and_true]
    exact ⟨ordered_textTable (by decide +kernel), ordered_textTable (by decide +kernel)⟩
  · refine .table (by decide +kernel) ?_
    simp only [List.forall_mem_cons, List.not_mem_nil, false_imp_iff, implies_true, and_true]
    exact ⟨ordered_textTable (by decide +kernel), ordered_textTable (by decide +kernel),
      ordered_textTable (by decide +kernel)⟩
  · exact ordered_textTable (List.pairwise_map.mp hpackage)
  · exact .table (by decide +kernel) (List.forall_mem_singleton.mpr (.integer 1))
  · refine .table (by decide +kernel) ?_
    exact List.forall_mem_cons.mpr ⟨.string _, List.forall_mem_singleton.mpr (.boolean true)⟩
  · refine .table (by decide +kernel) (List.forall_mem_cons.mpr ⟨.array ?_, ?_⟩)
    · exact List.forall_mem_cons.mpr ⟨.string _, List.forall_mem_singleton.mpr (.string _)⟩
    · exact List.forall_mem_singleton.mpr (.string _)

theorem loadedManifest_sample : LoadedManifest (sampleManifest "2026") :=
  ⟨_, ordered_sampleManifestDocument "2026", by decide +kernel⟩

theorem manifestRoundTrips_sample :
    ManifestRoundTrips readToml "spio.toml" (sampleManifest "2026") :=
  (manifestRoundTrips_iff implementsToml_readToml loadedManifest_sample).mpr
    (by decide)

/-- A newline in a string, which the writer does not escape. -/
theorem not_manifestRoundTrips_newline : LoadedManifest (sampleManifest "2026\n") ∧
    ¬ ManifestRoundTrips readToml "spio.toml" (sampleManifest "2026\n") := by
  have hloaded : LoadedManifest (sampleManifest "2026\n") :=
    ⟨_, ordered_sampleManifestDocument "2026\n", by decide +kernel⟩
  refine ⟨hloaded, fun h => ?_⟩
  rw [ManifestRoundTrips, serializeManifestCanonical_eq, loadManifest,
    rejects_documentText implementsToml_readToml fits_manifestLines] at h
  · cases h.1
  · rw [clean_manifestLines (loaded_of_loadedManifest hloaded).valid]
    decide

end RoundTrip

end StyioPlatform.Manifest
