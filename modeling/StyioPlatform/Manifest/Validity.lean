import StyioPlatform.Manifest.Document

/-! What holds of every manifest that has been loaded. -/
namespace StyioPlatform.Manifest

/-- The fields of a dependency that go with its kind. -/
def SourceFits (d : Dependency) : Prop :=
  match d.sourceKind with
  | .path => isNonEmptyRelativePath d.source = true ∧ d.rev = none ∧ d.version = none
  | .git => d.source ≠ "" ∧ (∃ rev ≠ "", d.rev = some rev) ∧ d.version = none
  | .registry => d.package.isSome = true ∧ (∃ version, d.version = some version ∧
      isSemver version = true) ∧ isRegistryRootUrl d.source = true ∧ d.rev = none

structure ValidDependency (d : Dependency) : Prop where
  package : ∀ name, d.package = some name → isPackageName name = true
  source : SourceFits d

/-- Targets have names of their own. -/
structure ValidTargets (targets : List Target) : Prop where
  nodup : (targets.map (·.name)).Nodup
  valid : ∀ t ∈ targets, t.name ≠ "" ∧ isNonEmptyRelativePath t.path = true

structure ValidPackage (p : PackageConfig) : Prop where
  name : isPackageName p.name = true
  version : isSemver p.version = true
  edition : p.edition ≠ ""
  channel : p.toolchain.channel ≠ ""
  lib : ∀ lib, p.lib = some lib → isNonEmptyRelativePath lib.path = true
  bins : ValidTargets p.bins
  tests : ValidTargets p.tests
  targets : ¬ (p.lib = none ∧ p.bins = [] ∧ p.tests = [])
  dependencies : ∀ d ∈ p.dependencies, ValidDependency d
  devDependencies : ∀ d ∈ p.devDependencies, ValidDependency d

structure ValidWorkspace (w : WorkspaceConfig) : Prop where
  nonEmpty : w.members ≠ []
  members : ∀ member ∈ w.members, isNonEmptyRelativePath member = true
  exclude : ∀ entry ∈ w.exclude, isNonEmptyRelativePath entry = true
  resolver : w.resolver = "1"

structure ValidManifest (m : ManifestDocument) : Prop where
  present : m.package.isSome = true ∨ m.workspace.isSome = true
  package : ∀ p, m.package = some p → ValidPackage p
  workspace : ∀ w, m.workspace = some w → ValidWorkspace w

variable {doc : Table} {m : ManifestDocument} {p : PackageConfig} {d : Dependency} {key : String}

/-- The part of `parseDependency` that reads the source. -/
def parseSource (aliasName : String) (package : Option String) (dep : Table) :
    Except Failure Dependency := do
  let subject := "dependency '" ++ aliasName ++ "'"
  if (dep.lookup "path").isSome then
    let source ← requireString dep "path" subject
    validateRelativePath source (subject ++ " path")
    return ⟨aliasName, package, .path, source, none, none⟩
  else if (dep.lookup "git").isSome then
    let source ← requireString dep "git" subject
    check (source ≠ "") (subject ++ " git must be a non-empty string")
    let rev ← requireString dep "rev" subject
    check (rev ≠ "") (subject ++ " rev must be a non-empty string")
    return ⟨aliasName, package, .git, source, some rev, none⟩
  else
    check package.isSome
      (subject ++ " must declare package = \"namespace/name\" for registry sources")
    let version ← requireString dep "version" subject
    validateSemver version (subject ++ " version")
    let source ← requireString dep "registry" subject
    validateRegistryRoot source (subject ++ " registry")
    return ⟨aliasName, package, .registry, source, none, some version⟩

/-- The number of source kinds that a dependency declares. -/
def sourceKinds (dep : Table) : ℕ :=
  (dep.lookup "path").isSome.toNat + (dep.lookup "git").isSome.toNat +
    ((dep.lookup "version").isSome || (dep.lookup "registry").isSome).toNat

theorem parseDependency_eq_ok {tableName : String} {entry : String × Toml} :
    parseDependency tableName entry = .ok d ↔ ∃ dep, entry.2.asTable = some dep ∧
      sourceKinds dep = 1 ∧
      (∀ name, optionalString dep "package" = some name → isPackageName name = true) ∧
      parseSource entry.1 (optionalString dep "package") dep = .ok d := by
  rw [parseDependency]
  cases hdep : entry.2.asTable with
  | none => simp [invalid]
  | some dep =>
    dsimp only
    rw [bind_ok_iff]
    simp only [check_eq_ok, exists_const, decide_eq_true_eq, Option.some.injEq, exists_eq_left']
    refine and_congr_right fun _ => ?_
    cases hpackage : optionalString dep "package" with
    | none =>
      exact ⟨fun h => ⟨fun name hname => absurd hname.symm (Option.some_ne_none name), h⟩,
        fun h => h.2⟩
    | some name =>
      dsimp only
      rw [bind_ok_iff]
      simp only [validatePackageName, check_eq_ok, exists_const, Option.some.injEq, forall_eq']
      exact Iff.rfl

theorem parseDependency_ok {tableName : String} {entry : String × Toml}
    (h : parseDependency tableName entry = .ok d) :
    d.aliasName = entry.1 ∧ ValidDependency d := by
  obtain ⟨dep, -, -, hname, h⟩ := parseDependency_eq_ok.mp h
  unfold parseSource at h
  dsimp only at h
  split at h
  · obtain ⟨source, -, h⟩ := bind_ok_iff.mp h
    obtain ⟨_, hsource, h⟩ := bind_ok_iff.mp h
    cases h
    exact ⟨rfl, hname, check_eq_ok.mp hsource, rfl, rfl⟩
  · split at h
    · obtain ⟨source, -, h⟩ := bind_ok_iff.mp h
      obtain ⟨_, hsource, h⟩ := bind_ok_iff.mp h
      obtain ⟨rev, -, h⟩ := bind_ok_iff.mp h
      obtain ⟨_, hrev, h⟩ := bind_ok_iff.mp h
      cases h
      rw [check_eq_ok, decide_eq_true_eq] at hsource hrev
      exact ⟨rfl, hname, hsource, ⟨rev, hrev, rfl⟩, rfl⟩
    · obtain ⟨_, hsome, h⟩ := bind_ok_iff.mp h
      obtain ⟨version, -, h⟩ := bind_ok_iff.mp h
      obtain ⟨_, hversion, h⟩ := bind_ok_iff.mp h
      obtain ⟨source, -, h⟩ := bind_ok_iff.mp h
      obtain ⟨_, hsource, h⟩ := bind_ok_iff.mp h
      cases h
      exact ⟨rfl, hname, check_eq_ok.mp hsome, ⟨version, rfl, check_eq_ok.mp hversion⟩,
        check_eq_ok.mp hsource, rfl⟩

theorem parseDependencies_ok {dependencies : List Dependency}
    (h : parseDependencies doc key = .ok dependencies) : ∀ d ∈ dependencies, ValidDependency d := by
  unfold parseDependencies at h
  split at h
  · cases h
    exact nofun
  · intro d hd
    obtain ⟨entry, -, hentry⟩ := exists_of_mem_mapM h hd
    exact (parseDependency_ok hentry).2

theorem parseTargets_ok {targets : List Target} (h : parseTargets key doc = .ok targets) :
    ValidTargets targets := by
  unfold parseTargets at h
  split at h
  · cases h
    exact ⟨List.nodup_nil, nofun⟩
  · have hstart : ValidTargets [] := ⟨List.nodup_nil, nofun⟩
    refine foldlM_ok (I := fun _ targets => ValidTargets targets) hstart ?_ h
    intro _ node targets targets' _ hvalid hround
    unfold parseTarget at hround
    dsimp only at hround
    split at hround
    · cases hround
    · obtain ⟨name, -, hround⟩ := bind_ok_iff.mp hround
      obtain ⟨path, -, hround⟩ := bind_ok_iff.mp hround
      obtain ⟨_, hname, hround⟩ := bind_ok_iff.mp hround
      obtain ⟨_, hpath, hround⟩ := bind_ok_iff.mp hround
      obtain ⟨_, hnew, hround⟩ := bind_ok_iff.mp hround
      cases hround
      rw [check_eq_ok] at hname hnew
      refine ⟨?_, ?_⟩
      · rw [List.map_append, List.map_singleton, List.nodup_append]
        refine ⟨hvalid.nodup, by simp, ?_⟩
        intro a ha b hb
        obtain ⟨t, ht, rfl⟩ := List.mem_map.mp ha
        rw [List.mem_singleton.mp hb]
        simpa using List.all_eq_true.mp hnew t ht
      · intro t ht
        rcases List.mem_append.mp ht with ht | ht
        · exact hvalid.valid t ht
        · rw [List.mem_singleton.mp ht]
          exact ⟨of_decide_eq_true hname, check_eq_ok.mp hpath⟩

theorem parseToolchain_ok {toolchain : Toolchain} (h : parseToolchain doc = .ok toolchain) :
    toolchain.channel ≠ "" := by
  unfold parseToolchain at h
  obtain ⟨table, -, h⟩ := bind_ok_iff.mp h
  obtain ⟨channel, -, h⟩ := bind_ok_iff.mp h
  obtain ⟨_, hchannel, h⟩ := bind_ok_iff.mp h
  split at h
  · cases h
  · cases h
    exact of_decide_eq_true (check_eq_ok.mp hchannel)

theorem parseLib_ok {lib : Option LibTarget} (h : parseLib doc = .ok lib) :
    ∀ l, lib = some l → isNonEmptyRelativePath l.path = true := by
  unfold parseLib at h
  split at h
  · cases h
    exact nofun
  · obtain ⟨path, -, h⟩ := bind_ok_iff.mp h
    obtain ⟨_, hpath, h⟩ := bind_ok_iff.mp h
    cases h
    rintro l ⟨⟩
    exact check_eq_ok.mp hpath

/-- The parts of a package, and the checks that it has passed. -/
structure ParsesPackage (doc table : Table) (p : PackageConfig) : Prop where
  found : requireTable doc "package" "manifest" = .ok table
  name : requireString table "name" "[package]" = .ok p.name
  version : requireString table "version" "[package]" = .ok p.version
  edition : requireString table "edition" "[package]" = .ok p.edition
  publish : (optionalBool table "publish").getD false = p.publish
  toolchain : parseToolchain doc = .ok p.toolchain
  lib : parseLib doc = .ok p.lib
  bins : parseBins doc = .ok p.bins
  tests : parseTests doc = .ok p.tests
  dependencies : parseDependencies doc "dependencies" = .ok p.dependencies
  devDependencies : parseDependencies doc "dev-dependencies" = .ok p.devDependencies
  nameValid : isPackageName p.name = true
  versionValid : isSemver p.version = true
  editionValid : p.edition ≠ ""
  targets : ¬ (p.lib = none ∧ p.bins = [] ∧ p.tests = [])

theorem parsePackage_eq_ok : parsePackage doc = .ok p ↔ ∃ table, ParsesPackage doc table p := by
  constructor
  · intro h
    unfold parsePackage at h
    obtain ⟨table, htable, h⟩ := bind_ok_iff.mp h
    obtain ⟨name, hname, h⟩ := bind_ok_iff.mp h
    obtain ⟨version, hversion, h⟩ := bind_ok_iff.mp h
    obtain ⟨edition, hedition, h⟩ := bind_ok_iff.mp h
    obtain ⟨toolchain, htoolchain, h⟩ := bind_ok_iff.mp h
    obtain ⟨lib, hlib, h⟩ := bind_ok_iff.mp h
    obtain ⟨bins, hbins, h⟩ := bind_ok_iff.mp h
    obtain ⟨tests, htests, h⟩ := bind_ok_iff.mp h
    obtain ⟨dependencies, hdependencies, h⟩ := bind_ok_iff.mp h
    obtain ⟨devDependencies, hdevDependencies, h⟩ := bind_ok_iff.mp h
    obtain ⟨_, hnameValid, h⟩ := bind_ok_iff.mp h
    obtain ⟨_, hversionValid, h⟩ := bind_ok_iff.mp h
    obtain ⟨_, heditionValid, h⟩ := bind_ok_iff.mp h
    obtain ⟨_, htargets, h⟩ := bind_ok_iff.mp h
    cases h
    refine ⟨table, htable, hname, hversion, hedition, rfl, htoolchain, hlib, hbins, htests,
      hdependencies, hdevDependencies, check_eq_ok.mp hnameValid, check_eq_ok.mp hversionValid,
      of_decide_eq_true (check_eq_ok.mp heditionValid), ?_⟩
    rintro ⟨rfl, rfl, rfl⟩
    exact absurd (check_eq_ok.mp htargets) (by decide)
  · rintro ⟨table, h⟩
    have htargets : (!(p.lib.isNone && p.bins.isEmpty && p.tests.isEmpty)) = true := by
      have hnot := h.targets
      simp only [Bool.not_eq_true', Bool.and_eq_false_iff]
      by_contra hall
      push Not at hall
      simp only [ne_eq, Bool.not_eq_false, Option.isNone_iff_eq_none, List.isEmpty_iff] at hall
      exact hnot ⟨hall.1.1, hall.1.2, hall.2⟩
    unfold parsePackage
    refine bind_ok_iff.mpr ⟨table, h.found, bind_ok_iff.mpr ⟨p.name, h.name, ?_⟩⟩
    refine bind_ok_iff.mpr ⟨p.version, h.version, bind_ok_iff.mpr ⟨p.edition, h.edition, ?_⟩⟩
    refine bind_ok_iff.mpr ⟨p.toolchain, h.toolchain, bind_ok_iff.mpr ⟨p.lib, h.lib, ?_⟩⟩
    refine bind_ok_iff.mpr ⟨p.bins, h.bins, bind_ok_iff.mpr ⟨p.tests, h.tests, ?_⟩⟩
    refine bind_ok_iff.mpr ⟨p.dependencies, h.dependencies, ?_⟩
    refine bind_ok_iff.mpr ⟨p.devDependencies, h.devDependencies, ?_⟩
    refine bind_ok_iff.mpr ⟨(), check_eq_ok.mpr h.nameValid, ?_⟩
    refine bind_ok_iff.mpr ⟨(), check_eq_ok.mpr h.versionValid, ?_⟩
    refine bind_ok_iff.mpr ⟨(), check_eq_ok.mpr (decide_eq_true h.editionValid), ?_⟩
    refine bind_ok_iff.mpr ⟨(), check_eq_ok.mpr htargets, ?_⟩
    rw [h.publish]
    rfl

theorem parsePackage_ok (h : parsePackage doc = .ok p) : ValidPackage p := by
  obtain ⟨table, h⟩ := parsePackage_eq_ok.mp h
  exact ⟨h.nameValid, h.versionValid, h.editionValid, parseToolchain_ok h.toolchain,
    parseLib_ok h.lib, parseTargets_ok h.bins, parseTargets_ok h.tests, h.targets,
    parseDependencies_ok h.dependencies, parseDependencies_ok h.devDependencies⟩

theorem parseStringArray_ok {table : Table} {context : String} {nonEmpty : Bool}
    {values : List String} (h : requireStringArray table key context nonEmpty = .ok values) :
    nonEmpty = true → values ≠ [] := by
  unfold requireStringArray at h
  split at h
  · cases h
  · obtain ⟨strings, -, h⟩ := bind_ok_iff.mp h
    obtain ⟨_, hcheck, h⟩ := bind_ok_iff.mp h
    cases h
    rw [check_eq_ok] at hcheck
    rintro rfl rfl
    cases hcheck

theorem forM_ok {α : Type} {f : α → Except Failure Unit} {l : List α} {u : Unit}
    (h : l.forM f = .ok u) : ∀ a ∈ l, f a = .ok () := by
  induction l with
  | nil => exact nofun
  | cons a l ih =>
    obtain ⟨_, ha, hl⟩ := bind_ok_iff.mp h
    intro b hb
    rcases List.mem_cons.mp hb with rfl | hb
    · exact ha
    · exact ih hl b hb

/-- The part of `parseWorkspace` that follows the two arrays. -/
def checkWorkspace (table : Table) (members exclude : List String) :
    Except Failure WorkspaceConfig := do
  let resolver ← requireString table "resolver" "[workspace]"
  check (resolver = "1") "[workspace].resolver must be \"1\""
  members.forM fun member => validateRelativePath member "[workspace].members entry"
  exclude.forM fun entry => validateRelativePath entry "[workspace].exclude entry"
  return ⟨members, exclude, resolver⟩

theorem parseWorkspace_eq_ok {w : WorkspaceConfig} : parseWorkspace doc = .ok w ↔
    ∃ table members exclude, requireTable doc "workspace" "manifest" = .ok table ∧
      requireStringArray table "members" "[workspace]" true = .ok members ∧
      (if (table.lookup "exclude").isSome then
        requireStringArray table "exclude" "[workspace]" false else .ok []) = .ok exclude ∧
      checkWorkspace table members exclude = .ok w := by
  constructor
  · intro h
    obtain ⟨table, htable, h⟩ := bind_ok_iff.mp h
    obtain ⟨members, hmembers, h⟩ := bind_ok_iff.mp h
    dsimp only at h
    split at h
    · next hpresent =>
      obtain ⟨exclude, hexclude, h⟩ := bind_ok_iff.mp h
      exact ⟨table, members, exclude, htable, hmembers, (if_pos hpresent).trans hexclude, h⟩
    · next habsent => exact ⟨table, members, [], htable, hmembers, if_neg habsent, h⟩
  · rintro ⟨table, members, exclude, htable, hmembers, hexclude, h⟩
    refine bind_ok_iff.mpr ⟨table, htable, bind_ok_iff.mpr ⟨members, hmembers, ?_⟩⟩
    dsimp only
    split at hexclude
    · next hpresent =>
      rw [if_pos hpresent]
      exact bind_ok_iff.mpr ⟨exclude, hexclude, h⟩
    · next habsent =>
      cases hexclude
      rw [if_neg habsent]
      exact h

theorem parseWorkspace_ok {w : WorkspaceConfig} (h : parseWorkspace doc = .ok w) :
    ValidWorkspace w := by
  obtain ⟨table, members, exclude, -, hmembers, -, h⟩ := parseWorkspace_eq_ok.mp h
  unfold checkWorkspace at h
  obtain ⟨resolver, -, h⟩ := bind_ok_iff.mp h
  obtain ⟨_, hresolver, h⟩ := bind_ok_iff.mp h
  obtain ⟨_, hrelative, h⟩ := bind_ok_iff.mp h
  obtain ⟨_, hexcluded, h⟩ := bind_ok_iff.mp h
  cases h
  exact ⟨parseStringArray_ok hmembers rfl, fun m hm => check_eq_ok.mp (forM_ok hrelative m hm),
    fun e he => check_eq_ok.mp (forM_ok hexcluded e he),
    of_decide_eq_true (check_eq_ok.mp hresolver)⟩

theorem parseIf_ok {α : Type} {present : Bool} {parse : Except Failure α} {a : Option α}
    (h : parseIf present parse = .ok a) :
    a.isSome = present ∧ ∀ x, a = some x → parse = .ok x := by
  unfold parseIf at h
  split at h
  · next hpresent =>
    cases parse with
    | error e => cases h
    | ok x =>
      cases h
      exact ⟨hpresent.symm, by rintro _ ⟨⟩; rfl⟩
  · next habsent =>
    cases h
    exact ⟨by simpa using habsent, nofun⟩

/-- The package of a loaded manifest is the one that its document defines. -/
theorem parseManifest_ok (h : parseManifest doc = .ok m) :
    (∀ p, m.package = some p → parsePackage doc = .ok p) ∧
      (∀ w, m.workspace = some w → parseWorkspace doc = .ok w) ∧
      (m.package.isSome = true ∨ m.workspace.isSome = true) := by
  unfold parseManifest at h
  obtain ⟨spio, -, h⟩ := bind_ok_iff.mp h
  obtain ⟨_, -, h⟩ := bind_ok_iff.mp h
  obtain ⟨_, hpresent, h⟩ := bind_ok_iff.mp h
  obtain ⟨package, hpackage, h⟩ := bind_ok_iff.mp h
  obtain ⟨workspace, hworkspace, h⟩ := bind_ok_iff.mp h
  cases h
  obtain ⟨hpackage₁, hpackage₂⟩ := parseIf_ok hpackage
  obtain ⟨hworkspace₁, hworkspace₂⟩ := parseIf_ok hworkspace
  refine ⟨hpackage₂, hworkspace₂, ?_⟩
  rw [hpackage₁, hworkspace₁]
  simpa [check_eq_ok] using hpresent

theorem valid_of_parseManifest (h : parseManifest doc = .ok m) : ValidManifest m := by
  obtain ⟨hpackage, hworkspace, hpresent⟩ := parseManifest_ok h
  exact ⟨hpresent, fun p hp => parsePackage_ok (hpackage p hp),
    fun w hw => parseWorkspace_ok (hworkspace w hw)⟩

end StyioPlatform.Manifest
