import StyioPlatform.Lib.RelatedLists
import StyioPlatform.Resolve.Correctness

/-! Resolution of manifests whose paths are spelled in other ways and whose members are listed in
another order. -/
namespace StyioPlatform.Resolve

open Manifest

/-- The lexical normal form of a path, and whether it starts at the root. -/
def spelledPath (text : String) : Bool × Path :=
  (text.toList.head? = some '/', relativeNormal (pathNames text))

/-- Only a path is spelled in another way. -/
structure DependencyAlike (d d' : Dependency) : Prop where
  rest : d' = { d with source := d'.source }
  source : if d.sourceKind = .path then spelledPath d.source = spelledPath d'.source
    else d.source = d'.source

structure PackageAlike (p p' : PackageConfig) : Prop where
  rest : p' = { p with dependencies := p'.dependencies, devDependencies := p'.devDependencies }
  dependencies : List.Forall₂ DependencyAlike p.dependencies p'.dependencies
  devDependencies : List.Forall₂ DependencyAlike p.devDependencies p'.devDependencies

/-- The same paths are listed, in any order and however often. -/
def SamePaths (l l' : List String) : Prop :=
  ∀ path, path ∈ l.map spelledPath ↔ path ∈ l'.map spelledPath

structure WorkspaceAlike (workspace workspace' : WorkspaceConfig) : Prop where
  members : SamePaths workspace.members workspace'.members
  exclude : SamePaths workspace.exclude workspace'.exclude
  resolver : workspace.resolver = workspace'.resolver

structure DocumentAlike (doc doc' : ManifestDocument) : Prop where
  package : Option.Rel PackageAlike doc.package doc'.package
  workspace : Option.Rel WorkspaceAlike doc.workspace doc'.workspace

section Decide

variable {d d' : Dependency} {p p' : PackageConfig} {workspace workspace' : WorkspaceConfig}
  {doc doc' : ManifestDocument} {l l' : List String}

instance : Decidable (DependencyAlike d d') :=
  decidable_of_iff (d' = { d with source := d'.source } ∧
    if d.sourceKind = .path then spelledPath d.source = spelledPath d'.source
    else d.source = d'.source) ⟨fun h => ⟨h.1, h.2⟩, fun h => ⟨h.rest, h.source⟩⟩

instance : Decidable (PackageAlike p p') :=
  decidable_of_iff
    (p' = { p with dependencies := p'.dependencies, devDependencies := p'.devDependencies } ∧
      List.Forall₂ DependencyAlike p.dependencies p'.dependencies ∧
      List.Forall₂ DependencyAlike p.devDependencies p'.devDependencies)
    ⟨fun h => ⟨h.1, h.2.1, h.2.2⟩, fun h => ⟨h.rest, h.dependencies, h.devDependencies⟩⟩

instance : Decidable (SamePaths l l') :=
  decidable_of_iff ((∀ path ∈ l.map spelledPath, path ∈ l'.map spelledPath) ∧
      ∀ path ∈ l'.map spelledPath, path ∈ l.map spelledPath)
    ⟨fun h path => ⟨h.1 path, h.2 path⟩, fun h => ⟨fun path => (h path).mp, fun path => (h path).mpr⟩⟩

instance : Decidable (WorkspaceAlike workspace workspace') :=
  decidable_of_iff (SamePaths workspace.members workspace'.members ∧
      SamePaths workspace.exclude workspace'.exclude ∧ workspace.resolver = workspace'.resolver)
    ⟨fun h => ⟨h.1, h.2.1, h.2.2⟩, fun h => ⟨h.members, h.exclude, h.resolver⟩⟩

instance : Decidable (DocumentAlike doc doc') :=
  decidable_of_iff (Option.Rel PackageAlike doc.package doc'.package ∧
      Option.Rel WorkspaceAlike doc.workspace doc'.workspace)
    ⟨fun h => ⟨h.1, h.2⟩, fun h => ⟨h.package, h.workspace⟩⟩

end Decide

/-- The same files with the same manifests, but for the spelling of paths and the lists of members. -/
structure Respelled (w w' : World) : Prop where
  names : w.names = w'.names
  exist : ∀ path, w.exists path = w'.exists path
  documents : ∀ path, Agree DocumentAlike (w.loadManifest path) (w'.loadManifest path)
  snapshots : w.materializeSnapshot = w'.materializeSnapshot
  registry : w.materializeRegistryPackage = w'.materializeRegistryPackage

/-- The same package with the same id, dependencies and aliases. -/
structure ResolvedAlike (p p' : ResolvedPackage) : Prop where
  manifestPath : p.manifestPath = p'.manifestPath
  rootDir : p.rootDir = p'.rootDir
  package : PackageAlike p.package p'.package
  id : p.id = p'.id
  origin : p.origin = p'.origin
  dependencies : p.dependencies = p'.dependencies
  dependencyAliases : p.dependencyAliases = p'.dependencyAliases

structure SameResolution (r r' : ResolvedGraphResult) : Prop where
  rootIds : r.rootIds = r'.rootIds
  packages : List.Forall₂ ResolvedAlike r.packages r'.packages

/-- The members that an entry of `exclude` denotes are spelled like one. -/
def ExcludesPlainly (workspace : WorkspaceConfig) : Prop :=
  ∀ member ∈ workspace.members, ∀ entry ∈ workspace.exclude,
    spelledPath member = spelledPath entry → member ∈ workspace.exclude

instance {workspace : WorkspaceConfig} : Decidable (ExcludesPlainly workspace) :=
  inferInstanceAs (Decidable (∀ member ∈ workspace.members, ∀ entry ∈ workspace.exclude,
    spelledPath member = spelledPath entry → member ∈ workspace.exclude))

/-- The member has the package that is looked for. -/
def Matches (w : World) (path : Path) (workspace : WorkspaceConfig) (expected member : String) :
    Prop :=
  matchingMember w path workspace expected member = .ok [memberManifest path member]

instance {w : World} {path : Path} {workspace : WorkspaceConfig} {expected member : String} :
    Decidable (Matches w path workspace expected member) :=
  inferInstanceAs (Decidable (matchingMember w path workspace expected member = _))

/-- No member that has the package is listed again. -/
def ListsOnce (w : World) (path : Path) (workspace : WorkspaceConfig) (expected : String) : Prop :=
  workspace.members.Pairwise fun member member' =>
    Matches w path workspace expected member → spelledPath member ≠ spelledPath member'

instance {w : World} {path : Path} {workspace : WorkspaceConfig} {expected : String} :
    Decidable (ListsOnce w path workspace expected) :=
  inferInstanceAs (Decidable (List.Pairwise _ _))

/-- The manifest in which a dependency of a package is looked up. -/
def lookupManifest (w : World) (parentDir : Path) (dependency : Dependency) : Option Path :=
  match dependency.sourceKind with
  | .path => some (canonicalAbsolutePath (joinPath parentDir dependency.source ++ [manifestName]))
  | .git =>
    dependency.rev.bind fun rev =>
      (w.materializeSnapshot (normalizeGitSource dependency.source parentDir) rev).toOption.map
        (·.snapshotRoot ++ [manifestName])
  | .registry =>
    dependency.package.bind fun package => dependency.version.bind fun version =>
      (w.materializeRegistryPackage dependency.source package version).toOption.map
        (·.snapshotRoot ++ [manifestName])

/-- The package that a selection finds depends on a package that is looked up in the manifest. -/
def LooksUp (w : World) (s : ManifestSelection) (path : Path) (expected : String) : Prop :=
  ∃ package, s.loadPackage w = .ok package ∧ ∃ dependency ∈ collectDependencies package,
    lookupManifest w s.packageDir dependency = some path ∧ dependency.package = some expected

/-- A workspace in which a package can be looked up. -/
def PlainAt (w : World) (path : Path) (expected : String) : Prop :=
  ∀ doc workspace, w.loadManifest path = .ok doc → doc.workspace = some workspace →
    ExcludesPlainly workspace ∧ ListsOnce w path workspace expected

/-- In the workspaces that the resolver meets, excluded members are spelled plainly, and no member
that a dependency looks for is listed twice. -/
structure Plain (w : World) (root : Path) : Prop where
  seeds : ∀ doc workspace, w.loadManifest root = .ok doc → doc.workspace = some workspace →
    ExcludesPlainly workspace
  lookups : ∀ seeds s path expected, buildRootSeeds w root = .ok seeds → Closure w seeds s →
    LooksUp w s path expected → PlainAt w path expected

variable {w w' : World} {dirs dirs' : List String} {dir root path : Path} {text text' : String}
  {kind : ErrorKind} {subject : String} {workspace workspace' : WorkspaceConfig}
  {doc doc' : ManifestDocument} {expected : String} {s : ManifestSelection}
  {p p' : PackageConfig} {d d' : Dependency} {l l' : List String}

/-- The manifest in a directory that a path names depends on the normal form of the path. -/
theorem canonical_joinPath : canonicalAbsolutePath (joinPath dir text ++ [manifestName]) =
    canonicalAbsolutePath ((if (spelledPath text).1 then [] else dir) ++ (spelledPath text).2) ++
      [manifestName] := by
  have hname : IsName manifestName := by decide
  rw [canonicalAbsolutePath, canonicalAbsolutePath, normal_concat hname, joinPath, spelledPath,
    normal_append_relativeNormal]
  by_cases habsolute : text.toList.head? = some '/'
  · simp [habsolute]
  · simp [habsolute]

theorem memberManifest_congr (h : spelledPath text = spelledPath text') :
    memberManifest root text = memberManifest root text' := by
  rw [memberManifest, memberManifest, canonical_joinPath, canonical_joinPath, h]

theorem SamePaths.exists_mem (h : SamePaths l l') (htext : text ∈ l) :
    ∃ text' ∈ l', spelledPath text = spelledPath text' := by
  obtain ⟨text', htext', heq⟩ := List.mem_map.mp ((h _).mp (List.mem_map_of_mem htext))
  exact ⟨text', htext', heq.symm⟩

theorem SamePaths.symm (h : SamePaths l l') : SamePaths l' l := fun path => (h path).symm

theorem WorkspaceAlike.symm (h : WorkspaceAlike workspace workspace') :
    WorkspaceAlike workspace' workspace :=
  ⟨h.members.symm, h.exclude.symm, h.resolver.symm⟩

/-- Members of the same path are excluded together. -/
theorem excluded_of_spelledPath_eq (h : WorkspaceAlike workspace workspace')
    (hplain : ExcludesPlainly workspace') (hmember : text' ∈ workspace'.members)
    (hsame : spelledPath text = spelledPath text') (hexcluded : text ∈ workspace.exclude) :
    text' ∈ workspace'.exclude := by
  obtain ⟨entry, hentry, hpath⟩ := h.exclude.exists_mem hexcluded
  exact hplain text' hmember entry hentry (hsame.symm.trans hpath)

theorem Respelled.loadMember (h : Respelled w w') (hsame : spelledPath text = spelledPath text') :
    Agree PackageAlike (loadMember w root kind subject text)
      (loadMember w' root kind subject text') := by
  rw [Resolve.loadMember, Resolve.loadMember, memberManifest_congr hsame, h.exist]
  split
  · refine (h.documents _).bind fun doc doc' _ _ hdoc => ?_
    rcases optionRel_cases hdoc.package with ⟨package, package', hp, hp', hrel⟩ | ⟨hp, hp'⟩
    · rw [hp, hp']
      exact hrel
    · rw [hp, hp']
      trivial
  · trivial

theorem PackageAlike.name_eq (h : PackageAlike p p') : p'.name = p.name := by
  rw [h.rest]

theorem PackageAlike.version_eq (h : PackageAlike p p') : p'.version = p.version := by
  rw [h.rest]

section Seeds

/-- The same selections, and the same directories in any order. -/
structure SeedsAlike (seeds seeds' : RootSeeds) : Prop where
  selections : seeds.selections = seeds'.selections
  dirs : ∀ dir, dir ∈ seeds.topLevelWorkspaceDirs ↔ dir ∈ seeds'.topLevelWorkspaceDirs

theorem seedMember_eq_ok : seedMember w root workspace text = .ok path ↔
    text ∉ workspace.exclude ∧
      (∃ package, loadMember w root .workspace "workspace member" text = .ok package) ∧
      path = memberManifest root text := by
  rw [seedMember]
  split
  · next hexcluded => simp [hexcluded, throwing]
  · next hexcluded =>
    rw [bind_ok_iff]
    constructor
    · rintro ⟨package, hload, hpath⟩
      cases hpath
      exact ⟨hexcluded, ⟨package, hload⟩, rfl⟩
    · rintro ⟨-, ⟨package, hload⟩, rfl⟩
      exact ⟨package, hload, rfl⟩

/-- The paths of the members that seed the resolution. -/
theorem mem_of_mapM_seedMember {paths : List Path} {members : List String}
    (h : members.mapM (seedMember w root workspace) = .ok paths) :
    path ∈ paths ↔ ∃ member ∈ members, memberManifest root member = path := by
  have hrel := mapM_eq_ok.mp h
  constructor
  · intro hpath
    obtain ⟨member, hmember, hseed⟩ := exists_of_mem_mapM h hpath
    obtain ⟨-, -, rfl⟩ := seedMember_eq_ok.mp hseed
    exact ⟨member, hmember, rfl⟩
  · rintro ⟨member, hmember, rfl⟩
    obtain ⟨path, hpath, hseed⟩ := (exists_of_forall₂ hrel).1 member hmember
    obtain ⟨-, -, rfl⟩ := seedMember_eq_ok.mp hseed
    exact hpath

/-- Where the members of one world seed the resolution, so do those of the other. -/
theorem exists_seeds (halike : WorkspaceAlike workspace workspace')
    (hplain : ExcludesPlainly workspace)
    (hload : ∀ member member', spelledPath member = spelledPath member' →
      (∃ package, loadMember w root .workspace "workspace member" member = .ok package) →
      ∃ package, loadMember w' root .workspace "workspace member" member' = .ok package)
    (hseeds : ∀ member ∈ workspace.members, ∃ path, seedMember w root workspace member = .ok path) :
    ∀ member ∈ workspace'.members, ∃ path, seedMember w' root workspace' member = .ok path := by
  intro member' hmember'
  obtain ⟨member, hmember, hsame⟩ := halike.members.symm.exists_mem hmember'
  obtain ⟨path, hpath⟩ := hseeds member hmember
  obtain ⟨hexcluded, hloaded, -⟩ := seedMember_eq_ok.mp hpath
  refine ⟨_, seedMember_eq_ok.mpr ⟨fun hexcluded' => hexcluded ?_,
    hload member member' hsame.symm hloaded, rfl⟩⟩
  exact excluded_of_spelledPath_eq halike.symm hplain hmember hsame hexcluded'

/-- The members of both worlds have the same manifests. -/
theorem exists_memberManifest (h : SamePaths l l')
    (hpath : ∃ member ∈ l, memberManifest root member = path) :
    ∃ member ∈ l', memberManifest root member = path := by
  obtain ⟨member, hmember, rfl⟩ := hpath
  obtain ⟨member', hmember', hsame⟩ := h.exists_mem hmember
  exact ⟨member', hmember', (memberManifest_congr hsame).symm⟩

theorem Respelled.seedMembers (h : Respelled w w') (halike : WorkspaceAlike workspace workspace')
    (hplain : ExcludesPlainly workspace) (hplain' : ExcludesPlainly workspace') :
    Agree (fun paths paths' => ∀ path : Path, path ∈ paths ↔ path ∈ paths')
      ((workspace.members.insertionSort (· ≤ ·)).mapM (seedMember w root workspace))
      ((workspace'.members.insertionSort (· ≤ ·)).mapM (seedMember w' root workspace')) := by
  refine agree_of_iff ?_ ?_
  · rw [exists_mapM_eq_ok, exists_mapM_eq_ok]
    simp only [List.mem_insertionSort]
    constructor
    · exact exists_seeds halike hplain fun member member' hsame =>
        (h.loadMember hsame).exists_iff.mp
    · exact exists_seeds halike.symm hplain' fun member member' hsame =>
        (h.loadMember hsame.symm).exists_iff.mpr
  · intro paths paths' hpaths hpaths' path
    rw [mem_of_mapM_seedMember hpaths, mem_of_mapM_seedMember hpaths']
    simp only [List.mem_insertionSort]
    exact ⟨exists_memberManifest halike.members, exists_memberManifest halike.members.symm⟩

theorem Respelled.buildRootSeeds (h : Respelled w w') (hplain : Plain w root)
    (hplain' : Plain w' root) :
    Agree SeedsAlike (buildRootSeeds w root) (buildRootSeeds w' root) := by
  rw [Resolve.buildRootSeeds, Resolve.buildRootSeeds]
  refine (h.documents root).bind fun doc doc' hload hload' hdoc => ?_
  have hown : doc.package.isSome = doc'.package.isSome := by
    rcases optionRel_cases hdoc.package with ⟨package, package', hp, hp', -⟩ | ⟨hp, hp'⟩
    · rw [hp, hp']
      rfl
    · rw [hp, hp']
  rw [hown]
  rcases optionRel_cases hdoc.workspace with ⟨workspace, workspace', hws, hws', halike⟩ |
    ⟨hws, hws'⟩
  · rw [hws, hws']
    refine (h.seedMembers halike (hplain.seeds doc workspace hload hws)
      (hplain'.seeds doc' workspace' hload' hws')).bind fun paths paths' _ _ hpaths => ⟨?_, ?_⟩
    · have hset : ∀ own : List Path, (own ++ paths).toFinset = (own ++ paths').toFinset := by
        intro own
        ext path
        rw [List.mem_toFinset, List.mem_toFinset, List.mem_append, List.mem_append, hpaths]
      simp only [hset]
    · intro dir
      simp only [List.mem_map, List.mem_append, hpaths]
  · rw [hws, hws']
    exact ⟨rfl, fun _ => Iff.rfl⟩

end Seeds

section Lookups

variable {parentDir : Path} {origin : SourceOrigin} {package? : Option String}

theorem Respelled.matchingMember (h : Respelled w w') (halike : WorkspaceAlike workspace workspace')
    (hplain : ExcludesPlainly workspace) (hplain' : ExcludesPlainly workspace')
    (hmember : text ∈ workspace.members) (hmember' : text' ∈ workspace'.members)
    (hsame : spelledPath text = spelledPath text') :
    Agree Eq (matchingMember w path workspace expected text)
      (matchingMember w' path workspace' expected text') := by
  have hexcluded : text ∈ workspace.exclude ↔ text' ∈ workspace'.exclude :=
    ⟨excluded_of_spelledPath_eq halike hplain' hmember' hsame,
      excluded_of_spelledPath_eq halike.symm hplain hmember hsame.symm⟩
  rw [Resolve.matchingMember, Resolve.matchingMember]
  by_cases hout : text ∈ workspace.exclude
  · rw [if_pos hout, if_pos (hexcluded.mp hout)]
    exact rfl
  · rw [if_neg hout, if_neg (mt hexcluded.mpr hout)]
    refine (h.loadMember hsame).bind fun package package' _ _ halike => ?_
    rw [halike.name_eq, memberManifest_congr hsame]
    exact rfl

/-- A member is found or passed over. -/
theorem matchingMember_cases {found : List Path}
    (h : matchingMember w path workspace expected text = .ok found) :
    found = [] ∨ found = [memberManifest path text] := by
  rw [matchingMember] at h
  split at h
  · cases h
    exact .inl rfl
  · obtain ⟨package, -, hfound⟩ := bind_ok_iff.mp h
    cases hfound
    split
    · exact .inr rfl
    · exact .inl rfl

/-- The members that are found, in the order of the list. -/
theorem flatten_mapM_matchingMember {members : List String} {found : List (List Path)}
    (h : members.mapM (matchingMember w path workspace expected) = .ok found) :
    found.flatten =
      (members.filter (Matches w path workspace expected ·)).map (memberManifest path) := by
  have hrel := mapM_eq_ok.mp h
  clear h
  induction hrel with
  | nil => rfl
  | @cons member first members found hfirst _ ih =>
    rw [List.flatten_cons, ih]
    rcases matchingMember_cases hfirst with rfl | rfl
    · have hnot : ¬ Matches w path workspace expected member := by
        intro hmatches
        rw [Matches, hfirst] at hmatches
        simp at hmatches
      rw [List.filter_cons_of_neg (by simpa using hnot), List.nil_append]
    · have hmatches : Matches w path workspace expected member := hfirst
      rw [List.filter_cons_of_pos (by simpa using hmatches), List.map_cons, List.singleton_append]

/-- The spellings of the members that are found are told apart by their normal forms. -/
theorem nodup_matching (h : ListsOnce w path workspace expected) :
    ((workspace.members.filter (Matches w path workspace expected ·)).map spelledPath).Nodup := by
  rw [List.nodup_iff_pairwise_ne, List.pairwise_map, List.pairwise_filter]
  refine h.imp fun hne hmatches _ => ?_
  exact hne (by simpa using hmatches)

/-- A member of one world that is found is found in the other. -/
theorem Respelled.exists_matches (h : Respelled w w') (halike : WorkspaceAlike workspace workspace')
    (hplain : ExcludesPlainly workspace) (hplain' : ExcludesPlainly workspace')
    (hmember : text ∈ workspace.members) (hmember' : text' ∈ workspace'.members)
    (hsame : spelledPath text = spelledPath text') :
    Matches w path workspace expected text ↔ Matches w' path workspace' expected text' := by
  rw [Matches, Matches, memberManifest_congr hsame]
  exact (h.matchingMember halike hplain hplain' hmember hmember' hsame).eq_ok_iff

/-- Both worlds find the same members, each of them as often. -/
theorem Respelled.perm_matching (h : Respelled w w') (halike : WorkspaceAlike workspace workspace')
    (hplain : ExcludesPlainly workspace) (hplain' : ExcludesPlainly workspace')
    (honce : ListsOnce w path workspace expected) (honce' : ListsOnce w' path workspace' expected) :
    ((workspace.members.filter (Matches w path workspace expected ·)).map spelledPath).Perm
      ((workspace'.members.filter (Matches w' path workspace' expected ·)).map spelledPath) := by
  rw [List.perm_ext_iff_of_nodup (nodup_matching honce) (nodup_matching honce')]
  simp only [List.mem_map, List.mem_filter, decide_eq_true_eq]
  intro spelled
  constructor
  · rintro ⟨member, ⟨hmember, hmatches⟩, rfl⟩
    obtain ⟨member', hmember', hsame⟩ := halike.members.exists_mem hmember
    exact ⟨member', ⟨hmember', (h.exists_matches halike hplain hplain' hmember hmember' hsame).mp
      hmatches⟩, hsame.symm⟩
  · rintro ⟨member', ⟨hmember', hmatches⟩, rfl⟩
    obtain ⟨member, hmember, hsame⟩ := halike.members.symm.exists_mem hmember'
    exact ⟨member, ⟨hmember, (h.exists_matches halike hplain hplain' hmember hmember'
      hsame.symm).mpr hmatches⟩, hsame.symm⟩

/-- The manifest of a member, from the normal form of its path. -/
theorem map_memberManifest {members : List String} :
    members.map (memberManifest root) = (members.map spelledPath).map fun spelled =>
      canonicalAbsolutePath ((if spelled.1 then [] else root.dropLast) ++ spelled.2) ++
        [manifestName] := by
  rw [List.map_map]
  refine List.map_congr_left fun member _ => ?_
  rw [memberManifest, canonical_joinPath]
  rfl

theorem Respelled.matchingMembers (h : Respelled w w') (hdoc : DocumentAlike doc doc')
    (hload : w.loadManifest path = .ok doc) (hload' : w'.loadManifest path = .ok doc')
    (hat : ∀ expected, package? = some expected → PlainAt w path expected)
    (hat' : ∀ expected, package? = some expected → PlainAt w' path expected) :
    Agree List.Perm (matchingMembers w path doc package?)
      (matchingMembers w' path doc' package?) := by
  unfold Resolve.matchingMembers
  rcases optionRel_cases hdoc.workspace with ⟨workspace, workspace', hws, hws', halike⟩ |
    ⟨hws, hws'⟩
  · rw [hws, hws']
    cases package? with
    | none =>
      dsimp only
      rcases optionRel_cases hdoc.package with ⟨package, package', hp, hp', -⟩ | ⟨hp, hp'⟩
      · rw [hp, hp']
        exact List.Perm.refl _
      · rw [hp, hp']
        trivial
    | some expected =>
      obtain ⟨hplain, honce⟩ := hat expected rfl doc workspace hload hws
      obtain ⟨hplain', honce'⟩ := hat' expected rfl doc' workspace' hload' hws'
      have hrounds : Agree (fun found found' => found.flatten.Perm found'.flatten)
          ((workspace.members.insertionSort (· ≤ ·)).mapM
            (Resolve.matchingMember w path workspace expected))
          ((workspace'.members.insertionSort (· ≤ ·)).mapM
            (Resolve.matchingMember w' path workspace' expected)) := by
        refine agree_of_iff ?_ ?_
        · rw [exists_mapM_eq_ok, exists_mapM_eq_ok]
          simp only [List.mem_insertionSort]
          constructor
          · intro hall member' hmember'
            obtain ⟨member, hmember, hsame⟩ := halike.members.symm.exists_mem hmember'
            exact (h.matchingMember halike hplain hplain' hmember hmember'
              hsame.symm).exists_iff.mp (hall member hmember)
          · intro hall member hmember
            obtain ⟨member', hmember', hsame⟩ := halike.members.exists_mem hmember
            exact (h.matchingMember halike hplain hplain' hmember hmember'
              hsame).exists_iff.mpr (hall member' hmember')
        · intro found found' hfound hfound'
          rw [flatten_mapM_matchingMember hfound, flatten_mapM_matchingMember hfound']
          have hsort := (List.perm_insertionSort (· ≤ ·) workspace.members).filter
            fun member => decide (Matches w path workspace expected member)
          have hsort' := (List.perm_insertionSort (· ≤ ·) workspace'.members).filter
            fun member => decide (Matches w' path workspace' expected member)
          refine (hsort.map _).trans (List.Perm.trans ?_ (hsort'.map _).symm)
          rw [map_memberManifest, map_memberManifest]
          exact (h.perm_matching halike hplain hplain' honce honce').map _
      exact hrounds.bind fun found found' _ _ hperm => hperm
  · rw [hws, hws']
    exact List.Perm.refl _

theorem matchingRoot_congr (hdoc : DocumentAlike doc doc') :
    matchingRoot path doc package? = matchingRoot path doc' package? := by
  rw [matchingRoot, matchingRoot]
  rcases optionRel_cases hdoc.package with ⟨package, package', hp, hp', halike⟩ | ⟨hp, hp'⟩
  · rw [hp, hp']
    dsimp only
    rw [halike.name_eq]
  · rw [hp, hp']

theorem selectedOrigin_congr (hdirs : ∀ dir, dir ∈ dirs ↔ dir ∈ dirs') :
    selectedOrigin dirs origin path = selectedOrigin dirs' origin path := by
  cases origin <;> simp [selectedOrigin, hdirs]

theorem Respelled.selectPackageManifestFromRoot (h : Respelled w w')
    (hdirs : ∀ dir, dir ∈ dirs ↔ dir ∈ dirs')
    (hat : ∀ expected, package? = some expected → PlainAt w path expected)
    (hat' : ∀ expected, package? = some expected → PlainAt w' path expected) :
    Agree Eq (selectPackageManifestFromRoot w dirs path origin package?)
      (selectPackageManifestFromRoot w' dirs' path origin package?) := by
  unfold Resolve.selectPackageManifestFromRoot
  refine (h.documents path).bind fun doc doc' hload hload' hdoc => ?_
  refine (h.matchingMembers hdoc hload hload' hat hat').bind fun members members' _ _ hperm => ?_
  have hmatches : (matchingRoot path doc package? ++ members).Perm
      (matchingRoot path doc' package? ++ members') := by
    rw [matchingRoot_congr hdoc]
    exact hperm.append_left _
  -- only a single match is taken
  generalize matchingRoot path doc package? ++ members = found at hmatches
  generalize matchingRoot path doc' package? ++ members' = found' at hmatches
  rcases found with _ | ⟨first, _ | ⟨second, found⟩⟩
  · obtain rfl := hmatches.nil_eq
    trivial
  · obtain rfl := List.singleton_perm.mp hmatches
    exact congrArg (ManifestSelection.mk first) (selectedOrigin_congr hdirs)
  · rcases found' with _ | ⟨first', _ | ⟨second', found'⟩⟩
    · cases hmatches.eq_nil
    · cases List.perm_singleton.mp hmatches
    · trivial

theorem DependencyAlike.package_eq (h : DependencyAlike d d') : d'.package = d.package := by
  rw [h.rest]

theorem DependencyAlike.aliasName_eq (h : DependencyAlike d d') : d'.aliasName = d.aliasName := by
  rw [h.rest]

/-- A dependency is looked up where it is plain. -/
def PlainLookup (w : World) (parentDir : Path) (dependency : Dependency) : Prop :=
  ∀ path expected, lookupManifest w parentDir dependency = some path →
    dependency.package = some expected → PlainAt w path expected

theorem Respelled.resolvePathDependency (h : Respelled w w')
    (hdirs : ∀ dir, dir ∈ dirs ↔ dir ∈ dirs') (hd : DependencyAlike d d')
    (hkind : d.sourceKind = .path) (hat : PlainLookup w parentDir d)
    (hat' : PlainLookup w' parentDir d') :
    Agree Eq (resolvePathDependency w dirs parentDir origin d)
      (resolvePathDependency w' dirs' parentDir origin d') := by
  have hkind' : d'.sourceKind = .path := by rw [hd.rest, hkind]
  have hsource : spelledPath d.source = spelledPath d'.source := by
    have := hd.source
    rwa [if_pos hkind] at this
  have hroot : canonicalAbsolutePath (joinPath parentDir d'.source ++ [manifestName]) =
      canonicalAbsolutePath (joinPath parentDir d.source ++ [manifestName]) := by
    rw [canonical_joinPath, canonical_joinPath, hsource]
  have hplain : ∀ expected, d.package = some expected → PlainAt w
      (canonicalAbsolutePath (joinPath parentDir d.source ++ [manifestName])) expected :=
    fun expected => hat _ expected (by rw [lookupManifest, hkind])
  have hplain' : ∀ expected, d.package = some expected → PlainAt w'
      (canonicalAbsolutePath (joinPath parentDir d.source ++ [manifestName])) expected := by
    intro expected hpackage
    exact hat' _ expected (by rw [lookupManifest, hkind', hroot]) (hd.package_eq.trans hpackage)
  unfold Resolve.resolvePathDependency
  rw [hroot, hd.package_eq]
  dsimp only
  rw [h.exist]
  split
  · trivial
  · split
    · split
      · trivial
      · exact h.selectPackageManifestFromRoot hdirs hplain hplain'
    · exact h.selectPackageManifestFromRoot hdirs hplain hplain'

theorem Respelled.selectFromSnapshot (h : Respelled w w')
    (hdirs : ∀ dir, dir ∈ dirs ↔ dir ∈ dirs')
    (hat : ∀ expected, package? = some expected → PlainAt w (dir ++ [manifestName]) expected)
    (hat' : ∀ expected, package? = some expected → PlainAt w' (dir ++ [manifestName]) expected) :
    Agree Eq (selectFromSnapshot w dirs subject dir origin package?)
      (selectFromSnapshot w' dirs' subject dir origin package?) := by
  rw [Resolve.selectFromSnapshot, Resolve.selectFromSnapshot, h.exist]
  split
  · exact h.selectPackageManifestFromRoot hdirs hat hat'
  · trivial

theorem agree_refl {ε α : Type} {x : Except ε α} : Agree Eq x x := by
  cases x with
  | error e => trivial
  | ok a => exact rfl

theorem Respelled.resolveGitDependency (h : Respelled w w')
    (hdirs : ∀ dir, dir ∈ dirs ↔ dir ∈ dirs') (hkind : d.sourceKind = .git)
    (hat : PlainLookup w parentDir d) (hat' : PlainLookup w' parentDir d) :
    Agree Eq (resolveGitDependency w dirs parentDir d)
      (resolveGitDependency w' dirs' parentDir d) := by
  unfold Resolve.resolveGitDependency
  cases hrev : d.rev with
  | none => trivial
  | some rev =>
    dsimp only
    rw [← h.snapshots]
    refine agree_refl.bind fun snapshot snapshot' hsnapshot _ heq => ?_
    obtain rfl := heq
    have hlookup : ∀ v : World, w.materializeSnapshot = v.materializeSnapshot →
        lookupManifest v parentDir d = some (snapshot.snapshotRoot ++ [manifestName]) := by
      intro v hv
      rw [lookupManifest, hkind, hrev, ← hv]
      simp [hsnapshot, Except.toOption]
    exact h.selectFromSnapshot hdirs (fun expected => hat _ expected (hlookup w rfl))
      fun expected => hat' _ expected (hlookup w' h.snapshots)

theorem Respelled.resolveRegistryDependency (h : Respelled w w')
    (hdirs : ∀ dir, dir ∈ dirs ↔ dir ∈ dirs') (hkind : d.sourceKind = .registry)
    (hat : PlainLookup w parentDir d) (hat' : PlainLookup w' parentDir d) :
    Agree Eq (resolveRegistryDependency w dirs d) (resolveRegistryDependency w' dirs' d) := by
  unfold Resolve.resolveRegistryDependency
  cases hpackage : d.package with
  | none => trivial
  | some package =>
    cases hversion : d.version with
    | none => trivial
    | some version =>
      dsimp only
      rw [← h.registry]
      refine agree_refl.bind fun materialized materialized' hmaterialized _ heq => ?_
      obtain rfl := heq
      have hlookup : ∀ v : World, w.materializeRegistryPackage = v.materializeRegistryPackage →
          lookupManifest v parentDir d = some (materialized.snapshotRoot ++ [manifestName]) := by
        intro v hv
        rw [lookupManifest, hkind, hpackage, hversion, ← hv]
        simp [hmaterialized, Except.toOption]
      exact h.selectFromSnapshot hdirs
        (fun expected hexpected => hat _ expected (hlookup w rfl) (hpackage.trans hexpected))
        fun expected hexpected =>
          hat' _ expected (hlookup w' h.registry) (hpackage.trans hexpected)

/-- Dependencies that differ in the spelling of a path select the same package. -/
theorem Respelled.selectDependency (h : Respelled w w')
    (hdirs : ∀ dir, dir ∈ dirs ↔ dir ∈ dirs') (hd : DependencyAlike d d')
    (hat : PlainLookup w parentDir d) (hat' : PlainLookup w' parentDir d') :
    Agree Eq (selectDependency w dirs parentDir origin d)
      (selectDependency w' dirs' parentDir origin d') := by
  have hkind' : d'.sourceKind = d.sourceKind := by rw [hd.rest]
  have hother : d.sourceKind ≠ .path → d' = d := by
    intro hkind
    have hsource := hd.source
    rw [if_neg hkind] at hsource
    rw [hd.rest, ← hsource]
  rw [Resolve.selectDependency, Resolve.selectDependency, hkind']
  cases hkind : d.sourceKind with
  | path => exact h.resolvePathDependency hdirs hd hkind hat hat'
  | git =>
    obtain rfl := hother (by rw [hkind]; decide)
    exact h.resolveGitDependency hdirs hkind hat hat'
  | registry =>
    obtain rfl := hother (by rw [hkind]; decide)
    exact h.resolveRegistryDependency hdirs hkind hat hat'

end Lookups

end StyioPlatform.Resolve
