import StyioPlatform.Resolve.Correctness

/-! Where the packages of git and registry snapshots lie. -/
namespace StyioPlatform.Resolve

open Manifest Relation

/-- A directory lies in a root, or is the root, by its names. -/
def Inside (root dir : Path) : Prop := canonicalAbsolutePath root <+: dir

instance {root dir : Path} : Decidable (Inside root dir) :=
  inferInstanceAs (Decidable (canonicalAbsolutePath root <+: dir))

/-- A path dependency of one selection makes the other. -/
def PathSelects (w : World) (topLevelWorkspaceDirs : List String) (s s' : ManifestSelection) :
    Prop :=
  ∃ package, s.loadPackage w = .ok package ∧ ∃ dependency ∈ collectDependencies package,
    dependency.sourceKind = .path ∧ s.select w topLevelWorkspaceDirs dependency = .ok s'

def ResolvedPackage.selection (p : ResolvedPackage) : ManifestSelection :=
  ⟨p.manifestPath, p.origin⟩

/-- A selection that comes from a snapshot, or that path dependencies reach from one. -/
inductive Pinned (w : World) (seeds : RootSeeds) (root : Path) : ManifestSelection → Prop where
  | source {s : ManifestSelection} (hs : Closure w seeds s)
      (hroot : s.origin.snapshotRoot? = some root) : Pinned w seeds root s
  | path {s s' : ManifestSelection} (hs : Pinned w seeds root s)
      (hselects : PathSelects w seeds.topLevelWorkspaceDirs s s') : Pinned w seeds root s'

/-- The directory that a dependency names: its path, or the root of its snapshot. -/
def namedDir (s : ManifestSelection) (dependency : Dependency) (s' : ManifestSelection) : Path :=
  match dependency.sourceKind with
  | .path => canonicalAbsolutePath (joinPath s.packageDir dependency.source)
  | _ => canonicalAbsolutePath (s'.origin.snapshotRoot?.getD [])

/-- The steps that the resolver does not check stay inside: the choice of a workspace member in the
directory that a dependency names, and a path dependency of a package that is not from git. -/
structure Contained (w : World) (seeds : RootSeeds) : Prop where
  snapshot : ∀ s package dependency s' root, Closure w seeds s → s.loadPackage w = .ok package →
    dependency ∈ collectDependencies package →
    s.select w seeds.topLevelWorkspaceDirs dependency = .ok s' → dependency.sourceKind ≠ .path →
    s'.origin.snapshotRoot? = some root → s'.packageDir ≠ namedDir s dependency s' →
    Inside root s'.packageDir
  path : ∀ root s package dependency s', Pinned w seeds root s → s.loadPackage w = .ok package →
    dependency ∈ collectDependencies package →
    s.select w seeds.topLevelWorkspaceDirs dependency = .ok s' → dependency.sourceKind = .path →
    s'.packageDir ≠ namedDir s dependency s' ∨ s.origin.gitSource? = none →
    Inside root s'.packageDir

/-- Selections of one manifest and one origin. -/
def Same (s s' : ManifestSelection) : Prop :=
  canonicalAbsolutePath s.manifestPath = canonicalAbsolutePath s'.manifestPath ∧
    s.origin = s'.origin

/-- Selections of the closure with one fingerprint are the same. -/
def Distinct (w : World) (seeds : RootSeeds) : Prop :=
  ∀ s s', Closure w seeds s → Closure w seeds s' → s.fingerprint = s'.fingerprint → Same s s'

variable {w : World} {seeds : RootSeeds} {s s' : ManifestSelection} {root : Path}
  {dependency : Dependency} {dirs : List String} {r : ResolvedGraphResult}

section steps

theorem pathIsWithin_iff {candidate : Path} : pathIsWithin candidate root = true ↔
    canonicalAbsolutePath root <+: canonicalAbsolutePath candidate := by
  have hnames : ∀ name ∈ canonicalAbsolutePath candidate, IsName name :=
    fun _ h => isName_of_mem_normal h
  rw [← head?_lexicallyRelative hnames]
  simp only [pathIsWithin, decide_eq_true_eq, and_iff_right_iff_imp]
  exact fun _ => lexicallyRelative_ne_nil

theorem canonical_canonical {path : Path} :
    canonicalAbsolutePath (canonicalAbsolutePath path) = canonicalAbsolutePath path :=
  normal_normal

/-- The directory of a manifest that a path dependency names. -/
theorem dropLast_manifest {path : Path} :
    (canonicalAbsolutePath (path ++ [manifestName])).dropLast = canonicalAbsolutePath path := by
  have : canonicalAbsolutePath (path ++ [manifestName]) =
      canonicalAbsolutePath path ++ [manifestName] := normal_concat (by decide)
  rw [this, List.dropLast_concat]

theorem origin_of_selectPackageManifest {manifest : Path} {hint : SourceOrigin}
    {expected : Option String}
    (h : selectPackageManifestFromRoot w dirs manifest hint expected = .ok s') :
    s'.origin = selectedOrigin dirs hint s'.manifestPath := by
  unfold selectPackageManifestFromRoot at h
  obtain ⟨doc, -, h⟩ := bind_ok_iff.mp h
  obtain ⟨members, -, h⟩ := bind_ok_iff.mp h
  split at h
  · cases h
  · cases h
    rfl
  · cases h

/-- A path dependency of a package from git keeps the origin, and the directory that it names is
checked; otherwise the selection has no snapshot. -/
theorem select_path (hkind : dependency.sourceKind = .path)
    (h : s.select w dirs dependency = .ok s') :
    (s'.origin = s.origin ∧ ∃ root, s.origin.snapshotRoot? = some root ∧
      Inside root (namedDir s dependency s')) ∨
    (s.origin.gitSource? = none ∧ s'.origin.snapshotRoot? = none) := by
  unfold ManifestSelection.select selectDependency at h
  rw [hkind] at h
  dsimp only at h
  unfold resolvePathDependency at h
  dsimp only at h
  have hplain : ∀ manifest expected,
      selectPackageManifestFromRoot w dirs manifest .path expected = .ok s' →
      s'.origin.snapshotRoot? = none := by
    intro manifest expected h
    rw [origin_of_selectPackageManifest h]
    unfold selectedOrigin
    dsimp only
    split <;> rfl
  split at h
  · cases h
  · cases horigin : s.origin with
    | git source rev repoHash root =>
      rw [horigin] at h
      dsimp only at h
      split at h
      · cases h
      · next hcheck =>
        rw [origin_of_selectPackageManifest h]
        refine Or.inl ⟨rfl, root, rfl, ?_⟩
        rw [dropLast_manifest, Bool.and_eq_true, Bool.not_eq_true', not_and_or, Bool.not_eq_false,
          pathIsWithin_iff, canonical_canonical, decide_eq_true_eq, not_not] at hcheck
        rw [Inside, namedDir, hkind]
        rcases hcheck with hwithin | hequal
        · exact hwithin
        · exact hequal ▸ List.prefix_rfl
    | workspace =>
      rw [horigin] at h
      exact Or.inr ⟨rfl, hplain _ _ h⟩
    | path =>
      rw [horigin] at h
      exact Or.inr ⟨rfl, hplain _ _ h⟩
    | registry =>
      rw [horigin] at h
      exact Or.inr ⟨rfl, hplain _ _ h⟩

end steps

section pins

/-- A pinned selection that has a snapshot at all has the one that it is pinned to. -/
theorem Pinned.snapshotRoot (h : Pinned w seeds root s) :
    s.origin.snapshotRoot? = some root ∨ s.origin.snapshotRoot? = none := by
  induction h with
  | source _ hroot => exact Or.inl hroot
  | path _ hselects ih =>
    obtain ⟨package, -, dependency, -, hkind, hselect⟩ := hselects
    rcases select_path hkind hselect with ⟨hsame, -⟩ | ⟨-, hnone⟩
    · rw [hsame]
      exact ih
    · exact Or.inr hnone

/-- A path dependency of a pinned selection stays inside. -/
theorem Contained.inside_of_pathSelects (h : Contained w seeds) (hs : Pinned w seeds root s)
    (hselects : PathSelects w seeds.topLevelWorkspaceDirs s s') : Inside root s'.packageDir := by
  obtain ⟨package, hload, dependency, hdependency, hkind, hselect⟩ := hselects
  by_cases hnamed : s'.packageDir = namedDir s dependency s'
  · rcases select_path hkind hselect with ⟨-, root', hroot', hinside⟩ | ⟨hgit, -⟩
    · rcases hs.snapshotRoot with hroot | hnone
      · rw [hroot'] at hroot
        cases hroot
        rw [hnamed]
        exact hinside
      · rw [hroot'] at hnone
        cases hnone
    · exact h.path root s package dependency s' hs hload hdependency hselect hkind (Or.inr hgit)
  · exact h.path root s package dependency s' hs hload hdependency hselect hkind (Or.inl hnamed)

/-- Where the unchecked steps stay inside, every pinned selection lies in its snapshot. -/
theorem Contained.inside (h : Contained w seeds)
    (hseeds : ∀ seed ∈ seeds.selections, seed.origin = .workspace) (hs : Pinned w seeds root s) :
    Inside root s.packageDir := by
  cases hs with
  | path hs hselects => exact h.inside_of_pathSelects hs hselects
  | source hs hroot =>
    obtain ⟨seed, hseed, hreach⟩ := hs
    cases hreach with
    | refl =>
      rw [hseeds s hseed] at hroot
      cases hroot
    | @tail parent _ hreach hselects =>
      have hparent : Closure w seeds parent := ⟨seed, hseed, hreach⟩
      obtain ⟨package, hload, dependency, hdependency, hselect⟩ := hselects
      by_cases hkind : dependency.sourceKind = .path
      · -- the origin comes from a parent from git, which is pinned to the same snapshot
        have hpath : PathSelects w seeds.topLevelWorkspaceDirs parent s :=
          ⟨package, hload, dependency, hdependency, hkind, hselect⟩
        rcases select_path hkind hselect with ⟨hsame, -⟩ | ⟨-, hnone⟩
        · exact h.inside_of_pathSelects (.source hparent (hsame ▸ hroot)) hpath
        · rw [hroot] at hnone
          cases hnone
      · by_cases hnamed : s.packageDir = namedDir parent dependency s
        · have hdir : namedDir parent dependency s = canonicalAbsolutePath root := by
            unfold namedDir
            split
            · next hpath => exact absurd hpath hkind
            · rw [hroot]
              rfl
          rw [hnamed, hdir]
          exact List.prefix_rfl
        · exact h.snapshot parent package dependency s root hparent hload hdependency hselect hkind
            hroot hnamed

theorem Pinned.trans (h : Pinned w seeds root s)
    (hreach : ReflTransGen (PathSelects w seeds.topLevelWorkspaceDirs) s s') :
    Pinned w seeds root s' := by
  induction hreach with
  | refl => exact h
  | tail _ hselects ih => exact .path ih hselects

end pins

section results

theorem Same.packageDir (h : Same s s') : s.packageDir = s'.packageDir := by
  rw [ManifestSelection.packageDir, h.1]
  rfl

theorem Same.loadPackage (h : Same s s') : s.loadPackage w = s'.loadPackage w := by
  simp only [ManifestSelection.loadPackage, h.1, h.2]

theorem Same.select (h : Same s s') : s.select w dirs dependency = s'.select w dirs dependency := by
  simp only [ManifestSelection.select, h.packageDir, h.2]

theorem workspace_of_buildRootSeeds {manifestPath : Path}
    (h : buildRootSeeds w manifestPath = .ok seeds) :
    ∀ seed ∈ seeds.selections, seed.origin = .workspace := by
  unfold buildRootSeeds at h
  obtain ⟨manifest, -, h⟩ := bind_ok_iff.mp h
  dsimp only at h
  split at h
  · cases h
    intro seed hseed
    obtain ⟨path, -, rfl⟩ := List.mem_map.mp hseed
    rfl
  · obtain ⟨members, -, h⟩ := bind_ok_iff.mp h
    cases h
    intro seed hseed
    obtain ⟨path, -, rfl⟩ := List.mem_map.mp hseed
    rfl

end results

end StyioPlatform.Resolve
