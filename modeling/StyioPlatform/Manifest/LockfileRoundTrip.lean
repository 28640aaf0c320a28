import StyioPlatform.Manifest.Lockfile
import StyioPlatform.Resolve.Containment

/-! When a lockfile is loaded again as it was written. -/
namespace StyioPlatform.Manifest

open Resolve

/-- What is known of `std::sort` by id. -/
def SortsById (sort : List LockPackage → List LockPackage) : Prop :=
  ∀ packages, (sort packages).Perm packages ∧ (sort packages).Pairwise (·.id ≤ ·.id)

/-- The lockfile with its packages ordered by id and each list of dependencies sorted. -/
def canonicalLockfile (sort : List LockPackage → List LockPackage) (l : LockfileDocument) :
    LockfileDocument :=
  { l with packages := (sort l.packages).map canonicalPackage }

/-- The written text loads as the canonical lockfile, which is written as the same text. -/
def LockfileRoundTrips (parse : String → Option Table) (lockfilePath : String)
    (sort : List LockPackage → List LockPackage) (l : LockfileDocument) : Prop :=
  loadLockfile parse lockfilePath (serializeLockfileCanonical sort l) =
      .ok (canonicalLockfile sort l) ∧
    serializeLockfileCanonical sort (canonicalLockfile sort l) = serializeLockfileCanonical sort l

/-- What the registry client promises of a package that it returns: a root with a scheme, and the
digest of a file that it has read. -/
def ChecksPackages (w : World) : Prop :=
  ∀ root name version result, w.materializeRegistryPackage root name version = .ok result →
    result.registryRoot ≠ "" ∧ isSha256 result.sha256 = true

/-- The lockfiles that `LoadLockfile` or `ResolveSingleVersionLockfile` can return. -/
def ReturnedLockfile (l : LockfileDocument) : Prop :=
  (∃ doc, parseLockfile doc = .ok l) ∨
    ∃ w manifestPath r, ChecksPackages w ∧ resolveSingleVersionGraph w manifestPath = .ok r ∧
      r.lockfile = l

section Returned

variable {l : LockfileDocument} {p : LockPackage} {w : World} {seeds : RootSeeds}
  {s s' : ManifestSelection} {dependency : Dependency} {package : PackageConfig}

/-- What the loader accepts. -/
structure Accepted (l : LockfileDocument) : Prop where
  generatedBy : l.generatedBy ≠ ""
  resolver : l.resolver = "single-version-v1"
  packages : ∀ p ∈ l.packages, validateLockPackage p = .ok ()

theorem accepted_of_parseLockfile {doc : Table} (h : parseLockfile doc = .ok l) : Accepted l := by
  unfold parseLockfile at h
  obtain ⟨-, -, h⟩ := bind_ok_iff.mp h
  split at h
  · cases h
  · obtain ⟨generatedBy, -, h⟩ := bind_ok_iff.mp h
    obtain ⟨resolver, -, h⟩ := bind_ok_iff.mp h
    obtain ⟨_, hgenerated, h⟩ := bind_ok_iff.mp h
    obtain ⟨_, hresolver, h⟩ := bind_ok_iff.mp h
    rw [check_eq_ok, decide_eq_true_eq] at hgenerated hresolver
    split at h
    · cases h
      exact ⟨hgenerated, hresolver, nofun⟩
    · obtain ⟨packages, hpackages, h⟩ := bind_ok_iff.mp h
      cases h
      refine ⟨hgenerated, hresolver, fun p hp => ?_⟩
      obtain ⟨node, -, hnode⟩ := exists_of_mem_mapM hpackages hp
      unfold parseLockPackage at hnode
      split at hnode
      · cases hnode
      · obtain ⟨id, -, hnode⟩ := bind_ok_iff.mp hnode
        obtain ⟨name, -, hnode⟩ := bind_ok_iff.mp hnode
        obtain ⟨version, -, hnode⟩ := bind_ok_iff.mp hnode
        obtain ⟨sourceKind, -, hnode⟩ := bind_ok_iff.mp hnode
        obtain ⟨dependencies, -, hnode⟩ := bind_ok_iff.mp hnode
        obtain ⟨_, hvalid, hnode⟩ := bind_ok_iff.mp hnode
        cases hnode
        exact hvalid

/-- The sources that the loader accepts. -/
def AcceptedOrigin : SourceOrigin → Prop
  | .git source rev _ _ => source ≠ "" ∧ rev ≠ ""
  | .registry root _ sha256 _ => root ≠ "" ∧ isSha256 sha256 = true
  | _ => True

theorem AcceptedOrigin.selected {dirs : List String} {hint : SourceOrigin} {path : Path}
    (h : AcceptedOrigin hint) : AcceptedOrigin (selectedOrigin dirs hint path) := by
  cases hint with
  | git => exact h
  | registry => exact h
  | workspace =>
    rw [selectedOrigin]
    split <;> exact trivial
  | path =>
    rw [selectedOrigin]
    split <;> exact trivial

theorem normalizeGitSource_ne {source : String} {baseDir : Path} :
    normalizeGitSource source baseDir ≠ "" := by
  have hpath : ∀ path : Path, pathText path ≠ "" := by
    intro path
    simp [pathText]
  rw [normalizeGitSource]
  split
  · next hremote =>
    rintro rfl
    exact absurd hremote (by decide)
  · rw [canonicalText]
    split
    · exact hpath _
    · simp

theorem acceptedOrigin_of_selectFromSnapshot {dirs : List String} {subject : String} {root : Path}
    {origin : SourceOrigin} {expected : Option String} (horigin : AcceptedOrigin origin)
    (h : selectFromSnapshot w dirs subject root origin expected = .ok s') :
    AcceptedOrigin s'.origin := by
  unfold selectFromSnapshot at h
  dsimp only at h
  split at h
  · rw [origin_of_selectPackageManifest h]
    exact horigin.selected
  · cases h

theorem acceptedOrigin_of_select (hw : ChecksPackages w) {dirs : List String}
    (hdependency : ValidDependency dependency) (hs : AcceptedOrigin s.origin)
    (h : s.select w dirs dependency = .ok s') : AcceptedOrigin s'.origin := by
  cases hkind : dependency.sourceKind with
  | path =>
    rcases select_path hkind h with ⟨hsame, -⟩ | ⟨-, hnone⟩
    · exact hsame ▸ hs
    · cases horigin : s'.origin with
      | git => simp [horigin, SourceOrigin.snapshotRoot?] at hnone
      | registry => simp [horigin, SourceOrigin.snapshotRoot?] at hnone
      | _ => exact trivial
  | git =>
    have hfits := hdependency.source
    rw [SourceFits, hkind] at hfits
    obtain ⟨-, ⟨rev, hrev, hsome⟩, -⟩ := hfits
    rw [ManifestSelection.select, selectDependency, hkind] at h
    dsimp only at h
    rw [resolveGitDependency, hsome] at h
    obtain ⟨snapshot, -, h⟩ := bind_ok_iff.mp h
    refine acceptedOrigin_of_selectFromSnapshot ?_ h
    exact ⟨normalizeGitSource_ne, hrev⟩
  | registry =>
    rw [ManifestSelection.select, selectDependency, hkind] at h
    dsimp only at h
    rw [resolveRegistryDependency] at h
    split at h
    · cases h
    · cases h
    · obtain ⟨materialized, hmaterialized, h⟩ := bind_ok_iff.mp h
      refine acceptedOrigin_of_selectFromSnapshot ?_ h
      exact hw _ _ _ _ hmaterialized

/-- The origins of all selections are accepted. -/
theorem acceptedOrigin_of_closure (hw : ChecksPackages w)
    (hseeds : ∀ seed ∈ seeds.selections, seed.origin = .workspace) (hs : Closure w seeds s) :
    AcceptedOrigin s.origin := by
  obtain ⟨seed, hseed, hreach⟩ := hs
  induction hreach with
  | refl =>
    rw [hseeds seed hseed]
    exact trivial
  | tail _ hselects ih =>
    obtain ⟨package, hload, dependency, hdependency, hselect⟩ := hselects
    have hvalid : ValidDependency dependency := by
      have hpackage := valid_of_loadPackage hload
      rw [collectDependencies, List.mem_insertionSort, List.mem_append] at hdependency
      rcases hdependency with h | h
      · exact hpackage.dependencies dependency h
      · exact hpackage.devDependencies dependency h
    exact acceptedOrigin_of_select hw hvalid ih hselect

theorem validate_lockPackage {p : ResolvedPackage} (hid : p.id = buildLockId p.origin p.package)
    (hpackage : ValidPackage p.package) (horigin : AcceptedOrigin p.origin) :
    validateLockPackage p.lockPackage = .ok () := by
  have hne : p.id ≠ "" := by
    rw [hid]
    cases p.origin <;> simp [buildLockId]
  rw [validateLockPackage_eq_ok]
  refine ⟨hne, hpackage.name, hpackage.version, ?_⟩
  rw [ResolvedPackage.lockPackage]
  cases h : p.origin with
  | workspace => exact .inl ⟨.inl rfl, rfl, rfl, rfl, rfl⟩
  | path => exact .inl ⟨.inr rfl, rfl, rfl, rfl, rfl⟩
  | git source rev =>
    rw [h] at horigin
    exact .inr (.inl ⟨rfl, ⟨source, horigin.1, rfl⟩, ⟨rev, horigin.2, rfl⟩, rfl, rfl⟩)
  | registry root version sha256 =>
    rw [h] at horigin
    exact .inr (.inr ⟨rfl, ⟨root, horigin.1, rfl⟩, ⟨sha256, rfl, horigin.2⟩, rfl, rfl⟩)

theorem accepted_of_resolve (hw : ChecksPackages w) {manifestPath : Path} {r : ResolvedGraphResult}
    (h : resolveSingleVersionGraph w manifestPath = .ok r) : Accepted r.lockfile := by
  obtain ⟨seeds, g, rootIds, hseeds, hsearched, hpackages, -⟩ := searched_of_resolve h
  have hlockfile : r.lockfile = ⟨"spio " ++ w.projectVersion, "single-version-v1",
      r.packages.map ResolvedPackage.lockPackage⟩ := by
    obtain ⟨seeds, -, hgraph⟩ := bind_ok_iff.mp h
    obtain ⟨g, rootIds, -, -, hr⟩ := resolveGraph_eq_ok.mp hgraph
    rw [hr]
  rw [hlockfile]
  refine ⟨by simp, rfl, fun locked hlocked => ?_⟩
  obtain ⟨p, hp, rfl⟩ := List.mem_map.mp hlocked
  obtain ⟨s, hs, -, -, horigin, hload, hid⟩ := hsearched.selected hpackages p hp
  refine validate_lockPackage (horigin ▸ hid) (valid_of_loadPackage hload) ?_
  rw [horigin]
  exact acceptedOrigin_of_closure hw (workspace_of_buildRootSeeds hseeds) hs

theorem accepted_of_returned (h : ReturnedLockfile l) : Accepted l := by
  rcases h with ⟨doc, hdoc⟩ | ⟨w, manifestPath, r, hw, hr, rfl⟩
  · exact accepted_of_parseLockfile hdoc
  · exact accepted_of_resolve hw hr

end Returned

section RoundTrip

variable {parse : String → Option Table} {lockfilePath : String} {l : LockfileDocument}
  {sort : List LockPackage → List LockPackage} {p q : LockPackage}

theorem loadLockfile_of_clean (hparse : ImplementsToml parse) (hl : Accepted l)
    (hclean : CleanLockfile l) : loadLockfile parse lockfilePath (documentText (lockLines l)) =
      .ok { l with packages := l.packages.map canonicalPackage } := by
  have hread := hparse.reads _ _ (readToml_lockLines ((clean_lockLines hl.packages).mpr hclean))
  rw [loadLockfile, hread]
  exact parseLockfile_lockTable hl.generatedBy hl.resolver hl.packages

theorem loadLockfile_of_not_clean (hparse : ImplementsToml parse) (hl : Accepted l)
    (hclean : ¬ CleanLockfile l) : loadLockfile parse lockfilePath (documentText (lockLines l)) =
      invalid ("failed to parse lockfile '" ++ lockfilePath ++ "'") := by
  have hread := rejects_documentText hparse fits_lockLines
    fun h => hclean ((clean_lockLines hl.packages).mp h)
  rw [loadLockfile, hread]

theorem Accepted.sorted (h : Accepted l) (hsort : SortsById sort) :
    Accepted { l with packages := sort l.packages } :=
  ⟨h.generatedBy, h.resolver, fun p hp => h.packages p ((hsort _).1.mem_iff.mp hp)⟩

theorem cleanLockfile_sorted (hsort : SortsById sort) :
    CleanLockfile { l with packages := sort l.packages } ↔ CleanLockfile l := by
  simp only [CleanLockfile, List.forall_mem_cons, List.forall_mem_flatMap, (hsort _).1.mem_iff]

theorem insertionSort_insertionSort {l : List String} :
    (l.insertionSort (· ≤ ·)).insertionSort (· ≤ ·) = l.insertionSort (· ≤ ·) :=
  (List.pairwise_insertionSort _ l).insertionSort_eq

theorem canonicalPackage_canonicalPackage :
    canonicalPackage (canonicalPackage p) = canonicalPackage p := by
  simp only [canonicalPackage, insertionSort_insertionSort]

theorem lockLines_canonical {packages : List LockPackage} :
    lockLines { l with packages := packages.map canonicalPackage } =
      lockLines { l with packages := packages } := by
  have hpairs : ∀ p, lockPairs (canonicalPackage p) = lockPairs p := by
    intro p
    have hdependencies : (canonicalPackage p).dependencies.insertionSort (· ≤ ·) =
        p.dependencies.insertionSort (· ≤ ·) := insertionSort_insertionSort
    rw [lockPairs, hdependencies]
    rfl
  simp only [lockLines, lockSections, List.map_map, Function.comp_def, hpairs]

/-- Packages of one id are the same, up to the order of their dependencies. -/
def OnePackagePerId (l : LockfileDocument) : Prop :=
  ∀ p ∈ l.packages, ∀ q ∈ l.packages, p.id = q.id → canonicalPackage p = canonicalPackage q

theorem serializeLockfileCanonical_canonical : serializeLockfileCanonical sort
    (canonicalLockfile sort l) = documentText (lockLines
      { l with packages := sort ((sort l.packages).map canonicalPackage) }) :=
  serializeLockfileCanonical_eq

theorem roundTrips_of_clean (hparse : ImplementsToml parse) (hl : Accepted l)
    (hclean : CleanLockfile l) (hid : OnePackagePerId l) (hsort : SortsById sort) :
    LockfileRoundTrips parse lockfilePath sort l := by
  refine ⟨?_, ?_⟩
  · rw [serializeLockfileCanonical_eq]
    exact loadLockfile_of_clean hparse (hl.sorted hsort) ((cleanLockfile_sorted hsort).mpr hclean)
  · -- The packages are in order already, and one order only is left.
    have hsorted : sort ((sort l.packages).map canonicalPackage) =
        (sort l.packages).map canonicalPackage := by
      refine List.Perm.eq_of_pairwise ?_ (hsort _).2 (List.pairwise_map.mpr (hsort _).2) (hsort _).1
      intro p q hp hq hpq hqp
      obtain ⟨p₀, hp₀, rfl⟩ := List.mem_map.mp ((hsort _).1.mem_iff.mp hp)
      obtain ⟨q₀, hq₀, rfl⟩ := List.mem_map.mp hq
      exact hid p₀ ((hsort _).1.mem_iff.mp hp₀) q₀ ((hsort _).1.mem_iff.mp hq₀)
        (le_antisymm hpq hqp)
    rw [serializeLockfileCanonical_canonical, hsorted, lockLines_canonical,
      serializeLockfileCanonical_eq]

theorem sortsById_insertionSort : SortsById (·.insertionSort (·.id ≤ ·.id)) := by
  intro packages
  exact ⟨List.perm_insertionSort _ _, List.pairwise_insertionSort _ _⟩

/-- The packages in two orders by id, if there are two packages of one id. -/
theorem exists_two_orders {packages : List LockPackage} (hp : p ∈ packages) (hq : q ∈ packages)
    (hne : p ≠ q) (hid : p.id = q.id) : ∃ before after : List LockPackage,
      (before ++ p :: q :: after).Perm packages ∧
      (before ++ p :: q :: after).Pairwise (·.id ≤ ·.id) ∧
      (before ++ q :: p :: after).Pairwise (·.id ≤ ·.id) := by
  classical
  let others := ((packages.erase p).erase q).insertionSort (·.id ≤ ·.id)
  have hothers : others.Pairwise (·.id ≤ ·.id) := List.pairwise_insertionSort _ _
  have hperm : (p :: q :: others).Perm packages := by
    have hq' : q ∈ packages.erase p := (List.mem_erase_of_ne (Ne.symm hne)).mpr hq
    refine (((List.perm_insertionSort _ _).cons q).cons p).trans ?_
    exact ((List.perm_cons_erase hq').symm.cons p).trans (List.perm_cons_erase hp).symm
  have hbefore : ∀ x ∈ others.filter (·.id < p.id), x.id < p.id := by
    intro x hx
    simpa using (List.mem_filter.mp hx).2
  have hafter : ∀ x ∈ others.filter fun x => !decide (x.id < p.id), p.id ≤ x.id := by
    intro x hx
    have hle := (List.mem_filter.mp hx).2
    rwa [Bool.not_eq_true', decide_eq_false_iff_not, not_lt] at hle
  have hpairwise : ∀ a b : LockPackage, a.id = p.id → b.id = p.id →
      (others.filter (·.id < p.id) ++ a :: b :: others.filter fun x => !decide (x.id < p.id)).Pairwise
        (·.id ≤ ·.id) := by
    intro a b ha hb
    rw [List.pairwise_append, List.pairwise_cons, List.pairwise_cons]
    refine ⟨hothers.filter _, ⟨?_, ?_, hothers.filter _⟩, ?_⟩
    · intro x hx
      rcases List.mem_cons.mp hx with rfl | hx
      · exact (ha.trans hb.symm).le
      · exact ha.trans_le (hafter x hx)
    · intro x hx
      exact hb.trans_le (hafter x hx)
    · intro x hx y hy
      rcases List.mem_cons.mp hy with rfl | hy
      · exact ((hbefore x hx).trans_eq ha.symm).le
      · rcases List.mem_cons.mp hy with rfl | hy
        · exact ((hbefore x hx).trans_eq hb.symm).le
        · exact (hbefore x hx).le.trans (hafter y hy)
  refine ⟨_, _, ?_, hpairwise p q rfl hid.symm, hpairwise q p hid.symm rfl⟩
  refine List.perm_middle.trans (.trans (.cons p List.perm_middle) (.trans ?_ hperm))
  exact ((List.filter_append_perm _ _).cons q).cons p

/-- Two lists of packages that are written to one text are loaded to one list. -/
theorem canonical_eq_of_text_eq (hparse : ImplementsToml parse) {packages packages' : List LockPackage}
    (hl : Accepted { l with packages := packages }) (hl' : Accepted { l with packages := packages' })
    (hclean : CleanLockfile { l with packages := packages })
    (hclean' : CleanLockfile { l with packages := packages' })
    (htext : documentText (lockLines { l with packages := packages }) =
      documentText (lockLines { l with packages := packages' })) :
    packages.map canonicalPackage = packages'.map canonicalPackage := by
  have hload : loadLockfile parse "" _ = _ := loadLockfile_of_clean hparse hl hclean
  rw [htext, loadLockfile_of_clean hparse hl' hclean'] at hload
  exact (congrArg LockfileDocument.packages (Except.ok.inj hload)).symm

theorem Accepted.canonical (h : Accepted l) :
    Accepted { l with packages := l.packages.map canonicalPackage } := by
  refine ⟨h.generatedBy, h.resolver, fun p hp => ?_⟩
  obtain ⟨p₀, hp₀, rfl⟩ := List.mem_map.mp hp
  exact h.packages p₀ hp₀

theorem CleanLockfile.canonical (h : CleanLockfile l) :
    CleanLockfile { l with packages := l.packages.map canonicalPackage } := by
  have hstrings : ∀ p s, s ∈ lockStrings (canonicalPackage p) ↔ s ∈ lockStrings p := by
    intro p s
    simp [lockStrings, canonicalPackage]
  simp only [CleanLockfile, List.forall_mem_cons, List.forall_mem_flatMap, List.forall_mem_map,
    hstrings] at h ⊢
  exact h

/-- A sort may change the order of packages of one id each time. -/
theorem exists_sort_not_roundTrips (lockfilePath : String) (hparse : ImplementsToml parse)
    (hl : Accepted l) (hclean : CleanLockfile l) (hp : p ∈ l.packages) (hq : q ∈ l.packages) (hid : p.id = q.id)
    (hne : canonicalPackage p ≠ canonicalPackage q) :
    ∃ sort, SortsById sort ∧ ¬ LockfileRoundTrips parse lockfilePath sort l := by
  classical
  obtain ⟨before, after, hperm, hfirst, hsecond⟩ :=
    exists_two_orders hp hq (fun h => hne (congrArg canonicalPackage h)) hid
  let X := (before ++ p :: q :: after).map canonicalPackage
  let Y := (before ++ q :: p :: after).map canonicalPackage
  have hswap : X.Perm Y :=
    ((List.Perm.swap q p after).append_left before).map canonicalPackage
  have hXY : X ≠ Y := by
    intro h
    simp only [X, Y, List.map_append, List.map_cons, List.append_cancel_left_eq] at h
    exact hne (List.cons.inj h).1
  have hfix : X.map canonicalPackage = X ∧ Y.map canonicalPackage = Y := by
    simp only [X, Y, List.map_map, Function.comp_def, canonicalPackage_canonicalPackage, and_self]
  let sort (packages : List LockPackage) : List LockPackage :=
    if packages = X then Y else if packages = Y then X
    else if packages = l.packages then before ++ p :: q :: after
    else packages.insertionSort (·.id ≤ ·.id)
  have hsort : SortsById sort := by
    intro packages
    simp only [sort]
    split
    · next h => exact ⟨h ▸ hswap.symm, List.pairwise_map.mpr hsecond⟩
    · split
      · next h => exact ⟨h ▸ hswap, List.pairwise_map.mpr hfirst⟩
      · split
        · next h => exact ⟨h ▸ hperm, hfirst⟩
        · exact sortsById_insertionSort packages
  have horders : ∃ Z W, (sort l.packages).map canonicalPackage = Z ∧ sort Z = W ∧
      W.map canonicalPackage ≠ Z := by
    by_cases hX : l.packages = X
    · refine ⟨Y, X, ?_, ?_, ?_⟩
      · simp only [sort, hX, if_true]
        exact hfix.2
      · simp only [sort, hXY.symm, if_false, if_true]
      · rw [hfix.1]
        exact hXY
    · refine ⟨X, Y, ?_, ?_, ?_⟩
      · simp only [sort, hX, if_false, if_true]
        split
        · exact hfix.1
        · rfl
      · simp only [sort, if_true]
      · rw [hfix.2]
        exact hXY.symm
  obtain ⟨Z, W, hZ, hW, hWZ⟩ := horders
  refine ⟨sort, hsort, fun h => hWZ ?_⟩
  have htext := h.2
  rw [serializeLockfileCanonical_canonical, serializeLockfileCanonical_eq] at htext
  have hsorted := hl.sorted hsort
  have hcleanSorted := (cleanLockfile_sorted hsort).mpr hclean
  have hmap := canonical_eq_of_text_eq hparse (hsorted.canonical.sorted hsort) hsorted
    ((cleanLockfile_sorted hsort).mpr hcleanSorted.canonical) hcleanSorted htext
  dsimp only at hmap
  rwa [hZ, hW] at hmap

/-- The round trip of a lockfile, whatever the sort does with packages of one id. -/
theorem lockfileRoundTrips_iff {parse : String → Option Table} {lockfilePath : String}
    {l : LockfileDocument} (hparse : ImplementsToml parse) (hl : ReturnedLockfile l) :
    (∀ sort, SortsById sort → LockfileRoundTrips parse lockfilePath sort l) ↔
      CleanLockfile l ∧ OnePackagePerId l := by
  have haccepted := accepted_of_returned hl
  constructor
  · intro h
    have hclean : CleanLockfile l := by
      by_contra hclean
      have hload := (h _ sortsById_insertionSort).1
      rw [serializeLockfileCanonical_eq, loadLockfile_of_not_clean hparse
        (haccepted.sorted sortsById_insertionSort)
        fun hc => hclean ((cleanLockfile_sorted sortsById_insertionSort).mp hc)] at hload
      cases hload
    refine ⟨hclean, fun p hp q hq hid => ?_⟩
    by_contra hne
    obtain ⟨sort, hsort, hnot⟩ := exists_sort_not_roundTrips lockfilePath hparse
      haccepted hclean hp hq hid hne
    exact hnot (h sort hsort)
  · rintro ⟨hclean, hid⟩ sort hsort
    exact roundTrips_of_clean hparse haccepted hclean hid hsort

def sampleLockDocument (generatedBy : String) (packages : List Toml) : Table :=
  [("lock-version", .integer 1), ("metadata", .table [("generated-by", .string generatedBy),
    ("resolver", .string "single-version-v1")]), ("package", .array packages)]

def sampleLockEntry : Toml :=
  .table [("dependencies", .array [.string "path:c/c@1.0.0", .string "path:b/b@1.0.0"]),
    ("git", .string "https://host/a\"b\\"), ("id", .string "git:a/a@1.0.0#main"),
    ("name", .string "a/a"), ("rev", .string "main"), ("source-kind", .string "git"),
    ("version", .string "1.0.0")]

def sampleLockPackage : LockPackage :=
  ⟨"git:a/a@1.0.0#main", "a/a", "1.0.0", "git", some "https://host/a\"b\\", some "main", none, none,
    ["path:c/c@1.0.0", "path:b/b@1.0.0"]⟩

theorem parseLockfile_sample :
    parseLockfile (sampleLockDocument "spio 1" [sampleLockEntry]) =
      .ok ⟨"spio 1", "single-version-v1", [sampleLockPackage]⟩ := by
  rfl

theorem lockfileRoundTrips_sample :
    ReturnedLockfile ⟨"spio 1", "single-version-v1", [sampleLockPackage]⟩ ∧
      ∀ sort, SortsById sort → LockfileRoundTrips readToml "spio.lock" sort
        ⟨"spio 1", "single-version-v1", [sampleLockPackage]⟩ := by
  have hreturned : ReturnedLockfile ⟨"spio 1", "single-version-v1", [sampleLockPackage]⟩ :=
    .inl ⟨_, parseLockfile_sample⟩
  refine ⟨hreturned, (lockfileRoundTrips_iff implementsToml_readToml hreturned).mpr
    ⟨by decide, ?_⟩⟩
  intro p hp q hq _
  rw [List.mem_singleton.mp hp, List.mem_singleton.mp hq]

/-- A newline in a string, which the writer does not escape. -/
theorem not_lockfileRoundTrips_newline :
    ReturnedLockfile ⟨"spio\n1", "single-version-v1", []⟩ ∧ ∀ sort, SortsById sort →
      ¬ LockfileRoundTrips readToml "spio.lock" sort ⟨"spio\n1", "single-version-v1", []⟩ := by
  have hreturned : parseLockfile (sampleLockDocument "spio\n1" []) =
      .ok ⟨"spio\n1", "single-version-v1", []⟩ := rfl
  refine ⟨.inl ⟨_, hreturned⟩, fun sort hsort h => ?_⟩
  have hnil : sort [] = [] := (hsort []).1.eq_nil
  have hload := h.1
  rw [serializeLockfileCanonical_eq] at hload
  dsimp only at hload
  rw [hnil, loadLockfile_of_not_clean implementsToml_readToml (accepted_of_parseLockfile hreturned)
    (by decide)] at hload
  cases hload

end RoundTrip

end StyioPlatform.Manifest
