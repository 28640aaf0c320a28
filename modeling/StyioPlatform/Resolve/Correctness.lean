import StyioPlatform.Manifest.Validity
import StyioPlatform.Resolve.Closure

/-! What the resolver returns, and for which manifests. -/
namespace StyioPlatform.Resolve

open Manifest Relation

variable {w : World} {seeds : RootSeeds} {g g' : Graph} {s s' : ManifestSelection}
  {package : PackageConfig} {e : Entry}

section ids

theorem not_mem_of_isNamePart {c : Char} {part : List Char} (h : isNamePart part = true)
    (hc : isNameChar c = false) : c ∉ part := by
  intro hmem
  have hall : part.all isNameChar = true := by
    cases part with
    | nil => cases h
    | cons d rest =>
      simp only [isNamePart, Bool.and_eq_true] at h
      simp [isNameChar, h.1, h.2]
  rw [List.all_eq_true.mp hall c hmem] at hc
  cases hc

theorem not_mem_of_isPackageName {name : String} (h : isPackageName name = true) :
    '@' ∉ name.toList := by
  unfold isPackageName at h
  split at h
  · next owner rest hsplit =>
    rw [Bool.and_eq_true] at h
    have hname : name.toList = owner ++ '/' :: rest := by
      have : ['/'].intercalate (name.toList.splitOn '/') = name.toList :=
        List.intercalate_splitOn '/'
      rw [hsplit] at this
      rw [← this]
      simp [List.intercalate]
    rw [hname]
    have howner := not_mem_of_isNamePart (c := '@') h.1 (by decide)
    have hrest := not_mem_of_isNamePart (c := '@') h.2 (by decide)
    simp [howner, hrest]
  · cases h

/-- The name in a lock id. -/
def nameOfId (id : String) : List Char :=
  ((id.toList.takeWhile (· ≠ '@')).dropWhile (· ≠ ':')).drop 1

theorem nameOfId_buildLockId {origin : SourceOrigin} (h : isPackageName package.name = true) :
    nameOfId (buildLockId origin package) = package.name.toList := by
  have hname := not_mem_of_isPackageName h
  have hkind : '@' ∉ origin.kindText.toList ∧ ':' ∉ origin.kindText.toList := by
    cases origin <;> simp only [SourceOrigin.kindText] <;> decide
  obtain ⟨rest, hrest⟩ : ∃ rest, (buildLockId origin package).toList =
      (origin.kindText.toList ++ ':' :: package.name.toList) ++ '@' :: rest := by
    cases origin <;> simp [buildLockId, String.toList_append]
  have hbefore : ∀ c ∈ origin.kindText.toList ++ ':' :: package.name.toList,
      decide (c ≠ '@') = true := by
    intro c hc
    rw [decide_eq_true_eq]
    rintro rfl
    rcases List.mem_append.mp hc with hc | hc
    · exact hkind.1 hc
    · rcases List.mem_cons.mp hc with hc | hc
      · exact absurd hc (by decide)
      · exact hname hc
  have hcolon : ∀ c ∈ origin.kindText.toList, decide (c ≠ ':') = true := by
    intro c hc
    rw [decide_eq_true_eq]
    rintro rfl
    exact hkind.2 hc
  rw [nameOfId, hrest, List.takeWhile_append_of_pos hbefore]
  simp only [List.takeWhile_cons, ne_eq, not_true_eq_false, decide_false, Bool.false_eq_true,
    if_false, List.append_nil]
  rw [List.dropWhile_append_of_pos hcolon]
  simp

theorem valid_of_loadPackage (h : s.loadPackage w = .ok package) : ValidPackage package := by
  obtain ⟨path, doc, manifest, -, hmanifest, hpackage⟩ := exists_of_loadPackage h
  exact (valid_of_parseManifest hmanifest).package package hpackage

/-- Nodes have ids of their own, since they have names of their own. -/
theorem Sound.nodup_ids (h : Sound w seeds g) : (g.entries.map (·.id)).Nodup := by
  refine nodup_of_eq fun i j e e' hi hj hid => h.eq_of_name hi hj ?_
  obtain ⟨s, package, -, hload, rfl⟩ := h.source e (List.mem_of_getElem? hi)
  obtain ⟨s', package', -, hload', rfl⟩ := h.source e' (List.mem_of_getElem? hj)
  have hname : nameOfId (buildLockId s.origin package) = package.name.toList :=
    nameOfId_buildLockId (valid_of_loadPackage hload).name
  have hname' : nameOfId (buildLockId s'.origin package') = package'.name.toList :=
    nameOfId_buildLockId (valid_of_loadPackage hload').name
  have hsame : buildLockId s.origin package = buildLockId s'.origin package' := hid
  rw [hsame, hname'] at hname
  exact String.toList_inj.mp hname.symm

end ids

section results

variable {root : Path} {r : ResolvedGraphResult}

/-- A result comes from a search for all seeds. -/
theorem resolveGraph_eq_ok : resolveGraph w root seeds = .ok r ↔ ∃ g rootIds,
    seeds.selections.foldlM (resolveSeed w seeds.topLevelWorkspaceDirs (w.names.card + 1))
      (Graph.empty, []) = .ok (g, rootIds) ∧
    r.packages = (g.nodes.map Node.resolved).insertionSort (·.id ≤ ·.id) ∧ r = ⟨root,
      root.dropLast ++ ["spio.lock"], sorted rootIds.toFinset, r.packages,
      ⟨"spio " ++ w.projectVersion, "single-version-v1",
        r.packages.map ResolvedPackage.lockPackage⟩⟩ := by
  unfold resolveGraph
  rw [bind_ok_iff]
  constructor
  · rintro ⟨⟨g, rootIds⟩, hfold, h⟩
    cases h
    exact ⟨g, rootIds, hfold, rfl, rfl⟩
  · rintro ⟨g, rootIds, hfold, hpackages, hr⟩
    refine ⟨(g, rootIds), hfold, ?_⟩
    rw [hr, hpackages]

/-- Every package of a result is one of the closure. -/
theorem Searched.selected {state : Graph × List String} {before : List ManifestSelection}
    (h : Searched w seeds before state)
    (hpackages : r.packages = (state.1.nodes.map Node.resolved).insertionSort (·.id ≤ ·.id)) :
    ∀ p ∈ r.packages, ∃ s, Closure w seeds s ∧
      p.manifestPath = canonicalAbsolutePath s.manifestPath ∧ p.rootDir = s.packageDir ∧
      p.origin = s.origin ∧ s.loadPackage w = .ok p.package ∧
      p.id = buildLockId s.origin p.package := by
  intro p hp
  rw [hpackages, (List.perm_insertionSort _ _).mem_iff] at hp
  obtain ⟨n, hn, rfl⟩ := List.mem_map.mp hp
  obtain ⟨s, package, hs, hload, hentry⟩ := h.sound.source _ (List.mem_map_of_mem hn)
  have hpackage : n.resolved.package = package := congrArg Entry.package hentry
  refine ⟨s, hs, congrArg Entry.manifestPath hentry, congrArg Entry.packageDir hentry,
    congrArg Entry.origin hentry, ?_, ?_⟩
  · rw [hpackage]
    exact hload
  · rw [hpackage]
    exact congrArg Entry.id hentry

/-- A resolution ends with a result or with an exception. -/
theorem resolveSingleVersionGraph_ne_exhausted {w : World} {manifestPath : Path} :
    resolveSingleVersionGraph w manifestPath ≠ .error .exhausted := by
  refine bind_ne_exhausted attempt_ne_exhausted fun seeds _ => ?_
  refine bind_ne_exhausted ?_ fun _ _ => nofun
  refine foldlM_ne_error (I := Searched w seeds) Searched.start ?_ ?_
  · intro before seed state state' hseed hstate hround
    exact hstate.step hseed hround
  · intro before seed state hseed hstate
    refine bind_ne_exhausted ?_ fun found _ => ?_
    · exact resolveNode_ne_exhausted ⟨seed, hseed, .refl⟩ hstate.sound (by omega)
    · dsimp only
      split
      · exact attempt_ne_exhausted
      · exact nofun

end results

section selections

/-- The selections that the dependencies of a selection make. -/
def ManifestSelection.selections (w : World) (topLevelWorkspaceDirs : List String)
    (s : ManifestSelection) : List ManifestSelection :=
  match s.loadPackage w with
  | .ok package => (collectDependencies package).filterMap fun dependency =>
      (s.select w topLevelWorkspaceDirs dependency).toOption
  | .error _ => []

end selections

section samples

/-- The package name of a document that loads. -/
def packageNameOf (doc : Table) : Option String :=
  match parseManifest doc with
  | .ok manifest => manifest.package.map (·.name)
  | .error _ => none

/-- A world of some manifest files, and of what can be fetched. -/
def World.ofFiles (files : List (Path × Table)) (git : List ((String × String) × GitSnapshotResult))
    (registry : List ((String × String × String) × RegistryMaterializationResult)) : World where
  files path := (files.lookup path).map some
  names := (files.filterMap fun x => packageNameOf x.2).toFinset
  mem_names path doc manifest package hfile hparse hpackage := by
    have hlookup : files.lookup path = some doc := by simpa using hfile
    obtain ⟨before, after, hfiles, -⟩ := List.lookup_eq_some_iff.mp hlookup
    rw [List.mem_toFinset, List.mem_filterMap]
    exact ⟨(path, doc), by simp [hfiles], by simp [packageNameOf, hparse, hpackage]⟩
  materializeSnapshot origin revision :=
    match git.lookup (origin, revision) with
    | some snapshot => .ok snapshot
    | none => .error (.thrown .fetch "no snapshot")
  materializeRegistryPackage root package version :=
    match registry.lookup (root, package, version) with
    | some materialized => .ok materialized
    | none => .error (.thrown .fetch "no package")
  projectVersion := "0.1.0"

def pathDependency (source : String) : Toml := .table [("path", .string source)]

/-- A manifest with a package, its dependencies, and more sections. -/
def sampleManifest (name : String) (dependencies sections : Table) : Table :=
  [("dependencies", .table dependencies), ("lib", .table [("path", .string "src/lib.styio")]),
    ("package", .table [("edition", .string "2026"), ("name", .string name),
      ("version", .string "1.0.0")]),
    ("spio", .table [("manifest-version", .integer 1)]),
    ("toolchain", .table [("channel", .string "stable"), ("implicit-std", .boolean true)])] ++
    sections

/-- A package with a dependency in a directory of its own. -/
def linkedWorld : World := World.ofFiles
  [(["w", "spio.toml"], sampleManifest "a/a" [("b", pathDependency "lib")] []),
    (["w", "lib", "spio.toml"], sampleManifest "b/b" [] [])] [] []

end samples

/-- A result comes from a search for the seeds of its manifest. -/
theorem searched_of_resolve {w : World} {manifestPath : Path} {r : ResolvedGraphResult}
    (hr : resolveSingleVersionGraph w manifestPath = .ok r) :
    ∃ seeds g rootIds, buildRootSeeds w (canonicalAbsolutePath manifestPath) = .ok seeds ∧
      Searched w seeds seeds.selections (g, rootIds) ∧
      r.packages = (g.nodes.map Node.resolved).insertionSort (·.id ≤ ·.id) ∧
      r.rootIds = sorted rootIds.toFinset := by
  obtain ⟨seeds, hseeds, hgraph⟩ := bind_ok_iff.mp hr
  rw [attempt_eq_ok] at hseeds
  obtain ⟨g, rootIds, hfold, hpackages, hresult⟩ := resolveGraph_eq_ok.mp hgraph
  exact ⟨seeds, g, rootIds, hseeds, searched_of_foldlM hfold, hpackages, by rw [hresult]⟩

end StyioPlatform.Resolve
