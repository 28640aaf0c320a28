import StyioPlatform.Protocols.CompilePlan
import StyioPlatform.Resolve.Correctness

/-! What the aliases of a plan name: the packages that the declarations selected, unless a package
declares one alias for two of them. -/
namespace StyioPlatform.CompilePlan

open Resolve Manifest

/-- The declarations of both tables. -/
def declarations (p : ResolvedPackage) : List Dependency :=
  p.package.dependencies ++ p.package.devDependencies

/-- What a declaration of the package selects. -/
def selection (w : World) (seeds : RootSeeds) (p : ResolvedPackage) (dependency : Dependency) :
    Except Manifest.Failure ManifestSelection :=
  selectDependency w seeds.topLevelWorkspaceDirs p.rootDir p.origin dependency

/-- The declaration selected the other package. -/
def Selected (w : World) (seeds : RootSeeds) (p : ResolvedPackage) (dependency : Dependency)
    (q : ResolvedPackage) : Prop :=
  ∃ s, selection w seeds p dependency = .ok s ∧ q.fingerprint = s.fingerprint

/-- Every alias stands for the package that its declaration selected, and there is no other one. -/
structure KeepsAliases (w : World) (seeds : RootSeeds) (packages : List ResolvedPackage)
    (p : ResolvedPackage) : Prop where
  kept : ∀ dependency ∈ declarations p, ∀ q ∈ packages, Selected w seeds p dependency q →
    (dependencyAliases p).get? dependency.aliasName = some (.string q.id)
  only : ∀ aliasName, ((dependencyAliases p).get? aliasName).isSome →
    ∃ dependency ∈ declarations p, dependency.aliasName = aliasName

/-- Declarations of one alias select one package. -/
def DeclaresOnce (w : World) (seeds : RootSeeds) (p : ResolvedPackage) : Prop :=
  ∀ dependency ∈ declarations p, ∀ dependency' ∈ declarations p,
    dependency.aliasName = dependency'.aliasName →
    ∀ s s', selection w seeds p dependency = .ok s → selection w seeds p dependency' = .ok s' →
      s.fingerprint = s'.fingerprint

variable {w : World} {seeds : RootSeeds} {g : Graph} {n : Node} {e : Entry} {p q : ResolvedPackage}
  {dependency : Dependency} {sources : Sources}

theorem get?_buildPackageJson {j : Json} (h : buildPackageJson sources p = .ok j) :
    j.get? "dependency_aliases" = some (dependencyAliases p) := by
  obtain ⟨targets, -, hj⟩ := bind_ok_iff.mp h
  cases hj
  simp [Json.ofFields, Json.get?, getKey_setKey]

theorem mem_namedTargets {R : Dependency → Entry → Prop} {l : List Dependency}
    {targets : List Entry} (h : List.Forall₂ R l targets) :
    (∀ entry ∈ namedTargets l targets,
      ∃ dependency ∈ l, ∃ e, R dependency e ∧ entry = ⟨dependency.aliasName, e.id⟩) ∧
    ∀ dependency ∈ l, ∃ e, R dependency e ∧ ⟨dependency.aliasName, e.id⟩ ∈ namedTargets l targets := by
  induction h with
  | nil => exact ⟨nofun, nofun⟩
  | @cons dependency e l targets hR _ ih =>
    constructor
    · intro entry hentry
      rcases List.mem_cons.mp hentry with rfl | hentry
      · exact ⟨dependency, by simp, e, hR, rfl⟩
      · obtain ⟨dependency', hmem, e', hR', hentry⟩ := ih.1 entry hentry
        exact ⟨dependency', List.mem_cons_of_mem _ hmem, e', hR', hentry⟩
    · intro dependency' hmem
      rcases List.mem_cons.mp hmem with rfl | hmem
      · exact ⟨e, hR, List.mem_cons_self⟩
      · obtain ⟨e', hR', hentry⟩ := ih.2 dependency' hmem
        exact ⟨e', hR', List.mem_cons_of_mem _ hentry⟩

theorem mem_declarations : dependency ∈ declarations p ↔
    dependency ∈ collectDependencies p.package := by
  rw [collectDependencies, List.mem_insertionSort, declarations]

/-- The members of `dependency_aliases` of a finished node. -/
theorem get?_dependencyAliases {entries : List Entry} (h : Finished w seeds entries n) :
    (∀ aliasName id, (dependencyAliases n.resolved).get? aliasName = some id →
      ∃ dependency ∈ declarations n.resolved, dependency.aliasName = aliasName ∧
        ∃ e, Target w seeds entries n.toEntry dependency e ∧ id = .string e.id) ∧
    ∀ dependency ∈ declarations n.resolved,
      ((dependencyAliases n.resolved).get? dependency.aliasName).isSome := by
  obtain ⟨targets, htargets, -, hnames⟩ := h
  have hmem := mem_namedTargets htargets
  have haliases : ∀ entry, entry ∈ n.dependencyAliases ↔
      entry ∈ namedTargets (collectDependencies n.package) targets := by
    intro entry
    rw [hnames, List.mem_insertionSort]
  constructor
  · intro aliasName id hget
    rcases exists_of_getKey_foldl hget with ⟨entry, hentry, hname, hid⟩ | hget
    · obtain ⟨dependency, hdependency, e, htarget, rfl⟩ := hmem.1 entry ((haliases entry).mp hentry)
      exact ⟨dependency, mem_declarations.mpr hdependency, hname, e, htarget, hid.symm⟩
    · cases hget
  · intro dependency hdependency
    obtain ⟨e, -, hentry⟩ := hmem.2 dependency (mem_declarations.mp hdependency)
    exact getKey_foldl_isSome (.inl ⟨_, (haliases _).mpr hentry, rfl⟩)

/-- A node of a sound graph keeps its aliases if and only if it declares each alias once. -/
theorem keepsAliases_node_iff {packages : List ResolvedPackage} (hg : Sound w seeds g)
    (hfinished : ∀ m ∈ g.nodes, Finished w seeds g.entries m)
    (hpackages : ∀ q, q ∈ packages ↔ ∃ m ∈ g.nodes, m.resolved = q) (hn : n ∈ g.nodes) :
    KeepsAliases w seeds packages n.resolved ↔ DeclaresOnce w seeds n.resolved := by
  have hfingerprint : ∀ m ∈ g.nodes, m.resolved.fingerprint = m.sourceFingerprint := by
    intro m hm
    obtain ⟨s, package, -, -, hentry⟩ := hg.source _ (List.mem_map_of_mem hm)
    rw [hentry]
    change buildSourceFingerprint m.origin m.packageDir = s.fingerprint
    rw [hentry]
    rfl
  have hmem : ∀ m ∈ g.nodes, m.toEntry ∈ g.entries := fun m hm => List.mem_map_of_mem hm
  have haliases := get?_dependencyAliases (hfinished n hn)
  constructor
  · -- the targets of both declarations have the id that the member names
    intro hkeeps dependency hdependency dependency' hdependency' hname s s' hs hs'
    have htarget : ∀ d ∈ declarations n.resolved, ∀ t, selection w seeds n.resolved d = .ok t →
        ∃ m ∈ g.nodes, m.sourceFingerprint = t.fingerprint ∧
          (dependencyAliases n.resolved).get? d.aliasName = some (.string m.id) := by
      intro d hd t ht
      obtain ⟨e, hetarget⟩ := (hfinished n hn).target (mem_declarations.mp hd)
      obtain ⟨t', ht', hsame⟩ := hetarget.selected
      obtain ⟨m, hm, rfl⟩ := List.mem_map.mp hetarget.mem
      have htt : t = t' := Except.ok.inj (ht.symm.trans ht')
      have hselected : Selected w seeds n.resolved d m.resolved :=
        ⟨t, ht, by rw [hfingerprint m hm, hsame, htt]⟩
      refine ⟨m, hm, by rw [hsame, htt], ?_⟩
      exact hkeeps.kept d hd m.resolved ((hpackages _).mpr ⟨m, hm, rfl⟩) hselected
    obtain ⟨m, hm, hmfingerprint, hmget⟩ := htarget dependency hdependency s hs
    obtain ⟨m', hm', hmfingerprint', hmget'⟩ := htarget dependency' hdependency' s' hs'
    rw [hname, hmget'] at hmget
    have hid : m.id = m'.id := (Json.string.inj (Option.some.inj hmget)).symm
    have hentry := List.inj_on_of_nodup_map hg.nodup_ids (hmem m hm) (hmem m' hm') hid
    rw [← hmfingerprint, ← hmfingerprint', hentry]
  · intro honce
    refine ⟨fun dependency hdependency q hq hselected => ?_, fun aliasName hsome => ?_⟩
    · obtain ⟨m, hm, rfl⟩ := (hpackages q).mp hq
      obtain ⟨s, hs, hsame⟩ := hselected
      obtain ⟨id, hget⟩ := Option.isSome_iff_exists.mp (haliases.2 dependency hdependency)
      obtain ⟨dependency', hdependency', hname, e, htarget, rfl⟩ := haliases.1 _ id hget
      obtain ⟨s', hs', hsame'⟩ := htarget.selected
      have hfingerprints := honce dependency hdependency dependency' hdependency' hname.symm s s' hs
        hs'
      have hentry : m.toEntry = e := by
        refine hg.entry_eq (hmem m hm) htarget.mem ?_
        rw [hsame', ← hfingerprints, ← hsame, hfingerprint m hm]
      rw [hget, ← hentry]
      rfl
    · obtain ⟨id, hget⟩ := Option.isSome_iff_exists.mp hsome
      obtain ⟨dependency, hdependency, hname, -⟩ := haliases.1 aliasName id hget
      exact ⟨dependency, hdependency, hname⟩

/-- The plan of a resolution keeps the aliases of a package if and only if the package declares each
alias for one package only. -/
theorem plan_keeps_aliases_iff {w : World} {manifestPath : Path} {r : ResolvedGraphResult}
    (hr : resolveSingleVersionGraph w manifestPath = .ok r) :
    ∃ seeds, buildRootSeeds w (canonicalAbsolutePath manifestPath) = .ok seeds ∧
      ∀ p ∈ r.packages,
        (∀ sources j, buildPackageJson sources p = .ok j →
          j.get? "dependency_aliases" = some (dependencyAliases p)) ∧
        (KeepsAliases w seeds r.packages p ↔ DeclaresOnce w seeds p) := by
  obtain ⟨seeds, g, rootIds, hseeds, hstate, hpackages, -⟩ := searched_of_resolve hr
  have hmem : ∀ q, q ∈ r.packages ↔ ∃ m ∈ g.nodes, m.resolved = q := by
    intro q
    rw [hpackages, List.mem_insertionSort, List.mem_map]
  refine ⟨seeds, hseeds, fun p hp => ⟨fun sources j hj => get?_buildPackageJson hj, ?_⟩⟩
  obtain ⟨n, hn, rfl⟩ := (hmem p).mp hp
  exact keepsAliases_node_iff hstate.sound hstate.finished hmem hn

section Sample

/-- A package that uses one alias for a library and, in its tests, for another one. -/
def sharedAliasWorld : World := World.ofFiles
  [(["w", "spio.toml"], sampleManifest "a/a" [("b", pathDependency "lib")]
      [("dev-dependencies", .table [("b", pathDependency "dev")])]),
    (["w", "lib", "spio.toml"], sampleManifest "b/b" [] []),
    (["w", "dev", "spio.toml"], sampleManifest "c/c" [] [])] [] []

/-- The declaration of `b`. -/
def declaredAlias (source : String) : Dependency := ⟨"b", none, .path, source, none, none⟩

theorem linkedWorld_keepsAliases : ∃ r seeds,
    resolveSingleVersionGraph linkedWorld ["w", "spio.toml"] = .ok r ∧
    ∀ p ∈ r.packages, KeepsAliases linkedWorld seeds r.packages p ↔
      DeclaresOnce linkedWorld seeds p := by
  have hreturns : (resolveSingleVersionGraph linkedWorld ["w", "spio.toml"]).toOption.isSome := by
    decide +kernel
  obtain ⟨r, hr⟩ := Option.isSome_iff_exists.mp hreturns
  obtain ⟨seeds, -, hplan⟩ := plan_keeps_aliases_iff (toOption_eq_some.mp hr)
  exact ⟨r, seeds, toOption_eq_some.mp hr, fun p hp => (hplan p hp).2⟩

/-- One of the two packages is lost. -/
theorem sharedAliasWorld_not_keepsAliases : ∃ r seeds,
    resolveSingleVersionGraph sharedAliasWorld ["w", "spio.toml"] = .ok r ∧
    buildRootSeeds sharedAliasWorld ["w", "spio.toml"] = .ok seeds ∧
    ∃ p ∈ r.packages, ¬ KeepsAliases sharedAliasWorld seeds r.packages p := by
  have hpackages : (resolveSingleVersionGraph sharedAliasWorld ["w", "spio.toml"]).toOption.map
      (fun r => r.packages.map fun p => (p.rootDir, p.origin, p.id, declarations p)) =
        some [(["w", "lib"], .path, "path:b/b@1.0.0", []),
          (["w", "dev"], .path, "path:c/c@1.0.0", []),
          (["w"], .workspace, "workspace:a/a@1.0.0",
            [declaredAlias "lib", declaredAlias "dev"])] := by
    decide +kernel
  have hseeds : buildRootSeeds sharedAliasWorld ["w", "spio.toml"] =
      .ok ⟨[⟨["w", "spio.toml"], .workspace⟩], ["/w"]⟩ := by
    decide +kernel
  obtain ⟨r, hr, hmap⟩ := Option.map_eq_some_iff.mp hpackages
  have hmem : ∀ x ∈ r.packages.map fun p => (p.rootDir, p.origin, p.id, declarations p),
      ∃ p ∈ r.packages, p.rootDir = x.1 ∧ p.origin = x.2.1 ∧ p.id = x.2.2.1 ∧
        declarations p = x.2.2.2 := by
    intro x hx
    obtain ⟨p, hp, rfl⟩ := List.mem_map.mp hx
    exact ⟨p, hp, rfl, rfl, rfl, rfl⟩
  rw [hmap] at hmem
  obtain ⟨q, hq, hqdir, hqorigin, hqid, -⟩ := hmem _ (List.mem_cons_self)
  obtain ⟨q', hq', hqdir', hqorigin', hqid', -⟩ :=
    hmem _ (List.mem_cons_of_mem _ List.mem_cons_self)
  obtain ⟨p, hp, hdir, horigin, -, hdeclarations⟩ :=
    hmem _ (List.mem_cons_of_mem _ (List.mem_cons_of_mem _ List.mem_cons_self))
  refine ⟨r, _, toOption_eq_some.mp hr, hseeds, p, hp, fun hkeeps => ?_⟩
  have hlib := hkeeps.kept (declaredAlias "lib") (by simp [hdeclarations]) q hq
    ⟨⟨["w", "lib", "spio.toml"], .path⟩, by rw [selection, hdir, horigin]; decide +kernel,
      by rw [ResolvedPackage.fingerprint, hqorigin, hqdir]; decide +kernel⟩
  have hdev := hkeeps.kept (declaredAlias "dev") (by simp [hdeclarations]) q' hq'
    ⟨⟨["w", "dev", "spio.toml"], .path⟩, by rw [selection, hdir, horigin]; decide +kernel,
      by rw [ResolvedPackage.fingerprint, hqorigin', hqdir']; decide +kernel⟩
  have hid : q.id = q'.id := Json.string.inj (Option.some.inj (hlib.symm.trans hdev))
  rw [hqid, hqid'] at hid
  exact absurd hid (by decide)

end Sample

end StyioPlatform.CompilePlan
