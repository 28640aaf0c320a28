import StyioPlatform.Protocols.CompilePlan

/-! The order in which the packages of a plan are built is a topological order. -/
namespace StyioPlatform.CompilePlan

open Resolve Relation DepthFirst

/-- The package of one id depends on that of the other. -/
def DependsOn (packages : List ResolvedPackage) (id dependency : String) : Prop :=
  ∃ p ∈ packages, p.id = id ∧ dependency ∈ p.dependencies

/-- The ids are distinct, and the dependencies are packages of the graph. -/
structure Consistent (packages : List ResolvedPackage) : Prop where
  nodup : (packages.map (·.id)).Nodup
  closed : ∀ p ∈ packages, ∀ dependency ∈ p.dependencies, ∃ q ∈ packages, q.id = dependency

/-- Every package is listed once, after all packages that it depends on. -/
structure IsPackageOrder (packages : List ResolvedPackage) (order : List String) : Prop where
  mem : ∀ id, id ∈ order ↔ ∃ p ∈ packages, p.id = id
  nodup : order.Nodup
  earlier : ∀ p ∈ packages, ∀ dependency ∈ p.dependencies,
    order.idxOf dependency < order.idxOf p.id

variable {packages : List ResolvedPackage} {p : ResolvedPackage} {id dependency : String}

/-- The vertices of the search. -/
def packageIds (packages : List ResolvedPackage) : Finset String := (packages.map (·.id)).toFinset

theorem mem_packageIds : id ∈ packageIds packages ↔ ∃ p ∈ packages, p.id = id := by
  simp [packageIds]

theorem Consistent.packageById_eq (h : Consistent packages) (hp : p ∈ packages) :
    packageById packages p.id = some p := by
  have hnodup := h.nodup
  clear h
  rw [packageById]
  induction packages with
  | nil => cases hp
  | cons q packages ih =>
    rw [List.map_cons, List.nodup_cons] at hnodup
    rcases List.mem_cons.mp hp with rfl | hp
    · simp
    · have hne : q.id ≠ p.id := fun hid => hnodup.1 (hid ▸ List.mem_map_of_mem hp)
      rw [List.find?_cons_of_neg (by simpa using hne)]
      exact ih hp hnodup.2

theorem Consistent.edge_iff (h : Consistent packages) :
    Edge (dependenciesOf packages) id dependency ↔ DependsOn packages id dependency := by
  constructor
  · rintro ⟨successors, hnext, hmem⟩
    obtain ⟨p, hp, rfl⟩ := Option.map_eq_some_iff.mp hnext
    have hid : p.id = id := by simpa using List.find?_some hp
    exact ⟨p, List.mem_of_find?_eq_some hp, hid, hmem⟩
  · rintro ⟨p, hp, rfl, hmem⟩
    refine ⟨p.dependencies, ?_, hmem⟩
    rw [dependenciesOf, h.packageById_eq hp]
    rfl

theorem Consistent.edge_eq (h : Consistent packages) :
    Edge (dependenciesOf packages) = DependsOn packages := by
  funext id dependency
  exact propext h.edge_iff

/-- A package on a cycle is a package of the graph. -/
theorem mem_packageIds_of_cycle (h : TransGen (DependsOn packages) id id) :
    id ∈ packageIds packages := by
  obtain ⟨dependency, ⟨p, hp, hid, -⟩, -⟩ := TransGen.head'_iff.mp h
  exact mem_packageIds.mpr ⟨p, hp, hid⟩

/-- The order or the cycle that the search finds. -/
theorem Consistent.buildPackageOrder_cases {graph : ResolvedGraphResult}
    (h : Consistent graph.packages) :
    (∃ order, buildPackageOrder graph = .ok order ∧ IsPackageOrder graph.packages order ∧
      ¬ ∃ id, TransGen (DependsOn graph.packages) id id) ∨
    (∃ message, buildPackageOrder graph = .error (.planError message) ∧
      ∃ id, TransGen (DependsOn graph.packages) id id) := by
  have hclosed : ∀ id ∈ packageIds graph.packages, ∀ dependency,
      Edge (dependenciesOf graph.packages) id dependency →
        dependency ∈ packageIds graph.packages := by
    intro id _ dependency hedge
    obtain ⟨p, hp, -, hmem⟩ := h.edge_iff.mp hedge
    exact mem_packageIds.mpr (h.closed p hp dependency hmem)
  have hknown : ∀ id ∈ packageIds graph.packages, dependenciesOf graph.packages id ≠ none := by
    intro id hid
    obtain ⟨p, hp, rfl⟩ := mem_packageIds.mp hid
    rw [dependenciesOf, h.packageById_eq hp]
    exact Option.some_ne_none _
  have hroots : ∀ id, id ∈ (graph.packages.map (·.id)).insertionSort (· ≤ ·) ↔
      id ∈ packageIds graph.packages := by
    intro id
    rw [List.mem_insertionSort, packageIds, List.mem_toFinset]
  have hdepth : (packageIds graph.packages).card < graph.packages.length + 1 := by
    have hcard := List.toFinset_card_le (graph.packages.map (·.id))
    rw [List.length_map] at hcard
    exact Nat.lt_succ_of_le hcard
  rw [buildPackageOrder]
  rcases visitAll_cases hclosed hknown hroots hdepth with
    ⟨order, hrun, horder, hacyclic⟩ | ⟨path, hrun, id, -, hcycle⟩
  · rw [hrun]
    refine .inl ⟨order, rfl, ⟨?_, horder.nodup, ?_⟩, ?_⟩
    · intro id
      exact (horder.mem id).trans mem_packageIds
    · intro p hp dependency hdependency
      exact horder.earlier p.id (mem_packageIds.mpr ⟨p, hp, rfl⟩) dependency
        (h.edge_iff.mpr ⟨p, hp, rfl, hdependency⟩)
    · rintro ⟨id, hcycle⟩
      exact hacyclic id (mem_packageIds_of_cycle hcycle) (h.edge_eq ▸ hcycle)
  · rw [hrun]
    exact .inr ⟨_, rfl, id, h.edge_eq ▸ hcycle⟩

/-- The packages in another order are found under the same ids. -/
theorem dependenciesOf_congr {packages' : List ResolvedPackage} (h : Consistent packages)
    (h' : Consistent packages') (hmem : ∀ p, p ∈ packages' ↔ p ∈ packages) :
    dependenciesOf packages' = dependenciesOf packages := by
  funext id
  rw [dependenciesOf, dependenciesOf]
  congr 1
  by_cases hid : ∃ p ∈ packages, p.id = id
  · obtain ⟨p, hp, rfl⟩ := hid
    rw [h.packageById_eq hp, h'.packageById_eq ((hmem p).mpr hp)]
  · have hnone : ∀ q, q ∈ packages → q.id ≠ id := fun q hq hqid => hid ⟨q, hq, hqid⟩
    rw [packageById, packageById, List.find?_eq_none.mpr, List.find?_eq_none.mpr]
    · intro q hq
      simpa using hnone q hq
    · intro q hq
      simpa using hnone q ((hmem q).mp hq)

theorem buildPackageOrder_congr {graph graph' : ResolvedGraphResult}
    (h : Consistent graph.packages) (h' : Consistent graph'.packages)
    (hmem : ∀ p, p ∈ graph'.packages ↔ p ∈ graph.packages) :
    buildPackageOrder graph' = buildPackageOrder graph := by
  have hperm : graph'.packages.Perm graph.packages :=
    (List.perm_ext_iff_of_nodup h'.nodup.of_map h.nodup.of_map).mpr hmem
  have hids : (graph'.packages.map (·.id)).insertionSort (· ≤ ·) =
      (graph.packages.map (·.id)).insertionSort (· ≤ ·) := by
    refine List.Perm.eq_of_pairwise' (List.pairwise_insertionSort _ _)
      (List.pairwise_insertionSort _ _) ?_
    exact ((List.perm_insertionSort _ _).trans (hperm.map _)).trans
      (List.perm_insertionSort _ _).symm
  rw [buildPackageOrder, buildPackageOrder, dependenciesOf_congr h h' hmem, hids, hperm.length_eq]

/-- The order is built unless there is a cycle, it is a topological order, and it does not depend on
the order of the packages. -/
theorem buildPackageOrder_topological {graph : ResolvedGraphResult}
    (h : Consistent graph.packages) :
    ((∃ order, buildPackageOrder graph = .ok order) ∨
      ∃ message, buildPackageOrder graph = .error (.planError message)) ∧
    ((∃ message, buildPackageOrder graph = .error (.planError message)) ↔
      ∃ id, TransGen (DependsOn graph.packages) id id) ∧
    (∀ order, buildPackageOrder graph = .ok order → IsPackageOrder graph.packages order) ∧
    ∀ graph' : ResolvedGraphResult, (graph'.packages.map (·.id)).Nodup →
      (∀ p, p ∈ graph'.packages ↔ p ∈ graph.packages) →
        buildPackageOrder graph' = buildPackageOrder graph := by
  refine ⟨?_, ?_, ?_, ?_⟩
  · rcases h.buildPackageOrder_cases with ⟨order, hrun, -⟩ | ⟨message, hrun, -⟩
    · exact .inl ⟨order, hrun⟩
    · exact .inr ⟨message, hrun⟩
  · rcases h.buildPackageOrder_cases with ⟨order, hrun, -, hacyclic⟩ | ⟨message, hrun, hcycle⟩
    · rw [hrun]
      exact ⟨fun ⟨_, hmessage⟩ => (nomatch hmessage), fun hcycle => (hacyclic hcycle).elim⟩
    · exact ⟨fun _ => hcycle, fun _ => ⟨message, hrun⟩⟩
  · intro order hok
    rcases h.buildPackageOrder_cases with ⟨order', hrun, horder, -⟩ | ⟨message, hrun, -⟩
    · rw [hrun] at hok
      cases hok
      exact horder
    · rw [hrun] at hok
      cases hok
  · intro graph' hnodup hmem
    refine buildPackageOrder_congr h ⟨hnodup, ?_⟩ hmem
    intro p hp dependency hdependency
    obtain ⟨q, hq, hid⟩ := h.closed p ((hmem p).mp hp) dependency hdependency
    exact ⟨q, (hmem q).mpr hq, hid⟩

section Sample

/-- A package with the given dependencies. -/
def samplePackage (id : String) (dependencies : List String) : ResolvedPackage where
  manifestPath := ["w", id, "spio.toml"]
  rootDir := ["w", id]
  package := ⟨"o/" ++ id, "1.0.0", "2026", false, ⟨"stable", true⟩, some ⟨"lib.styio"⟩, [], [], [], []⟩
  id := id
  origin := .workspace
  dependencies := dependencies
  dependencyAliases := dependencies.map fun dependency => ⟨dependency, dependency⟩

def sampleGraph (packages : List ResolvedPackage) : ResolvedGraphResult where
  manifestPath := ["w", "spio.toml"]
  lockfilePath := ["w", "spio.lock"]
  rootIds := packages.map (·.id)
  packages := packages
  lockfile := ⟨"spio 1", "single-version-v1", packages.map ResolvedPackage.lockPackage⟩

/-- Two packages use a third one. -/
def diamondPackages : List ResolvedPackage :=
  [samplePackage "app" ["net", "text"], samplePackage "net" ["base"], samplePackage "text" ["base"],
    samplePackage "base" []]

theorem diamondPackages_consistent : Consistent diamondPackages := by
  constructor <;> decide

theorem diamond_order :
    buildPackageOrder (sampleGraph diamondPackages) = .ok ["base", "net", "text", "app"] ∧
    IsPackageOrder diamondPackages ["base", "net", "text", "app"] := by
  have hrun : buildPackageOrder (sampleGraph diamondPackages) =
      .ok ["base", "net", "text", "app"] := by decide +kernel
  have hconsistent : Consistent (sampleGraph diamondPackages).packages := diamondPackages_consistent
  obtain ⟨-, -, horder, -⟩ := buildPackageOrder_topological hconsistent
  exact ⟨hrun, horder _ hrun⟩

end Sample

end StyioPlatform.CompilePlan
