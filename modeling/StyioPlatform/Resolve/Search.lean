import Mathlib.Logic.Relation
import StyioPlatform.Resolve.Resolver

/-! What the search of the resolver does to the graph, from any graph on the way. -/
namespace StyioPlatform.Resolve

open Manifest Relation

section Closure

variable (w : World) (topLevelWorkspaceDirs : List String)

/-- The selection that a dependency of a selected package makes. -/
def ManifestSelection.select (s : ManifestSelection) (dependency : Dependency) :
    Except Failure ManifestSelection :=
  selectDependency w topLevelWorkspaceDirs s.packageDir s.origin dependency

/-- A declared dependency of one selection makes the other. -/
def Selects (s s' : ManifestSelection) : Prop :=
  ∃ package, s.loadPackage w = .ok package ∧
    ∃ dependency ∈ collectDependencies package, s.select w topLevelWorkspaceDirs dependency = .ok s'

/-- The least set of selections that has the seeds and is closed under their dependencies. -/
def Closure (seeds : RootSeeds) (s : ManifestSelection) : Prop :=
  ∃ seed ∈ seeds.selections, ReflTransGen (Selects w seeds.topLevelWorkspaceDirs) seed s

end Closure

variable {w : World} {seeds : RootSeeds} {g g' base : Graph} {s s' selected : ManifestSelection}
  {package : PackageConfig} {e node : Entry} {index depth : ℕ} {before : List Dependency}
  {state state' : Graph × List ResolvedDependencyAlias} {dependency : Dependency}

@[simp] theorem attempt_eq_ok {α : Type} {x : Except Failure α} {a : α} :
    attempt x = .ok a ↔ x = .ok a := by
  cases x <;> simp [attempt, Except.mapError]

theorem Closure.step (h : Closure w seeds s) (hstep : Selects w seeds.topLevelWorkspaceDirs s s') :
    Closure w seeds s' := by
  obtain ⟨seed, hseed, hreach⟩ := h
  exact ⟨seed, hseed, hreach.tail hstep⟩

/-- The parts of the nodes that do not change. -/
def Graph.entries (g : Graph) : List Entry := g.nodes.map Node.toEntry

/-- The nodes come from selections of the closure, and the two maps are the inverses of their
fingerprints and of their names. -/
structure Sound (w : World) (seeds : RootSeeds) (g : Graph) : Prop where
  source : ∀ e ∈ g.entries, ∃ s package, Closure w seeds s ∧ s.loadPackage w = .ok package ∧
    e = s.entry package
  byFingerprint : ∀ fingerprint i, getKey g.nodeBySourceFingerprint fingerprint = some i ↔
    ∃ e, g.entries[i]? = some e ∧ e.sourceFingerprint = fingerprint
  byName : ∀ name i, getKey g.nodeByPackageName name = some i ↔
    ∃ e, g.entries[i]? = some e ∧ e.package.name = name

/-- The entry that a dependency of a node got, with what was checked of it. -/
structure Target (w : World) (seeds : RootSeeds) (entries : List Entry) (node : Entry)
    (dependency : Dependency) (e : Entry) : Prop where
  selected : ∃ s, selectDependency w seeds.topLevelWorkspaceDirs node.packageDir node.origin
    dependency = .ok s ∧ e.sourceFingerprint = s.fingerprint
  mem : e ∈ entries
  expected : ∀ name, dependency.package = some name → e.package.name = name
  other : e.sourceFingerprint ≠ node.sourceFingerprint

/-- The aliases of dependencies, with the ids of their targets. -/
def namedTargets (dependencies : List Dependency) (targets : List Entry) :
    List ResolvedDependencyAlias :=
  List.zipWith (fun dependency e => ⟨dependency.aliasName, e.id⟩) dependencies targets

theorem packageIds_namedTargets {dependencies : List Dependency} {targets : List Entry}
    (h : dependencies.length = targets.length) :
    (namedTargets dependencies targets).map (·.packageId) = targets.map (·.id) := by
  induction dependencies generalizing targets with
  | nil =>
    cases targets with
    | nil => rfl
    | cons e targets => cases h
  | cons dependency dependencies ih =>
    cases targets with
    | nil => cases h
    | cons e targets =>
      have htail := ih (Nat.succ.inj h)
      simpa [namedTargets] using htail

/-- A node whose dependencies are resolved. -/
def Finished (w : World) (seeds : RootSeeds) (entries : List Entry) (node : Node) : Prop :=
  ∃ targets, List.Forall₂ (Target w seeds entries node.toEntry)
    (collectDependencies node.package) targets ∧
    node.dependencies = sorted (targets.map (·.id)).toFinset ∧
    node.dependencyAliases = (namedTargets (collectDependencies node.package) targets).insertionSort
      (·.aliasName ≤ ·.aliasName)

theorem Target.mono {entries entries' : List Entry} (h : Target w seeds entries node dependency e)
    (hsubset : ∀ e ∈ entries, e ∈ entries') : Target w seeds entries' node dependency e :=
  ⟨h.selected, hsubset e h.mem, h.expected, h.other⟩

theorem Finished.mono {entries entries' : List Entry} {n : Node}
    (h : Finished w seeds entries n) (hsubset : ∀ e ∈ entries, e ∈ entries') :
    Finished w seeds entries' n := by
  obtain ⟨targets, htargets, hdependencies⟩ := h
  exact ⟨targets, htargets.imp fun _ _ ht => ht.mono hsubset, hdependencies⟩

theorem entries_subset (h : g.nodes <+: g'.nodes) : ∀ e ∈ g.entries, e ∈ g'.entries := by
  intro e he
  obtain ⟨n, hn, rfl⟩ := List.mem_map.mp he
  exact List.mem_map_of_mem (h.subset hn)

theorem Graph.entries_push : (g.push e).entries = g.entries ++ [e] := by
  simp [Graph.entries, Graph.push]

theorem Graph.length_entries : g.entries.length = g.nodes.length := by
  simp [Graph.entries]

theorem Graph.entries_finish {aliases : List ResolvedDependencyAlias} :
    (g.finish index aliases).entries = g.entries := by
  apply List.ext_getElem?
  intro i
  simp only [Graph.entries, Graph.finish, List.getElem?_map, List.getElem?_modify]
  split
  · cases g.nodes[i]? <;> rfl
  · cases g.nodes[i]? <;> rfl

theorem Sound.empty : Sound w seeds Graph.empty where
  source := nofun
  byFingerprint := by simp [Graph.empty, Graph.entries, getKey]
  byName := by simp [Graph.empty, Graph.entries, getKey]

/-- A map that is the inverse of a function of the entries stays so when an entry is added for
which it has no value yet. -/
theorem getKey_push {entries : List Entry} {m : List (String × ℕ)} {f : Entry → String}
    (h : ∀ k i, getKey m k = some i ↔ ∃ e, entries[i]? = some e ∧ f e = k)
    (hnone : getKey m (f e) = none) (k : String) (i : ℕ) :
    getKey (setKey m (f e) entries.length) k = some i ↔
      ∃ e', (entries ++ [e])[i]? = some e' ∧ f e' = k := by
  rw [getKey_setKey]
  split
  · next heq =>
    subst heq
    rw [Option.some.injEq]
    constructor
    · rintro rfl
      exact ⟨e, by simp, rfl⟩
    · rintro ⟨e', he', hk⟩
      rcases lt_trichotomy i entries.length with hlt | heq | hgt
      · rw [List.getElem?_append_left hlt] at he'
        have := (h (f e) i).mpr ⟨e', he', hk⟩
        rw [hnone] at this
        cases this
      · exact heq.symm
      · rw [List.getElem?_eq_none (by simp; omega)] at he'
        cases he'
  · next hne =>
    rw [h]
    constructor
    · rintro ⟨e', he', hk⟩
      have hlt : i < entries.length := (List.getElem?_eq_some_iff.mp he').1
      exact ⟨e', by rwa [List.getElem?_append_left hlt], hk⟩
    · rintro ⟨e', he', hk⟩
      rcases Nat.lt_or_ge i entries.length with hlt | hge
      · exact ⟨e', by rwa [List.getElem?_append_left hlt] at he', hk⟩
      · rw [List.getElem?_append_right hge, List.getElem?_singleton] at he'
        split at he'
        · cases he'
          exact absurd hk.symm hne
        · cases he'

theorem Sound.push (h : Sound w seeds g) (hs : Closure w seeds s)
    (hload : s.loadPackage w = .ok package)
    (hfingerprint : getKey g.nodeBySourceFingerprint s.fingerprint = none)
    (hname : getKey g.nodeByPackageName package.name = none) :
    Sound w seeds (g.push (s.entry package)) where
  source e he := by
    rw [Graph.entries_push] at he
    rcases List.mem_append.mp he with he | he
    · exact h.source e he
    · rw [List.mem_singleton.mp he]
      exact ⟨s, package, hs, hload, rfl⟩
  byFingerprint k i := by
    rw [Graph.entries_push]
    rw [Graph.push, ← Graph.length_entries]
    exact @getKey_push (s.entry package) _ _ (·.sourceFingerprint) h.byFingerprint hfingerprint k i
  byName k i := by
    rw [Graph.entries_push]
    rw [Graph.push, ← Graph.length_entries]
    exact @getKey_push (s.entry package) _ _ (·.package.name) h.byName hname k i

theorem Sound.finish {aliases : List ResolvedDependencyAlias} (h : Sound w seeds g) :
    Sound w seeds (g.finish index aliases) := by
  refine ⟨?_, ?_, ?_⟩
  · rw [Graph.entries_finish]
    exact h.source
  · rw [Graph.entries_finish]
    exact h.byFingerprint
  · rw [Graph.entries_finish]
    exact h.byName

/-- What the search for a selection does to a graph: the nodes that were there stay as they are,
the selection is among the nodes, and all nodes that are new are finished. -/
structure Reaches (w : World) (seeds : RootSeeds) (g : Graph) (selected : ManifestSelection)
    (index : ℕ) (g' : Graph) : Prop where
  sound : Sound w seeds g'
  kept : g.nodes <+: g'.nodes
  found : ∃ e, g'.entries[index]? = some e ∧ e.sourceFingerprint = selected.fingerprint
  finished : ∀ i n, g.nodes.length ≤ i → g'.nodes[i]? = some n → Finished w seeds g'.entries n

/-- The loop over the dependencies of a node, after some of them; the node is the last one of the
graph in which the loop starts. -/
structure Loop (w : World) (seeds : RootSeeds) (base : Graph) (node : Entry)
    (before : List Dependency) (state : Graph × List ResolvedDependencyAlias) : Prop where
  sound : Sound w seeds state.1
  kept : base.nodes <+: state.1.nodes
  finished : ∀ i n, base.nodes.length ≤ i → state.1.nodes[i]? = some n →
    Finished w seeds state.1.entries n
  targets : ∃ targets, List.Forall₂ (Target w seeds state.1.entries node) before targets ∧
    state.2 = namedTargets before targets

theorem Loop.start (h : Sound w seeds base) : Loop w seeds base node [] (base, []) where
  sound := h
  kept := List.prefix_rfl
  finished i n hi hn := by
    have : i < base.nodes.length := (List.getElem?_eq_some_iff.mp hn).1
    omega
  targets := ⟨[], .nil, rfl⟩

/-- A round of the loop, given what the search in it does. -/
theorem Loop.step {search : Graph → ManifestSelection → Except Stop (ℕ × Graph)}
    (h : Loop w seeds base node before state)
    (hsearch : ∀ selected index g', selectDependency w seeds.topLevelWorkspaceDirs node.packageDir
      node.origin dependency = .ok selected → search state.1 selected = .ok (index, g') →
      Reaches w seeds state.1 selected index g')
    (hround : resolveDependency w seeds.topLevelWorkspaceDirs search node state dependency =
      .ok state') : Loop w seeds base node (before ++ [dependency]) state' := by
  unfold resolveDependency at hround
  obtain ⟨selected, hselected, hround⟩ := bind_ok_iff.mp hround
  rw [attempt_eq_ok] at hselected
  obtain ⟨⟨index, g'⟩, hfound, hround⟩ := bind_ok_iff.mp hround
  have hreaches := hsearch selected index g' hselected hfound
  obtain ⟨e, he, hfingerprint⟩ := hreaches.found
  obtain ⟨n, hn, rfl⟩ : ∃ n, g'.nodes[index]? = some n ∧ n.toEntry = e := by
    simpa [Graph.entries] using he
  dsimp only at hround
  rw [hn] at hround
  dsimp only at hround
  split at hround
  · cases hround
  · next hexpected =>
    split at hround
    · cases hround
    · next hother =>
      cases hround
      have hsubset := entries_subset hreaches.kept
      have htarget : Target w seeds g'.entries node dependency n.toEntry := by
        refine ⟨⟨selected, hselected, hfingerprint⟩, ?_, fun name hname => ?_, hother⟩
        · exact List.mem_of_getElem? he
        · by_contra hne
          exact hexpected (by simp [hname, Ne.symm hne])
      refine ⟨hreaches.sound, h.kept.trans hreaches.kept, fun i m hi hm => ?_, ?_⟩
      · rcases Nat.lt_or_ge i state.1.nodes.length with hlt | hge
        · obtain ⟨rest, hrest⟩ := hreaches.kept
          rw [← hrest, List.getElem?_append_left hlt] at hm
          exact (h.finished i m hi hm).mono hsubset
        · exact hreaches.finished i m hge hm
      · obtain ⟨targets, htargets, hnames⟩ := h.targets
        refine ⟨targets ++ [n.toEntry], ?_, ?_⟩
        · exact List.rel_append (htargets.imp fun _ _ ht => ht.mono hsubset) (.cons htarget .nil)
        · rw [namedTargets, List.zipWith_append htargets.length_eq, hnames]
          rfl

theorem modify_append_cons {α : Type} {l rest : List α} {a : α} {f : α → α} :
    (l ++ a :: rest).modify l.length f = l ++ f a :: rest := by
  induction l with
  | nil => rfl
  | cons b l ih => simp [ih]

/-- The node is finished when its loop ends. -/
theorem Loop.reaches {aliases : List ResolvedDependencyAlias}
    (h : Loop w seeds (g.push (s.entry package)) (s.entry package) (collectDependencies package)
      (g', aliases)) :
    Reaches w seeds g s g.nodes.length (g'.finish g.nodes.length aliases) := by
  obtain ⟨rest, hrest⟩ := h.kept
  have hnodes : g'.nodes = g.nodes ++ (⟨s.entry package, [], []⟩ : Node) :: rest := by
    rw [← hrest]
    simp [Graph.push]
  have hfinish : (g'.finish g.nodes.length aliases).nodes = g.nodes ++ (⟨s.entry package,
      sorted (aliases.map (·.packageId)).toFinset,
      aliases.insertionSort (·.aliasName ≤ ·.aliasName)⟩ : Node) :: rest := by
    rw [Graph.finish, hnodes, modify_append_cons]
  obtain ⟨targets, htargets, hnames⟩ := h.targets
  dsimp only at hnames
  refine ⟨h.sound.finish, ?_, ?_, fun i n hi hn => ?_⟩
  · rw [hfinish]
    exact List.prefix_append ..
  · rw [Graph.entries_finish]
    refine ⟨s.entry package, ?_, rfl⟩
    simp [Graph.entries, hnodes]
  · rw [Graph.entries_finish]
    rw [hfinish] at hn
    rcases Nat.lt_or_ge g.nodes.length i with hlt | hge
    · -- a node after this one was finished by the loop
      refine h.finished i n ?_ ?_
      · simp only [Graph.push, List.length_append, List.length_singleton]
        omega
      · obtain ⟨k, rfl⟩ : ∃ k, i = g.nodes.length + (k + 1) := ⟨i - g.nodes.length - 1, by omega⟩
        rw [List.getElem?_append_right (by omega), Nat.add_sub_cancel_left,
          List.getElem?_cons_succ] at hn
        rwa [hnodes, List.getElem?_append_right (by omega), Nat.add_sub_cancel_left,
          List.getElem?_cons_succ]
    · obtain rfl : i = g.nodes.length := by omega
      rw [List.getElem?_append_right le_rfl, Nat.sub_self, List.getElem?_cons_zero,
        Option.some.injEq] at hn
      subst hn
      refine ⟨targets, htargets, ?_, by rw [hnames]; rfl⟩
      rw [hnames, packageIds_namedTargets htargets.length_eq]

/-- The search keeps the graph sound and finishes what it adds. -/
theorem resolveNode_reaches (hclosure : Closure w seeds selected) (h : Sound w seeds g)
    (hresolve : resolveNode w seeds.topLevelWorkspaceDirs depth g selected = .ok (index, g')) :
    Reaches w seeds g selected index g' := by
  induction depth generalizing g selected index g' with
  | zero => cases hresolve
  | succ depth ih =>
    rw [resolveNode] at hresolve
    have hold : ∀ i, (∃ e, g.entries[i]? = some e ∧ e.sourceFingerprint = selected.fingerprint) →
        Reaches w seeds g selected i g := by
      intro i hfound
      refine ⟨h, List.prefix_rfl, hfound, fun j n hj hn => ?_⟩
      have := (List.getElem?_eq_some_iff.mp hn).1
      omega
    cases hfingerprint : getKey g.nodeBySourceFingerprint selected.fingerprint with
    | some i =>
      rw [hfingerprint] at hresolve
      cases hresolve
      exact hold index ((h.byFingerprint _ _).mp hfingerprint)
    | none =>
      rw [hfingerprint] at hresolve
      obtain ⟨package, hload, hresolve⟩ := bind_ok_iff.mp hresolve
      rw [attempt_eq_ok] at hload
      dsimp only at hresolve
      cases hname : getKey g.nodeByPackageName package.name with
      | some i =>
        -- the node of that name has another fingerprint, so the search stops
        rw [hname] at hresolve
        dsimp only at hresolve
        cases hn : g.nodes[i]? with
        | none => simp [hn] at hresolve
        | some n =>
          rw [hn] at hresolve
          dsimp only at hresolve
          split at hresolve
          · cases hresolve
          · split at hresolve
            · cases hresolve
            · next hsame =>
              cases hresolve
              refine hold index ⟨n.toEntry, by simp [Graph.entries, hn], ?_⟩
              simpa using hsame
      | none =>
        rw [hname] at hresolve
        dsimp only at hresolve
        obtain ⟨⟨g₁, aliases⟩, hloop, hresolve⟩ := bind_ok_iff.mp hresolve
        cases hresolve
        refine Loop.reaches (foldlM_ok (I := Loop w seeds _ _)
          (Loop.start (h.push hclosure hload hfingerprint hname)) ?_ hloop)
        intro before dependency state state' hmem hstate hround
        refine hstate.step (fun s i g' hselect hsearch => ih ?_ hstate.sound hsearch) hround
        exact hclosure.step ⟨package, hload, dependency, hmem, hselect⟩

end StyioPlatform.Resolve
