import StyioPlatform.Resolve.Spellings

/-! The resolver does not depend on the spelling of paths and the order of members, as long as they
are plainly listed. -/
namespace StyioPlatform.Resolve

open Manifest

theorem agree_attempt {α β : Type} {R : α → β → Prop} {x : Except Failure α} {y : Except Failure β}
    (h : Agree R x y) : Agree R (attempt x) (attempt y) := by
  cases x <;> cases y <;> exact h

structure EntryAlike (e e' : Entry) : Prop where
  rest : e' = { e with package := e'.package }
  package : PackageAlike e.package e'.package

structure NodeAlike (n n' : Node) : Prop where
  entry : EntryAlike n.toEntry n'.toEntry
  dependencies : n.dependencies = n'.dependencies
  dependencyAliases : n.dependencyAliases = n'.dependencyAliases

structure GraphAlike (g g' : Graph) : Prop where
  nodes : List.Forall₂ NodeAlike g.nodes g'.nodes
  byFingerprint : g.nodeBySourceFingerprint = g'.nodeBySourceFingerprint
  byName : g.nodeByPackageName = g'.nodeByPackageName

variable {w w' : World} {root : Path} {s : ManifestSelection} {g g' : Graph}
  {e e' : Entry} {seeds seeds' : RootSeeds} {package package' : PackageConfig}
  {d d' : Dependency} {depth : ℕ}

theorem GraphAlike.push (h : GraphAlike g g') (he : EntryAlike e e') :
    GraphAlike (g.push e) (g'.push e') where
  nodes := List.rel_append h.nodes (.cons ⟨he, rfl, rfl⟩ .nil)
  byFingerprint := by
    have hfingerprint : e'.sourceFingerprint = e.sourceFingerprint := by rw [he.rest]
    rw [Graph.push, Graph.push, h.byFingerprint, hfingerprint, h.nodes.length_eq]
  byName := by
    rw [Graph.push, Graph.push, h.byName, he.package.name_eq, h.nodes.length_eq]

theorem GraphAlike.finish (h : GraphAlike g g') (index : ℕ)
    (aliases : List ResolvedDependencyAlias) :
    GraphAlike (g.finish index aliases) (g'.finish index aliases) where
  nodes := forall₂_modify (fun _ _ hn => ⟨hn.entry, rfl, rfl⟩) h.nodes index
  byFingerprint := h.byFingerprint
  byName := h.byName

theorem forall₂_collectDependencies (h : PackageAlike package package') :
    List.Forall₂ DependencyAlike (collectDependencies package) (collectDependencies package') := by
  refine forall₂_insertionSort ?_ (List.rel_append h.dependencies h.devDependencies)
  intro a a' b b' ha hb
  rw [ha.aliasName_eq, hb.aliasName_eq]

theorem entryAlike_entry (h : PackageAlike package package') :
    EntryAlike (s.entry package) (s.entry package') := by
  refine ⟨?_, h⟩
  have hid : buildLockId s.origin package' = buildLockId s.origin package := by
    unfold buildLockId
    rw [h.name_eq, h.version_eq]
  rw [ManifestSelection.entry, ManifestSelection.entry, hid]

theorem Respelled.loadPackage (h : Respelled w w') :
    Agree PackageAlike (s.loadPackage w) (s.loadPackage w') := by
  rw [ManifestSelection.loadPackage, ManifestSelection.loadPackage]
  refine (h.documents _).bind fun doc doc' _ _ hdoc => ?_
  rcases optionRel_cases hdoc.package with ⟨package, package', hp, hp', halike⟩ | ⟨hp, hp'⟩
  · rw [hp, hp']
    exact halike
  · rw [hp, hp']
    dsimp only
    split <;> trivial

/-- What the resolver looks up for a selection is plain. -/
theorem plainLookup_of_plain (hplain : Plain w root)
    (hseeds : Resolve.buildRootSeeds w root = .ok seeds) (hclosure : Closure w seeds s)
    (hload : s.loadPackage w = .ok package) (hd : d ∈ collectDependencies package) :
    PlainLookup w s.packageDir d :=
  fun path expected hlookup hpackage => hplain.lookups seeds s path expected hseeds hclosure
    ⟨package, hload, d, hd, hlookup, hpackage⟩

/-- The states of the two searches: graphs that are alike, and equal values beside them. -/
def StateAlike {α : Type} (x x' : Graph × α) : Prop := GraphAlike x.1 x'.1 ∧ x.2 = x'.2

/-- The results of the two searches for a selection. -/
def FoundAlike (x x' : ℕ × Graph) : Prop := x.1 = x'.1 ∧ GraphAlike x.2 x'.2

theorem Respelled.resolveDependency {resolve resolve' : Graph → ManifestSelection →
      Except Stop (ℕ × Graph)} {state state' : Graph × List ResolvedDependencyAlias}
    (h : Respelled w w') (hseeds : SeedsAlike seeds seeds') (he : EntryAlike e e')
    (hd : DependencyAlike d d') (hat : PlainLookup w e.packageDir d)
    (hat' : PlainLookup w' e.packageDir d') (hstate : StateAlike state state')
    (hresolve : ∀ s g g', Resolve.selectDependency w seeds.topLevelWorkspaceDirs e.packageDir
        e.origin d = .ok s →
      Resolve.selectDependency w' seeds'.topLevelWorkspaceDirs e.packageDir e.origin d' = .ok s →
      GraphAlike g g' → Agree FoundAlike (resolve g s) (resolve' g' s)) :
    Agree StateAlike (resolveDependency w seeds.topLevelWorkspaceDirs resolve e state d)
      (resolveDependency w' seeds'.topLevelWorkspaceDirs resolve' e' state' d') := by
  have hdir : e'.packageDir = e.packageDir := by rw [he.rest]
  have horigin : e'.origin = e.origin := by rw [he.rest]
  have hfingerprint : e'.sourceFingerprint = e.sourceFingerprint := by rw [he.rest]
  unfold Resolve.resolveDependency
  rw [hdir, horigin, hfingerprint, hd.package_eq, hd.aliasName_eq]
  refine (agree_attempt (h.selectDependency hseeds.dirs hd hat hat')).bind fun s s' hs hs' heq => ?_
  obtain rfl := heq
  refine (hresolve s _ _ (attempt_eq_ok.mp hs) (attempt_eq_ok.mp hs') hstate.1).bind ?_
  rintro ⟨index, g⟩ ⟨index', g'⟩ - - ⟨hindex, hg⟩
  obtain rfl : index = index' := hindex
  dsimp only
  rcases optionRel_cases (forall₂_getElem? hg.nodes index) with ⟨n, n', hn, hn', hnode⟩ | ⟨hn, hn'⟩
  · rw [hn, hn']
    have hname := hnode.entry.package.name_eq
    have hprint : n'.sourceFingerprint = n.sourceFingerprint := by rw [hnode.entry.rest]
    have hid : n'.id = n.id := by rw [hnode.entry.rest]
    dsimp only
    rw [hname, hprint, hid]
    split
    · trivial
    · split
      · trivial
      · exact ⟨hg, by rw [hstate.2]⟩
  · rw [hn, hn']
    trivial

/-- The search for a selection: by induction on the depth, with the selections of both closures. -/
theorem Respelled.resolveNode (h : Respelled w w') (hseeds : SeedsAlike seeds seeds')
    (hplain : Plain w root) (hplain' : Plain w' root)
    (hroot : Resolve.buildRootSeeds w root = .ok seeds)
    (hroot' : Resolve.buildRootSeeds w' root = .ok seeds') (hs : Closure w seeds s)
    (hs' : Closure w' seeds' s) (hg : GraphAlike g g') :
    Agree FoundAlike (resolveNode w seeds.topLevelWorkspaceDirs depth g s)
      (resolveNode w' seeds'.topLevelWorkspaceDirs depth g' s) := by
  induction depth generalizing s g g' with
  | zero => trivial
  | succ depth ih =>
    unfold Resolve.resolveNode
    rw [← hg.byFingerprint]
    cases hknown : getKey g.nodeBySourceFingerprint s.fingerprint with
    | some index => exact ⟨rfl, hg⟩
    | none =>
      refine (agree_attempt h.loadPackage).bind fun package package' hload hload' halike => ?_
      rw [attempt_eq_ok] at hload hload'
      rw [← hg.byName, halike.name_eq]
      cases hnamed : getKey g.nodeByPackageName package.name with
      | some index =>
        dsimp only
        rcases optionRel_cases (forall₂_getElem? hg.nodes index) with ⟨n, n', hn, hn', hnode⟩ |
          ⟨hn, hn'⟩
        · rw [hn, hn']
          have hversion := hnode.entry.package.version_eq
          have hprint : n'.sourceFingerprint = n.sourceFingerprint := by rw [hnode.entry.rest]
          dsimp only
          rw [hversion, hprint, halike.version_eq]
          split
          · trivial
          · split
            · trivial
            · exact ⟨rfl, hg⟩
        · rw [hn, hn']
          trivial
      | none =>
        have hentry := entryAlike_entry (s := s) halike
        have hloop : Agree StateAlike
            ((collectDependencies package).foldlM (Resolve.resolveDependency w
              seeds.topLevelWorkspaceDirs (Resolve.resolveNode w seeds.topLevelWorkspaceDirs depth)
              (s.entry package)) (g.push (s.entry package), []))
            ((collectDependencies package').foldlM (Resolve.resolveDependency w'
              seeds'.topLevelWorkspaceDirs
              (Resolve.resolveNode w' seeds'.topLevelWorkspaceDirs depth)
              (s.entry package')) (g'.push (s.entry package'), [])) := by
          refine agree_foldlM (forall₂_mem (forall₂_collectDependencies halike))
            ⟨hg.push hentry, rfl⟩ ?_
          rintro state state' d d' hstate ⟨hd, hmem, hmem'⟩
          refine h.resolveDependency hseeds hentry hd
            (plainLookup_of_plain hplain hroot hs hload hmem)
            (plainLookup_of_plain hplain' hroot' hs' hload' hmem') hstate ?_
          intro next g g' hnext hnext' hg
          exact ih (hs.step ⟨package, hload, d, hmem, hnext⟩)
            (hs'.step ⟨package', hload', d', hmem', hnext'⟩) hg
        refine hloop.bind ?_
        rintro ⟨g₁, aliases⟩ ⟨g₁', aliases'⟩ - - ⟨hg₁, haliases⟩
        obtain rfl : aliases = aliases' := haliases
        refine ⟨hg.nodes.length_eq, ?_⟩
        rw [← hg.nodes.length_eq]
        exact hg₁.finish g.nodes.length aliases

theorem Respelled.resolveGraph (h : Respelled w w') (hseeds : SeedsAlike seeds seeds')
    (hplain : Plain w root) (hplain' : Plain w' root)
    (hroot : Resolve.buildRootSeeds w root = .ok seeds)
    (hroot' : Resolve.buildRootSeeds w' root = .ok seeds') :
    Agree SameResolution (resolveGraph w root seeds) (resolveGraph w' root seeds') := by
  have hloop : Agree StateAlike
      (seeds.selections.foldlM (resolveSeed w seeds.topLevelWorkspaceDirs (w.names.card + 1))
        (Graph.empty, []))
      (seeds'.selections.foldlM (resolveSeed w' seeds'.topLevelWorkspaceDirs (w'.names.card + 1))
        (Graph.empty, [])) := by
    rw [← hseeds.selections, ← h.names]
    refine agree_foldlM (forall₂_mem (List.forall₂_same.mpr fun _ _ => Eq.refl _))
      ⟨⟨.nil, rfl, rfl⟩, rfl⟩ ?_
    rintro state state' seed seed' hstate ⟨heq, hmem, -⟩
    obtain rfl := heq
    unfold resolveSeed
    have hmem' : seed ∈ seeds'.selections := hseeds.selections ▸ hmem
    refine (h.resolveNode hseeds hplain hplain' hroot hroot' ⟨seed, hmem, .refl⟩
      ⟨seed, hmem', .refl⟩ hstate.1).bind ?_
    rintro ⟨index, g⟩ ⟨index', g'⟩ - - ⟨hindex, hg⟩
    obtain rfl : index = index' := hindex
    dsimp only
    rcases optionRel_cases (forall₂_getElem? hg.nodes index) with ⟨n, n', hn, hn', hnode⟩ |
      ⟨hn, hn'⟩
    · rw [hn, hn']
      have hid : n'.id = n.id := by rw [hnode.entry.rest]
      exact ⟨hg, by rw [hstate.2, hid]⟩
    · rw [hn, hn']
      trivial
  refine hloop.bind ?_
  rintro ⟨g, rootIds⟩ ⟨g', rootIds'⟩ - - ⟨hg, hrootIds⟩
  obtain rfl : rootIds = rootIds' := hrootIds
  refine ⟨rfl, forall₂_insertionSort ?_ ?_⟩
  · intro p p' q q' hp hq
    rw [hp.id, hq.id]
  · rw [List.forall₂_map_left_iff, List.forall₂_map_right_iff]
    refine hg.nodes.imp fun n n' hn => ⟨?_, ?_, hn.entry.package, ?_, ?_, hn.dependencies,
      hn.dependencyAliases⟩
    all_goals
      dsimp only [Node.resolved]
      rw [hn.entry.rest]

section samples

end samples

end StyioPlatform.Resolve
