import StyioPlatform.Resolve.Search

/-! The search of the resolver against the closure of the seeds: that it ends, that it finds all of
a closure that can be resolved, and that it finds only such. -/
namespace StyioPlatform.Resolve

open Manifest Relation

/-- Two selections that stand for the same package: the same package is loaded for them, under the
same id, and its dependencies select the same fingerprints or fail alike. -/
structure Alike (w : World) (topLevelWorkspaceDirs : List String) (s s' : ManifestSelection) :
    Prop where
  package : (s.loadPackage w).toOption = (s'.loadPackage w).toOption
  id : ∀ package, s.loadPackage w = .ok package →
    buildLockId s.origin package = buildLockId s'.origin package
  select : ∀ package, s.loadPackage w = .ok package → ∀ dependency ∈ collectDependencies package,
    (s.select w topLevelWorkspaceDirs dependency).toOption.map ManifestSelection.fingerprint =
      (s'.select w topLevelWorkspaceDirs dependency).toOption.map ManifestSelection.fingerprint

/-- A fingerprint tells the selections of the closure apart as far as they differ. -/
def Unambiguous (w : World) (seeds : RootSeeds) : Prop :=
  ∀ s s', Closure w seeds s → Closure w seeds s' → s.fingerprint = s'.fingerprint →
    Alike w seeds.topLevelWorkspaceDirs s s'

def ResolvedPackage.fingerprint (p : ResolvedPackage) : String :=
  buildSourceFingerprint p.origin p.rootDir

variable {w : World} {seeds : RootSeeds} {g g' : Graph} {s s' selected : ManifestSelection}
  {package : PackageConfig} {e e' : Entry} {index depth : ℕ}

theorem toOption_eq_some {ε α : Type} {x : Except ε α} {a : α} :
    x.toOption = some a ↔ x = .ok a := by
  cases x <;> simp [Except.toOption]

theorem Alike.loadPackage {dirs : List String} (h : Alike w dirs s s')
    (hload : s.loadPackage w = .ok package) : s'.loadPackage w = .ok package := by
  rw [← toOption_eq_some, ← h.package, toOption_eq_some]
  exact hload

section names

/-- A package that loads is defined by the manifest that was selected. -/
theorem exists_of_loadPackage (h : s.loadPackage w = .ok package) :
    ∃ path doc manifest, w.files path = some (some doc) ∧ parseManifest doc = .ok manifest ∧
      manifest.package = some package := by
  unfold ManifestSelection.loadPackage at h
  obtain ⟨manifest, hmanifest, h⟩ := bind_ok_iff.mp h
  unfold World.loadManifest at hmanifest
  split at hmanifest
  · next doc hfile =>
    split at h
    · next hpackage =>
      cases h
      exact ⟨_, doc, manifest, hfile, hmanifest, hpackage⟩
    · split at h
      · cases h
      · cases h
  · cases hmanifest

theorem mem_names_of_loadPackage (h : s.loadPackage w = .ok package) : package.name ∈ w.names := by
  obtain ⟨path, doc, manifest, hfile, hmanifest, hpackage⟩ := exists_of_loadPackage h
  exact w.mem_names path doc manifest package hfile hmanifest hpackage


theorem Sound.eq_of_name (h : Sound w seeds g) {i j : ℕ} (hi : g.entries[i]? = some e)
    (hj : g.entries[j]? = some e') (hname : e.package.name = e'.package.name) : i = j := by
  have hi' := (h.byName e.package.name i).mpr ⟨e, hi, rfl⟩
  have hj' := (h.byName e.package.name j).mpr ⟨e', hj, hname.symm⟩
  rw [hi'] at hj'
  exact Option.some.inj hj'

theorem Sound.eq_of_fingerprint (h : Sound w seeds g) {i j : ℕ} (hi : g.entries[i]? = some e)
    (hj : g.entries[j]? = some e') (hfingerprint : e.sourceFingerprint = e'.sourceFingerprint) :
    i = j := by
  have hi' := (h.byFingerprint e.sourceFingerprint i).mpr ⟨e, hi, rfl⟩
  have hj' := (h.byFingerprint e.sourceFingerprint j).mpr ⟨e', hj, hfingerprint.symm⟩
  rw [hi'] at hj'
  exact Option.some.inj hj'

/-- Entries that are told apart by a text have different texts. -/
theorem nodup_of_eq {entries : List Entry} {f : Entry → String}
    (h : ∀ (i j : ℕ) (e e' : Entry), entries[i]? = some e → entries[j]? = some e' →
      f e = f e' → i = j) :
    (entries.map f).Nodup := by
  rw [List.nodup_iff_getElem?_ne_getElem?]
  intro i j hij hj hsame
  rw [List.length_map] at hj
  have hi : i < entries.length := by omega
  rw [List.getElem?_map, List.getElem?_map, List.getElem?_eq_getElem hi,
    List.getElem?_eq_getElem hj] at hsame
  have := h i j _ _ (List.getElem?_eq_getElem hi) (List.getElem?_eq_getElem hj)
    (Option.some.inj hsame)
  omega

theorem Sound.nodup_names (h : Sound w seeds g) : (g.entries.map (·.package.name)).Nodup :=
  nodup_of_eq fun _ _ _ _ hi hj => h.eq_of_name hi hj

/-- There are no more nodes than package names. -/
theorem Sound.length_le (h : Sound w seeds g) : g.nodes.length ≤ w.names.card := by
  have hsubset : (g.entries.map (·.package.name)).toFinset ⊆ w.names := by
    intro name hname
    obtain ⟨e, he, rfl⟩ := List.mem_map.mp (List.mem_toFinset.mp hname)
    obtain ⟨s, package, -, hload, rfl⟩ := h.source e he
    exact mem_names_of_loadPackage hload
  have hcard := Finset.card_le_card hsubset
  rw [List.toFinset_card_of_nodup h.nodup_names, List.length_map, Graph.length_entries] at hcard
  exact hcard

end names

section termination

theorem ok_ne_exhausted {α : Type} {a : α} : (.ok a : Except Stop α) ≠ .error .exhausted := by
  rintro ⟨⟩

theorem attempt_ne_exhausted {α : Type} {x : Except Failure α} : attempt x ≠ .error .exhausted := by
  cases x <;> simp [attempt, Except.mapError]

/-- A computation is cut off only where one of its parts is. -/
theorem bind_ne_exhausted {α β : Type} {x : Except Stop α} {f : α → Except Stop β}
    (hx : x ≠ .error .exhausted) (hf : ∀ a, x = .ok a → f a ≠ .error .exhausted) :
    (x >>= f) ≠ .error .exhausted := by
  cases x with
  | error e => simpa [bind, Except.bind] using hx
  | ok a => exact hf a rfl

/-- The search is not cut off in a depth that leaves room for all names. -/
theorem resolveNode_ne_exhausted (hclosure : Closure w seeds selected) (hg : Sound w seeds g)
    (hdepth : w.names.card < depth + g.nodes.length) :
    resolveNode w seeds.topLevelWorkspaceDirs depth g selected ≠ .error .exhausted := by
  induction depth generalizing g selected with
  | zero =>
    have := hg.length_le
    omega
  | succ depth ih =>
    rw [resolveNode]
    cases hfingerprint : getKey g.nodeBySourceFingerprint selected.fingerprint with
    | some i => exact ok_ne_exhausted
    | none =>
      refine bind_ne_exhausted attempt_ne_exhausted fun package hload => ?_
      rw [attempt_eq_ok] at hload
      cases hname : getKey g.nodeByPackageName package.name with
      | some i =>
        dsimp only
        cases g.nodes[i]? with
        | none => exact attempt_ne_exhausted
        | some n =>
          dsimp only
          split
          · exact attempt_ne_exhausted
          · split
            · exact attempt_ne_exhausted
            · exact ok_ne_exhausted
      | none =>
        have hpush := hg.push hclosure hload hfingerprint hname
        refine bind_ne_exhausted ?_ fun _ _ => ok_ne_exhausted
        refine foldlM_ne_error
          (I := Loop w seeds (g.push (selected.entry package)) (selected.entry package))
          (Loop.start hpush) ?_ ?_
        · intro before dependency state state' hmem hstate hround
          refine hstate.step (fun s i g' hselect hfound => ?_) hround
          have hs := hclosure.step ⟨package, hload, dependency, hmem, hselect⟩
          exact resolveNode_reaches hs hstate.sound hfound
        · intro before dependency state hmem hstate
          have hlength : g.nodes.length + 1 ≤ state.1.nodes.length := by
            have := hstate.kept.length_le
            simpa [Graph.push] using this
          refine bind_ne_exhausted attempt_ne_exhausted fun s hselect => ?_
          rw [attempt_eq_ok] at hselect
          have hs := hclosure.step ⟨package, hload, dependency, hmem, hselect⟩
          refine bind_ne_exhausted (ih hs hstate.sound (by omega)) fun found _ => ?_
          dsimp only
          split
          · exact attempt_ne_exhausted
          · split
            · exact attempt_ne_exhausted
            · split
              · exact attempt_ne_exhausted
              · exact ok_ne_exhausted

end termination

section completeness

end completeness

section soundness

variable {n : Node} {s₁ : ManifestSelection} {dependency : Dependency}

theorem exists_of_forall₂ {α β : Type} {R : α → β → Prop} {l : List α} {m : List β}
    (h : List.Forall₂ R l m) : (∀ a ∈ l, ∃ b ∈ m, R a b) ∧ ∀ b ∈ m, ∃ a ∈ l, R a b := by
  induction h with
  | nil => exact ⟨nofun, nofun⟩
  | cons hab _ ih =>
    refine ⟨fun a ha => ?_, fun b hb => ?_⟩
    · rcases List.mem_cons.mp ha with rfl | ha
      · exact ⟨_, List.mem_cons_self, hab⟩
      · obtain ⟨b, hb, hR⟩ := ih.1 a ha
        exact ⟨b, List.mem_cons_of_mem _ hb, hR⟩
    · rcases List.mem_cons.mp hb with rfl | hb
      · exact ⟨_, List.mem_cons_self, hab⟩
      · obtain ⟨a, ha, hR⟩ := ih.2 b hb
        exact ⟨a, List.mem_cons_of_mem _ ha, hR⟩

theorem Sound.entry_eq (h : Sound w seeds g) (he : e ∈ g.entries) (he' : e' ∈ g.entries)
    (hfingerprint : e.sourceFingerprint = e'.sourceFingerprint) : e = e' := by
  obtain ⟨i, hi⟩ := List.mem_iff_getElem?.mp he
  obtain ⟨j, hj⟩ := List.mem_iff_getElem?.mp he'
  have := h.eq_of_fingerprint hi hj hfingerprint
  subst this
  rw [hi] at hj
  exact Option.some.inj hj

theorem Finished.target {entries : List Entry} (h : Finished w seeds entries n)
    (hdependency : dependency ∈ collectDependencies n.package) :
    ∃ e, Target w seeds entries n.toEntry dependency e := by
  obtain ⟨targets, htargets, -⟩ := h
  obtain ⟨e, -, he⟩ := (exists_of_forall₂ htargets).1 dependency hdependency
  exact ⟨e, he⟩

/-- The graph when all seeds have been searched for. -/
structure Searched (w : World) (seeds : RootSeeds) (before : List ManifestSelection)
    (state : Graph × List String) : Prop where
  sound : Sound w seeds state.1
  finished : ∀ n ∈ state.1.nodes, Finished w seeds state.1.entries n
  roots : ∃ roots, List.Forall₂ (fun seed e => e ∈ state.1.entries ∧
    e.sourceFingerprint = ManifestSelection.fingerprint seed) before roots ∧
    state.2 = roots.map (·.id)

theorem Searched.step {before : List ManifestSelection} {state state' : Graph × List String}
    (h : Searched w seeds before state) (hseed : s ∈ seeds.selections)
    (hround : resolveSeed w seeds.topLevelWorkspaceDirs depth state s = .ok state') :
    Searched w seeds (before ++ [s]) state' := by
  unfold resolveSeed at hround
  obtain ⟨⟨index, g'⟩, hfound, hround⟩ := bind_ok_iff.mp hround
  have hreaches := resolveNode_reaches ⟨s, hseed, .refl⟩ h.sound hfound
  have hsubset := entries_subset hreaches.kept
  obtain ⟨e, he, hfingerprint⟩ := hreaches.found
  obtain ⟨n, hn, rfl⟩ : ∃ n, g'.nodes[index]? = some n ∧ n.toEntry = e := by
    simpa [Graph.entries] using he
  dsimp only at hround
  rw [hn] at hround
  cases hround
  refine ⟨hreaches.sound, fun m hm => ?_, ?_⟩
  · obtain ⟨i, hi⟩ := List.mem_iff_getElem?.mp hm
    rcases Nat.lt_or_ge i state.1.nodes.length with hlt | hge
    · obtain ⟨rest, hrest⟩ := hreaches.kept
      rw [← hrest, List.getElem?_append_left hlt] at hi
      exact (h.finished m (List.mem_of_getElem? hi)).mono hsubset
    · exact hreaches.finished i m hge hi
  · obtain ⟨roots, hroots, hids⟩ := h.roots
    refine ⟨roots ++ [n.toEntry], ?_, by simp [hids]⟩
    exact List.rel_append (hroots.imp fun _ _ hr => ⟨hsubset _ hr.1, hr.2⟩)
      (.cons ⟨List.mem_of_getElem? he, hfingerprint⟩ .nil)

theorem Searched.start : Searched w seeds [] (Graph.empty, []) where
  sound := Sound.empty
  finished := nofun
  roots := ⟨[], .nil, rfl⟩

theorem searched_of_foldlM {state : Graph × List String}
    (h : seeds.selections.foldlM (resolveSeed w seeds.topLevelWorkspaceDirs depth)
      (Graph.empty, []) = .ok state) : Searched w seeds seeds.selections state := by
  refine foldlM_ok (I := Searched w seeds) Searched.start ?_ h
  intro before seed state state' hmem hstate hround
  exact hstate.step hmem hround

/-- The node that stands for a selection of the closure. -/
structure Stands (w : World) (seeds : RootSeeds) (g : Graph) (s : ManifestSelection) (n : Node)
    (s₁ : ManifestSelection) (package : PackageConfig) : Prop where
  mem : n ∈ g.nodes
  entry : n.toEntry = s₁.entry package
  closure : Closure w seeds s₁
  load : s₁.loadPackage w = .ok package
  fingerprint : s₁.fingerprint = s.fingerprint

/-- A dependency of a selection selects what the node that stands for it got. -/
theorem Stands.target (h : Stands w seeds g s n s₁ package) (hu : Unambiguous w seeds)
    (hs : Closure w seeds s) (hfinished : Finished w seeds g.entries n)
    (hdependency : dependency ∈ collectDependencies package) :
    ∃ s' e, s.select w seeds.topLevelWorkspaceDirs dependency = .ok s' ∧
      Target w seeds g.entries n.toEntry dependency e ∧ e.sourceFingerprint = s'.fingerprint := by
  have hpackage : n.package = package := by
    rw [h.entry]
    rfl
  obtain ⟨e, he⟩ := hfinished.target (hpackage ▸ hdependency)
  obtain ⟨s₂, hs₂, hfingerprint⟩ := he.selected
  rw [h.entry] at hs₂
  have halike := hu s₁ s h.closure hs h.fingerprint
  have hselect := halike.select package h.load dependency hdependency
  have hs₂' : s₁.select w seeds.topLevelWorkspaceDirs dependency = .ok s₂ := hs₂
  rw [hs₂'] at hselect
  obtain ⟨s', hs', hsame⟩ := Option.map_eq_some_iff.mp hselect.symm
  exact ⟨s', e, toOption_eq_some.mp hs', he, hfingerprint.trans hsame.symm⟩

end soundness

end StyioPlatform.Resolve
