import StyioPlatform.Registry.InstallFailures
import StyioPlatform.Registry.Verification

/-! How the control plane lays its publications out: in every state that successful requests reach,
each publication holds a read plane in order and the manifest over it. -/
namespace StyioPlatform.Registry

open FileTree Prog

variable {env : Environment} {cfg : PlatformConfig} {host : Host} {w w' : World} {t t' : Tree}
  {n : ℕ}

/-- A path that the control plane gives to a file of the read plane. -/
def IsPlanePath (p : Path) : Prop :=
  p ≠ ["artifacts"] ∧ p ≠ ["index"] ∧ p ≠ ["trust"] ∧
    (["log", "leaves"] <+: p → isLeafPath p = true)

instance : DecidablePred IsPlanePath := fun _ => inferInstanceAs (Decidable (_ ∧ _ ∧ _ ∧ (_ → _)))

/-- The read plane has files only where the control plane puts them. -/
def Tidy (t : Tree) : Prop := ∀ p, (t.get p).isSome → inReadPlane p = true → IsPlanePath p

theorem Tidy.of_agreeOff {S : Path → Prop} (h : Tidy t) (hc : AgreeOff S t t')
    (hS : ∀ p, S p → inReadPlane p = true → IsPlanePath p) : Tidy t' := by
  intro p hp hplane
  by_cases hSp : S p
  · exact hS p hSp hplane
  · exact h p (hc p hSp ▸ hp) hplane

theorem isPlanePath_initPaths {p : Path} (hp : p ∈ initPaths) : IsPlanePath p := by
  revert p
  decide

theorem isPlanePath_leafPath {i : ℕ} : IsPlanePath (leafPath i) :=
  ⟨by simp [leafPath], by simp [leafPath], by simp [leafPath], fun _ => isLeafPath_leafPath i⟩

theorem isPlanePath_artifactPath {sha : String} : IsPlanePath (artifactPath sha) := by
  refine ⟨by simp [artifactPath], by simp [artifactPath], by simp [artifactPath], ?_⟩
  rintro ⟨q, hq⟩
  simp [artifactPath] at hq

theorem isPlanePath_indexPath {package : String} :
    IsPlanePath (registryIndexPathForPackage package) := by
  unfold registryIndexPathForPackage
  refine ⟨by simp, by simp, by simp, ?_⟩
  rintro ⟨q, hq⟩
  simp at hq

theorem isPlanePath_targetsPath {name : String} : IsPlanePath (targetsPath name) := by
  refine ⟨by simp [targetsPath], by simp [targetsPath], by simp [targetsPath], ?_⟩
  rintro ⟨q, hq⟩
  simp [targetsPath] at hq

theorem not_inReadPlane_of_tmp {p : Path} (hp : ["_tmp"] <+: p) : inReadPlane p = false := by
  obtain ⟨q, rfl⟩ := hp
  simp [inReadPlane, readPlaneEntries]

theorem Edited.tidy (h : Edited env cfg host w w') (ht : Tidy w.root) : Tidy w'.root := by
  cases h with
  | publish drafted free ensured archive_eq appended =>
    have hdrafted := ht.of_agreeOff drafted.changes.root fun p hp hplane => by
      rw [not_inStaging_of_inReadPlane hp] at hplane
      cases hplane
    have hensured := hdrafted.of_agreeOff ensured.changes.root fun p hp hplane => by
      rcases hp with hp | hp
      · exact isPlanePath_initPaths hp
      · rw [not_inReadPlane_of_tmp hp] at hplane
        cases hplane
    refine hensured.of_agreeOff appended.changes.root fun p hp _ => ?_
    rcases hp with rfl | rfl | rfl
    · exact isPlanePath_artifactPath
    · exact isPlanePath_indexPath
    · exact isPlanePath_leafPath
  | yank validName read found =>
    refine ht.of_agreeOff (AgreeOff.refl.put rfl) ?_
    rintro p rfl _
    exact isPlanePath_indexPath

theorem Refreshed.tidy {registryTime : String} {maps : PackageMaps} {hashes : List String}
    {rootHash : String} {snapshotMeta : List (Path × FileMeta)}
    (h : Refreshed env cfg host registryTime maps hashes rootHash snapshotMeta w w')
    (ht : Tidy w.root) : Tidy w'.root := by
  refine ht.of_agreeOff h.changes.root fun p hp hplane => ?_
  rcases hp with rfl | rfl | rfl | ⟨x, -, rfl⟩ | hp
  · decide
  · decide
  · decide
  · exact isPlanePath_targetsPath
  · rw [not_inReadPlane_of_tmp hp] at hplane
    cases hplane

theorem Created.tidy {generatedAt : String} {sequence : ℕ}
    (h : Created env cfg sequence generatedAt w w') (ht : Tidy w.root) : Tidy w'.root := by
  refine ht.of_agreeOff h.changes fun p hp hplane => ?_
  rcases hp with hp | ⟨q, rfl⟩ | rfl | rfl
  · rw [not_inReadPlane_of_tmp hp] at hplane
    cases hplane
  · simp [publicationPath, inReadPlane, readPlaneEntries] at hplane
  · decide
  · exact absurd hplane (by decide)

/-- The root metadata are there after an edit: a publish makes them, a yank finds a release. -/
theorem Edited.rootFile (h : Edited env cfg host w w')
    (hroot : w.root = .empty ∨ (w.root.get rootPath).isSome) : (w'.root.get rootPath).isSome := by
  cases h with
  | publish drafted free ensured archive_eq appended =>
    rw [appended.changes.get]
    · exact ensured.present _ (by decide)
    · rintro (h | h | h)
      · simp [rootPath, buildReleaseRecord, artifactPath] at h
      · simp [rootPath, registryIndexPathForPackage] at h
      · simp [rootPath, leafPath] at h
  | yank validName read found =>
    rcases hroot with hroot | hroot
    · rw [hroot] at read
      cases read
      cases found
    · rw [World.write_root, get_put]
      split
      · rfl
      · exact hroot

theorem Refreshed.rootFile {registryTime : String} {maps : PackageMaps} {hashes : List String}
    {rootHash : String} {snapshotMeta : List (Path × FileMeta)}
    (h : Refreshed env cfg host registryTime maps hashes rootHash snapshotMeta w w')
    (hroot : (w.root.get rootPath).isSome) : (w'.root.get rootPath).isSome := by
  rw [h.changes.get]
  · exact hroot
  · rintro (h | h | h | ⟨x, -, h⟩ | h)
    · exact absurd h (by decide)
    · exact absurd h (by decide)
    · exact absurd h (by decide)
    · simp [rootPath, targetsPath] at h
    · exact absurd h (by decide)

theorem Created.rootFile {generatedAt : String} {sequence : ℕ}
    (h : Created env cfg sequence generatedAt w w') (hroot : (w.root.get rootPath).isSome) :
    (w'.root.get rootPath).isSome := by
  rw [h.changes]
  · exact hroot
  · rintro (h | ⟨q, hq⟩ | h | h)
    · exact absurd h (by decide)
    · simp [publicationPath, rootPath] at hq
    · exact absurd h (by decide)
    · exact absurd h (by decide)

/-- A tidy tree is copied into a plane in order. -/
theorem laidOut_publicationPlane {sequence : ℕ} {generatedAt : String} (ht : Tidy t)
    (hroot : (t.get rootPath).isSome) :
    LaidOut (publicationPlane cfg t sequence generatedAt) := by
  have hget : ∀ p, p ≠ configPath → (publicationPlane cfg t sequence generatedAt).get p =
      (readPlane t).get p := fun p hp => get_put_of_ne hp
  have htidy : ∀ p, p ≠ configPath →
      ((publicationPlane cfg t sequence generatedAt).get p).isSome → IsPlanePath p := by
    intro p hp hsome
    rw [hget p hp, get_readPlane] at hsome
    split at hsome
    · next hplane => exact ht p hsome hplane
    · cases hsome
  have hnone : ∀ p, p ≠ configPath → ¬ IsPlanePath p →
      (publicationPlane cfg t sequence generatedAt).get p = none := by
    intro p hp hnot
    by_contra hsome
    exact hnot (htidy p hp (Option.isSome_iff_ne_none.mpr hsome))
  refine ⟨?_, fun p hp => ?_, ?_, hnone _ (by decide) (by decide), hnone _ (by decide) (by decide),
    hnone _ (by decide) (by decide), fun p hp => ?_⟩
  · rw [publicationPlane, get_put_self]
    rfl
  · by_contra hne
    rw [hget _ (by simpa [configPath] using hne), get_readPlane] at hp
    split at hp
    · next hplane => exact hne (by simpa [inReadPlane, readPlaneEntries] using hplane)
    · cases hp
  · rwa [hget _ (by decide), get_readPlane_of (by decide)]
  · exact (htidy _ (by simp [configPath]) hp).2.2.2 ⟨p, rfl⟩

/-- A publication that is complete and in order. -/
def Complete (env : Environment) (t : Tree) (k : ℕ) : Prop :=
  ∃ plane generatedAt,
    Holds env (t.subtree (publicationPath (publicationIdFor k))) plane k generatedAt ∧
      LaidOut plane

theorem Complete.congr {k : ℕ} (h : Complete env t k)
    (hget : ∀ q, t'.get (publicationPath (publicationIdFor k) ++ q) =
      t.get (publicationPath (publicationIdFor k) ++ q)) : Complete env t' k := by
  have hsubtree : t'.subtree (publicationPath (publicationIdFor k)) =
      t.subtree (publicationPath (publicationIdFor k)) := by
    ext q
    rw [get_subtree, get_subtree, hget]
  rwa [Complete, hsubtree]

/-- The id is the name of a directory. -/
def IsPlainId (id : String) : Prop := IsName id ∧ '/' ∉ id.toList

instance : DecidablePred IsPlainId := fun _ => inferInstanceAs (Decidable (_ ∧ _))

theorem isPlainId_publicationIdFor {k : ℕ} : IsPlainId (publicationIdFor k) := by
  have hne : ∀ s : String, s.toList.head? ≠ some 'p' → publicationIdFor k ≠ s := by
    rintro s hs rfl
    exact hs (by rw [publicationIdFor_toList]; rfl)
  exact ⟨⟨hne _ (by decide), hne _ (by decide), hne _ (by decide)⟩,
    not_mem_publicationIdFor (by decide) (by decide)⟩

/-- A plain id is that of the publication that it leads to. -/
theorem Resolves.eq_publicationIdFor {id : String} {k : ℕ} (h : Resolves cfg t id k)
    (hid : IsPlainId id) : id = Registry.publicationIdFor k := by
  have hsplit : (id.toList.splitOn '/').map String.ofList = [id] := by
    rw [List.splitOn_eq_singleton hid.2, List.map_cons, List.map_nil, String.ofList_toList]
  have habs : ¬ id.toList.head? = some '/' := fun hhead => hid.2 (List.mem_of_mem_head? hhead)
  obtain ⟨p, hp, hroot⟩ := Option.bind_eq_some_iff.mp h
  rw [if_neg habs, hsplit, walk, if_neg (by decide), if_neg (by decide)] at hp
  split at hp
  · rw [walk, if_neg (not_or.mpr ⟨hid.1.1, hid.1.2.1⟩), if_neg hid.1.2.2] at hp
    split at hp
    · rw [walk, Option.some.injEq] at hp
      subst hp
      rw [List.append_assoc, if_pos (List.prefix_append _ _), List.drop_left,
        Option.some.injEq] at hroot
      simpa [publicationPath] using hroot
    · cases hp
  · cases hp

/-- The ids of a pointer are plain. -/
structure PlainPointer (d : DistributionPointer) : Prop where
  publicationId : IsPlainId d.publicationId
  previous : ∀ id, d.previousPublicationId = some id → IsPlainId id

/-- The state of an origin of which the served publications were named by plain ids. -/
structure InOrder (env : Environment) (cfg : PlatformConfig) (n : ℕ) (w : World) : Prop where
  represents : ∃ s, Represents cfg n w s
  tidy : Tidy w.root
  rootFile : 1 ≤ n → (w.root.get rootPath).isSome
  complete : ∀ k, 1 ≤ k → k ≤ n → Complete env w.root k
  pointer : ∀ d, w.root.get (distributionPointerPath "default") = some (.json (.pointer d)) →
    PlainPointer d

theorem InOrder.of_initial (h : Initial w) : InOrder env cfg 0 w where
  represents := ⟨_, .of_initial h⟩
  tidy p hp := by
    rw [h.root] at hp
    cases hp
  rootFile := by omega
  complete k hk hk' := by omega
  pointer d hd := by
    rw [h.root] at hd
    cases hd

/-- What the next pointer calls the previous publication is plain. -/
theorem InOrder.previous {d : Option Document} {id : String} (h : InOrder env cfg n w)
    (hd : currentDistributionPointer w.root "default" = .ok d)
    (hid : promotePrevious d = some id) : IsPlainId id := by
  obtain ⟨s, hrep⟩ := h.represents
  cases hrep.points with
  | absent get current =>
    rw [currentDistributionPointer, get] at hd
    cases hd
    cases hid
  | present get current resolves previous =>
    rw [currentDistributionPointer, get] at hd
    cases hd
    simp only [promotePrevious, Option.map_some, Option.getD_some] at hid
    split at hid
    · cases hid
    · cases hid
      exact (h.pointer _ get).publicationId

/-- A publish or yank adds a publication in order. -/
theorem InOrder.commit (h : InOrder env cfg n w) (hc : CommitStep env cfg n w w')
    (hm : ∃ m, Numbered w' m) : InOrder env cfg (n + 1) w' := by
  obtain ⟨s, hrep⟩ := h.represents
  obtain ⟨s', -, hrep', -⟩ := hrep.commit hc hm
  obtain ⟨host, w₂, hedited, ⟨maps, hashes, rootHash, snapshotMeta, w₃, hrefreshed, hcreated⟩, -⟩ :=
    hc
  have hagree := hedited.agreeOff.trans hrefreshed.agreeOff
  have hn₃ : Numbered w₃ n := hrefreshed.numbered (hedited.numbered hrep.numbered)
  have htidy₃ : Tidy w₃.root := hrefreshed.tidy (hedited.tidy h.tidy)
  have hold : w.root = .empty ∨ (w.root.get rootPath).isSome :=
    (Nat.eq_zero_or_pos n).imp hrep.empty h.rootFile
  have hroot₃ : (w₃.root.get rootPath).isSome := hrefreshed.rootFile (hedited.rootFile hold)
  obtain ⟨previous, hprevious, hpointer⟩ := hcreated.pointer
  have hprevious' : currentDistributionPointer w.root "default" = .ok previous := by
    rw [← hprevious]
    exact (currentDistributionPointer_congr (hagree _ not_editScope_pointerPath)).symm
  exact
    { represents := ⟨s', hrep'⟩
      tidy := hcreated.tidy htidy₃
      rootFile := fun _ => hcreated.rootFile hroot₃
      complete := fun k hk hkn => by
        by_cases hnew : k = n + 1
        · subst hnew
          exact ⟨_, _, .of_tree fun q _ => hcreated.publication q (hn₃.get_next q),
            laidOut_publicationPlane htidy₃ hroot₃⟩
        · refine (h.complete k hk (by omega)).congr fun q => ?_
          rw [hcreated.get_publication fun heq => hnew (publicationIdFor_injective heq)]
          exact hagree _ not_editScope_publicationPath
      pointer := fun d hd => by
        rw [hpointer] at hd
        cases hd
        exact ⟨isPlainId_publicationIdFor, fun id hid => h.previous hprevious' hid⟩ }

/-- A promote or rollback of the default distribution to a plain id. -/
theorem InOrder.install {id updatedAt : String} {f : File} {publication : Document}
    {previous : Option String} (h : InOrder env cfg n w)
    (hfile : publicationFile cfg w.root id = some f) (hparse : f.parse = some publication)
    (hid : IsPlainId id) (hprevious : ∀ old, previous = some old → IsPlainId old)
    (hi : Installed cfg "default" id publication updatedAt previous w w')
    (hrep' : ∃ s', Represents cfg n w' s') : InOrder env cfg n w' := by
  obtain ⟨s, hrep⟩ := h.represents
  obtain ⟨t, v, hprepared, hv, hroot, -⟩ := hi.exists_root
  cases hprepared with
  | other hdefault => exact (hdefault rfl).elim
  | @default source hdefault hsource hconfig =>
    obtain ⟨k, hk, hkn, hp⟩ := hrep.manifest_eq hfile hparse hv
    obtain rfl : source = publicationPath (publicationIdFor k) :=
      Option.some.inj ((publicationRoot_mono (fun _ => isDirectory_of_cleared) hsource).symm.trans hp)
    have hagree : AgreeOff InstallScope w.root w'.root := hroot ▸ agreeOff_installed
    obtain ⟨plane, generatedAt, hholds, hlaid⟩ := h.complete k hk hkn
    have hplane : ∀ p, inReadPlane p = true → w'.root.get p = plane.get p := by
      intro p hp
      have hne : p ≠ [] := by
        rintro rfl
        cases hp
      have hmanifest : p ≠ ["publication.json"] := by
        rintro rfl
        exact absurd hp (by decide)
      have hpointer : p ≠ distributionPointerPath "default" := by
        rintro rfl
        exact absurd hp (by decide)
      rw [hroot, get_installed hpointer, if_pos hp, get_cleared_publication, ← get_subtree,
        hholds.plane p hne hmanifest]
    exact
      { represents := hrep'
        tidy := fun p hsome hp => by
          rw [hplane p hp] at hsome
          refine ⟨?_, ?_, ?_, ?_⟩
          · rintro rfl
            rw [hlaid.artifacts] at hsome
            cases hsome
          · rintro rfl
            rw [hlaid.index] at hsome
            cases hsome
          · rintro rfl
            rw [hlaid.trust] at hsome
            cases hsome
          · rintro ⟨q, rfl⟩
            exact hlaid.leaves q hsome
        rootFile := fun _ => by
          rw [hplane _ (by decide)]
          exact hlaid.rootFile
        complete := fun j hj hjn => (h.complete j hj hjn).congr fun q =>
          hagree _ not_installScope_publicationPath
        pointer := fun d hd => by
          rw [hroot, get_put_self] at hd
          cases hd
          exact ⟨hid, hprevious⟩ }

theorem pointerPath_default_ne {distributionId : String} (hid : distributionId ≠ "default") :
    distributionPointerPath "default" ≠ distributionPointerPath distributionId := by
  unfold distributionPointerPath
  rw [if_neg (by decide), if_neg (by decide)]
  split
  · simp
  · split
    · simp
    · simpa using Ne.symm hid

/-- Another distribution is only a pointer. -/
theorem InOrder.other {distributionId id updatedAt : String} {publication : Document}
    {previous : Option String} (h : InOrder env cfg n w) (hid : distributionId ≠ "default")
    (hi : Installed cfg distributionId id publication updatedAt previous w w')
    (hrep' : ∃ s', Represents cfg n w' s') : InOrder env cfg n w' := by
  obtain ⟨t, v, hprepared, hv, hroot, -⟩ := hi.exists_root
  cases hprepared with
  | default hid' _ _ => exact (hid hid').elim
  | other _ =>
    have hagree : AgreeOff (· = distributionPointerPath distributionId) w.root w'.root :=
      hroot ▸ AgreeOff.refl.put rfl
    have hplane : ∀ p, inReadPlane p = true → w'.root.get p = w.root.get p := by
      intro p hp
      refine hagree p ?_
      rintro rfl
      rw [not_inReadPlane_pointerPath] at hp
      cases hp
    exact
      { represents := hrep'
        tidy := fun p hsome hp => h.tidy p (hplane p hp ▸ hsome) hp
        rootFile := fun hn => by
          rw [hplane _ (by decide)]
          exact h.rootFile hn
        complete := fun j hj hjn => (h.complete j hj hjn).congr fun q => hagree _ fun heq => by
          have hhead : (distributionPointerPath distributionId).head? ≠ some "_publications" :=
            head_of_distributionPointerPath
          rw [← heq] at hhead
          exact hhead rfl
        pointer := fun d hd => by
          rw [hagree] at hd
          · exact h.pointer d hd
          · exact pointerPath_default_ne hid }

/-- A promote of the default distribution names the publication by a plain id. -/
def NamesPlainly : Request → Prop
  | .promoteDistribution distributionId request => distributionId = "default" →
    ∀ id, requestedPublication request = some id → IsPlainId id
  | _ => True

/-- A request that was answered with 200 keeps the publications in order. -/
theorem InOrder.succeeds {request : Request} (hlocal : cfg.usesS3ObjectStore = false)
    (h : InOrder env cfg n w) (hplain : NamesPlainly request)
    (hs : Succeeds env cfg host request w w') : ∃ n', 1 ≤ n' ∧ InOrder env cfg n' w' := by
  obtain ⟨s, hrep⟩ := h.represents
  have hm := numbered_of_succeeds hlocal hrep.numbered hs
  have hcommit : CommitStep env cfg n w w' → ∃ n', 1 ≤ n' ∧ InOrder env cfg n' w' := fun hc =>
    ⟨n + 1, by omega, h.commit hc hm⟩
  have hother : ∀ {distributionId id updatedAt : String} {f : File} {publication : Document}
      {previous : Option String}, publicationFile cfg w.root id = some f →
      f.parse = some publication → distributionId ≠ "default" →
      Installed cfg distributionId id publication updatedAt previous w w' →
      ∃ n', 1 ≤ n' ∧ InOrder env cfg n' w' := by
    intro distributionId id updatedAt f publication previous hfile hparse hdefault hi
    obtain ⟨_, _, _, hv, -⟩ := hi.exists_root
    obtain ⟨k, hk, hkn, -⟩ := hrep.manifest_eq hfile hparse hv
    exact ⟨n, hk.trans hkn, h.other hdefault hi ⟨s, hrep.other (hk.trans hkn) hdefault hi hm⟩⟩
  have hdefault : ∀ {id updatedAt : String} {f : File} {publication : Document}
      {previous : Option String}, publicationFile cfg w.root id = some f →
      f.parse = some publication → IsPlainId id → (∀ old, previous = some old → IsPlainId old) →
      Installed cfg "default" id publication updatedAt previous w w' →
      (∃ s', Represents cfg n w' s') → ∃ n', 1 ≤ n' ∧ InOrder env cfg n' w' := by
    intro id updatedAt f publication previous hfile hparse hid hprevious hi hrep'
    obtain ⟨_, _, _, hv, -⟩ := hi.exists_root
    obtain ⟨k, hk, hkn, -⟩ := hrep.manifest_eq hfile hparse hv
    exact ⟨n, hk.trans hkn, h.install hfile hparse hid hprevious hi hrep'⟩
  cases request with
  | publishRelease request => exact hcommit (publish_commits hlocal hrep.numbered hs)
  | setYanked namespaceName name version yanked request =>
    obtain ⟨hname, reason, hread, hfound, hcommitted⟩ := yank_succeeded hlocal hrep.numbered hs
    exact hcommit ⟨host, _, .yank hname hread hfound, hcommitted⟩
  | promoteDistribution distributionId request =>
    obtain ⟨id, f, publication, pointer, hid, hfile, hparse, hpointer, hi⟩ := promote_succeeded hs
    by_cases hdistribution : distributionId = "default"
    · subst hdistribution
      obtain ⟨_, _, _, _, _, hrep'⟩ := hrep.promote hlocal hs
      exact hdefault hfile hparse (hplain rfl id hid) (fun old hold => h.previous hpointer hold) hi
        ⟨_, hrep'⟩
    · exact hother hfile hparse hdistribution hi
  | rollbackDistribution distributionId request =>
    obtain ⟨f, publication, pointer, hpointer, hfile, hparse, hi⟩ := rollback_succeeded hs
    by_cases hdistribution : distributionId = "default"
    · subst hdistribution
      obtain ⟨id, k, hid, hresolves, _, _, hrep'⟩ := hrep.rollback hlocal hs
      obtain ⟨g, hg, hgparse⟩ := currentDistributionPointer_ok hpointer
      cases hrep.points with
      | absent get _ =>
        rw [get] at hg
        cases hg
      | @present d i get current resolves previous =>
        rw [get] at hg
        cases hg
        cases hgparse
        obtain rfl : d.previousPublicationId.getD "" = id := by
          simpa [installedId, get, Document.previousPublicationId] using hid
        refine hdefault hfile hparse ?_ (fun old hold => ?_) hi ⟨_, hrep'⟩
        · cases hd : d.previousPublicationId with
          | none =>
            rw [hd] at hresolves
            exact (hresolves.ne_empty rfl).elim
          | some id =>
            simpa [Document.previousPublicationId, hd] using (h.pointer d get).previous id hd
        · cases hold
          exact (h.pointer d get).publicationId
    · exact hother hfile hparse hdistribution hi

end StyioPlatform.Registry
