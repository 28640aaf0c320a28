import StyioPlatform.Lib.SnapshotStore
import StyioPlatform.Registry.Resolution

/-! The registry as a store of snapshots: a publish or yank commits an edited read plane as the
next publication, a promote or rollback serves a publication again. -/
namespace StyioPlatform.Registry

open FileTree Prog

variable {env : Environment} {cfg : PlatformConfig} {host : Host} {w w' : World} {n : ℕ}

/-- What a publish or yank does to the tree before it refreshes the metadata. -/
inductive Edited (env : Environment) (cfg : PlatformConfig) (host : Host) (w : World) :
    World → Prop where
  | publish {draft : PublishDraft} {archive : File} {w₀ w₁ w₂ : World}
      (drafted : Drafted env host w draft w₀)
      (free : releaseIsTaken w₀ draft.package draft.version = false)
      (ensured : Ensured env cfg host w₀ w₁)
      (archive_eq : archiveFile host w₁.root draft.archivePath = some archive)
      (appended : Appended env archive (buildReleaseRecord env draft host.now archive) w₁ w₂) :
      Edited env cfg host w w₂
  | yank {package version : String} {yanked : Bool} {reason : String}
      {records : List ReleaseRecord} (validName : validatePackageName package = none)
      (read : readPackageIndexRecords w.root package = .ok records)
      (found : records.any (·.version = version) = true) :
      Edited env cfg host w (w.write (registryIndexPathForPackage package)
        (.jsonl (yankRecords version yanked reason host.yankedAt records)))

/-- A completed publish or yank: the edit, the refresh and the publication. -/
def CommitStep (env : Environment) (cfg : PlatformConfig) (n : ℕ) (w w' : World) : Prop :=
  ∃ host w₂, Edited env cfg host w w₂ ∧ Committed env cfg host n w₂ w'

/-- The files that an edit and a refresh touch. -/
def EditScope (p : Path) : Prop := inReadPlane p = true ∨ InStaging p ∨ ["_tmp"] <+: p

theorem inReadPlane_registryIndexPath {package : String} :
    inReadPlane (registryIndexPathForPackage package) = true := by
  simp [registryIndexPathForPackage, inReadPlane, readPlaneEntries]

theorem Ensured.agreeOff (h : Ensured env cfg host w w') : AgreeOff EditScope w.root w'.root :=
  h.changes.root.mono fun _ hp => hp.imp inReadPlane_initPaths Or.inr

theorem Appended.agreeOff {archive : File} {draft : PublishDraft}
    (h : Appended env archive (buildReleaseRecord env draft host.now archive) w w') :
    AgreeOff EditScope w.root w'.root := by
  refine h.changes.root.mono ?_
  rintro p (rfl | rfl | rfl)
  · exact Or.inl rfl
  · exact Or.inl inReadPlane_registryIndexPath
  · exact Or.inl rfl

theorem Refreshed.agreeOff {registryTime : String} {maps : PackageMaps} {hashes : List String}
    {rootHash : String} {snapshotMeta : List (Path × FileMeta)}
    (h : Refreshed env cfg host registryTime maps hashes rootHash snapshotMeta w w') :
    AgreeOff EditScope w.root w'.root := by
  refine h.changes.root.mono ?_
  rintro p (rfl | rfl | rfl | ⟨x, -, rfl⟩ | hp)
  · exact Or.inl rfl
  · exact Or.inl rfl
  · exact Or.inl rfl
  · exact Or.inl rfl
  · exact Or.inr (Or.inr hp)

theorem Edited.agreeOff (h : Edited env cfg host w w') : AgreeOff EditScope w.root w'.root := by
  cases h with
  | publish drafted free ensured archive_eq appended =>
    exact ((drafted.changes.root.mono fun _ hp => Or.inr (Or.inl hp)).trans
      ensured.agreeOff).trans appended.agreeOff
  | yank validName read found => exact AgreeOff.refl.put (Or.inl inReadPlane_registryIndexPath)

theorem KeepsDirectories.of_editScope {t t' : Tree} (h : AgreeOff EditScope t t')
    (htmp : ∀ q, t.get ("_tmp" :: q) = none)
    (hstaging : ∀ p, InStaging p → (t.get p).isSome → (t'.get p).isSome) :
    KeepsDirectories t t' := by
  refine .of_agreeOff h ?_
  rintro p (hp | hp | ⟨q, rfl⟩) hplane hsome
  · rw [hplane] at hp
    cases hp
  · exact hstaging p hp hsome
  · rw [List.singleton_append, htmp] at hsome
    cases hsome

theorem Drafted.staging {draft : PublishDraft} {p : Path} (h : Drafted env host w draft w')
    (hp : (w.root.get p).isSome) : (w'.root.get p).isSome := by
  rcases h.staged with rfl | ⟨f, rfl, -⟩
  · exact hp
  · rw [World.write_root, get_put]
    split
    · rfl
    · exact hp

theorem not_inStaging_of_inReadPlane {p : Path} (h : InStaging p) : inReadPlane p = false := by
  cases p with
  | nil => rfl
  | cons name rest =>
    obtain rfl : name = "_staging" := by simpa [InStaging] using h
    simp [inReadPlane, readPlaneEntries]

theorem not_inStaging_of_tmp {p : Path} (h : InStaging p) : ¬ ["_tmp"] <+: p := by
  intro htmp
  have := (head_of_tmp htmp).symm.trans h
  simp at this

theorem Edited.keepsDirectories (h : Edited env cfg host w w')
    (htmp : ∀ q, w.root.get ("_tmp" :: q) = none) : KeepsDirectories w.root w'.root := by
  refine .of_editScope h.agreeOff htmp fun p hp hsome => ?_
  cases h with
  | publish drafted free ensured archive_eq appended =>
    rw [appended.changes.get, ensured.changes.get]
    · exact drafted.staging hsome
    · rintro (h | h)
      · have hplane := not_inStaging_of_inReadPlane hp
        simp [inReadPlane_initPaths h] at hplane
      · exact not_inStaging_of_tmp hp h
    · have hplane := not_inStaging_of_inReadPlane hp
      rintro (rfl | rfl | rfl)
      · cases hplane
      · simp [inReadPlane_registryIndexPath] at hplane
      · cases hplane
  | yank validName read found =>
    rw [World.write_root, get_put]
    split
    · rfl
    · exact hsome

theorem Edited.tmp (h : Edited env cfg host w w') (htmp : ∀ q, w.root.get ("_tmp" :: q) = none)
    (q : Path) : w'.root.get ("_tmp" :: q) = none := by
  cases h with
  | publish drafted free ensured archive_eq appended =>
    rw [appended.changes.get, ensured.tmp]
    rintro (h | h | h)
    · simp [buildReleaseRecord, artifactPath] at h
    · simp [registryIndexPathForPackage] at h
    · simp [leafPath] at h
  | yank validName read found =>
    rw [World.write_root, get_put_of_ne, htmp]
    simp [registryIndexPathForPackage]

theorem Edited.numbered (h : Edited env cfg host w w') (hn : Numbered w n) : Numbered w' n := by
  cases h with
  | publish drafted free ensured archive_eq appended =>
    exact appended.numbered ((drafted.numbered hn).of_agreeing ensured.changes
      fun _ => head_of_initScope)
  | @yank package _ _ _ _ validName read found =>
    refine hn.of_agreeing (S := (· = registryIndexPathForPackage package))
      (OnlyChanges.refl.write rfl) ?_
    rintro p rfl
    simp [head_of_registryIndexPath]

theorem Refreshed.keepsDirectories {registryTime : String} {maps : PackageMaps}
    {hashes : List String} {rootHash : String} {snapshotMeta : List (Path × FileMeta)}
    (h : Refreshed env cfg host registryTime maps hashes rootHash snapshotMeta w w')
    (htmp : ∀ q, w.root.get ("_tmp" :: q) = none) : KeepsDirectories w.root w'.root := by
  refine .of_agreeOff h.changes.root ?_
  rintro p (rfl | rfl | rfl | ⟨x, -, rfl⟩ | ⟨q, rfl⟩) hplane hsome
  · cases hplane
  · cases hplane
  · cases hplane
  · cases hplane
  · rw [List.singleton_append, htmp] at hsome
    cases hsome

theorem name_ne_of_getLast {s t : String} (h : t.toList.getLast? ≠ some 'n')
    (hne : t.toList ≠ []) : s ++ t ≠ "publication.json" := by
  intro heq
  have hlast := congrArg (fun x => x.toList.getLast?) heq
  rw [String.toList_append, List.getLast?_append_of_ne_nil _ hne] at hlast
  exact h hlast

theorem Drafted.manifests {draft : PublishDraft} (h : Drafted env host w draft w')
    (hm : ManifestsInPlace w.root) : ManifestsInPlace w'.root := by
  rcases h.staged with rfl | ⟨f, rfl, -⟩
  · exact hm
  · refine hm.of_names (S := (· = stagingPath draft.package draft.version))
      (AgreeOff.refl.put rfl) ?_
    rintro p rfl
    simpa [stagingPath] using name_ne_of_getLast (t := ".spio.src.tar") (by decide) (by decide)

theorem Ensured.manifests (h : Ensured env cfg host w w') (hm : ManifestsInPlace w.root) :
    ManifestsInPlace w'.root := by
  refine hm.of_agreeOff h.changes.root fun p f hp hf _ => ?_
  rcases hp with hp | ⟨q, hq⟩
  · have hnames : ∀ q ∈ initPaths, q.getLast? ≠ some "publication.json" := by decide
    exact (hnames _ hp (by simp)).elim
  · rw [← hq, List.singleton_append, h.tmp] at hf
    cases hf

theorem indexPath_getLast {package : String} :
    (registryIndexPathForPackage package).getLast? ≠ some "publication.json" := by
  rw [registryIndexPathForPackage, List.getLast?_concat]
  simpa using name_ne_of_getLast (t := ".jsonl") (by decide) (by decide)

theorem Appended.manifests {archive : File} {draft : PublishDraft}
    (h : Appended env archive (buildReleaseRecord env draft host.now archive) w w')
    (hm : ManifestsInPlace w.root) : ManifestsInPlace w'.root := by
  refine hm.of_agreeOff h.changes.root fun p f hp hf hv => ?_
  have hlast : (p ++ ["publication.json"]).getLast? = some "publication.json" := by simp
  rcases hp with hp | hp | hp
  · rw [hp] at hlast
    refine (name_ne_of_getLast (s := archive.sha256 env) (t := ".spio.src.tar") (by decide)
      (by decide) ?_).elim
    simpa [buildReleaseRecord, artifactPath] using hlast
  · rw [hp] at hlast
    exact (indexPath_getLast hlast).elim
  · rw [hp, h.leaf] at hf
    cases hf
    obtain ⟨d, v, hd, hv⟩ := hv
    cases hd
    cases hv

theorem Refreshed.manifests {registryTime : String} {maps : PackageMaps} {hashes : List String}
    {rootHash : String} {snapshotMeta : List (Path × FileMeta)}
    (h : Refreshed env cfg host registryTime maps hashes rootHash snapshotMeta w w')
    (hm : ManifestsInPlace w.root) : ManifestsInPlace w'.root := by
  refine hm.of_agreeOff h.changes.root fun p f hp hf hv => ?_
  rcases hp with hp | hp | hp | ⟨x, hx, hp⟩ | ⟨q, hq⟩
  · rw [hp, h.checkpoint] at hf
    cases hf
    exact (not_namesVersion_signedFile hv).elim
  · rw [hp, h.snapshot] at hf
    cases hf
    exact (not_namesVersion_signedFile hv).elim
  · rw [hp, h.timestamp] at hf
    cases hf
    exact (not_namesVersion_signedFile hv).elim
  · rw [hp, h.targets x hx] at hf
    cases hf
    exact (not_namesVersion_signedFile hv).elim
  · rw [← hq, List.singleton_append, h.tmp] at hf
    cases hf

theorem Edited.manifests (h : Edited env cfg host w w') (hm : ManifestsInPlace w.root) :
    ManifestsInPlace w'.root := by
  cases h with
  | publish drafted free ensured archive_eq appended =>
    exact appended.manifests (ensured.manifests (drafted.manifests hm))
  | @yank package _ _ _ _ validName read found =>
    refine hm.of_names (S := (· = registryIndexPathForPackage package)) (AgreeOff.refl.put rfl) ?_
    rintro p rfl
    exact indexPath_getLast

/-- The read plane of the publication with the number. -/
def planeOf (t : Tree) (k : ℕ) : Tree :=
  readPlane (t.subtree (publicationPath (publicationIdFor k)))

theorem planeOf_congr {t t' : Tree} {k : ℕ}
    (h : ∀ q, t'.get (publicationPath (publicationIdFor k) ++ q) =
      t.get (publicationPath (publicationIdFor k) ++ q)) : planeOf t' k = planeOf t k :=
  readPlane_ext fun p _ => by rw [get_subtree, get_subtree, h p]

theorem not_editScope_publicationPath {id : String} {q : Path} :
    ¬ EditScope (publicationPath id ++ q) := by
  rintro (h | h | ⟨r, hr⟩)
  · simp [publicationPath, inReadPlane, readPlaneEntries] at h
  · simp [publicationPath, InStaging] at h
  · simp [publicationPath] at hr

theorem not_editScope_pointerPath : ¬ EditScope (distributionPointerPath "default") := by
  rintro (h | h | ⟨r, hr⟩)
  · exact absurd h (by decide)
  · simp [InStaging, distributionPointerPath] at h
  · simp [distributionPointerPath] at hr

theorem Numbered.get_next (h : Numbered w n) (q : Path) :
    w.root.get (publicationPath (publicationIdFor (n + 1)) ++ q) = none := by
  by_cases hq : q = []
  · rw [hq, List.append_nil, h.file]
  · by_contra hn
    obtain ⟨f, hf⟩ := Option.ne_none_iff_exists'.mp hn
    obtain ⟨k, _, hk, heq⟩ := (h.directory _).mp (isDirectory_iff.mpr ⟨q, f, hq, hf⟩)
    have := publicationIdFor_injective heq
    omega

/-- The new publication holds the read plane that is served then. -/
theorem Created.planeOf_eq {generatedAt : String} (h : Created env cfg (n + 1) generatedAt w w')
    (hn : Numbered w n) : planeOf w'.root (n + 1) = readPlane w'.root := by
  refine readPlane_ext fun p hp => ?_
  rw [get_subtree, h.publication p (hn.get_next p), publicationTree, get_put_of_ne, publicationPlane,
    get_put]
  · split
    · next hconfig => rw [hconfig, h.config]
    · next hconfig =>
      rw [get_readPlane_of hp, h.changes]
      rintro (⟨q, rfl⟩ | ⟨q, rfl⟩ | rfl | rfl)
      · simp [inReadPlane, readPlaneEntries] at hp
      · simp [publicationPath, inReadPlane, readPlaneEntries] at hp
      · exact hconfig rfl
      · exact absurd hp (by decide)
  · rintro rfl
    exact absurd hp (by decide)

theorem Created.get_publication {generatedAt id : String} {q : Path}
    (h : Created env cfg (n + 1) generatedAt w w') (hid : id ≠ publicationIdFor (n + 1)) :
    w'.root.get (publicationPath id ++ q) = w.root.get (publicationPath id ++ q) := by
  refine h.changes _ ?_
  rintro (⟨r, hr⟩ | ⟨r, hr⟩ | hr | hr)
  · simp [publicationPath] at hr
  · simp only [publicationPath, List.cons_append, List.nil_append, List.cons.injEq] at hr
    exact hid hr.2.1.symm
  · simp [publicationPath, configPath] at hr
  · simp [publicationPath, distributionPointerPath] at hr

theorem Created.keepsDirectories {generatedAt : String}
    (h : Created env cfg (n + 1) generatedAt w w') (hn : Numbered w n)
    (htmp : ∀ q, w.root.get ("_tmp" :: q) = none) : KeepsDirectories w.root w'.root := by
  refine .of_agreeOff h.changes ?_
  obtain ⟨previous, -, hpointer⟩ := h.pointer
  rintro p (⟨q, rfl⟩ | ⟨q, rfl⟩ | rfl | rfl) hplane hsome
  · rw [List.singleton_append, htmp] at hsome
    cases hsome
  · rw [hn.get_next] at hsome
    cases hsome
  · rw [h.config]
    rfl
  · rw [hpointer]
    rfl

theorem Created.manifests {generatedAt : String} (h : Created env cfg (n + 1) generatedAt w w')
    (hn : Numbered w n) (htmp : ∀ q, w.root.get ("_tmp" :: q) = none)
    (hm : ManifestsInPlace w.root) : ManifestsInPlace w'.root := by
  refine hm.of_agreeOff h.changes fun p f hp hf hv => ?_
  have hlast : (p ++ ["publication.json"]).getLast? = some "publication.json" := by simp
  rcases hp with ⟨q, hq⟩ | ⟨q, hq⟩ | hp | hp
  · rw [← hq, List.singleton_append, h.tmp htmp] at hf
    cases hf
  · -- Inside the new publication: its own manifest, or a file of the read plane.
    rw [← hq, h.publication q (hn.get_next q)] at hf
    rcases List.eq_nil_or_concat q with rfl | ⟨r, name, rfl⟩
    · cases hf
    · rw [List.concat_eq_append, ← List.append_assoc] at hq
      obtain ⟨rfl, hname⟩ := List.append_inj' hq rfl
      obtain rfl : name = "publication.json" := by simpa using hname
      by_cases hr : r = []
      · exact ⟨n + 1, by rw [hr, List.append_nil]⟩
      · have hconfig : r ++ ["publication.json"] ≠ configPath := by
          intro heq
          have := congrArg List.getLast? heq
          simp [configPath] at this
        rw [List.concat_eq_append, publicationTree, get_put_of_ne (by simpa using hr),
          publicationPlane, get_put_of_ne hconfig, get_readPlane] at hf
        split at hf
        · next hplane =>
          obtain ⟨k, rfl⟩ := hm r f hf hv
          simp [publicationPath, inReadPlane, readPlaneEntries] at hplane
        · cases hf
  · rw [hp] at hlast
    exact absurd hlast (by decide)
  · rw [hp] at hlast
    exact absurd hlast (by decide)

/-- The planes of the first `n` publications. -/
def storedPlanes (t : Tree) (n k : ℕ) : Option Tree :=
  if 1 ≤ k ∧ k ≤ n then some (planeOf t k) else none

/-- The pointer of the default distribution names the current and the previous snapshot. -/
inductive PointsTo (cfg : PlatformConfig) (t : Tree) (s : SnapshotStore ℕ Tree) : Prop where
  | absent (get : t.get (distributionPointerPath "default") = none) (current : s.current = none)
  | present {d : DistributionPointer} {i : ℕ}
      (get : t.get (distributionPointerPath "default") = some (.json (.pointer d)))
      (current : s.current = some i) (resolves : Resolves cfg t d.publicationId i)
      (previous : ∀ id, d.previousPublicationId = some id →
        ∃ j, s.previous = some j ∧ Resolves cfg t id j)

/-- The node has made `n` publications and is seen as a store of snapshots. -/
structure Represents (cfg : PlatformConfig) (n : ℕ) (w : World) (s : SnapshotStore ℕ Tree) :
    Prop where
  numbered : Numbered w n
  tmp : ∀ q, w.root.get ("_tmp" :: q) = none
  manifests : ManifestsInPlace w.root
  served : s.served = readPlane w.root
  stored : s.stored = storedPlanes w.root n
  points : PointsTo cfg w.root s
  current : 1 ≤ n → s.current.isSome
  empty : n = 0 → w.root = .empty
  coherent : s.Coherent

/-- An edit of the read plane by a publish or yank. -/
def PlaneEdit (env : Environment) (cfg : PlatformConfig) (n : ℕ) (a b : Tree) : Prop :=
  ∃ w w', a = readPlane w.root ∧ b = readPlane w'.root ∧ CommitStep env cfg n w w'

theorem Represents.of_initial (h : Initial w) :
    Represents cfg 0 w ⟨readPlane w.root, storedPlanes w.root 0, none, none⟩ where
  numbered := .of_initial h
  tmp q := by rw [h.root]; rfl
  manifests p f hf := by
    rw [h.root] at hf
    cases hf
  served := rfl
  stored := rfl
  points := .absent (by rw [h.root]; rfl) rfl
  current := by omega
  empty := fun _ => h.root
  coherent := nofun

theorem Numbered.number_eq {m : ℕ} (h : Numbered w m)
    (hn : ∀ k, w.root.isDirectory (publicationPath (publicationIdFor k)) = true ↔
      1 ≤ k ∧ k ≤ n) : m = n := by
  have hm : ∀ k, 1 ≤ k ∧ k ≤ n ↔ 1 ≤ k ∧ k ≤ m := by
    intro k
    rw [← hn, h.directory]
    constructor
    · rintro ⟨j, hj, hjm, heq⟩
      obtain rfl := publicationIdFor_injective heq
      exact ⟨hj, hjm⟩
    · exact fun hk => ⟨k, hk.1, hk.2, rfl⟩
  have h₁ := hm n
  have h₂ := hm m
  omega

theorem Numbered.isDirectory_iff_le {k : ℕ} (h : Numbered w n) :
    w.root.isDirectory (publicationPath (publicationIdFor k)) = true ↔ 1 ≤ k ∧ k ≤ n := by
  rw [h.directory]
  constructor
  · rintro ⟨j, hj, hjn, heq⟩
    obtain rfl := publicationIdFor_injective heq
    exact ⟨hj, hjn⟩
  · exact fun hk => ⟨k, hk.1, hk.2, rfl⟩

theorem numbered_of_succeeds {request : Request} (hlocal : cfg.usesS3ObjectStore = false)
    (hn : Numbered w n) (h : Succeeds env cfg host request w w') : ∃ m, Numbered w' m := by
  obtain ⟨r, hrun, -⟩ := h
  have hgrown : Grown w n 0 (handleRequest env cfg host none request w).2 :=
    keeps_grown_handleRequest hlocal w (Grown.refl hn)
  obtain ⟨m, -, -, hm, -⟩ := hgrown
  exact ⟨m, by rwa [hrun] at hm⟩

theorem isDirectory_congr {t t' : Tree} {p : Path} (h : ∀ q, t'.get (p ++ q) = t.get (p ++ q)) :
    t'.isDirectory p = t.isDirectory p := by
  rw [Bool.eq_iff_iff, isDirectory_iff, isDirectory_iff]
  simp only [h]

theorem PointsTo.mono {t t' : Tree} {s : SnapshotStore ℕ Tree} (h : PointsTo cfg t s)
    (hd : KeepsDirectories t t')
    (hget : t'.get (distributionPointerPath "default") = t.get (distributionPointerPath "default")) :
    PointsTo cfg t' s := by
  cases h with
  | absent get current => exact .absent (hget.trans get) current
  | present get current resolves previous =>
    refine .present (hget.trans get) current (resolves.mono hd) fun id hid => ?_
    obtain ⟨j, hj, hresolves⟩ := previous id hid
    exact ⟨j, hj, hresolves.mono hd⟩

/-- What the next pointer calls the previous publication. -/
theorem PointsTo.next {t : Tree} {s : SnapshotStore ℕ Tree} {d : Option Document} {id : String}
    (h : PointsTo cfg t s) (hd : currentDistributionPointer t "default" = .ok d)
    (hid : promotePrevious d = some id) : ∃ j, s.current = some j ∧ Resolves cfg t id j := by
  cases h with
  | absent get current =>
    rw [currentDistributionPointer, get] at hd
    cases hd
    cases hid
  | present get current resolves previous =>
    rw [currentDistributionPointer, get] at hd
    cases hd
    simp only [promotePrevious, Option.map_some, Option.getD_some] at hid
    split at hid
    · cases hid
    · cases hid
      exact ⟨_, current, resolves⟩

/-- A publish or yank commits a snapshot. -/
theorem Represents.commit {s : SnapshotStore ℕ Tree} (h : Represents cfg n w s)
    (hc : CommitStep env cfg n w w') (hm : ∃ m, Numbered w' m) :
    ∃ s', SnapshotStore.Step (PlaneEdit env cfg n) s s' ∧ Represents cfg (n + 1) w' s' ∧
      KeepsDirectories w.root w'.root := by
  have hedit : PlaneEdit env cfg n s.served (readPlane w'.root) := ⟨w, w', h.served, rfl, hc⟩
  obtain ⟨host, w₂, hedited, ⟨maps, hashes, rootHash, snapshotMeta, w₃, hrefreshed, hcreated⟩, -⟩ :=
    hc
  have hagree := hedited.agreeOff.trans hrefreshed.agreeOff
  have hget : ∀ id q, w₃.root.get (publicationPath id ++ q) = w.root.get (publicationPath id ++ q) :=
    fun _ _ => hagree _ not_editScope_publicationPath
  have hn₃ : Numbered w₃ n := hrefreshed.numbered (hedited.numbered h.numbered)
  have hdirs₃ : KeepsDirectories w.root w₃.root :=
    (hedited.keepsDirectories h.tmp).trans (hrefreshed.keepsDirectories (hedited.tmp h.tmp))
  have hpoints : PointsTo cfg w₃.root s := h.points.mono hdirs₃ (hagree _ not_editScope_pointerPath)
  have hdirs := hcreated.keepsDirectories hn₃ hrefreshed.tmp
  have hold : ∀ k, k ≠ n + 1 → ∀ q,
      w'.root.get (publicationPath (publicationIdFor k) ++ q) =
        w.root.get (publicationPath (publicationIdFor k) ++ q) := fun k hk q =>
    (hcreated.get_publication fun heq => hk (publicationIdFor_injective heq)).trans (hget _ q)
  have hnew : w'.root.isDirectory (publicationPath (publicationIdFor (n + 1))) = true :=
    isDirectory_iff.mpr ⟨["publication.json"], _, by simp,
      (hcreated.publication _ (hn₃.get_next _)).trans get_put_self⟩
  obtain ⟨m, hm⟩ := hm
  obtain rfl : m = n + 1 := by
    refine hm.number_eq fun k => ?_
    by_cases hk : k = n + 1
    · rw [hk]
      exact ⟨fun _ => by omega, fun _ => hnew⟩
    · rw [isDirectory_congr (hold k hk), h.numbered.isDirectory_iff_le]
      omega
  have hcommit : SnapshotStore.Step (PlaneEdit env cfg n) s
      ⟨readPlane w'.root, storedPlanes w'.root (n + 1), some (n + 1), s.current⟩ := by
    refine .commit hedit ?_ ?_ fun k hk => ?_
    · rw [h.stored, storedPlanes, if_neg (by omega)]
    · rw [storedPlanes, if_pos (by omega), hcreated.planeOf_eq hn₃]
    · rw [h.stored, storedPlanes, storedPlanes, planeOf_congr (hold k hk)]
      exact if_congr (by omega) rfl rfl
  obtain ⟨previous, hprevious, hpointer⟩ := hcreated.pointer
  refine ⟨_, hcommit, ?_, hdirs₃.trans hdirs⟩
  exact
    { numbered := hm
      tmp := hcreated.tmp hrefreshed.tmp
      manifests := hcreated.manifests hn₃ hrefreshed.tmp
        (hrefreshed.manifests (hedited.manifests h.manifests))
      served := rfl
      stored := rfl
      points := .present hpointer rfl (.publicationIdFor hnew) fun id hid => by
        obtain ⟨j, hj, hresolves⟩ := hpoints.next hprevious hid
        exact ⟨j, hj, hresolves.mono hdirs⟩
      current := fun _ => rfl
      empty := by omega
      coherent := hcommit.coherent h.coherent }

/-- The tree after the publication in `source` was materialised and pointed to. -/
theorem get_installed {t : Tree} {source p : Path} {pointer : File}
    (hp : p ≠ distributionPointerPath "default") :
    ((materialized t source).put (distributionPointerPath "default") pointer).get p =
      if inReadPlane p then (cleared t).get (source ++ p) else t.get p := by
  rw [get_put_of_ne hp, get_materialized]

theorem get_cleared_publication {t : Tree} {id : String} {q : Path} :
    (cleared t).get (publicationPath id ++ q) = t.get (publicationPath id ++ q) := by
  rw [get_cleared, if_neg]
  simp [publicationPath, inReadPlane, readPlaneEntries]

/-- The files that the install of a publication touches. -/
def InstallScope (p : Path) : Prop :=
  inReadPlane p = true ∨ p = distributionPointerPath "default"

theorem agreeOff_installed {t : Tree} {source : Path} {pointer : File} :
    AgreeOff InstallScope t
      ((materialized t source).put (distributionPointerPath "default") pointer) := by
  intro p hp
  rw [InstallScope, not_or] at hp
  rw [get_installed hp.2, if_neg hp.1]

theorem not_installScope_publicationPath {id : String} {q : Path} :
    ¬ InstallScope (publicationPath id ++ q) := by
  rintro (h | h)
  · simp [publicationPath, inReadPlane, readPlaneEntries] at h
  · simp [publicationPath, distributionPointerPath] at h

/-- A publication whose manifest names a version is a numbered one. -/
theorem Represents.manifest_eq {s : SnapshotStore ℕ Tree} {id v : String} {f : File}
    {publication : Document} (h : Represents cfg n w s)
    (hfile : publicationFile cfg w.root id = some f) (hparse : f.parse = some publication)
    (hv : publication.repositoryVersionId = some v) :
    ∃ k, 1 ≤ k ∧ k ≤ n ∧
      publicationRoot cfg w.root id = some (publicationPath (publicationIdFor k)) := by
  obtain ⟨p, hp, hf⟩ := Option.bind_eq_some_iff.mp hfile
  obtain ⟨k, rfl⟩ := h.manifests p f hf ⟨publication, v, hparse, hv⟩
  have hdir := isDirectory_iff.mpr ⟨["publication.json"], f, by simp, hf⟩
  obtain ⟨hk, hkn⟩ := h.numbered.isDirectory_iff_le.mp hdir
  exact ⟨k, hk, hkn, hp⟩

/-- A promote or rollback of the default distribution serves a snapshot again. -/
theorem Represents.install {s : SnapshotStore ℕ Tree} {id updatedAt : String} {f : File}
    {publication : Document} {previous : Option String} (h : Represents cfg n w s)
    (hfile : publicationFile cfg w.root id = some f) (hparse : f.parse = some publication)
    (hprevious : ∀ old, previous = some old → ∃ j, s.current = some j ∧ Resolves cfg w.root old j)
    (hi : Installed cfg "default" id publication updatedAt previous w w')
    (hm : ∃ m, Numbered w' m) :
    ∃ k, Resolves cfg w.root id k ∧ s.stored k = some (planeOf w.root k) ∧
      Represents cfg n w' (s.install k (planeOf w.root k)) := by
  obtain ⟨t, v, hprepared, hv, hroot, -⟩ := hi.exists_root
  cases hprepared with
  | other hid => exact (hid rfl).elim
  | @default source hid hsource hconfig =>
    obtain ⟨k, hk, hkn, hp⟩ := h.manifest_eq hfile hparse hv
    obtain rfl : source = publicationPath (publicationIdFor k) :=
      Option.some.inj ((publicationRoot_mono (fun _ => isDirectory_of_cleared) hsource).symm.trans hp)
    have hagree : AgreeOff InstallScope w.root w'.root := hroot ▸ agreeOff_installed
    have hget : ∀ id q, w'.root.get (publicationPath id ++ q) =
        w.root.get (publicationPath id ++ q) := fun _ _ =>
      hagree _ not_installScope_publicationPath
    have hplane : readPlane w'.root = planeOf w.root k := by
      refine readPlane_ext fun p hp => ?_
      rw [hroot, get_installed (by rintro rfl; exact absurd hp (by decide)), if_pos hp,
        get_cleared_publication, get_subtree]
    have hdirs : KeepsDirectories w.root w'.root := by
      refine .of_agreeOff hagree ?_
      rintro p (hp | rfl) hplane _
      · rw [hplane] at hp
        cases hp
      · rw [hroot, get_put_self]
        rfl
    obtain ⟨m, hm⟩ := hm
    obtain rfl : m = n := hm.number_eq fun k => by
      rw [isDirectory_congr (hget _), h.numbered.isDirectory_iff_le]
    have hstored : s.stored k = some (planeOf w.root k) := by
      rw [h.stored, storedPlanes, if_pos ⟨hk, hkn⟩]
    have hresolves : Resolves cfg w.root id k := hsource
    have hpointer : w'.root.get (distributionPointerPath "default") =
        some (installedPointer "default" id v updatedAt previous) := by rw [hroot, get_put_self]
    refine ⟨k, hresolves, hstored, ?_⟩
    exact
      { numbered := hm
        tmp := fun q => by
          rw [hagree, h.tmp]
          rintro (h | h)
          · simp [inReadPlane, readPlaneEntries] at h
          · simp [distributionPointerPath] at h
        manifests := by
          refine h.manifests.of_agreeOff hagree fun p f hp hf hv => ?_
          rcases hp with hp | hp
          · -- A copied file comes from below the publication, where no manifest lies.
            rw [hroot, get_installed (by intro h; rw [h] at hp; exact absurd hp (by decide)),
              if_pos hp, get_cleared_publication, ← List.append_assoc] at hf
            obtain ⟨j, hj⟩ := h.manifests _ f hf hv
            obtain rfl : p = [] := by
              have := congrArg List.length hj
              simpa [publicationPath] using this
            exact absurd hp (by decide)
          · have := congrArg List.getLast? hp
            simp [distributionPointerPath] at this
        served := hplane.symm
        stored := by
          change s.stored = _
          rw [h.stored]
          funext j
          rw [storedPlanes, storedPlanes, planeOf_congr (hget _)]
        points := .present hpointer rfl (hresolves.mono hdirs) fun old hold => by
          obtain ⟨j, hj, hresolves⟩ := hprevious old hold
          exact ⟨j, hj, hresolves.mono hdirs⟩
        current := fun _ => rfl
        empty := by omega
        coherent := SnapshotStore.Coherent.install hstored }

/-- Another distribution is only a pointer. -/
theorem Represents.other {s : SnapshotStore ℕ Tree} {distributionId id updatedAt : String}
    {publication : Document} {previous : Option String} (h : Represents cfg n w s)
    (hn : 1 ≤ n) (hid : distributionId ≠ "default")
    (hi : Installed cfg distributionId id publication updatedAt previous w w')
    (hm : ∃ m, Numbered w' m) : Represents cfg n w' s := by
  obtain ⟨t, v, hprepared, hv, hroot, -⟩ := hi.exists_root
  cases hprepared with
  | default hid' _ _ => exact (hid hid').elim
  | other _ =>
    have hagree : AgreeOff (· = distributionPointerPath distributionId) w.root w'.root :=
      hroot ▸ AgreeOff.refl.put rfl
    have hplane : ∀ p, inReadPlane p = true → p ≠ distributionPointerPath distributionId := by
      rintro p hp rfl
      unfold distributionPointerPath at hp
      split at hp
      · exact absurd hp (by decide)
      · split at hp
        · exact absurd hp (by decide)
        · simp [inReadPlane, readPlaneEntries] at hp
    have hget : ∀ id q, w'.root.get (publicationPath id ++ q) =
        w.root.get (publicationPath id ++ q) := fun id q => hagree _ fun heq => by
      have hhead : (distributionPointerPath distributionId).head? ≠ some "_publications" :=
        head_of_distributionPointerPath
      rw [← heq] at hhead
      exact hhead rfl
    have hdirs : KeepsDirectories w.root w'.root := by
      refine .of_agreeOff hagree ?_
      rintro p rfl _ _
      rw [hroot, get_put_self]
      rfl
    obtain ⟨m, hm⟩ := hm
    obtain rfl : m = n := hm.number_eq fun k => by
      rw [isDirectory_congr (hget _), h.numbered.isDirectory_iff_le]
    exact
      { numbered := hm
        tmp := fun q => by
          rw [hagree, h.tmp]
          unfold distributionPointerPath
          split
          · simp
          · split <;> simp
        manifests := by
          refine h.manifests.of_names hagree ?_
          rintro p rfl
          unfold distributionPointerPath
          split
          · simp
          · split <;> simp
        served := h.served.trans (readPlane_ext fun p hp => (hagree p (hplane p hp)).symm)
        stored := by
          rw [h.stored]
          funext j
          rw [storedPlanes, storedPlanes, planeOf_congr (hget _)]
        points := h.points.mono hdirs (hagree _ fun heq => by
          unfold distributionPointerPath at heq
          simp only [if_neg (show ¬ "default" = "." by decide),
            if_neg (show ¬ "default" = ".." by decide)] at heq
          split at heq
          · simp at heq
          · split at heq
            · simp at heq
            · exact hid (by simpa using heq.symm))
        current := h.current
        empty := by omega
        coherent := h.coherent }

/-- The publication that a request puts on the read plane. -/
def installedId (w : World) : Request → Option String
  | .promoteDistribution distributionId request =>
    if distributionId = "default" then requestedPublication request else none
  | .rollbackDistribution distributionId _ =>
    if distributionId = "default" then
      match w.root.get (distributionPointerPath "default") with
      | some (.json d) => some d.previousPublicationId
      | _ => none
    else none
  | _ => none

/-- How a request that was answered with 200 moves the store of snapshots. -/
inductive Moves (env : Environment) (cfg : PlatformConfig) (request : Request) (n : ℕ)
    (w w' : World) (s : SnapshotStore ℕ Tree) : ℕ → SnapshotStore ℕ Tree → Prop where
  | commit {s' : SnapshotStore ℕ Tree} (publishes : request.publishes = true)
      (h : CommitStep env cfg n w w')
      (step : SnapshotStore.Step (PlaneEdit env cfg n) s s') :
      Moves env cfg request n w w' s (n + 1) s'
  | install {id : String} {k : ℕ} (hid : installedId w request = some id)
      (resolves : Resolves cfg w.root id k) (stored : s.stored k = some (planeOf w.root k)) :
      Moves env cfg request n w w' s n (s.install k (planeOf w.root k))
  | idle (pos : 1 ≤ n) : Moves env cfg request n w w' s n s

theorem Moves.step {request : Request} {s s' : SnapshotStore ℕ Tree} {n' : ℕ}
    (h : Moves env cfg request n w w' s n' s') : SnapshotStore.Step (PlaneEdit env cfg n) s s' := by
  cases h with
  | commit _ _ step => exact step
  | install _ _ stored => exact .install stored
  | idle _ => exact .idle

theorem currentDistributionPointer_ok {t : Tree} {id : String} {d : Document}
    (h : currentDistributionPointer t id = .ok (some d)) :
    ∃ f, t.get (distributionPointerPath id) = some f ∧ f.parse = some d := by
  unfold currentDistributionPointer at h
  split at h
  · cases h
  · next f hf =>
    refine ⟨f, hf, ?_⟩
    cases hp : f.parse with
    | none =>
      rw [hp] at h
      cases h
    | some d' =>
      rw [hp] at h
      cases h
      rfl

/-- A promote of the default distribution serves the publication that its id leads to. -/
theorem Represents.promote {s : SnapshotStore ℕ Tree} {request : HttpRequest}
    (hlocal : cfg.usesS3ObjectStore = false) (h : Represents cfg n w s)
    (hs : Succeeds env cfg host (.promoteDistribution "default" request) w w') :
    ∃ id k, requestedPublication request = some id ∧ Resolves cfg w.root id k ∧
      s.stored k = some (planeOf w.root k) ∧
      Represents cfg n w' (s.install k (planeOf w.root k)) := by
  have hm := numbered_of_succeeds hlocal h.numbered hs
  obtain ⟨id, f, publication, pointer, hid, hfile, hparse, hpointer, hi⟩ := promote_succeeded hs
  obtain ⟨k, hresolves, hstored, hrep⟩ := h.install hfile hparse
    (fun _ hold => h.points.next hpointer hold) hi hm
  exact ⟨id, k, hid, hresolves, hstored, hrep⟩

/-- A rollback of the default distribution serves the previous snapshot. -/
theorem Represents.rollback {s : SnapshotStore ℕ Tree} {request : HttpRequest}
    (hlocal : cfg.usesS3ObjectStore = false) (h : Represents cfg n w s)
    (hs : Succeeds env cfg host (.rollbackDistribution "default" request) w w') :
    ∃ id k, installedId w (.rollbackDistribution "default" request) = some id ∧
      Resolves cfg w.root id k ∧ s.previous = some k ∧ s.stored k = some (planeOf w.root k) ∧
      Represents cfg n w' (s.install k (planeOf w.root k)) := by
  have hm := numbered_of_succeeds hlocal h.numbered hs
  obtain ⟨f, publication, pointer, hpointer, hfile, hparse, hi⟩ := rollback_succeeded hs
  obtain ⟨g, hg, hgparse⟩ := currentDistributionPointer_ok hpointer
  cases h.points with
  | absent get _ =>
    rw [get] at hg
    cases hg
  | @present d i get current resolves previous =>
    rw [get] at hg
    cases hg
    cases hgparse
    obtain ⟨k, hresolves, hstored, hrep⟩ := h.install hfile hparse
      (fun old hold => by cases hold; exact ⟨i, current, resolves⟩) hi hm
    refine ⟨_, k, by simp [installedId, get], hresolves, ?_, hstored, hrep⟩
    cases hd : d.previousPublicationId with
    | none =>
      rw [show (Document.pointer d).previousPublicationId = "" by
        simp [Document.previousPublicationId, hd]] at hresolves
      exact (hresolves.ne_empty rfl).elim
    | some id =>
      obtain ⟨j, hj, hj'⟩ := previous id hd
      rw [show (Document.pointer d).previousPublicationId = id by
        simp [Document.previousPublicationId, hd]] at hresolves
      rw [hj, hresolves.injective hj']

theorem publish_commits {request : HttpRequest} (hlocal : cfg.usesS3ObjectStore = false)
    (hn : Numbered w n) (h : Succeeds env cfg host (.publishRelease request) w w') :
    CommitStep env cfg n w w' := by
  obtain ⟨draft, w₀, hdraft, hfree, hpublished⟩ := publish_succeeded hlocal hn h
  obtain ⟨hensured, harchive, happended, hcommitted⟩ := hpublished
  exact ⟨host, _, .publish hdraft hfree hensured harchive happended, hcommitted⟩

/-- The simulation: every request that was answered with 200 is a step of the snapshot store. -/
theorem Represents.succeeds {request : Request} {s : SnapshotStore ℕ Tree}
    (hlocal : cfg.usesS3ObjectStore = false) (h : Represents cfg n w s)
    (hs : Succeeds env cfg host request w w') :
    ∃ n' s', Represents cfg n' w' s' ∧ Moves env cfg request n w w' s n' s' := by
  have hm := numbered_of_succeeds hlocal h.numbered hs
  have hcommit : request.publishes = true → CommitStep env cfg n w w' →
      ∃ n' s', Represents cfg n' w' s' ∧ Moves env cfg request n w w' s n' s' := by
    intro hp hc
    obtain ⟨s', hstep, hrep, -⟩ := h.commit hc hm
    exact ⟨n + 1, s', hrep, .commit hp hc hstep⟩
  have hother : ∀ {distributionId id updatedAt : String} {f : File} {publication : Document}
      {previous : Option String}, publicationFile cfg w.root id = some f →
      f.parse = some publication → distributionId ≠ "default" →
      Installed cfg distributionId id publication updatedAt previous w w' →
      ∃ n' s', Represents cfg n' w' s' ∧ Moves env cfg request n w w' s n' s' := by
    intro distributionId id updatedAt f publication previous hfile hparse hdefault hi
    obtain ⟨_, _, _, hv, -⟩ := hi.exists_root
    obtain ⟨k, hk, hkn, -⟩ := h.manifest_eq hfile hparse hv
    exact ⟨n, s, h.other (hk.trans hkn) hdefault hi hm, .idle (hk.trans hkn)⟩
  cases request with
  | publishRelease request => exact hcommit rfl (publish_commits hlocal h.numbered hs)
  | setYanked namespaceName name version yanked request =>
    obtain ⟨hname, reason, hyanked⟩ := yank_succeeded hlocal h.numbered hs
    obtain ⟨hread, hfound, hcommitted⟩ := hyanked
    exact hcommit rfl ⟨host, _, .yank hname hread hfound, hcommitted⟩
  | promoteDistribution distributionId request =>
    by_cases hdefault : distributionId = "default"
    · subst hdefault
      obtain ⟨id, k, hid, hresolves, hstored, hrep⟩ := h.promote hlocal hs
      exact ⟨n, _, hrep, .install (by simpa [installedId] using hid) hresolves hstored⟩
    · obtain ⟨id, f, publication, pointer, -, hfile, hparse, -, hi⟩ := promote_succeeded hs
      exact hother hfile hparse hdefault hi
  | rollbackDistribution distributionId request =>
    by_cases hdefault : distributionId = "default"
    · subst hdefault
      obtain ⟨id, k, hid, hresolves, -, hstored, hrep⟩ := h.rollback hlocal hs
      exact ⟨n, _, hrep, .install hid hresolves hstored⟩
    · obtain ⟨f, publication, pointer, -, hfile, hparse, hi⟩ := rollback_succeeded hs
      exact hother hfile hparse hdefault hi

theorem Represents.stored_served {s : SnapshotStore ℕ Tree} (h : Represents cfg n w s)
    (hn : 1 ≤ n) : ∃ k, s.stored k = some s.served := by
  obtain ⟨k, hk⟩ := Option.isSome_iff_exists.mp (h.current hn)
  exact ⟨k, h.coherent k hk⟩

/-- The served read plane is empty or published. -/
theorem Represents.served_cases {s : SnapshotStore ℕ Tree} {P : Tree → Prop}
    (h : Represents cfg n w s) (hs : ∀ i a, s.stored i = some a → P a) :
    s.served = .empty ∨ P s.served := by
  rcases Nat.eq_zero_or_pos n with hn | hn
  · exact Or.inl (by rw [h.served, h.empty hn, readPlane_empty])
  · obtain ⟨k, hk⟩ := h.stored_served hn
    exact Or.inr (hs k _ hk)

/-- What holds of every published read plane, given that edits of such a plane, or of the empty
one, establish it. -/
theorem Moves.planes {request : Request} {s s' : SnapshotStore ℕ Tree} {n' : ℕ}
    {P : ℕ → Tree → Prop} (h : Moves env cfg request n w w' s n' s') (hrep : Represents cfg n w s)
    (hmono : ∀ a, P n a → P (n + 1) a)
    (hedit : ∀ a b, a = .empty ∨ P n a → PlaneEdit env cfg n a b → P (n + 1) b)
    (hs : ∀ i a, s.stored i = some a → P n a) : ∀ i a, s'.stored i = some a → P n' a := by
  cases h with
  | commit _ _ step =>
    exact step.stored_all (fun i a hi => hmono a (hs i a hi)) fun b =>
      hedit _ b (hrep.served_cases hs)
  | install _ _ _ => exact hs
  | idle _ => exact hs

/-- Every state of a run of successful requests is a store of snapshots. -/
theorem represents_run {w₀ : World} (hlocal : cfg.usesS3ObjectStore = false) (hinit : Initial w₀)
    (hrun : Relation.ReflTransGen (SuccessStep env cfg) w₀ w) :
    ∃ n s, Represents cfg n w s := by
  induction hrun with
  | refl => exact ⟨0, _, .of_initial hinit⟩
  | tail _ hstep ih =>
    obtain ⟨n, s, hrep⟩ := ih
    obtain ⟨host, request, hs⟩ := hstep
    obtain ⟨n', s', hrep', -⟩ := hrep.succeeds hlocal hs
    exact ⟨n', s', hrep'⟩

theorem Moves.pos {request : Request} {s s' : SnapshotStore ℕ Tree} {n' : ℕ}
    (h : Moves env cfg request n w w' s n' s') (hrep : Represents cfg n w s) : 1 ≤ n' := by
  cases h with
  | commit _ _ _ => omega
  | install _ _ stored =>
    rw [hrep.stored, storedPlanes] at stored
    split at stored
    · next h => exact h.1.trans h.2
    · cases stored
  | idle pos => exact pos

/-- After a first request something is published. -/
theorem represents_transGen {w₀ : World} (hlocal : cfg.usesS3ObjectStore = false)
    (hinit : Initial w₀) (hrun : Relation.TransGen (SuccessStep env cfg) w₀ w) :
    ∃ n s, Represents cfg n w s ∧ 1 ≤ n := by
  obtain ⟨w₁, hrun, host, request, hs⟩ := Relation.TransGen.tail'_iff.mp hrun
  obtain ⟨n, s, hrep⟩ := represents_run hlocal hinit hrun
  obtain ⟨n', s', hrep', hmoves⟩ := hrep.succeeds hlocal hs
  exact ⟨n', s', hrep', hmoves.pos hrep⟩

theorem Resolves.publicationRoot_eq {t : Tree} {id : String} {k : ℕ} (h : Resolves cfg t id k) :
    publicationRoot cfg t id = some (publicationPath (Registry.publicationIdFor k)) :=
  publicationRoot_mono (fun _ => isDirectory_of_cleared) h

theorem Represents.pointer {s : SnapshotStore ℕ Tree} (h : Represents cfg n w s) (hn : 1 ≤ n) :
    ∃ d k, w.root.get (distributionPointerPath "default") = some (.json (.pointer d)) ∧
      s.current = some k ∧ Resolves cfg w.root d.publicationId k ∧
      readPlane w.root = planeOf w.root k ∧
      ∀ id, d.previousPublicationId = some id →
        ∃ j, s.previous = some j ∧ Resolves cfg w.root id j := by
  cases h.points with
  | absent get current =>
    have := h.current hn
    rw [current] at this
    cases this
  | @present d k get current resolves previous =>
    refine ⟨d, k, get, current, resolves, ?_, previous⟩
    have hstored := h.coherent k current
    rw [h.stored, h.served, storedPlanes] at hstored
    split at hstored
    · exact (Option.some.inj hstored).symm
    · cases hstored

/-- The served read plane is that of the current publication. Two rollbacks restore it, and a
promote of the publication that was current before a publish undoes the publish. -/
theorem read_plane_of_current_publication {w₀ : World} (hlocal : cfg.usesS3ObjectStore = false)
    (hinit : Initial w₀) (hrun : Relation.TransGen (SuccessStep env cfg) w₀ w) :
    ∃ d source, w.root.get (distributionPointerPath "default") = some (.json (.pointer d)) ∧
      publicationRoot cfg w.root d.publicationId = some source ∧
      readPlane w.root = readPlane (w.root.subtree source) ∧
      (∀ host₁ host₂ request₁ request₂ w₁ w₂,
        Succeeds env cfg host₁ (.rollbackDistribution "default" request₁) w w₁ →
        Succeeds env cfg host₂ (.rollbackDistribution "default" request₂) w₁ w₂ →
        readPlane w₂.root = readPlane w.root) ∧
      ∀ host₁ host₂ request₁ request₂ w₁ w₂,
        Succeeds env cfg host₁ (.publishRelease request₁) w w₁ →
        Succeeds env cfg host₂ (.promoteDistribution "default" request₂) w₁ w₂ →
        requestedPublication request₂ = some d.publicationId →
        readPlane w₂.root = readPlane w.root := by
  obtain ⟨n, s, hrep, hn⟩ := represents_transGen hlocal hinit hrun
  obtain ⟨d, k, hget, hcurrent, hresolves, hplane, -⟩ := hrep.pointer hn
  refine ⟨d, _, hget, hresolves.publicationRoot_eq, hplane, ?_, ?_⟩
  · intro host₁ host₂ request₁ request₂ w₁ w₂ h₁ h₂
    obtain ⟨_, i, -, -, hi, hstored₁, hrep₁⟩ := hrep.rollback hlocal h₁
    obtain ⟨_, j, -, -, hj, hstored₂, hrep₂⟩ := hrep₁.rollback hlocal h₂
    rw [← hrep.served]
    exact hrep₂.served.symm.trans (SnapshotStore.served_of_rollback_twice hrep.coherent
      ⟨i, _, hi, hstored₁, rfl⟩ ⟨j, _, hj, hstored₂, rfl⟩)
  · intro host₁ host₂ request₁ request₂ w₁ w₂ h₁ h₂ hid
    obtain ⟨s₁, hstep, hrep₁, hdirs⟩ := hrep.commit (publish_commits hlocal hrep.numbered h₁)
      (numbered_of_succeeds hlocal hrep.numbered h₁)
    obtain ⟨id, j, hid', hj, hstored, hrep₂⟩ := hrep₁.promote hlocal h₂
    obtain rfl : id = d.publicationId := Option.some.inj (hid'.symm.trans hid)
    obtain rfl := hj.injective (hresolves.mono hdirs)
    have hkept := hstep.stored_mono (hrep.coherent j hcurrent)
    rw [← hrep.served, ← hrep₂.served]
    exact Option.some.inj (hstored.symm.trans hkept)

/-- Two publishes. -/
theorem read_plane_after_two_publishes :
    ∃ d source, (sampleAfter [publishOf "a/b" "1" "one", publishOf "a/b" "2" "two"]).root.get
        (distributionPointerPath "default") = some (.json (.pointer d)) ∧
      publicationRoot sampleConfig (sampleAfter [publishOf "a/b" "1" "one",
        publishOf "a/b" "2" "two"]).root d.publicationId = some source ∧
      readPlane (sampleAfter [publishOf "a/b" "1" "one", publishOf "a/b" "2" "two"]).root =
        readPlane ((sampleAfter [publishOf "a/b" "1" "one",
          publishOf "a/b" "2" "two"]).root.subtree source) := by
  have hrun : Relation.ReflTransGen (SuccessStep sampleEnvironment sampleConfig)
      (sampleAfter [publishOf "a/b" "1" "one"])
      (sampleAfter [publishOf "a/b" "1" "one", publishOf "a/b" "2" "two"]) :=
    reflTransGen_of_accepts (l := [publishOf "a/b" "2" "two"]) (by decide +kernel)
  have hfirst : SuccessStep sampleEnvironment sampleConfig sampleStart
      (sampleAfter [publishOf "a/b" "1" "one"]) :=
    ⟨sampleHost, _, succeeds_of_answerStatus (by decide +kernel)⟩
  obtain ⟨d, source, hget, hsource, hplane, -⟩ := read_plane_of_current_publication rfl
    sampleStart_initial (Relation.TransGen.head' hfirst hrun)
  exact ⟨d, source, hget, hsource, hplane⟩

end StyioPlatform.Registry
