import StyioPlatform.Registry.Snapshots

/-! Versions of the signed role files: every signature issues the next version of the file that
is served, so versions only go back where an older publication is put on the read plane. -/
namespace StyioPlatform.Registry

open FileTree Prog

variable {env : Environment} {cfg : PlatformConfig} {host : Host} {fault : Option Site}
  {w w' : World} {n : ℕ} {v : Path → ℕ}

/-- Since the versions `v`, each version of a role file was issued once, and none is greater than
the one that is served. -/
structure VersionsIssued (v : Path → ℕ) (w : World) : Prop where
  since : ∀ p, isRoleFile p → v p ≤ readSignedVersion w.root p
  written_le : ∀ p f, isRoleFile p → (p, f) ∈ w.written →
    f.signedVersion ≤ readSignedVersion w.root p
  unique : ∀ p f g, isRoleFile p → (p, f) ∈ w.written → (p, g) ∈ w.written →
    f.signedVersion = g.signedVersion → f = g

namespace VersionsIssued

theorem of_initial (h : Initial w) : VersionsIssued (fun _ => 0) w where
  since _ _ := Nat.zero_le _
  written_le p f _ hf := by
    rw [h.written] at hf
    cases hf
  unique p f g _ hf := by
    rw [h.written] at hf
    cases hf

theorem restart_since (h : VersionsIssued v w) :
    VersionsIssued (fun p => readSignedVersion w.root p) w :=
  { h with since := fun _ _ => le_rfl }

/-- The served role files are as they were, and none was written. -/
theorem of_same (h : VersionsIssued v w) (hget : ∀ p, isRoleFile p → w'.root.get p = w.root.get p)
    (hwritten : ∀ x ∈ w'.written, x ∈ w.written ∨ ¬ isRoleFile x.1) : VersionsIssued v w' := by
  have hold : ∀ p f, isRoleFile p → (p, f) ∈ w'.written → (p, f) ∈ w.written := fun p f hp hf =>
    (hwritten _ hf).resolve_right fun hn => hn hp
  refine ⟨fun p hp => ?_, fun p f hp hf => ?_, fun p f g hp hf hg => ?_⟩
  · rw [readSignedVersion_congr (hget p hp)]
    exact h.since p hp
  · rw [readSignedVersion_congr (hget p hp)]
    exact h.written_le p f hp (hold p f hp hf)
  · exact h.unique p f g hp (hold p f hp hf) (hold p g hp hg)

theorem of_changes {S : Path → Prop} (h : VersionsIssued v w) (hc : OnlyChanges S w w')
    (hS : ∀ p, S p → ¬ isRoleFile p) : VersionsIssued v w' :=
  h.of_same (fun p hp => hc.get fun hs => hS p hs hp) fun x hx =>
    (hc.written x hx).imp_right (hS x.1)

/-- A signature issues the next version of its file. -/
theorem write {p : Path} {f : File} (h : VersionsIssued v w)
    (hf : f.signedVersion = readSignedVersion w.root p + 1) : VersionsIssued v (w.write p f) := by
  have hself : readSignedVersion (w.write p f).root p = f.signedVersion := by
    rw [readSignedVersion, World.write_root, get_put_self]
    rfl
  have hle : ∀ q, readSignedVersion w.root q ≤ readSignedVersion (w.write p f).root q := by
    intro q
    by_cases hq : q = p
    · subst hq
      omega
    · rw [World.write_root, readSignedVersion_congr (t := w.root) (get_put_of_ne hq)]
  refine ⟨fun q hq => (h.since q hq).trans (hle q), fun q g hq hg => ?_,
    fun q g₁ g₂ hq h₁ h₂ heq => ?_⟩
  · rcases List.mem_append.mp hg with hg | hg
    · exact (h.written_le q g hq hg).trans (hle q)
    · cases List.mem_singleton.mp hg
      exact hself.ge
  · -- The new version is greater than every one written before.
    have hnew : ∀ g, (p, g) ∈ w.written → isRoleFile p → g.signedVersion ≠ f.signedVersion := by
      intro g hg hp
      have := h.written_le p g hp hg
      omega
    rcases List.mem_append.mp h₁ with h₁ | h₁
    · rcases List.mem_append.mp h₂ with h₂ | h₂
      · exact h.unique q g₁ g₂ hq h₁ h₂ heq
      · cases List.mem_singleton.mp h₂
        exact (hnew g₁ h₁ hq heq).elim
    · rcases List.mem_append.mp h₂ with h₂ | h₂
      · cases List.mem_singleton.mp h₁
        exact (hnew g₂ h₂ hq heq.symm).elim
      · cases List.mem_singleton.mp h₁
        cases List.mem_singleton.mp h₂
        rfl

theorem sign {role : RegistryRole} {p : Path} {body : SignedBody} (h : VersionsIssued v w) :
    VersionsIssued v (w.write p (signedFile env cfg role
      { version := readSignedVersion w.root p + 1, body := body })) := h.write rfl

end VersionsIssued

theorem keeps_versions_of_changes {α : Type} {S : Path → Prop} {x : Program α} (h : Changes S x)
    (hS : ∀ p, S p → ¬ isRoleFile p) : Keeps (VersionsIssued v) x := fun w hw =>
  hw.of_changes (h w) hS

/-- Files outside `trust` and `log` are no role files. -/
theorem not_isRoleFile_of_head {p : Path} (htrust : p.head? ≠ some "trust")
    (hlog : p.head? ≠ some "log") : ¬ isRoleFile p := by
  rintro (rfl | rfl | rfl | ⟨space, rfl⟩)
  · exact hlog rfl
  · exact htrust rfl
  · exact htrust rfl
  · exact htrust rfl

theorem leafPath_not_isRoleFile {i : ℕ} : ¬ isRoleFile (leafPath i) := by
  rintro (h | h | h | ⟨space, h⟩)
  · simp [leafPath, checkpointPath] at h
  · simp [leafPath, snapshotPath] at h
  · simp [leafPath, timestampPath] at h
  · simp [leafPath, targetsPath] at h

theorem keeps_versions_writeSignedIfMissing {role : RegistryRole} {p : Path}
    {payload : SignedPayload} (hp : payload.version = 1) :
    Keeps (VersionsIssued v) (writeSignedIfMissing env cfg fault role p payload) := by
  rw [keeps_iff]
  intro w hw
  rw [writeSignedIfMissing, wp_bind, wp_rootTree]
  cases hget : w.root.get p with
  | some f => exact hw
  | none =>
    rw [wp_bind, wp_failAt]
    refine ⟨fun _ => hw, fun _ => hw.write ?_⟩
    change payload.version = _
    rw [hp, readSignedVersion, hget]
    rfl

theorem keeps_versions_ensure :
    Keeps (VersionsIssued v) (ensureRegistryRootInitialized env cfg host fault) := by
  refine keeps_bind keeps_failAt fun _ => keeps_bind keeps_failAt fun _ => keeps_bind ?_ fun _ =>
    keeps_bind (keeps_versions_writeSignedIfMissing rfl) fun _ =>
    keeps_bind (keeps_versions_writeSignedIfMissing rfl) fun _ =>
    keeps_bind (keeps_versions_writeSignedIfMissing rfl) fun _ =>
    keeps_bind (keeps_versions_writeSignedIfMissing rfl) fun _ => ?_
  · refine keeps_versions_of_changes (S := (· = configPath)) (changes_bind changes_rootTree fun _ =>
      changes_onlyIf (changes_writeTextFile rfl)) ?_
    rintro p rfl
    exact not_isRoleFile_of_head (by decide) (by decide)
  · refine keeps_versions_of_changes (changes_removeTmp fun _ hp => hp) fun p hp => ?_
    exact not_isRoleFile_of_head (by simp [head_of_tmp hp]) (by simp [head_of_tmp hp])

theorem keeps_versions_writeTargets {l : List (String × List (String × PackageEntry))}
    {snapshotMeta : List (Path × FileMeta)} :
    Keeps (VersionsIssued v) (writeTargets env cfg host fault l snapshotMeta) := by
  induction l generalizing snapshotMeta with
  | nil => exact keeps_pure
  | cons x l ih =>
    rw [keeps_iff]
    intro w hw
    rw [writeTargets, wp_bind, wp_rootTree, wp_bind, wp_failAt]
    refine ⟨fun _ => hw, fun _ => ?_⟩
    rw [wp_bind, wp_writeSigned]
    exact ih.wp hw.sign

theorem not_isRoleFile_of_tmp {p : Path} (h : ["_tmp"] <+: p) : ¬ isRoleFile p :=
  not_isRoleFile_of_head (by simp [head_of_tmp h]) (by simp [head_of_tmp h])

theorem keeps_versions_refresh {registryTime : String} :
    Keeps (VersionsIssued v) (refreshSignedRegistryMetadata env cfg host fault registryTime) := by
  unfold refreshSignedRegistryMetadata
  refine keeps_bind keeps_failAt fun _ => keeps_bind keeps_rootTree fun _ =>
    keeps_bind keeps_ofExcept fun _ => keeps_bind keeps_versions_writeTargets fun _ =>
    keeps_bind keeps_rootTree fun _ => keeps_bind keeps_ofExcept fun _ =>
    keeps_bind keeps_ofExcept fun _ => ?_
  rw [keeps_iff]
  intro w hw
  rw [wp_bind, wp_rootTree, wp_bind, wp_failAt]
  refine ⟨fun _ => hw, fun _ => ?_⟩
  rw [wp_bind, wp_writeSigned, wp_bind, wp_rootTree, wp_bind, wp_failAt]
  refine ⟨fun _ => hw.sign, fun _ => ?_⟩
  rw [wp_bind, wp_writeSigned, wp_bind, wp_rootTree, wp_bind, wp_failAt]
  refine ⟨fun _ => hw.sign.sign, fun _ => ?_⟩
  rw [wp_bind, wp_writeSigned]
  refine Keeps.wp (keeps_bind ?_ fun _ => keeps_pure) hw.sign.sign.sign
  exact keeps_versions_of_changes (changes_removeTmp fun _ hp => hp) fun _ => not_isRoleFile_of_tmp

theorem VersionsIssued.of_sameTree (h : VersionsIssued v w) (hs : SameTree w w') :
    VersionsIssued v w' :=
  h.of_same (fun p _ => by rw [hs.root]) fun x hx => Or.inl (hs.written ▸ hx)

theorem StoresOnly.keeps_versions {x : Program Unit} (h : StoresOnly fault x) :
    Keeps (VersionsIssued v) x := by
  rw [keeps_iff]
  intro w hw
  exact wp_mono (h w) (fun _ _ => hw.of_sameTree) fun _ _ h => hw.of_sameTree h.1

theorem keeps_versions_create {changeKind changeRef generatedAt : String} :
    Keeps (VersionsIssued v)
      (createRegistryPublication env cfg fault changeKind changeRef generatedAt) := by
  refine keeps_bind ?_ fun sequence => keeps_bind ?_ fun _ => keeps_bind ?_ fun _ =>
    keeps_bind storesOnly_recordPublication.keeps_versions fun _ => keeps_pure
  · exact keeps_bind keeps_read fun _ => keeps_bind (keeps_onlyIf fun _ => keeps_failAt) fun _ =>
      keeps_bind keeps_require fun _ => keeps_pure
  · rw [keeps_iff]
    intro w hw
    refine wp_mono wp_buildPublication (fun _ _ h => hw.of_changes h.changes ?_)
      fun _ _ h => hw.of_changes h.1 fun _ => not_isRoleFile_of_tmp
    rintro p (hp | ⟨q, rfl⟩)
    · exact not_isRoleFile_of_tmp hp
    · exact not_isRoleFile_of_head (by simp [publicationPath]) (by simp [publicationPath])
  · refine keeps_versions_of_changes changes_activatePublication ?_
    rintro p (rfl | rfl)
    · exact not_isRoleFile_of_head (by decide) (by decide)
    · exact not_isRoleFile_of_head (by decide) (by decide)

theorem registryIndexPath_not_isRoleFile {package : String} :
    ¬ isRoleFile (registryIndexPathForPackage package) :=
  not_isRoleFile_of_head (by simp [head_of_registryIndexPath]) (by simp [head_of_registryIndexPath])

theorem keeps_versions_append {archive : File} {draft : PublishDraft} :
    Keeps (VersionsIssued v) (appendRegistryReleaseToLocal env fault archive
      (buildReleaseRecord env draft host.now archive)) := by
  refine keeps_versions_of_changes changes_appendRegistryReleaseToLocal ?_
  rintro p (rfl | rfl | ⟨i, rfl⟩)
  · exact not_isRoleFile_of_head (by simp [buildReleaseRecord, artifactPath])
      (by simp [buildReleaseRecord, artifactPath])
  · exact registryIndexPath_not_isRoleFile
  · exact leafPath_not_isRoleFile

/-- A publish issues versions only in turn, also when it stops. -/
theorem keeps_versions_publish {request : HttpRequest} (hlocal : cfg.usesS3ObjectStore = false) :
    Keeps (VersionsIssued v) (handlePublishRelease env cfg host fault request) := by
  refine keeps_handlePublishRelease (fun fields => ?_) fun actor draft => keeps_tryPublish ?_
    (keeps_publishDraft keeps_versions_ensure (fun _ => keeps_versions_append)
      keeps_versions_refresh keeps_versions_create (fun hs => ?_)
      fun _ _ => storesOnly_recordRelease.keeps_versions)
  · refine keeps_versions_of_changes changes_buildPublishDraft fun p hp => ?_
    exact not_isRoleFile_of_head (by simp [show p.head? = _ from hp])
      (by simp [show p.head? = _ from hp])
  · rw [refreshFromObjectStore_local hlocal]
    exact keeps_pure
  · rw [hlocal] at hs
    cases hs

theorem keeps_versions_yank {namespaceName name version : String} {yanked : Bool}
    {request : HttpRequest} (hlocal : cfg.usesS3ObjectStore = false) :
    Keeps (VersionsIssued v) (handleSetPackageReleaseYanked env cfg host fault namespaceName name
      version request yanked) := by
  refine keeps_handleSetPackageReleaseYanked fun reason => keeps_tryYank (fun records => ?_)
    keeps_versions_refresh (fun _ => keeps_versions_create)
    storesOnly_execPostgres.keeps_versions
    (StoresOnly.keeps_versions (storesOnly_modifyMemory : StoresOnly fault _)) fun hs => ?_
  · refine keeps_versions_of_changes (changes_writeTextFile (S := (· = registryIndexPathForPackage
      (namespaceName ++ "/" ++ name))) rfl) ?_
    rintro p rfl
    exact registryIndexPath_not_isRoleFile
  · rw [hlocal] at hs
    cases hs

/-- The version of the timestamp, which every publish and yank raises. -/
def timestampVersion (t : Tree) : ℕ := readSignedVersion t timestampPath

theorem timestampVersion_readPlane {t : Tree} :
    timestampVersion (readPlane t) = timestampVersion t :=
  readSignedVersion_congr (get_readPlane_of rfl)

theorem Edited.timestamp_le (h : Edited env cfg host w w') :
    timestampVersion w.root ≤ timestampVersion w'.root := by
  cases hget : w.root.get timestampPath with
  | none =>
    rw [timestampVersion, readSignedVersion, hget]
    exact Nat.zero_le _
  | some f =>
    refine (readSignedVersion_congr ?_).ge
    cases h with
    | publish drafted free ensured archive_eq appended =>
      rw [appended.changes.get, ensured.kept timestampPath f _ (by decide), hget]
      · rw [drafted.changes.get (by simp [InStaging, timestampPath]), hget]
      · rintro (h | h | h)
        · simp [buildReleaseRecord, artifactPath, timestampPath] at h
        · simp [registryIndexPathForPackage, timestampPath] at h
        · simp [leafPath, timestampPath] at h
    | yank validName read found =>
      rw [World.write_root, get_put_of_ne]
      simp [registryIndexPathForPackage, timestampPath]

/-- A publish or yank raises the version of the timestamp. -/
theorem CommitStep.timestamp_lt (h : CommitStep env cfg n w w') :
    timestampVersion w.root < timestampVersion w'.root := by
  obtain ⟨host, w₂, hedited, ⟨maps, hashes, rootHash, snapshotMeta, w₃, hrefreshed, hcreated⟩, -⟩ := h
  have hget : w'.root.get timestampPath = w₃.root.get timestampPath := by
    refine hcreated.changes _ ?_
    rintro (⟨q, hq⟩ | ⟨q, hq⟩ | h | h)
    · simp [timestampPath] at hq
    · simp [publicationPath, timestampPath] at hq
    · exact absurd h (by decide)
    · exact absurd h (by decide)
  have hnew : timestampVersion w'.root = timestampVersion w₂.root + 1 := by
    rw [timestampVersion, readSignedVersion, hget, hrefreshed.timestamp]
    rfl
  have := hedited.timestamp_le
  omega

/-- A publication that the request puts on the read plane is not older than the served one. -/
def KeepsVersion (cfg : PlatformConfig) (w : World) (request : Request) : Prop :=
  ∀ id source, installedId w request = some id → publicationRoot cfg w.root id = some source →
    timestampVersion w.root ≤ timestampVersion (w.root.subtree source)

/-- A request that was answered with 200 and does not serve an older timestamp. -/
def VersionStep (env : Environment) (cfg : PlatformConfig) (w w' : World) : Prop :=
  ∃ host request, Succeeds env cfg host request w w' ∧ KeepsVersion cfg w request

/-- The first plane has an older timestamp, or the planes are the same. -/
def NotNewer (a b : Tree) : Prop := timestampVersion a < timestampVersion b ∨ a = b

theorem NotNewer.refl (a : Tree) : NotNewer a a := Or.inr rfl

theorem NotNewer.trans {a b c : Tree} (h : NotNewer a b) (h' : NotNewer b c) : NotNewer a c := by
  rcases h with h | rfl
  · rcases h' with h' | rfl
    · exact Or.inl (h.trans h')
    · exact Or.inl h
  · exact h'

/-- No published plane is newer than the served one. -/
structure VersionInvariant (env : Environment) (cfg : PlatformConfig) (n : ℕ) (w : World)
    (s : SnapshotStore ℕ Tree) : Prop where
  represents : Represents cfg n w s
  issued : VersionsIssued (fun _ => 0) w
  behind : ∀ i a, s.stored i = some a → NotNewer a s.served

theorem inReadPlane_of_isRoleFile {p : Path} (h : isRoleFile p) : inReadPlane p = true := by
  rcases h with rfl | rfl | rfl | ⟨space, rfl⟩ <;> rfl

/-- A promote or rollback signs nothing. -/
theorem written_of_install {request : Request} (hr : request.publishes = false)
    (hs : Succeeds env cfg host request w w') :
    ∀ x ∈ w'.written, x ∈ w.written ∨ ¬ isRoleFile x.1 := by
  have hinstalled : ∀ {distributionId id updatedAt : String} {publication : Document}
      {previous : Option String},
      Installed cfg distributionId id publication updatedAt previous w w' →
      ∀ x ∈ w'.written, x ∈ w.written ∨ ¬ isRoleFile x.1 := by
    intro distributionId id updatedAt publication previous hi x hx
    obtain ⟨_, _, -, -, -, hwritten⟩ := hi.exists_root
    rw [hwritten] at hx
    refine (List.mem_append.mp hx).imp_right fun hx => ?_
    rw [List.mem_singleton.mp hx]
    unfold distributionPointerPath
    split
    · exact not_isRoleFile_of_head (by simp) (by simp)
    · split <;> exact not_isRoleFile_of_head (by simp) (by simp)
  cases request with
  | publishRelease request => cases hr
  | setYanked namespaceName name version yanked request => cases hr
  | promoteDistribution distributionId request =>
    obtain ⟨_, _, _, _, -, -, -, -, hi⟩ := promote_succeeded hs
    exact hinstalled hi
  | rollbackDistribution distributionId request =>
    obtain ⟨_, _, _, -, -, -, hi⟩ := rollback_succeeded hs
    exact hinstalled hi

theorem versions_of_publish {request : Request} (hlocal : cfg.usesS3ObjectStore = false)
    (hr : request.publishes = true) (hs : Succeeds env cfg host request w w')
    (h : VersionsIssued v w) : VersionsIssued v w' := by
  obtain ⟨r, hrun, -⟩ := hs
  have hkeeps : Keeps (VersionsIssued v) (handleRequest env cfg host none request) := by
    cases request with
    | publishRelease request => exact keeps_versions_publish hlocal
    | setYanked namespaceName name version yanked request => exact keeps_versions_yank hlocal
    | promoteDistribution distributionId request => cases hr
    | rollbackDistribution distributionId request => cases hr
  have := hkeeps w h
  rwa [hrun] at this

theorem VersionInvariant.step {s : SnapshotStore ℕ Tree} (hlocal : cfg.usesS3ObjectStore = false)
    (h : VersionInvariant env cfg n w s) (hs : VersionStep env cfg w w') :
    (∀ p, isRoleFile p → readSignedVersion w.root p ≤ readSignedVersion w'.root p) ∧
      ∃ n' s', VersionInvariant env cfg n' w' s' := by
  obtain ⟨host, request, hs, hkeeps⟩ := hs
  obtain ⟨n', s', hrep, hmoves⟩ := h.represents.succeeds hlocal hs
  have hup : request.publishes = true ∧ timestampVersion s.served < timestampVersion s'.served ∨
      s.served = s'.served := by
    cases hmoves with
    | commit hr hc _ =>
      refine Or.inl ⟨hr, ?_⟩
      rw [h.represents.served, hrep.served, timestampVersion_readPlane, timestampVersion_readPlane]
      exact hc.timestamp_lt
    | @install id k hid resolves stored =>
      -- Every publication that is not older than the served plane has that plane.
      have hle := hkeeps id _ hid resolves.publicationRoot_eq
      rw [← timestampVersion_readPlane (t := w.root), ← timestampVersion_readPlane
        (t := w.root.subtree _), ← h.represents.served] at hle
      exact Or.inr ((h.behind k _ stored).resolve_left (Nat.not_lt.mpr hle)).symm
    | idle _ => exact Or.inr rfl
  have hbehind : ∀ i a, s'.stored i = some a → NotNewer a s'.served :=
    hmoves.step.stored_le .refl (fun _ _ _ => .trans) (hup.imp_left And.right) h.behind
  have hissued : VersionsIssued (fun p => readSignedVersion w.root p) w' := by
    cases hr : request.publishes with
    | true => exact versions_of_publish hlocal hr hs h.issued.restart_since
    | false =>
      have hplane := hup.resolve_left fun hn => by simp [hr] at hn
      refine h.issued.restart_since.of_same (fun p hp => ?_) (written_of_install hr hs)
      have hp := inReadPlane_of_isRoleFile hp
      rw [← get_readPlane_of (t := w'.root) hp, ← get_readPlane_of (t := w.root) hp,
        ← hrep.served, ← h.represents.served, hplane]
  exact ⟨hissued.since, n', s', hrep, { hissued with since := fun _ _ => Nat.zero_le _ }, hbehind⟩

theorem VersionInvariant.of_initial (h : Initial w) : ∃ s, VersionInvariant env cfg 0 w s := by
  refine ⟨_, .of_initial h, .of_initial h, fun i a hi => ?_⟩
  change storedPlanes w.root 0 i = some a at hi
  rw [storedPlanes, if_neg (by omega)] at hi
  cases hi

theorem VersionInvariant.run {s : SnapshotStore ℕ Tree} (hlocal : cfg.usesS3ObjectStore = false)
    (h : VersionInvariant env cfg n w s) (hrun : Relation.ReflTransGen (VersionStep env cfg) w w') :
    (∀ p, isRoleFile p → readSignedVersion w.root p ≤ readSignedVersion w'.root p) ∧
      ∃ n' s', VersionInvariant env cfg n' w' s' := by
  induction hrun with
  | refl => exact ⟨fun _ _ => le_rfl, n, s, h⟩
  | tail _ hstep ih =>
    obtain ⟨hle, n', s', h'⟩ := ih
    obtain ⟨hle', h''⟩ := h'.step hlocal hstep
    exact ⟨fun p hp => (hle p hp).trans (hle' p hp), h''⟩

/-- While no older timestamp is served again, the versions of the role files never go back, and
no version of a role file is issued twice. -/
theorem versions_never_go_back {w₀ s t : World} (hlocal : cfg.usesS3ObjectStore = false)
    (hinit : Initial w₀) (hreach : Relation.ReflTransGen (VersionStep env cfg) w₀ s)
    (hrun : Relation.ReflTransGen (VersionStep env cfg) s t) :
    (∀ p, isRoleFile p → readSignedVersion s.root p ≤ readSignedVersion t.root p) ∧
    ∀ p e e', isRoleFile p → (p, File.json (.envelope e)) ∈ t.written →
      (p, File.json (.envelope e')) ∈ t.written → e.signed.version = e'.signed.version →
      e.signed = e'.signed := by
  obtain ⟨s₀, h₀⟩ : ∃ s, VersionInvariant env cfg 0 w₀ s := VersionInvariant.of_initial hinit
  obtain ⟨-, _, _, hs⟩ := h₀.run hlocal hreach
  obtain ⟨hle, _, _, ht⟩ := hs.run hlocal hrun
  refine ⟨hle, fun p e e' hp he he' hversion => ?_⟩
  have heq := ht.issued.unique p _ _ hp he he' hversion
  cases heq
  rfl

/-- A publish, and a promote of the publication that it made. -/
theorem versions_after_promote :
    readSignedVersion (sampleAfter [publishOf "a/b" "1" "one"]).root timestampPath ≤
      readSignedVersion (sampleAfter [publishOf "a/b" "1" "one", promoteOf "pub-000001"]).root
        timestampPath := by
  have hfirst : VersionStep sampleEnvironment sampleConfig sampleStart
      (sampleAfter [publishOf "a/b" "1" "one"]) :=
    ⟨sampleHost, _, succeeds_of_answerStatus (by decide +kernel), nofun⟩
  have hsecond : VersionStep sampleEnvironment sampleConfig
      (sampleAfter [publishOf "a/b" "1" "one"])
      (sampleAfter [publishOf "a/b" "1" "one", promoteOf "pub-000001"]) := by
    refine ⟨sampleHost, promoteOf "pub-000001", succeeds_of_answerStatus (by decide +kernel), ?_⟩
    intro id source hid hsource
    have hid' : installedId (sampleAfter [publishOf "a/b" "1" "one"]) (promoteOf "pub-000001") =
        some "pub-000001" := by decide +kernel
    have hroot : publicationRoot sampleConfig (sampleAfter [publishOf "a/b" "1" "one"]).root
        "pub-000001" = some ["_publications", "pub-000001"] := by decide +kernel
    rw [hid'] at hid
    cases hid
    rw [hroot] at hsource
    cases hsource
    decide +kernel
  exact (versions_never_go_back rfl sampleStart_initial (.single hfirst) (.single hsecond)).1
    timestampPath (Or.inr (Or.inr (Or.inl rfl)))

/-- The version and the tree size of every checkpoint that was signed. -/
def signedCheckpoints (w : World) : List (ℕ × ℕ) :=
  w.written.filterMap fun x =>
    match x with
    | (["log", "checkpoint.json"], .json (.envelope ⟨⟨_, version, .checkpoint _ size _⟩, _⟩)) =>
      some (version, size)
    | _ => none

theorem exists_of_mem_signedCheckpoints {version size : ℕ} (h : (version, size) ∈ signedCheckpoints w) :
    ∃ e generatedAt rootHash, (checkpointPath, File.json (.envelope e)) ∈ w.written ∧
      e.signed.version = version ∧ e.signed.body = .checkpoint generatedAt size rootHash := by
  obtain ⟨x, hx, heq⟩ := List.mem_filterMap.mp h
  split at heq
  · cases heq
    exact ⟨_, _, _, hx, rfl, rfl⟩
  · cases heq

/-- A rollback serves an older timestamp, and the yank after it issues a version of the checkpoint
for the second time, over another log. -/
theorem versions_reissued_after_rollback :
    let s := sampleAfter [publishOf "a/b" "1" "one", publishOf "a/b" "2" "two"]
    let t := sampleAfter [publishOf "a/b" "1" "one", publishOf "a/b" "2" "two", rollbackOf]
    let u := sampleAfter [publishOf "a/b" "1" "one", publishOf "a/b" "2" "two", rollbackOf,
      yankOf "a" "b" "1"]
    Relation.ReflTransGen (SuccessStep sampleEnvironment sampleConfig) sampleStart s ∧
      Relation.ReflTransGen (SuccessStep sampleEnvironment sampleConfig) s t ∧
      Relation.ReflTransGen (SuccessStep sampleEnvironment sampleConfig) t u ∧
      readSignedVersion t.root timestampPath < readSignedVersion s.root timestampPath ∧
      ∃ e e', (checkpointPath, File.json (.envelope e)) ∈ u.written ∧
        (checkpointPath, File.json (.envelope e')) ∈ u.written ∧
        e.signed.version = e'.signed.version ∧ e.signed ≠ e'.signed := by
  intro s t u
  have hmem : (3, 1) ∈ signedCheckpoints u ∧ (3, 2) ∈ signedCheckpoints u := by decide +kernel
  obtain ⟨e, _, _, he, hversion, hbody⟩ := exists_of_mem_signedCheckpoints hmem.1
  obtain ⟨e', _, _, he', hversion', hbody'⟩ := exists_of_mem_signedCheckpoints hmem.2
  refine ⟨reflTransGen_of_accepts (by decide +kernel), reflTransGen_of_accepts (l := [rollbackOf])
    (by decide +kernel), reflTransGen_of_accepts (l := [yankOf "a" "b" "1"]) (by decide +kernel),
    by decide +kernel, e, e', he, he', hversion.trans hversion'.symm, fun heq => ?_⟩
  rw [heq, hbody'] at hbody
  cases hbody

end StyioPlatform.Registry
