import StyioPlatform.Registry.Publications
import StyioPlatform.Registry.Stages

/-! A completed publish or yank: the read plane is edited, refreshed, and committed as a
publication that becomes the current one. -/
namespace StyioPlatform.Registry

open FileTree Prog

variable {env : Environment} {cfg : PlatformConfig} {host : Host} {fault : Option Site}
  {w w' : World} {sequence : ℕ} {generatedAt : String}

/-- The trees and the journal are as they were; memory and Postgres may differ. -/
structure SameTree (w w' : World) : Prop where
  root : w'.root = w.root
  bucket : w'.bucket = w.bucket
  written : w'.written = w.written

/-- A program that only writes to the state stores and stops only at a fault. -/
def StoresOnly (fault : Option Site) (x : Program Unit) : Prop :=
  ∀ w, wp x (fun _ w' => SameTree w w') (fun _ w' => SameTree w w' ∧ fault ≠ none) w

theorem storesOnly_bind {x : Program Unit} {k : Unit → Program Unit} (hx : StoresOnly fault x)
    (hk : ∀ u, StoresOnly fault (k u)) : StoresOnly fault (x >>= k) := by
  have htrans : ∀ {a b c : World}, SameTree a b → SameTree b c → SameTree a c := fun h h' =>
    ⟨h'.root.trans h.root, h'.bucket.trans h.bucket, h'.written.trans h.written⟩
  intro w
  rw [wp_bind]
  refine wp_mono (hx w) (fun u w₁ h₁ => ?_) (fun _ _ h => h)
  exact wp_mono (hk u w₁) (fun _ _ h => htrans h₁ h) (fun _ _ h => ⟨htrans h₁ h.1, h.2⟩)

theorem storesOnly_modifyMemory {f : MemoryStateStore → MemoryStateStore} :
    StoresOnly fault (modifyMemory f) := fun _ => ⟨rfl, rfl, rfl⟩

theorem storesOnly_execPostgres {statement : PostgresStatement}
    {f : PostgresStore → PostgresStore} : StoresOnly fault (execPostgres fault statement f) :=
  fun _ => wp_execPostgres ⟨rfl, rfl, rfl⟩ fun hf _ => ⟨⟨rfl, rfl, rfl⟩, by simp [hf]⟩

theorem storesOnly_recordPublication {changeKind changeRef : String}
    {manifest : PublicationManifest} {current : DistributionPointer} :
    StoresOnly fault (recordPublication env cfg fault sequence changeKind changeRef generatedAt
      manifest current) :=
  storesOnly_bind storesOnly_modifyMemory fun _ => storesOnly_bind storesOnly_execPostgres fun _ =>
    storesOnly_bind storesOnly_execPostgres fun _ => storesOnly_bind storesOnly_execPostgres
    fun _ => storesOnly_bind storesOnly_execPostgres fun _ => storesOnly_execPostgres

theorem storesOnly_recordRelease {actor : String} {draft : PublishDraft} {r : ReleaseRecord}
    {payload : PublishPayload} : StoresOnly fault (recordRelease fault actor draft r payload) :=
  storesOnly_bind storesOnly_modifyMemory fun _ => storesOnly_bind storesOnly_execPostgres fun _ =>
    storesOnly_bind storesOnly_execPostgres fun _ => storesOnly_bind storesOnly_execPostgres
    fun _ => storesOnly_modifyMemory

/-- The pointer that a new publication gets. -/
def nextPointer (sequence : ℕ) (generatedAt : String) (previous : Option Document) :
    DistributionPointer :=
  let previousPublicationId := (previous.map Document.publicationId).getD ""
  { distributionId := "default"
    publicationId := publicationIdFor sequence
    repositoryVersionId := repositoryVersionIdFor sequence
    updatedAt := generatedAt
    previousPublicationId :=
      if previousPublicationId = "" then none else some previousPublicationId }

/-- The files that a new publication touches. -/
def CommitScope (sequence : ℕ) (p : Path) : Prop :=
  ["_tmp"] <+: p ∨ publicationPath (publicationIdFor sequence) <+: p ∨ ActivateScope p

/-- What a completed `CreateRegistryPublication` leaves. -/
structure Created (env : Environment) (cfg : PlatformConfig) (sequence : ℕ)
    (generatedAt : String) (w w' : World) : Prop where
  fresh : w.root.isDirectory (publicationPath (publicationIdFor sequence)) = false
  publication : ∀ q, w.root.get (publicationPath (publicationIdFor sequence) ++ q) = none →
    w'.root.get (publicationPath (publicationIdFor sequence) ++ q) =
      (publicationTree env cfg w.root sequence generatedAt).get q
  config : w'.root.get configPath =
    some (.json (.config (publicationConfig cfg sequence generatedAt)))
  pointer : ∃ previous, currentDistributionPointer w.root "default" = .ok previous ∧
    w'.root.get (distributionPointerPath "default") =
      some (.json (.pointer (nextPointer sequence generatedAt previous)))
  changes : AgreeOff (CommitScope sequence) w.root w'.root
  bucket : w'.bucket = w.bucket
  tmp : (∀ q, w.root.get ("_tmp" :: q) = none) → ∀ q, w'.root.get ("_tmp" :: q) = none

theorem currentDistributionPointer_congr {t t' : Tree} {id : String}
    (h : t'.get (distributionPointerPath id) = t.get (distributionPointerPath id)) :
    currentDistributionPointer t' id = currentDistributionPointer t id := by
  rw [currentDistributionPointer, currentDistributionPointer, h]

theorem wp_activatePublication :
    wp (activatePublication cfg fault sequence generatedAt)
      (fun pointer w' => ∃ previous, currentDistributionPointer w.root "default" = .ok previous ∧
        pointer = nextPointer sequence generatedAt previous ∧
        w' = (w.write configPath (.json (.config (publicationConfig cfg sequence
          generatedAt)))).write (distributionPointerPath "default") (.json (.pointer pointer)))
      (fun _ _ => fault = none → ∀ d, currentDistributionPointer w.root "default" ≠ .ok d) w := by
  have hfail : ∀ {site : Site}, fault = some site → fault = none →
      ∀ d, currentDistributionPointer w.root "default" ≠ .ok d := by
    intro site hf hn
    rw [hf] at hn
    cases hn
  rw [activatePublication, wp_bind, wp_failAt]
  refine ⟨hfail, fun _ => ?_⟩
  rw [wp_bind, wp_writeTextFile, wp_bind, wp_failAt]
  refine ⟨hfail, fun _ => ?_⟩
  rw [wp_bind, wp_rootTree, wp_bind, wp_ofExcept, World.write_root,
    currentDistributionPointer_congr (t := w.root) (get_put_of_ne (by decide))]
  refine ⟨fun previous hprevious => ?_, fun e he _ d hd => ?_⟩
  · rw [wp_bind, wp_failAt]
    refine ⟨hfail, fun _ => ?_⟩
    rw [wp_bind, wp_writeTextFile, wp_pure]
    exact ⟨previous, hprevious, rfl, rfl⟩
  · rw [he] at hd
    cases hd

/-- What `CreateRegistryPublication` needs to succeed. -/
structure Creatable (n : ℕ) (t : Tree) : Prop where
  config : (t.get configPath).isSome
  rootFile : (t.get rootPath).isSome
  pointer : ∃ d, currentDistributionPointer t "default" = .ok d
  bound : n + 1 < 2 ^ 31

theorem pointerPath_not_published {id : String} :
    ¬ (["_tmp"] <+: distributionPointerPath "default" ∨
      publicationPath id <+: distributionPointerPath "default") := by
  rintro (⟨r, hr⟩ | ⟨r, hr⟩)
  · simp [distributionPointerPath] at hr
  · simp [distributionPointerPath, publicationPath] at hr

theorem wp_createRegistryPublication {n : ℕ} {changeKind changeRef : String}
    (hn : Numbered w n) :
    wp (createRegistryPublication env cfg fault changeKind changeRef generatedAt)
      (fun _ w' => Created env cfg (n + 1) generatedAt w w' ∧ n + 1 < 2 ^ 31)
      (fun _ _ => fault = none → ¬ Creatable n w.root) w := by
  rw [createRegistryPublication, wp_bind]
  refine wp_mono (wp_nextPublicationSequence hn) ?_ (fun _ _ h hf hc => h.2 hf hc.bound)
  rintro k w' ⟨rfl, hpos, hle, hlt, hk⟩
  rw [wp_bind]
  refine wp_mono wp_buildPublication ?_ ?_
  · intro manifest w₁ hp
    obtain ⟨rfl, -⟩ := hn.publish hpos hle hlt hp
    have hpointer : currentDistributionPointer w₁.root "default" =
        currentDistributionPointer w'.root "default" :=
      currentDistributionPointer_congr (hp.changes.get pointerPath_not_published)
    rw [wp_bind]
    refine wp_mono wp_activatePublication ?_ ?_
    · rintro pointer w₂ ⟨previous, hprevious, rfl, rfl⟩
      rw [wp_bind]
      refine wp_mono (storesOnly_recordPublication _) ?_ (fun _ _ h hf => (h.2 hf).elim)
      intro _ w₃ h₃
      rw [wp_pure]
      have hget : ∀ p, ¬ ActivateScope p → w₃.root.get p = w₁.root.get p := by
        intro p hp
        rw [h₃.root, World.write_root, get_put_of_ne fun h => hp (Or.inr h), World.write_root,
          get_put_of_ne fun h => hp (Or.inl h)]
      refine ⟨⟨hp.fresh, fun q hq => ?_, ?_, ⟨previous, hpointer ▸ hprevious, ?_⟩, fun p hscope => ?_,
        h₃.bucket.trans hp.changes.bucket, fun htmp q => ?_⟩, hlt⟩
      · rw [hget, hp.publication q hq]
        simp [ActivateScope, publicationPath, configPath, distributionPointerPath]
      · rw [h₃.root, World.write_root, get_put_of_ne (by decide), World.write_root, get_put_self]
      · rw [h₃.root, World.write_root, get_put_self]
      · simp only [CommitScope, not_or] at hscope
        rw [hget p hscope.2.2, hp.changes.get]
        rintro (h | h)
        · exact hscope.1 h
        · exact hscope.2.1 h
      · rw [hget, hp.tmp htmp q]
        simp [ActivateScope, configPath, distributionPointerPath]
    · intro _ w₂ h hf hc
      obtain ⟨d, hd⟩ := hc.pointer
      exact h hf d (hpointer ▸ hd)
  · intro _ w₁ h hf hc
    refine h.2 hf ⟨hc.config, hc.rootFile, ?_⟩
    obtain rfl := hk hf
    by_contra hdir
    obtain ⟨i, _, hi, heq⟩ := (hn.directory _).mp (by simpa using hdir)
    have := publicationIdFor_injective heq
    omega

theorem Created.of_sameTree {w'' : World} (h : Created env cfg sequence generatedAt w w')
    (hs : SameTree w' w'') : Created env cfg sequence generatedAt w w'' := by
  obtain ⟨hfresh, hpublication, hconfig, hpointer, hchanges, hbucket, htmp⟩ := h
  rw [← hs.root] at hpublication hconfig hpointer hchanges htmp
  exact ⟨hfresh, hpublication, hconfig, hpointer, hchanges, hs.bucket.trans hbucket, htmp⟩

/-- A refresh of the metadata, and the publication of the result. -/
structure Committed (env : Environment) (cfg : PlatformConfig) (host : Host) (n : ℕ)
    (w w' : World) : Prop where
  intro ::
  exists_refreshed : ∃ maps hashes rootHash snapshotMeta w₁,
    Refreshed env cfg host host.now maps hashes rootHash snapshotMeta w w₁ ∧
    Created env cfg (n + 1) host.now w₁ w'
  bound : n + 1 < 2 ^ 31

/-- A release is added to the tree and committed. -/
inductive ReleasePublished (env : Environment) (cfg : PlatformConfig) (host : Host)
    (draft : PublishDraft) (n : ℕ) (w w' : World) : Prop where
  | intro {archive : File} {w₁ w₂ : World} (ensured : Ensured env cfg host w w₁)
      (archive_eq : archiveFile host w₁.root draft.archivePath = some archive)
      (appended : Appended env archive (buildReleaseRecord env draft host.now archive) w₁ w₂)
      (committed : Committed env cfg host n w₂ w')

/-- Why a publish of a new release fails although no step breaks. -/
inductive PublishBlocked (env : Environment) (cfg : PlatformConfig) (host : Host)
    (draft : PublishDraft) (n : ℕ) (w : World) : Prop where
  | archive {w₁ : World} (ensured : Ensured env cfg host w w₁)
      (missing : archiveFile host w₁.root draft.archivePath = none)
  | conflict {archive f : File} {w₁ : World} (ensured : Ensured env cfg host w w₁)
      (hf : w₁.root.get (artifactPath (archive.sha256 env)) = some f)
      (hne : f.sha256 env ≠ archive.sha256 env)
  | duplicate {w₁ : World} (ensured : Ensured env cfg host w w₁)
      (h : releaseExistsOnDisk w₁.root draft.package draft.version = true)
  | refresh {archive : File} {w₁ w₂ : World} (ensured : Ensured env cfg host w w₁)
      (appended : Appended env archive (buildReleaseRecord env draft host.now archive) w₁ w₂)
      (h : ¬ Refreshable env w₂.root)
  | create {archive : File} {maps : PackageMaps} {hashes : List String} {rootHash : String}
      {snapshotMeta : List (Path × FileMeta)} {w₁ w₂ w₃ : World}
      (ensured : Ensured env cfg host w w₁)
      (appended : Appended env archive (buildReleaseRecord env draft host.now archive) w₁ w₂)
      (refreshed : Refreshed env cfg host host.now maps hashes rootHash snapshotMeta w₂ w₃)
      (h : ¬ Creatable n w₃.root)

/-- A stage that stays out of `_publications` keeps the numbering. -/
theorem Numbered.of_agreeing {S : Path → Prop} {n : ℕ} (h : Numbered w n)
    (hc : OnlyChanges S w w') (hS : ∀ p, S p → p.head? ≠ some "_publications") :
    Numbered w' n := h.of_changes hc hS

theorem Refreshed.numbered {n : ℕ} {registryTime : String} {maps : PackageMaps}
    {hashes : List String} {rootHash : String} {snapshotMeta : List (Path × FileMeta)}
    (h : Refreshed env cfg host registryTime maps hashes rootHash snapshotMeta w w')
    (hn : Numbered w n) : Numbered w' n := by
  refine hn.of_agreeing h.changes fun p hp => head_of_refreshScope ?_
  rcases hp with rfl | rfl | rfl | ⟨x, _, rfl⟩ | h
  · exact Or.inl (Or.inl rfl)
  · exact Or.inl (Or.inr (Or.inl rfl))
  · exact Or.inl (Or.inr (Or.inr (Or.inl rfl)))
  · exact Or.inl (Or.inr (Or.inr (Or.inr ⟨_, rfl⟩)))
  · exact Or.inr h

theorem Appended.numbered {n : ℕ} {archive : File} {draft : PublishDraft}
    (h : Appended env archive (buildReleaseRecord env draft host.now archive) w w')
    (hn : Numbered w n) : Numbered w' n := by
  refine hn.of_agreeing h.changes fun p hp => head_of_appendScope
    (r := buildReleaseRecord env draft host.now archive) ?_ ⟨_, rfl⟩
  rcases hp with h | h | h
  · exact Or.inl h
  · exact Or.inr (Or.inl h)
  · exact Or.inr (Or.inr ⟨_, h⟩)

/-- Refresh and publication, as publish and yank run them one after the other. -/
theorem wp_commit {n : ℕ} {α : Type} {changeKind changeRef : String}
    {k : MetadataVersions → PublicationManifest → Program α} {Q : α → World → Prop}
    {E : Failure → World → Prop} (hn : Numbered w n)
    (hk : ∀ versions manifest w', Committed env cfg host n w w' → wp (k versions manifest) Q E w')
    (hrefresh : ∀ e w', (fault = none → ¬ Refreshable env w.root) → E e w')
    (hcreate : ∀ e w' maps hashes rootHash snapshotMeta w₁,
      Refreshed env cfg host host.now maps hashes rootHash snapshotMeta w w₁ →
      (fault = none → ¬ Creatable n w₁.root) → E e w') :
    wp (do
      let versions ← refreshSignedRegistryMetadata env cfg host fault host.now
      let manifest ← createRegistryPublication env cfg fault changeKind changeRef host.now
      k versions manifest) Q E w := by
  rw [wp_bind]
  refine wp_mono wp_refreshSignedRegistryMetadata ?_ hrefresh
  rintro versions w₁ ⟨maps, hashes, rootHash, snapshotMeta, h₁⟩
  rw [wp_bind]
  refine wp_mono (wp_createRegistryPublication (h₁.numbered hn)) ?_ fun e w' h =>
    hcreate e w' maps hashes rootHash snapshotMeta w₁ h₁ h
  rintro manifest w₂ ⟨h₂, hlt⟩
  exact hk versions manifest w₂ ⟨⟨maps, hashes, rootHash, snapshotMeta, w₁, h₁, h₂⟩, hlt⟩

theorem Committed.of_sameTree {n : ℕ} {w'' : World} (h : Committed env cfg host n w w')
    (hs : SameTree w' w'') : Committed env cfg host n w w'' := by
  obtain ⟨⟨maps, hashes, rootHash, snapshotMeta, w₁, h₁, h₂⟩, hlt⟩ := h
  exact ⟨⟨maps, hashes, rootHash, snapshotMeta, w₁, h₁, h₂.of_sameTree hs⟩, hlt⟩

theorem wp_publishDraft {n : ℕ} {actor : String} {draft : PublishDraft}
    (hlocal : cfg.usesS3ObjectStore = false) (hn : Numbered w n) :
    wp (publishDraft env cfg host fault actor draft)
      (fun _ w' => ReleasePublished env cfg host draft n w w')
      (fun _ _ => fault = none → PublishBlocked env cfg host draft n w) w := by
  have hfail : ∀ {site : Site}, fault = some site → fault = none →
      PublishBlocked env cfg host draft n w := by
    intro site hf h
    rw [hf] at h
    cases h
  rw [publishDraft, wp_bind, wp_rootTree, wp_bind]
  refine wp_mono wp_ensure ?_ ?_
  swap
  · rintro _ _ (⟨hf | hf, -⟩ | ⟨-, hf, -, -⟩)
    · exact hfail hf
    · exact hfail hf
    · exact hfail hf
  rintro _ w₁ ⟨h₁, -⟩
  have hn₁ : Numbered w₁ n := hn.of_agreeing h₁.changes fun _ => head_of_initScope
  rw [wp_bind, wp_failAt]
  refine ⟨hfail, fun _ => ?_⟩
  rw [wp_bind, wp_failAt]
  refine ⟨hfail, fun _ => ?_⟩
  rw [wp_bind, wp_rootTree]
  cases harchive : archiveFile host w₁.root draft.archivePath with
  | none => exact fun _ => .archive h₁ harchive
  | some archive =>
    rw [wp_bind]
    refine wp_mono (wp_appendRegistryReleaseToLocal rfl) ?_ ?_
    · rintro _ w₂ ⟨h₂, -⟩
      refine wp_commit (h₂.numbered hn₁) (fun versions manifest w₃ h₃ => ?_)
        (fun _ _ h hf => .refresh h₁ h₂ (h hf))
        (fun _ _ _ _ _ _ _ h₃ h hf => .create h₁ h₂ h₃ (h hf))
      rw [wp_bind, wp_onlyIf]
      refine ⟨fun hs => by simp [hlocal] at hs, fun _ => ?_⟩
      rw [wp_bind]
      refine wp_mono (storesOnly_recordRelease _) ?_ (fun _ _ h hf => (h.2 hf).elim)
      intro _ w₄ h₄
      rw [wp_bind, recordRegistryAudit, wp_failAt]
      exact ⟨hfail, fun _ => .intro h₁ harchive h₂ (h₃.of_sameTree h₄)⟩
    · rintro e w₂ ⟨hstop, hsite⟩ hf
      cases hstop with
      | placing hplace =>
        cases hplace with
        | conflict hget hne => exact .conflict h₁ hget hne
        | nothing _ => exact hfail (hsite _ rfl) hf
        | partially _ _ => exact hfail (hsite _ rfl) hf
      | duplicate h => exact .duplicate h₁ h
      | appendIndex => exact hfail (hsite _ rfl) hf
      | writeLeaf _ _ => exact hfail (hsite _ rfl) hf

/-- The records of a package are rewritten with a new yank state, and committed. -/
inductive ReleaseYanked (env : Environment) (cfg : PlatformConfig) (host : Host)
    (package version : String) (yanked : Bool) (reason : String) (n : ℕ) (w w' : World) : Prop where
  | intro {records : List ReleaseRecord}
      (read : readPackageIndexRecords w.root package = .ok records)
      (found : records.any (·.version = version) = true)
      (committed : Committed env cfg host n (w.write (registryIndexPathForPackage package)
        (.jsonl (yankRecords version yanked reason host.yankedAt records))) w')

/-- Why a yank of a listed release fails although no step breaks. -/
inductive YankBlocked (env : Environment) (cfg : PlatformConfig) (host : Host)
    (package version : String) (yanked : Bool) (reason : String) (n : ℕ) (w : World) : Prop where
  | read (h : ∀ records, readPackageIndexRecords w.root package ≠ .ok records)
  | refresh {records : List ReleaseRecord}
      (read : readPackageIndexRecords w.root package = .ok records)
      (h : ¬ Refreshable env (w.root.put (registryIndexPathForPackage package)
        (.jsonl (yankRecords version yanked reason host.yankedAt records))))
  | create {records : List ReleaseRecord} {maps : PackageMaps} {hashes : List String}
      {rootHash : String} {snapshotMeta : List (Path × FileMeta)} {w₁ : World}
      (read : readPackageIndexRecords w.root package = .ok records)
      (refreshed : Refreshed env cfg host host.now maps hashes rootHash snapshotMeta
        (w.write (registryIndexPathForPackage package)
          (.jsonl (yankRecords version yanked reason host.yankedAt records))) w₁)
      (h : ¬ Creatable n w₁.root)

theorem head_of_registryIndexPath {package : String} :
    (registryIndexPathForPackage package).head? = some "index" := by
  simp [registryIndexPathForPackage]

theorem wp_tryYank {n : ℕ} {package version : String} {yanked : Bool} {reason : String}
    (hlocal : cfg.usesS3ObjectStore = false) (hn : Numbered w n) :
    wp (tryYank env cfg host fault package version yanked reason)
      (fun r w' => r.status = 200 ∧
          ReleaseYanked env cfg host package version yanked reason n w w' ∨
        r.status = 404 ∧ w' = w ∧ ∃ records, readPackageIndexRecords w.root package = .ok records ∧
          records.any (·.version = version) = false)
      (fun _ _ => fault = none →
        YankBlocked env cfg host package version yanked reason n w) w := by
  have hfail : ∀ {site : Site}, fault = some site → fault = none →
      YankBlocked env cfg host package version yanked reason n w := by
    intro site hf h
    rw [hf] at h
    cases h
  rw [tryYank, wp_bind, wp_rootTree, wp_bind, wp_ofExcept]
  refine ⟨fun records hread => ?_, fun e he _ => .read fun records hread => ?_⟩
  swap
  · rw [he] at hread
    cases hread
  rw [wp_ite]
  refine ⟨fun hfound => ?_, fun hfound => ?_⟩
  · rw [wp_bind, writePackageIndexRecords, wp_writeTextFile, wp_bind, wp_failAt]
    refine ⟨hfail, fun _ => ?_⟩
    have hn₁ : Numbered (w.write (registryIndexPathForPackage package)
        (.jsonl (yankRecords version yanked reason host.yankedAt records))) n := by
      refine hn.of_agreeing (S := (· = registryIndexPathForPackage package))
        (OnlyChanges.refl.write rfl) ?_
      rintro p rfl
      simp [head_of_registryIndexPath]
    refine wp_commit hn₁ (fun versions manifest w₂ h₂ => ?_)
      (fun _ _ h hf => .refresh hread (h hf)) (fun _ _ _ _ _ _ _ h₂ h hf => .create hread h₂ (h hf))
    rw [wp_bind]
    refine wp_mono (storesOnly_execPostgres w₂) ?_ (fun _ _ h hf => (h.2 hf).elim)
    intro _ w₃ h₃
    rw [wp_bind, wp_modifyMemory, wp_bind, recordRegistryAudit, wp_failAt]
    refine ⟨hfail, fun _ => ?_⟩
    rw [wp_bind, wp_onlyIf]
    refine ⟨fun hs => by simp [hlocal] at hs, fun _ => ?_⟩
    rw [wp_bind, wp_rootTree, wp_pure]
    exact Or.inl ⟨rfl, .intro hread hfound (h₂.of_sameTree ⟨h₃.root, h₃.bucket, h₃.written⟩)⟩
  · rw [wp_bind, recordRegistryAudit, wp_failAt]
    refine ⟨hfail, fun _ => Or.inr ⟨rfl, rfl, records, hread, by simpa using hfound⟩⟩

end StyioPlatform.Registry
