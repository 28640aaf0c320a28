import StyioPlatform.Registry.PackageReads

/-! Every publish, yank and unyank keeps Postgres in step with the served index; a promote or
rollback does when it installs the releases that are served already. -/
namespace StyioPlatform.Registry

open FileTree Prog

section frames

variable {env : Environment} {cfg : PlatformConfig} {host : Host} {fault : Option Site}
  {w w' w'' : World} {package : String}

/-- The files of the index, and the one by which a sync knows a registry. -/
def isWatched (p : Path) : Bool := isIndexPath p || p == rootPath

/-- Between the two states neither the index, the bucket nor the rows of the releases changed. -/
structure Shelved (w w' : World) : Prop where
  index : ∀ p, isWatched p = true → w'.root.get p = w.root.get p
  bucket : w'.bucket = w.bucket
  releases : w'.postgres.map (·.releases) = w.postgres.map (·.releases)

theorem Shelved.refl : Shelved w w := ⟨fun _ _ => rfl, rfl, rfl⟩

theorem Shelved.trans (h : Shelved w w') (h' : Shelved w' w'') : Shelved w w'' where
  index p hp := (h'.index p hp).trans (h.index p hp)
  bucket := h'.bucket.trans h.bucket
  releases := h'.releases.trans h.releases

theorem Shelved.of_changes {S : Path → Prop} (h : OnlyChanges S w w')
    (hS : ∀ p, S p → isWatched p = false) : Shelved w w' where
  index p hp := h.get fun hs => by simp [hS p hs] at hp
  bucket := h.bucket
  releases := by rw [h.postgres]

theorem Changes.keepsShelved {α : Type} {S : Path → Prop} {x : Program α} (h : Changes S x)
    (hS : ∀ p, S p → isWatched p = false) : Keeps (Shelved w) x :=
  fun w' hw' => hw'.trans (.of_changes (h w') hS)

theorem keepsShelved_modifyRoot {f : Tree → Tree} {S : Path → Prop}
    (hf : ∀ t, AgreeOff S t (f t)) (hS : ∀ p, S p → isWatched p = false) :
    Keeps (Shelved w) (modifyRoot f) := (changes_modifyRoot hf).keepsShelved hS

theorem keepsShelved_writeTextFile {p : Path} {f : File} (hp : isWatched p = false) :
    Keeps (Shelved w) (writeTextFile p f) :=
  (changes_writeTextFile (S := fun q => q = p) rfl).keepsShelved (by rintro q rfl; exact hp)

theorem keepsShelved_modifyMemory {f : MemoryStateStore → MemoryStateStore} :
    Keeps (Shelved w) (modifyMemory f) := fun _ h => ⟨h.index, h.bucket, h.releases⟩

/-- A statement on another table. -/
theorem keepsShelved_execPostgres {statement : PostgresStatement}
    {f : PostgresStore → PostgresStore} (hf : ∀ s, (f s).releases = s.releases) :
    Keeps (Shelved w) (execPostgres fault statement f) := by
  rw [keeps_iff]
  intro w' h
  apply wp_execPostgres
  · refine ⟨h.index, h.bucket, ?_⟩
    rw [← h.releases]
    cases w'.postgres <;> simp [hf]
  · exact fun _ _ => h

theorem not_isWatched_of_staged {id : String} {p : Path} (h : stagedPublicationPath id <+: p) :
    isWatched p = false := by
  obtain ⟨q, rfl⟩ := h
  rfl

theorem not_isWatched_of_publication {id : String} {p : Path} (h : publicationPath id <+: p) :
    isWatched p = false := by
  obtain ⟨q, rfl⟩ := h
  rfl

theorem keepsShelved_copyToStaged {source : Path} {id : String} :
    Keeps (Shelved w) (copyRegistryReadPlaneTo fault source (stagedPublicationPath id)) := by
  have hgraft : ∀ t u : Tree, AgreeOff (stagedPublicationPath id <+: ·) t
      (t.graft (stagedPublicationPath id) u) := fun t u =>
    AgreeOff.refl.graft fun q _ _ => List.prefix_append _ q
  have hkeeps : ∀ u : Tree, Keeps (Shelved w)
      (modifyRoot (·.graft (stagedPublicationPath id) u)) := fun u =>
    keepsShelved_modifyRoot (fun t => hgraft t u) fun _ => not_isWatched_of_staged
  refine keeps_bind keeps_rootTree fun t => ?_
  dsimp only
  split
  · exact keeps_bind (hkeeps _) fun _ => keeps_fail
  · exact keeps_bind (hkeeps _) fun _ => keeps_require

theorem keepsShelved_buildPublication {sequence : ℕ} {generatedAt : String} :
    Keeps (Shelved w) (buildPublication env cfg fault sequence generatedAt) := by
  refine keeps_bind (keepsShelved_modifyRoot (fun t => AgreeOff.refl.removeAll fun _ h => h)
      fun _ => not_isWatched_of_staged) fun _ => ?_
  refine keeps_bind keepsShelved_copyToStaged fun _ => ?_
  refine keeps_bind (keepsShelved_writeTextFile rfl) fun _ => ?_
  refine keeps_bind keeps_rootTree fun _ => ?_
  refine keeps_bind (keepsShelved_writeTextFile rfl) fun _ => ?_
  refine keeps_bind keeps_rootTree fun _ => keeps_bind keeps_require fun _ =>
    keeps_bind keeps_require fun _ => keeps_bind keeps_failAt fun _ => ?_
  refine keeps_bind (keepsShelved_modifyRoot (S := fun p =>
      stagedPublicationPath (publicationIdFor sequence) <+: p ∨
        publicationPath (publicationIdFor sequence) <+: p) (fun t => ?_) ?_) fun _ => keeps_pure
  · exact AgreeOff.refl.rename (fun _ => Or.inl) fun _ => Or.inr
  · rintro p (h | h)
    · exact not_isWatched_of_staged h
    · exact not_isWatched_of_publication h

theorem keepsShelved_recordPublication {sequence : ℕ} {changeKind changeRef generatedAt : String}
    {manifest : PublicationManifest} {current : DistributionPointer} :
    Keeps (Shelved w) (recordPublication env cfg fault sequence changeKind changeRef generatedAt
      manifest current) :=
  keeps_bind keepsShelved_modifyMemory fun _ =>
    keeps_bind (keepsShelved_execPostgres fun _ => rfl) fun _ =>
    keeps_bind (keepsShelved_execPostgres fun _ => rfl) fun _ =>
    keeps_bind (keepsShelved_execPostgres fun _ => rfl) fun _ =>
    keeps_bind (keepsShelved_execPostgres fun _ => rfl) fun _ =>
    keepsShelved_execPostgres fun _ => rfl

theorem keepsShelved_createRegistryPublication {changeKind changeRef generatedAt : String} :
    Keeps (Shelved w)
      (createRegistryPublication env cfg fault changeKind changeRef generatedAt) := by
  have hscope : ∀ p, ActivateScope p → isWatched p = false := by
    rintro p (rfl | rfl) <;> rfl
  have hsequence : Keeps (Shelved w) (nextPublicationSequence fault) :=
    keeps_bind keeps_read fun _ => keeps_bind (keeps_onlyIf fun _ => keeps_failAt) fun _ =>
      keeps_bind keeps_require fun _ => keeps_pure
  exact keeps_bind hsequence fun _ => keeps_bind keepsShelved_buildPublication fun _ =>
    keeps_bind (changes_activatePublication.keepsShelved hscope) fun _ =>
    keeps_bind keepsShelved_recordPublication fun _ => keeps_pure

theorem keepsShelved_refreshSigned {registryTime : String} :
    Keeps (Shelved w) (refreshSignedRegistryMetadata env cfg host fault registryTime) := by
  apply changes_refreshSignedRegistryMetadata.keepsShelved
  rintro p ((rfl | rfl | rfl | ⟨space, rfl⟩) | ⟨q, rfl⟩)
  · rfl
  · rfl
  · rfl
  · simp [isWatched, isIndexPath, targetsPath, rootPath]
  · rfl

end frames

section edits

variable {env : Environment} {cfg : PlatformConfig} {host : Host} {fault : Option Site}
  {w w₁ w' : World} {package : String} {t u : Tree} {records : List ReleaseRecord}
  {rows rows' : List ((String ×ₗ String) × RegistryPackageReleaseRecord)}

theorem indexStates_congr
    (h : t.get (registryIndexPathForPackage package) =
      u.get (registryIndexPathForPackage package)) :
    indexStates t package = indexStates u package := by
  rw [indexStates, indexStates, readPackageIndexRecords, readPackageIndexRecords, h]

theorem indexStates_of_jsonl
    (h : t.get (registryIndexPathForPackage package) = some (.jsonl records)) :
    indexStates t package = some (records.map ReleaseRecord.state).toFinset := by
  simp [indexStates, readPackageIndexRecords, h, File.records]

/-- The objects of the bucket after an upload. -/
structure Uploaded (cfg : PlatformConfig) (w w' : World) : Prop where
  index : cfg.usesS3ObjectStore = true → ∀ p, isIndexPath p = true →
    w'.bucket.get p = (w'.root.get p).or (w.bucket.get p)
  registry : cfg.usesS3ObjectStore = true →
    (w'.root.get rootPath).isSome ∨ bucketHasRegistry w.bucket = true →
    bucketHasRegistry w'.bucket = true

/-- The file of one package and the rows of the releases were rewritten, and uploaded. -/
structure IndexEdited (cfg : PlatformConfig) (package : String) (records : List ReleaseRecord)
    (rows : List ((String ×ₗ String) × RegistryPackageReleaseRecord)) (w w' : World) : Prop where
  file : w'.root.get (registryIndexPathForPackage package) = some (.jsonl records)
  other : ∀ p, isIndexPath p = true → p ≠ registryIndexPathForPackage package →
    w'.root.get p = w.root.get p
  postgres : w'.postgres.map (·.releases) = some rows
  uploaded : Uploaded cfg w w'
  rooted : cfg.usesS3ObjectStore = true →
    (w'.root.get rootPath).isSome ∨ bucketHasRegistry w.bucket = true

/-- An edit keeps index and Postgres in step when the new records say what the new rows say. -/
theorem InStep.edit {s : PostgresStore} (h : InStep cfg w) (hs : w.postgres = some s)
    (hname : validatePackageName package = none)
    (he : IndexEdited cfg package records rows w w') (hkeyed : RowsKeyed rows)
    (hstates : (records.map ReleaseRecord.state).toFinset = storedStates rows package)
    (hother : ∀ q, q ≠ package → storedStates rows q = storedStates s.releases q) :
    InStep cfg w' := by
  have hsame : ∀ q, validatePackageName q = none → q ≠ package →
      w'.root.get (registryIndexPathForPackage q) = w.root.get (registryIndexPathForPackage q) := by
    intro q hq hne
    apply he.other _ (isIndexPath_registryIndexPath hq)
    exact fun heq => hne (registryIndexPath_injective hq hname heq)
  obtain ⟨s₀, hs₀, -, hindex⟩ := h.postgres
  obtain rfl : s = s₀ := Option.some.inj (hs.symm.trans hs₀)
  obtain ⟨s', hs', rfl⟩ := Option.map_eq_some_iff.mp he.postgres
  refine ⟨⟨s', hs', hkeyed, fun q hq => ?_⟩, fun hs3 q hq => ?_, fun hs3 hnone => ?_⟩
  · by_cases hne : q = package
    · rw [hne, indexStates_of_jsonl he.file, hstates]
    · rw [indexStates_congr (hsame q hq hne), hindex q hq, hother q hne]
  · have hget := he.uploaded.index hs3 _ (isIndexPath_registryIndexPath hq)
    cases hroot : w'.root.get (registryIndexPathForPackage q) with
    | some f =>
      rw [hroot, Option.some_or] at hget
      exact indexStates_congr (hget.trans hroot.symm)
    | none =>
      -- the file was not there before either, so that the bucket has no release of the package
      have hne : q ≠ package := by
        rintro rfl
        rw [he.file] at hroot
        cases hroot
      rw [hroot, Option.none_or] at hget
      rw [indexStates_congr hget, h.bucket hs3 q hq, indexStates_congr (hsame q hq hne)]
  · rw [he.uploaded.registry hs3 (he.rooted hs3)] at hnone
    cases hnone

theorem wp_upload (hbucket : w₁.bucket = w.bucket) :
    wp (onlyIf cfg.usesS3ObjectStore (uploadRegistryTreeToS3 fault))
      (fun _ w' => Uploaded cfg w w' ∧ w'.root = w₁.root ∧ w'.postgres = w₁.postgres)
      (fun _ _ => True) w₁ := by
  rw [wp_onlyIf]
  refine ⟨fun hs3 => ?_, fun hs3 => ⟨⟨fun h => absurd h hs3, fun h => absurd h hs3⟩, rfl, rfl⟩⟩
  have hget : ∀ p, isUploaded p = true →
      (w₁.bucket.graft [] (w₁.root.restrict isUploaded)).get p =
        (w₁.root.get p).or (w.bucket.get p) := by
    intro p hp
    rw [get_graft_nil, get_restrict, if_pos hp, hbucket]
  rw [uploadRegistryTreeToS3, wp_bind, wp_rootTree]
  dsimp only
  split
  · rw [wp_bind, wp_modify, wp_fail]
    trivial
  · rw [wp_modify]
    refine ⟨⟨fun _ p hp => hget p ?_, fun _ hrooted => ?_⟩, rfl, rfl⟩
    · rw [isUploaded, isIndexPath_head hp]
      decide
    · simp only [bucketHasRegistry, Bool.or_eq_true] at hrooted ⊢
      rw [hget configPath rfl, hget rootPath rfl]
      rcases hrooted with hroot | hbucket | hbucket
      · exact Or.inr (by simp [hroot])
      · exact Or.inl (by simp [hbucket])
      · exact Or.inr (by simp [hbucket])

theorem InStep.of_shelved (h : InStep cfg w) (hw : Shelved w w') : InStep cfg w' := by
  have hindex : ∀ q, validatePackageName q = none →
      indexStates w'.root q = indexStates w.root q := fun q hq =>
    indexStates_congr (hw.index _ (by simp [isWatched, isIndexPath_registryIndexPath hq]))
  obtain ⟨s, hs, hkeyed, hstates⟩ := h.postgres
  obtain ⟨s', hs', hrows⟩ : ∃ s', w'.postgres = some s' ∧ s'.releases = s.releases := by
    have := hw.releases
    rw [hs] at this
    simpa using this
  refine ⟨⟨s', hs', hrows ▸ hkeyed, fun q hq => ?_⟩, fun hs3 q hq => ?_, fun hs3 hnone q hq => ?_⟩
  · rw [hindex q hq, hstates q hq, hrows]
  · rw [hw.bucket, h.bucket hs3 q hq, hindex q hq]
  · rw [hw.bucket] at hnone
    rw [h.registry hs3 hnone q hq, hindex q hq]

/-- Another root with the same releases. -/
theorem InStep.setRoot (h : InStep cfg w) (ht : SameReleases t w.root) :
    InStep cfg (w.setRoot t) := by
  obtain ⟨s, hs, hkeyed, hstates⟩ := h.postgres
  refine ⟨⟨s, hs, hkeyed, fun q hq => ?_⟩, fun hs3 q hq => ?_, fun hs3 hnone q hq => ?_⟩
  · rw [World.setRoot_root, ht q hq, hstates q hq]
  · rw [World.setRoot_root, ht q hq]
    exact h.bucket hs3 q hq
  · rw [World.setRoot_root, ht q hq]
    exact h.registry hs3 hnone q hq

theorem inReadPlane_of_isIndexPath {p : Path} (h : isIndexPath p = true) :
    inReadPlane p = true := by
  cases p with
  | nil => cases h
  | cons name rest =>
    obtain rfl : name = "index" := by simpa using isIndexPath_head h
    rfl

/-- The sync before a publish takes the releases from the bucket, where they are the same. -/
theorem InStep.synced (h : InStep cfg w) (hfetched : ∀ l, fault ≠ some (.syncBucket l)) :
    InStep cfg (w.setRoot (syncedTree cfg fault w)) := by
  apply h.setRoot
  unfold syncedTree
  split
  · next hs3 =>
    split
    · next hbucket =>
      intro q hq
      rw [← h.bucket hs3.1 q hq]
      apply indexStates_congr
      have hplane := inReadPlane_of_isIndexPath (isIndexPath_registryIndexPath hq)
      have hfetch : isFetched fault (registryIndexPathForPackage q) = true := by
        unfold isFetched
        rw [isSynced, hplane]
        split
        · next l => exact absurd rfl (hfetched l)
        · rfl
      rw [get_graft_nil, get_restrict, if_pos hfetch, get_cleared, if_pos hplane, Option.or_none]
    · next hbucket =>
      intro q hq
      rw [← h.registry hs3.1 (by simpa using hbucket) q hq]
      apply indexStates_congr
      rw [get_cleared, if_pos (inReadPlane_of_isIndexPath (isIndexPath_registryIndexPath hq))]
      rfl
  · exact fun _ _ => rfl

theorem rowsKeyed_setKey {k : String ×ₗ String} {r : RegistryPackageReleaseRecord}
    (h : RowsKeyed rows) (hk : k = toLex (r.packageId, r.version)) :
    RowsKeyed (setKey rows k r) where
  key x hx := by
    rcases mem_setKey.mp hx with rfl | ⟨hx, -⟩
    · exact hk
    · exact h.key x hx
  nodup := nodup_keys_setKey h.nodup

/-- The releases of the packages after one row was set. -/
theorem mem_storedStates_setKey {r : RegistryPackageReleaseRecord} {q : String} {x : ReleaseState}
    (h : RowsKeyed rows) (hr : RowsKeyed (setKey rows (toLex (r.packageId, r.version)) r)) :
    x ∈ storedStates (setKey rows (toLex (r.packageId, r.version)) r) q ↔
      (q = r.packageId ∧ x = r.state) ∨
        (¬ (q = r.packageId ∧ x.version = r.version) ∧ x ∈ storedStates rows q) := by
  have hkey : ∀ y : RegistryPackageReleaseRecord, (toLex (q, x.version), y) ∈
      setKey rows (toLex (r.packageId, r.version)) r ↔
      ((q = r.packageId ∧ x.version = r.version) ∧ y = r) ∨
        ((toLex (q, x.version), y) ∈ rows ∧ ¬ (q = r.packageId ∧ x.version = r.version)) := by
    intro y
    rw [mem_setKey]
    simp [Prod.ext_iff]
  rw [hr.mem_storedStates, h.mem_storedStates]
  constructor
  · rintro ⟨y, hy, hstate⟩
    rcases (hkey y).mp hy with ⟨⟨hq, -⟩, rfl⟩ | ⟨hy, hne⟩
    · exact Or.inl ⟨hq, hstate.symm⟩
    · exact Or.inr ⟨hne, y, hy, hstate⟩
  · rintro (⟨rfl, rfl⟩ | ⟨hne, y, hy, hstate⟩)
    · exact ⟨r, (hkey r).mpr (Or.inl ⟨⟨rfl, rfl⟩, rfl⟩), rfl⟩
    · exact ⟨y, (hkey y).mpr (Or.inr ⟨hy, hne⟩), hstate⟩

/-- A row of one package leaves the releases of the others alone. -/
theorem storedStates_setKey_of_ne {r : RegistryPackageReleaseRecord} {q : String}
    (h : RowsKeyed rows) (hr : RowsKeyed (setKey rows (toLex (r.packageId, r.version)) r))
    (hq : q ≠ r.packageId) :
    storedStates (setKey rows (toLex (r.packageId, r.version)) r) q = storedStates rows q := by
  ext x
  rw [mem_storedStates_setKey h hr]
  simp [hq]

/-- The row that a publish enters. -/
def releaseRow (draft : PublishDraft) (r : ReleaseRecord) : RegistryPackageReleaseRecord where
  packageId := draft.package
  version := draft.version
  manifestSha256 := r.manifestDigest
  sourceArtifactSha256 := r.sourceArtifact.sha256
  dependencies := r.dependencies
  publisherId := draft.publisherId
  publishedAt := r.publishedAt

theorem wp_recordRelease_releases {actor : String} {draft : PublishDraft} {r : ReleaseRecord}
    {payload : PublishPayload} :
    wp (recordRelease fault actor draft r payload)
      (fun _ w' => w'.root = w.root ∧ w'.bucket = w.bucket ∧ w'.postgres.map (·.releases) =
        w.postgres.map fun s => (s.upsertRegistryPackageRelease (releaseRow draft r)).releases)
      (fun _ _ => True) w := by
  rw [recordRelease, wp_bind, modifyMemory, wp_modify, wp_bind]
  refine wp_execPostgres ?_ fun _ _ => trivial
  rw [wp_bind]
  refine wp_execPostgres ?_ fun _ _ => trivial
  rw [wp_bind]
  refine wp_execPostgres ?_ fun _ _ => trivial
  rw [modifyMemory, wp_modify]
  refine ⟨rfl, rfl, ?_⟩
  cases w.postgres <;> rfl

/-- The records of a package, none when it has no file. -/
def recordsOf (t : Tree) (package : String) : List ReleaseRecord :=
  match readPackageIndexRecords t package with
  | .ok records => records
  | .error _ => []

theorem InStep.readPackageIndexRecords (h : InStep cfg w)
    (hname : validatePackageName package = none) :
    readPackageIndexRecords w.root package = .ok (recordsOf w.root package) := by
  obtain ⟨s, -, -, hstates⟩ := h.postgres
  obtain ⟨records, hread, -⟩ := indexStates_eq_some (hstates package hname)
  rw [recordsOf, hread]

theorem InStep.appendLine (h : InStep cfg w) (hname : validatePackageName package = none)
    (r : ReleaseRecord) :
    File.appendLine env r (w.root.get (registryIndexPathForPackage package)) =
      .jsonl (recordsOf w.root package ++ [r]) := by
  have hread := h.readPackageIndexRecords hname
  cases hget : w.root.get (registryIndexPathForPackage package) with
  | none => simp [File.appendLine, recordsOf, Registry.readPackageIndexRecords, hget]
  | some f =>
    cases f with
    | jsonl records =>
      simp [File.appendLine, recordsOf, Registry.readPackageIndexRecords, hget, File.records]
    | json d => simp [Registry.readPackageIndexRecords, hget, File.records] at hread
    | blob b => simp [Registry.readPackageIndexRecords, hget, File.records] at hread

/-- A publish adds its record to the file of the package and its row to Postgres. -/
theorem wp_publishDraft_edited {actor : String} {draft : PublishDraft} {s : PostgresStore}
    (h : InStep cfg w) (hs : w.postgres = some s)
    (hname : validatePackageName draft.package = none) :
    wp (publishDraft env cfg host fault actor draft)
      (fun _ w' => ∃ archive, IndexEdited cfg draft.package
        (recordsOf w.root draft.package ++ [buildReleaseRecord env draft host.now archive])
        (s.upsertRegistryPackageRelease
          (releaseRow draft (buildReleaseRecord env draft host.now archive))).releases w w')
      (fun _ _ => True) w := by
  rw [publishDraft, wp_bind, wp_rootTree, wp_bind]
  refine wp_mono wp_ensure ?_ fun _ _ _ => trivial
  rintro _ w₁ ⟨h₁, -⟩
  rw [wp_bind, wp_failAt]
  refine ⟨fun _ => trivial, fun _ => ?_⟩
  rw [wp_bind, wp_failAt]
  refine ⟨fun _ => trivial, fun _ => ?_⟩
  rw [wp_bind, wp_rootTree]
  cases archiveFile host w₁.root draft.archivePath with
  | none => trivial
  | some archive =>
    rw [wp_bind]
    refine wp_mono (wp_appendRegistryReleaseToLocal rfl) ?_ fun _ _ _ => trivial
    rintro _ w₂ ⟨h₂, -⟩
    rw [wp_bind]
    refine wp_mono (keepsShelved_refreshSigned.wp (Shelved.refl (w := w₂))) ?_ fun _ _ _ => trivial
    intro versions w₃ h₃
    rw [wp_bind]
    refine wp_mono (keepsShelved_createRegistryPublication.wp h₃) ?_ fun _ _ _ => trivial
    intro publication w₄ h₄
    have hbucket : w₄.bucket = w.bucket := by
      rw [h₄.bucket, h₂.changes.bucket, h₁.changes.bucket]
    rw [wp_bind]
    refine wp_mono (wp_upload hbucket) ?_ fun _ _ _ => trivial
    rintro _ w₅ ⟨hup, hroot₅, hpostgres₅⟩
    rw [wp_bind]
    refine wp_mono wp_recordRelease_releases ?_ fun _ _ _ => trivial
    rintro _ w₆ ⟨hroot₆, hbucket₆, hrows₆⟩
    rw [wp_bind]
    refine wp_audit ?_ fun _ => trivial
    refine ⟨archive, ?_⟩
    have hroot : w₆.root = w₄.root := hroot₆.trans hroot₅
    have hfile : ∀ p, isIndexPath p = true → w₆.root.get p = w₂.root.get p := fun p hp => by
      rw [hroot, h₄.index p (by simp [isWatched, hp])]
    have hbefore : ∀ p, isIndexPath p = true → w₁.root.get p = w.root.get p := fun p hp =>
      h₁.get_index hp
    have hindexPath := isIndexPath_registryIndexPath hname
    refine ⟨?_, fun p hp hne => ?_, ?_, ?_, fun _ => Or.inl ?_⟩
    · rw [hfile _ hindexPath]
      refine h₂.index.trans (congrArg some ?_)
      exact (congrArg (File.appendLine env _) (hbefore _ hindexPath)).trans (h.appendLine hname _)
    · rw [hfile p hp, h₂.changes.get, hbefore p hp]
      rintro (rfl | heq | rfl)
      · exact absurd (isIndexPath_head hp) (by simp [buildReleaseRecord, artifactPath])
      · exact hne heq
      · exact absurd (isIndexPath_head hp) (by simp [leafPath])
    · obtain ⟨s₄, hs₄, hrows⟩ : ∃ s₄, w₄.postgres = some s₄ ∧ s₄.releases = s.releases := by
        have := h₄.releases
        rw [h₂.changes.postgres, h₁.changes.postgres, hs] at this
        simpa using this
      rw [hrows₆, hpostgres₅, hs₄, Option.map_some, PostgresStore.upsertRegistryPackageRelease,
        PostgresStore.upsertRegistryPackageRelease, hrows]
    · refine ⟨fun hs3 p hp => ?_, fun hs3 hrooted => ?_⟩
      · rw [hbucket₆, hroot₆]
        exact hup.index hs3 p hp
      · rw [hbucket₆]
        rw [hroot₆] at hrooted
        exact hup.registry hs3 hrooted
    · rw [hroot, h₄.index rootPath rfl, h₂.changes.get]
      · exact h₁.present rootPath (by decide)
      · rintro (heq | heq | heq)
        · simp [buildReleaseRecord, artifactPath, rootPath] at heq
        · exact absurd (heq ▸ hindexPath) (by decide)
        · simp [leafPath, rootPath] at heq

/-- The rows after a yank. -/
def yankedRows (rows : List ((String ×ₗ String) × RegistryPackageReleaseRecord))
    (package version : String) (yanked : Bool) (reason : String) :
    List ((String ×ₗ String) × RegistryPackageReleaseRecord) :=
  match getKey rows (toLex (package, version)) with
  | none => rows
  | some r =>
    setKey rows (toLex (package, version)) { r with yanked := yanked, yankedReason := reason }

theorem releases_setRegistryPackageReleaseYanked {version reason : String} {yanked : Bool}
    {s : PostgresStore} :
    (s.setRegistryPackageReleaseYanked package version yanked reason).releases =
      yankedRows s.releases package version yanked reason := by
  unfold PostgresStore.setRegistryPackageReleaseYanked yankedRows
  cases getKey s.releases (toLex (package, version)) <;> rfl

/-- The records of a package say what its rows say. -/
theorem InStep.mem_recordsOf {s : PostgresStore} (h : InStep cfg w) (hs : w.postgres = some s)
    (hname : validatePackageName package = none) {x : ReleaseState} :
    x ∈ (recordsOf w.root package).map ReleaseRecord.state ↔
      x ∈ storedStates s.releases package := by
  obtain ⟨s₀, hs₀, -, hstates⟩ := h.postgres
  obtain rfl : s = s₀ := Option.some.inj (hs.symm.trans hs₀)
  obtain ⟨records, hread, heq⟩ := indexStates_eq_some (hstates package hname)
  rw [heq, List.mem_toFinset, recordsOf, hread]

/-- A yank rewrites the file of the package and the row of the release. -/
theorem wp_tryYank_edited {version reason : String} {yanked : Bool} {s : PostgresStore}
    (h : InStep cfg w) (hs : w.postgres = some s)
    (hname : validatePackageName package = none) :
    wp (tryYank env cfg host fault package version yanked reason)
      (fun r w' => r.status = 200 →
        (recordsOf w.root package).any (·.version = version) = true ∧ IndexEdited cfg package
          (yankRecords version yanked reason host.yankedAt (recordsOf w.root package))
          (yankedRows s.releases package version yanked reason) w w')
      (fun _ _ => True) w := by
  have hread := h.readPackageIndexRecords hname
  have hindexPath := isIndexPath_registryIndexPath hname
  rw [tryYank, wp_bind, wp_rootTree, hread]
  change wp (if (recordsOf w.root package).any (·.version = version) = true then _ else _) _ _ w
  rw [wp_ite]
  refine ⟨fun hfound => ?_, fun _ => ?_⟩
  swap
  · rw [wp_bind]
    exact wp_audit (fun h => absurd h (by simp [failureResponse])) fun _ => trivial
  rw [wp_bind, writePackageIndexRecords, wp_writeTextFile, wp_bind, wp_failAt]
  refine ⟨fun _ => trivial, fun _ => ?_⟩
  rw [wp_bind]
  refine wp_mono (keepsShelved_refreshSigned.wp .refl) ?_ fun _ _ _ => trivial
  intro versions w₁ h₁
  rw [wp_bind]
  refine wp_mono (keepsShelved_createRegistryPublication.wp h₁) ?_ fun _ _ _ => trivial
  intro publication w₂ h₂
  rw [wp_bind]
  refine wp_execPostgres ?_ fun _ _ => trivial
  rw [wp_bind, modifyMemory, wp_modify, wp_bind]
  refine wp_audit ?_ fun _ => trivial
  rw [wp_bind]
  refine wp_mono (wp_upload (w := w) h₂.bucket) ?_ fun _ _ _ => trivial
  rintro _ w₃ ⟨hup, hroot, hpostgres⟩
  rw [wp_bind, wp_rootTree]
  refine fun _ => ⟨hfound, ?_⟩
  have hfile : ∀ p, isIndexPath p = true → w₃.root.get p =
      (w.root.put (registryIndexPathForPackage package) (.jsonl
        (yankRecords version yanked reason host.yankedAt (recordsOf w.root package)))).get p := by
    intro p hp
    rw [hroot]
    exact h₂.index p (by simp [isWatched, hp])
  refine ⟨?_, fun p hp hne => ?_, ?_, hup, fun hs3 => Or.inr ?_⟩
  · rw [hfile _ hindexPath, get_put_self]
  · rw [hfile p hp, get_put_of_ne hne]
  · obtain ⟨s₂, hs₂, hrows⟩ : ∃ s₂, w₂.postgres = some s₂ ∧ s₂.releases = s.releases := by
      have hreleases := h₂.releases
      rw [World.write_postgres, hs] at hreleases
      simpa using hreleases
    rw [hpostgres]
    simp only [hs₂, Option.map_some, releases_setRegistryPackageReleaseYanked, hrows]
  · -- a bucket without a registry goes with an index that lists nothing
    by_contra hnone
    have hempty := h.registry hs3 (by simpa using hnone) package hname
    have hstates : indexStates w.root package =
        some ((recordsOf w.root package).map ReleaseRecord.state).toFinset := by
      rw [indexStates, hread]
    rw [hstates] at hempty
    have hnil : recordsOf w.root package = [] := by
      simpa [indexStates, readPackageIndexRecords] using hempty.symm
    rw [hnil] at hfound
    cases hfound

/-- A free release: no row has its key. -/
theorem getKey_of_not_taken {s : PostgresStore} {version : String} (hs : w.postgres = some s)
    (h : releaseIsTaken w package version = false) :
    getKey s.releases (toLex (package, version)) = none := by
  simp only [releaseIsTaken, hs, Option.map_some, Option.getD_some, Bool.or_eq_false_iff,
    Option.isSome_eq_false_iff, Option.isNone_iff_eq_none] at h
  exact h.1.2

theorem InStep.publish {s : PostgresStore} {draft : PublishDraft} {r : ReleaseRecord}
    (h : InStep cfg w) (hs : w.postgres = some s)
    (hname : validatePackageName draft.package = none)
    (hfree : releaseIsTaken w draft.package draft.version = false)
    (hr : r.state = (releaseRow draft r).state)
    (he : IndexEdited cfg draft.package (recordsOf w.root draft.package ++ [r])
      (s.upsertRegistryPackageRelease (releaseRow draft r)).releases w w') : InStep cfg w' := by
  obtain ⟨s₀, hs₀, hkeyed, -⟩ := h.postgres
  obtain rfl : s = s₀ := Option.some.inj (hs.symm.trans hs₀)
  have hnone := getKey_of_not_taken hs hfree
  have hrows : (s.upsertRegistryPackageRelease (releaseRow draft r)).releases =
      setKey s.releases (toLex (draft.package, draft.version)) (releaseRow draft r) := by
    simp only [PostgresStore.upsertRegistryPackageRelease, upsertRow, releaseRow, hnone]
  rw [hrows] at he
  have hkeyed' := rowsKeyed_setKey (r := releaseRow draft r) hkeyed rfl
  refine h.edit hs hname he hkeyed' ?_ fun q hq => storedStates_setKey_of_ne hkeyed hkeyed' hq
  ext x
  have hmem := mem_storedStates_setKey (q := draft.package) (x := x) hkeyed hkeyed'
  rw [show toLex ((releaseRow draft r).packageId, (releaseRow draft r).version) =
    toLex (draft.package, draft.version) from rfl] at hmem
  rw [hmem, List.mem_toFinset, List.map_append, List.mem_append, h.mem_recordsOf hs hname]
  simp only [List.map_cons, List.map_nil, List.mem_singleton, hr]
  constructor
  · rintro (hx | hx)
    · refine Or.inr ⟨?_, hx⟩
      rintro ⟨-, hversion⟩
      -- a listed release has a row, and this one has none
      obtain ⟨row, hrow, -⟩ := hkeyed.mem_storedStates.mp hx
      rw [hversion] at hrow
      simp only [getKey, Option.map_eq_none_iff, List.find?_eq_none] at hnone
      exact hnone _ hrow (by simp [releaseRow])
    · exact Or.inl ⟨rfl, hx⟩
  · rintro (⟨-, hx⟩ | ⟨-, hx⟩)
    · exact Or.inr hx
    · exact Or.inl hx

/-- The state of a record after a yank of the version. -/
theorem mem_states_yankRecords {version reason yankedAt : String} {yanked : Bool}
    {x : ReleaseState} :
    x ∈ (yankRecords version yanked reason yankedAt records).map ReleaseRecord.state ↔
      ∃ r ∈ records, (r.version = version ∧ x = { r.state with yanked }) ∨
        (r.version ≠ version ∧ x = r.state) := by
  rw [yankRecords, List.map_map, List.mem_map]
  refine exists_congr fun r => and_congr_right fun _ => ?_
  by_cases h : r.version = version
  · simp [h, setYanked, ReleaseRecord.state, eq_comm]
  · simp only [Function.comp_apply, h, if_false, false_and, false_or, ne_eq, not_false_eq_true,
      true_and]
    exact eq_comm

theorem InStep.yank {s : PostgresStore} {version reason yankedAt : String} {yanked : Bool}
    (h : InStep cfg w) (hs : w.postgres = some s) (hname : validatePackageName package = none)
    (hfound : (recordsOf w.root package).any (·.version = version) = true)
    (he : IndexEdited cfg package
      (yankRecords version yanked reason yankedAt (recordsOf w.root package))
      (yankedRows s.releases package version yanked reason) w w') : InStep cfg w' := by
  obtain ⟨s₀, hs₀, hkeyed, -⟩ := h.postgres
  obtain rfl : s = s₀ := Option.some.inj (hs.symm.trans hs₀)
  -- every record of the version has the row of the version
  have hrow : ∀ r ∈ recordsOf w.root package, r.version = version →
      ∃ row, (toLex (package, version), row) ∈ s.releases ∧ row.state = r.state := by
    intro r hr hversion
    have hx := (h.mem_recordsOf hs hname).mp (List.mem_map_of_mem hr)
    obtain ⟨row, hrow, hstate⟩ := hkeyed.mem_storedStates.mp hx
    exact ⟨row, hversion ▸ hrow, hstate⟩
  obtain ⟨record, hrecord, hversion⟩ := List.any_eq_true.mp hfound
  rw [decide_eq_true_eq] at hversion
  obtain ⟨row, hmem, hstate⟩ := hrow record hrecord hversion
  have hkey := Prod.mk.inj (toLex.injective (hkeyed.key _ hmem))
  obtain rfl : package = row.packageId := hkey.1
  obtain rfl : version = row.version := hkey.2
  have hget : getKey s.releases (toLex (row.packageId, row.version)) = some row := by
    obtain ⟨row', hrow'⟩ : ∃ row',
        getKey s.releases (toLex (row.packageId, row.version)) = some row' := by
      rw [← Option.isSome_iff_exists, getKey, Option.isSome_map, List.find?_isSome]
      exact ⟨_, hmem, by simp⟩
    rw [hrow', hkeyed.eq_of_key hmem (mem_of_getKey hrow')]
  have hrows : yankedRows s.releases row.packageId row.version yanked reason =
      setKey s.releases (toLex (row.packageId, row.version))
        { row with yanked := yanked, yankedReason := reason } := by
    rw [yankedRows, hget]
  rw [hrows] at he
  have hkeyed' := rowsKeyed_setKey
    (r := { row with yanked := yanked, yankedReason := reason }) hkeyed rfl
  refine h.edit hs hname he hkeyed' ?_ fun q hq =>
    storedStates_setKey_of_ne hkeyed hkeyed' hq
  ext x
  have hmemx := mem_storedStates_setKey (q := row.packageId) (x := x) hkeyed hkeyed'
  rw [List.mem_toFinset, mem_states_yankRecords]
  refine Iff.trans ?_ hmemx.symm
  simp only [true_and]
  constructor
  · rintro ⟨r, hr, ⟨hv, rfl⟩ | ⟨hv, rfl⟩⟩
    · obtain ⟨row', hmem', hstate'⟩ := hrow r hr hv
      rw [hkeyed.eq_of_key hmem' hmem] at hstate'
      exact Or.inl (by rw [← hstate']; rfl)
    · exact Or.inr ⟨hv, (h.mem_recordsOf hs hname).mp (List.mem_map_of_mem hr)⟩
  · rintro (rfl | ⟨hv, hx⟩)
    · exact ⟨record, hrecord, Or.inl ⟨hversion, by rw [← hstate]; rfl⟩⟩
    · obtain ⟨r, hr, rfl⟩ := List.mem_map.mp ((h.mem_recordsOf hs hname).mpr hx)
      exact ⟨r, hr, Or.inr ⟨hv, rfl⟩⟩

end edits

section runs

variable {env : Environment} {cfg : PlatformConfig} {host : Host} {w w₀ w' : World}

theorem not_isWatched_of_staging {p : Path} (h : InStaging p) : isWatched p = false := by
  cases p with
  | nil => rfl
  | cons name rest =>
    obtain rfl : name = "_staging" := by simpa [InStaging] using h
    rfl

theorem InStep.publishRelease {request : HttpRequest} (h : InStep cfg w)
    (hs : Succeeds env cfg host (.publishRelease request) w w') : InStep cfg w' := by
  obtain ⟨r, hrun, hr⟩ := hs
  have hwp : wp (handlePublishRelease env cfg host none request)
      (fun r w' => r.status = 200 → InStep cfg w') (fun _ _ => True) w := by
    refine wp_handlePublishRelease (fun _ r hr h => by omega) (fun _ _ _ => trivial)
      (fun _ _ _ => ⟨fun r hr h => by omega, fun _ => trivial⟩) fun draft hdraft _ _ => ?_
    have hdrafted := drafted_of_draftOf (w := w) hdraft
    have hstaged : InStep cfg (stagedWorld draft w) :=
      h.of_shelved (.of_changes hdrafted.changes fun _ => not_isWatched_of_staging)
    refine wp_tryPublish ?_
    refine wp_mono wp_refreshFromObjectStore ?_ fun _ _ _ =>
      ⟨fun r hr h => by omega, fun _ => trivial⟩
    rintro _ w₁ ⟨-, rfl⟩
    have hsynced := @InStep.synced cfg none _ hstaged nofun
    obtain ⟨s, hpostgres, -, -⟩ := hsynced.postgres
    refine ⟨nofun, fun _ => ⟨fun r hr h => by omega, nofun⟩, fun hfree _ => ?_⟩
    refine wp_mono (wp_publishDraft_edited hsynced hpostgres hdrafted.validName) ?_
      fun _ _ _ => ⟨fun r hr h => by omega, fun _ => trivial⟩
    rintro _ w₂ ⟨archive, hedited⟩ _
    exact hsynced.publish hpostgres hdrafted.validName hfree rfl hedited
  exact hwp.of_ok hrun hr

theorem InStep.setYanked {namespaceName name version : String} {yanked : Bool}
    {request : HttpRequest} (h : InStep cfg w)
    (hs : Succeeds env cfg host (.setYanked namespaceName name version yanked request) w w') :
    InStep cfg w' := by
  obtain ⟨r, hrun, hr⟩ := hs
  obtain ⟨s, hpostgres, -, -⟩ := h.postgres
  have hwp : wp (handleSetPackageReleaseYanked env cfg host none namespaceName name version request
      yanked) (fun r w' => r.status = 200 → InStep cfg w') (fun _ _ => True) w := by
    refine wp_handleSetPackageReleaseYanked (fun r hr h => by omega) (fun _ => trivial)
      (fun _ => trivial) fun reason hname => ?_
    refine wp_mono (wp_tryYank_edited h hpostgres hname) ?_ fun _ _ _ =>
      ⟨fun r hr h => by omega, fun _ => trivial⟩
    intro r w₁ hedited hr
    obtain ⟨hfound, hedited⟩ := hedited hr
    exact h.yank hpostgres hname hfound hedited
  exact hwp.of_ok hrun hr

/-- The bucket and the rows of the releases are the same. -/
def SameStores (w w' : World) : Prop :=
  w'.bucket = w.bucket ∧ w'.postgres.map (·.releases) = w.postgres.map (·.releases)

theorem keeps_sameStores_installPublication {distributionId publicationId : String}
    {publication : Document} {previous : Option String} {updatedAt : String} :
    Keeps (SameStores w)
      (installPublication cfg none distributionId publicationId publication previous
        updatedAt) := by
  have hmaterialize : Keeps (SameStores w)
      (materializePublicationToRoot cfg none publicationId) := by
    intro w₁ h
    have hc : OnlyChanges (fun p => inReadPlane p) w₁
        (materializePublicationToRoot cfg none publicationId w₁).2 :=
      changes_materializePublicationToRoot w₁
    exact ⟨hc.bucket.trans h.1, by rw [hc.postgres, h.2]⟩
  refine keeps_bind (keeps_onlyIf fun _ => hmaterialize) fun _ => ?_
  unfold pointDistribution
  split
  · exact keeps_fail
  · refine keeps_bind keeps_failAt fun _ => keeps_bind (keeps_modify fun _ h => h) fun _ => ?_
    refine keeps_bind ?_ fun _ => keeps_bind (keeps_modify fun _ h => h) fun _ => keeps_pure
    rw [keeps_iff]
    intro w₁ h
    apply wp_execPostgres
    · refine ⟨h.1, ?_⟩
      rw [← h.2]
      cases w₁.postgres <;> rfl
    · exact fun _ _ => h

/-- A promote or rollback leaves the bucket and the rows of the releases as they are. -/
theorem sameStores_of_succeeds {request : Request} (hr : request.publishes = false)
    (hs : Succeeds env cfg host request w w') : SameStores w w' := by
  have hkeeps : Keeps (SameStores w) (handleRequest env cfg host none request) := by
    cases request with
    | publishRelease request => cases hr
    | setYanked namespaceName name version yanked request => cases hr
    | promoteDistribution distributionId request =>
      exact keeps_handlePromoteDistribution fun _ _ _ => keeps_sameStores_installPublication
    | rollbackDistribution distributionId request =>
      exact keeps_handleRollbackDistribution fun _ _ _ => keeps_sameStores_installPublication
  obtain ⟨r, hrun, -⟩ := hs
  have := hkeeps w ⟨rfl, rfl⟩
  rwa [hrun] at this

theorem not_isIndexPath_distributionPointerPath {id : String} :
    isIndexPath (distributionPointerPath id) = false := by
  unfold distributionPointerPath
  split
  · rfl
  · split <;> rfl

/-- The releases that a promote or rollback serves: those of the publication, or those of before. -/
theorem sameReleases_of_succeeds {request : Request} (hr : request.publishes = false)
    (hs : Succeeds env cfg host request w w') (hkeeps : KeepsReleases env cfg host w request) :
    SameReleases w'.root w.root := by
  obtain ⟨target, htarget, hinstalled⟩ := installed_of_succeeds hr hs
  obtain ⟨t, repositoryVersionId, hprepared, -, hroot, -⟩ := hinstalled.exists_root
  intro q hq
  have hpath := isIndexPath_registryIndexPath hq
  have hput : indexStates w'.root q = indexStates t q := by
    apply indexStates_congr
    rw [hroot, get_put_of_ne]
    intro heq
    rw [heq, not_isIndexPath_distributionPointerPath] at hpath
    cases hpath
  rw [hput]
  cases hprepared with
  | other hid => rfl
  | @default source hid hsource hconfig =>
    rw [← hkeeps target htarget hid q hq]
    apply indexStates_congr
    rw [copiedPlane_of_some hsource (fun _ h => by cases h), get_materialized, get_readPlane,
      get_subtree, if_pos (inReadPlane_of_isIndexPath hpath),
      if_pos (inReadPlane_of_isIndexPath hpath)]

theorem InStep.install {request : Request} (h : InStep cfg w) (hr : request.publishes = false)
    (hs : Succeeds env cfg host request w w') (hkeeps : KeepsReleases env cfg host w request) :
    InStep cfg w' := by
  obtain ⟨hbucket, hreleases⟩ := sameStores_of_succeeds hr hs
  have hsame := sameReleases_of_succeeds hr hs hkeeps
  have hset : InStep cfg (w.setRoot w'.root) := h.setRoot hsame
  exact hset.of_shelved ⟨fun _ _ => rfl, hbucket, hreleases⟩

theorem InStep.step (h : InStep cfg w) (hs : KeepingStep env cfg w w') : InStep cfg w' := by
  obtain ⟨host, request, hs, hkeeps⟩ := hs
  cases request with
  | publishRelease request => exact h.publishRelease hs
  | setYanked namespaceName name version yanked request => exact h.setYanked hs
  | promoteDistribution distributionId request => exact h.install rfl hs hkeeps
  | rollbackDistribution distributionId request => exact h.install rfl hs hkeeps

theorem InStep.of_initial (h : Initial w) (hbucket : w.bucket = .empty)
    (hpostgres : w.postgres.isSome) : InStep cfg w := by
  obtain ⟨s, hs⟩ := Option.isSome_iff_exists.mp hpostgres
  have hrows : s.releases = [] := (h.postgres s hs).1
  refine ⟨⟨s, hs, ?_, fun q _ => ?_⟩, fun _ q _ => ?_, fun _ _ q _ => ?_⟩
  · rw [hrows]
    exact ⟨nofun, List.nodup_nil⟩
  · rw [h.root, hrows]
    rfl
  · rw [hbucket, h.root]
  · rw [h.root]

end runs

end StyioPlatform.Registry
