import StyioPlatform.Registry.Requests

/-! A publish that is not answered with 200: nothing is undone, so the registry is as it was only
where the request stops before it changes a file that is served or published. -/
namespace StyioPlatform.Registry

open FileTree Prog

variable {env : Environment} {cfg : PlatformConfig} {host : Host} {fault : Option Site}
  {w w' w'' : World} {t t' : Tree} {draft : PublishDraft}

/-- The worlds agree but for the files of `S` and the journal. -/
structure SameOff (S : Path → Prop) (w w' : World) : Prop where
  root : AgreeOff S w.root w'.root
  bucket : w'.bucket = w.bucket
  memory : w'.memory = w.memory
  postgres : w'.postgres = w.postgres

theorem SameOff.refl {S : Path → Prop} : SameOff S w w := ⟨.refl, rfl, rfl, rfl⟩

theorem isSynced_of_inReadPlane {p : Path} (h : inReadPlane p = true) : isSynced p = true := by
  simp [isSynced, h]

theorem not_isSynced_of_staging {p : Path} (h : InStaging p) : isSynced p = false := by
  cases p with
  | nil => rfl
  | cons name rest =>
    obtain rfl : name = "_staging" := by simpa [InStaging] using h
    simp [isSynced, inReadPlane, readPlaneEntries]

theorem not_inReadPlane_of_staging {p : Path} (h : InStaging p) : inReadPlane p = false := by
  cases hp : inReadPlane p with
  | false => rfl
  | true =>
    have := not_isSynced_of_staging h
    rw [isSynced_of_inReadPlane hp] at this
    cases this

/-- The archive of a draft. -/
def draftArchive (host : Host) (draft : PublishDraft) : Option File :=
  match draft.archivePath with
  | .host path => (host.files path).map File.blob
  | .staged _ => some (.json (.staged draft.package draft.version draft.publisherId))

section publishDraft

variable {archive : File} {actor : String}

theorem SameOff.trans {S : Path → Prop} (h : SameOff S w w') (h' : SameOff S w' w'') :
    SameOff S w w'' :=
  ⟨h.root.trans h'.root, h'.bucket.trans h.bucket, h'.memory.trans h.memory,
    h'.postgres.trans h.postgres⟩

end publishDraft

/-- The objects that the sync fetches, all or those before it breaks off. -/
def isFetched (fault : Option Site) (p : Path) : Bool :=
  isSynced p && (match fault with
    | some (.syncBucket fetched) => decide (p ∈ fetched)
    | _ => true)

/-- The bucket holds a registry. -/
def bucketHasRegistry (bucket : Tree) : Bool :=
  (bucket.get configPath).isSome || (bucket.get rootPath).isSome

/-- The local tree after the sync before a publish. -/
def syncedTree (cfg : PlatformConfig) (fault : Option Site) (w : World) : Tree :=
  if cfg.usesS3ObjectStore = true ∧ fault ≠ some .probeBucket then
    if bucketHasRegistry w.bucket then (cleared w.root).graft [] (w.bucket.restrict (isFetched fault))
    else cleared w.root
  else w.root

/-- The sync does not complete. -/
def SyncStops (cfg : PlatformConfig) (fault : Option Site) (w : World) : Prop :=
  cfg.usesS3ObjectStore = true ∧ (fault = some .probeBucket ∨
    bucketHasRegistry w.bucket = true ∧ ∃ fetched, fault = some (.syncBucket fetched))

theorem wp_refreshFromObjectStore :
    wp (refreshFromObjectStore cfg fault)
      (fun _ w' => ¬ SyncStops cfg fault w ∧ w' = w.setRoot (syncedTree cfg fault w))
      (fun _ w' => SyncStops cfg fault w ∧ w' = w.setRoot (syncedTree cfg fault w)) w := by
  unfold refreshFromObjectStore
  rw [wp_ite]
  refine ⟨fun hs3 => ?_, fun hs3 => ?_⟩
  swap
  · refine ⟨fun h => hs3 h.1, ?_⟩
    rw [syncedTree, if_neg fun h => hs3 h.1]
    rfl
  rw [wp_bind, wp_failAt]
  refine ⟨fun hf => ⟨⟨hs3, Or.inl hf⟩, ?_⟩, fun hprobe => ?_⟩
  · rw [syncedTree, if_neg fun h => h.2 hf]
    rfl
  rw [wp_bind, wp_read, wp_ite]
  change (bucketHasRegistry w.bucket = true → _) ∧ (¬ bucketHasRegistry w.bucket = true → _)
  refine ⟨fun hbucket => ?_, fun hbucket => ?_⟩
  · have htree : syncedTree cfg fault w =
        (cleared w.root).graft [] (w.bucket.restrict (isFetched fault)) := by
      rw [syncedTree, if_pos ⟨hs3, hprobe⟩, if_pos hbucket]
    rw [syncS3RegistryStateToLocal, wp_bind, removeLocalRegistryMetadataCache, wp_modifyRoot,
      wp_bind, wp_read]
    dsimp only
    split
    · next fetched =>
      rw [wp_bind, wp_modifyRoot, wp_fail, htree]
      exact ⟨⟨hs3, Or.inr ⟨hbucket, fetched, rfl⟩⟩, rfl⟩
    · next hne =>
      rw [wp_modifyRoot, htree]
      refine ⟨?_, ?_⟩
      · rintro ⟨-, hf | ⟨-, fetched, hf⟩⟩
        · exact hprobe hf
        · exact hne fetched hf
      · have hfetched : isFetched fault = isSynced := by
          funext p
          unfold isFetched
          split
          · next fetched => exact (hne fetched rfl).elim
          · exact Bool.and_true _
        rw [hfetched]
        rfl
  · rw [removeLocalRegistryMetadataCache, wp_modifyRoot, syncedTree, if_pos ⟨hs3, hprobe⟩,
      if_neg hbucket]
    refine ⟨?_, rfl⟩
    rintro ⟨-, hf | ⟨hb, -⟩⟩
    · exact hprobe hf
    · exact hbucket hb

/-- The sync before a publish leaves the local tree as it is: the object store is local, or the
root holds what the bucket holds. -/
def SyncIdle (cfg : PlatformConfig) (fault : Option Site) (w : World) : Prop :=
  syncedTree cfg fault w = w.root

theorem SyncIdle.of_changes (h : SyncIdle cfg fault w) (hc : OnlyChanges InStaging w w') :
    SyncIdle cfg fault w' := by
  unfold SyncIdle syncedTree at *
  rw [hc.bucket]
  split at h
  · next hs3 =>
    rw [if_pos hs3]
    have hplane : ∀ p, inReadPlane p = true → w'.root.get p = w.root.get p := fun p hp =>
      hc.get fun hs => by simp [not_inReadPlane_of_staging hs] at hp
    split at h
    · next hbucket =>
      rw [if_pos hbucket]
      ext p
      have hp := congrArg (fun t => t.get p) h
      rw [get_graft_nil, get_restrict, get_cleared] at hp ⊢
      by_cases hin : inReadPlane p = true
      · rw [if_pos hin] at hp ⊢
        rw [hp, hplane p hin]
      · rw [if_neg hin] at hp ⊢
        by_cases hs : InStaging p
        · simp [isFetched, not_isSynced_of_staging hs]
        · rw [hc.get hs, hp]
    · next hbucket =>
      rw [if_neg hbucket]
      ext p
      have hp := congrArg (fun t => t.get p) h
      rw [get_cleared] at hp ⊢
      split
      · next hin =>
        rw [if_pos hin] at hp
        rw [hplane p hin, hp]
      · rfl
  · next hs3 => rw [if_neg hs3]

theorem staged_of_draftOf {request : HttpRequest} {path : Path}
    (h : draftOf env host fault request = some draft) (hpath : draft.archivePath = .staged path) :
    InStaging path := by
  obtain ⟨fields, -, h⟩ := Option.bind_eq_some_iff.mp h
  split at h
  · split at h
    · cases h
    · obtain ⟨archivePath, harchive, rfl⟩ := Option.map_eq_some_iff.mp h
      dsimp only at hpath
      rw [hpath, draftArchivePath] at harchive
      split at harchive
      · split at harchive <;> cases harchive
      · cases harchive
        rfl
  · cases h

theorem OnlyChanges.get_staging {p : Path} (h : OnlyChanges InitScope w w') (hp : InStaging p) :
    w'.root.get p = w.root.get p := by
  refine h.get ?_
  rintro (hinit | htmp)
  · have := not_isSynced_of_staging hp
    rw [isSynced_of_inReadPlane (inReadPlane_initPaths hinit)] at this
    cases this
  · have := (head_of_tmp htmp).symm.trans hp
    simp at this

/-- The sync leaves staged archives where they are. -/
theorem get_syncedTree_staging {p : Path} (hp : InStaging p) :
    (syncedTree cfg fault w).get p = w.root.get p := by
  have hcleared : (cleared w.root).get p = w.root.get p := by
    rw [get_cleared, not_inReadPlane_of_staging hp]
    rfl
  unfold syncedTree
  split
  · split
    · have hnone : (w.bucket.restrict (isFetched fault)).get p = none := by
        simp [get_restrict, isFetched, not_isSynced_of_staging hp]
      rw [get_graft_nil, hnone, hcleared]
      rfl
    · exact hcleared
  · rfl

/-- The archive of a draft is found as long as nothing touches the staged archives. -/
theorem archiveFile_of_draftOf {request : HttpRequest}
    (h : draftOf env host fault request = some draft) :
    ∃ archive, draftArchive host draft = some archive ∧
      ∀ w₁ : World, (∀ p, InStaging p → w₁.root.get p = (stagedWorld draft w).root.get p) →
        archiveFile host w₁.root draft.archivePath = some archive := by
  have hdrafted := drafted_of_draftOf (w := w) h
  unfold draftArchive stagedWorld
  cases hpath : draft.archivePath with
  | host path =>
    obtain ⟨archive, harchive⟩ := Option.isSome_iff_exists.mp hdrafted.archive
    rw [hpath] at harchive
    exact ⟨archive, harchive, fun _ _ => harchive⟩
  | staged path =>
    refine ⟨_, rfl, fun w₁ hsame => ?_⟩
    change w₁.root.get path = _
    rw [hsame path (staged_of_draftOf h hpath), World.write_root, get_put_self]

section staged

variable {request : HttpRequest} (hdraft : draftOf env host fault request = some draft)

include hdraft

theorem staged_get {p : Path} (hp : ¬ InStaging p) :
    (stagedWorld draft w).root.get p = w.root.get p :=
  (drafted_of_draftOf hdraft).changes.get hp

end staged

end StyioPlatform.Registry
