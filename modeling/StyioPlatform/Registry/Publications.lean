import StyioPlatform.Registry.System

/-! Publications are immutable and numbered without gaps, across failed requests and restarts. -/
namespace StyioPlatform.Registry

open FileTree Prog

variable {env : Environment} {cfg : PlatformConfig} {host : Host} {fault : Option Site}
  {w w' : World} {n : ℕ}

theorem publicationIdFor_toList (n : ℕ) :
    (publicationIdFor n).toList = 'p' :: 'u' :: 'b' :: '-' :: paddedDigits 6 n := by
  simp [publicationIdFor, paddedNumber, String.toList_append]

theorem publicationIdFor_injective : Function.Injective publicationIdFor := by
  intro m n h
  have hlist := congrArg String.toList h
  rw [publicationIdFor_toList, publicationIdFor_toList] at hlist
  exact paddedDigits_injective 6 (by simpa using hlist)

/-- The numeric suffix of a publication id. -/
def publicationNumber (publicationId : String) : Option ℕ := stoul (publicationId.toList.drop 4)

theorem publicationNumber_publicationIdFor (hn : n < 2 ^ 31) :
    publicationNumber (publicationIdFor n) = some n := by
  rw [publicationNumber, publicationIdFor_toList]
  exact stoul_paddedDigits (by omega)

theorem sequenceAfter_publicationIdFor (hn : n < 2 ^ 31) :
    sequenceAfter (publicationIdFor n) = n + 1 := by
  rw [sequenceAfter, publicationIdFor_toList]
  simp only [stoul_paddedDigits (show n < 2 ^ 64 by omega), Option.map_some, Option.getD_some]
  omega

theorem mem_publicationNames {t : Tree} {name : String} :
    name ∈ publicationNames t ↔ t.isDirectory (publicationPath name) = true := by
  simp only [publicationNames, Finset.mem_biUnion, isDirectory_iff, mem_support_iff]
  constructor
  · rintro ⟨p, ⟨f, hf⟩, hp⟩
    split at hp
    · next name' x q =>
      obtain rfl := Finset.mem_singleton.mp hp
      exact ⟨x :: q, f, by simp, hf⟩
    · simp at hp
  · rintro ⟨q, f, hq, hf⟩
    obtain ⟨x, q, rfl⟩ := List.exists_cons_of_ne_nil hq
    exact ⟨_, ⟨f, hf⟩, by simp [publicationPath]⟩

theorem foldl_max_le {α : Type} {f : α → ℕ} {l : List α} {a m : ℕ} :
    l.foldl (fun m x => max m (f x)) a ≤ m ↔ a ≤ m ∧ ∀ x ∈ l, f x ≤ m := by
  induction l generalizing a with
  | nil => simp
  | cons x l ih => simp [ih, and_assoc]

theorem maxSequence_le {id : String} {l : List (String × RegistryRepositoryVersionRecord)} :
    maxSequence id l ≤ n ↔ ∀ x ∈ l, x.2.repositoryId = id → x.2.sequence ≤ n := by
  simp [maxSequence, foldl_max_le]

/-- The publication directories are numbered 1 to `n`, and no store knows a greater number. -/
structure Numbered (w : World) (n : ℕ) : Prop where
  bound : n < 2 ^ 31
  directory : ∀ name, w.root.isDirectory (publicationPath name) = true ↔
    ∃ k, 1 ≤ k ∧ k ≤ n ∧ name = publicationIdFor k
  file : ∀ name, w.root.get (publicationPath name) = none
  memory : maxSequence "default" w.memory.repositoryVersions ≤ n
  postgres : ∀ s ∈ w.postgres, maxSequence "default" s.repositoryVersions ≤ n

namespace Numbered

theorem of_initial (h : Initial w) : Numbered w 0 where
  bound := by decide
  directory name := by
    rw [h.root, isDirectory_iff]
    constructor
    · rintro ⟨q, f, _, hf⟩
      cases hf
    · rintro ⟨k, hk, hk', _⟩
      omega
  file name := by rw [h.root]; rfl
  memory := by rw [h.repositoryVersions]; rfl
  postgres s hs := by rw [(h.postgres s hs).2]; rfl

/-- The paths of publications. -/
def InPublications (p : Path) : Prop := p.head? = some "_publications"

/-- Files outside `_publications` do not matter. -/
theorem of_changes {S : Path → Prop} (h : Numbered w n) (hc : OnlyChanges S w w')
    (hS : ∀ p, S p → ¬ InPublications p) : Numbered w' n := by
  have hget : ∀ name q, w'.root.get (publicationPath name ++ q) =
      w.root.get (publicationPath name ++ q) := fun _ _ => hc.get fun hs => hS _ hs rfl
  refine ⟨h.bound, fun name => ?_, fun name => ?_, hc.memory ▸ h.memory, hc.postgres ▸ h.postgres⟩
  · rw [← h.directory, Bool.coe_iff_coe, Bool.eq_iff_iff, isDirectory_iff, isDirectory_iff]
    simp only [hget]
  · have := hget name []
    rw [List.append_nil] at this
    rw [this, h.file]

theorem next_on_disk (h : Numbered w n) : nextPublicationSequenceOnDisk w.root = n + 1 := by
  have hnames : ∀ name ∈ publicationNames w.root,
      ∃ k, 1 ≤ k ∧ k ≤ n ∧ name = publicationIdFor k := fun name hname =>
    (h.directory name).mp (mem_publicationNames.mp hname)
  have hafter : ∀ k, k ≤ n → sequenceAfter (publicationIdFor k) = k + 1 := fun k hk =>
    sequenceAfter_publicationIdFor (lt_of_le_of_lt hk h.bound)
  have hle : (publicationNames w.root).sup sequenceAfter ≤ n + 1 := by
    refine Finset.sup_le fun name hname => ?_
    obtain ⟨k, _, hk, rfl⟩ := hnames name hname
    rw [hafter k hk]
    omega
  rcases Nat.eq_zero_or_pos n with rfl | hpos
  · rw [nextPublicationSequenceOnDisk]
    omega
  · have hmem : publicationIdFor n ∈ publicationNames w.root :=
      mem_publicationNames.mpr ((h.directory _).mpr ⟨n, hpos, le_rfl, rfl⟩)
    have hge := Finset.le_sup (f := sequenceAfter) hmem
    rw [hafter n le_rfl] at hge
    rw [nextPublicationSequenceOnDisk]
    omega

/-- The next number is at most one more than the last, and exactly that when nothing fails. -/
theorem sequence_bounds (h : Numbered w n) :
    1 ≤ publicationSequence fault w ∧ publicationSequence fault w ≤ n + 1 ∧
      (fault = none → publicationSequence fault w = n + 1) := by
  have hmemory : w.memory.nextRepositoryVersionSequence "default" ≤ n + 1 :=
    Nat.succ_le_succ h.memory
  have hpos : 1 ≤ w.memory.nextRepositoryVersionSequence "default" := Nat.succ_pos _
  have hpersistent : (w.postgres.map (·.nextRepositoryVersionSequence "default")).getD
      (w.memory.nextRepositoryVersionSequence "default") ≤ n + 1 := by
    cases hp : w.postgres with
    | none => exact hmemory
    | some s => exact Nat.succ_le_succ (h.postgres s hp)
  simp only [publicationSequence, h.next_on_disk]
  split
  · next hf => exact ⟨by omega, by omega, fun hn => by simp [hn] at hf⟩
  · exact ⟨by omega, by omega, fun _ => by omega⟩

end Numbered

theorem wp_nextPublicationSequence (h : Numbered w n) :
    wp (nextPublicationSequence fault)
      (fun k w' => w' = w ∧ 1 ≤ k ∧ k ≤ n + 1 ∧ k < 2 ^ 31 ∧ (fault = none → k = n + 1))
      (fun _ w' => w' = w ∧ (fault = none → ¬ n + 1 < 2 ^ 31)) w := by
  obtain ⟨hpos, hle, hnone⟩ : 1 ≤ publicationSequence fault w ∧
      publicationSequence fault w ≤ n + 1 ∧
      (fault = none → publicationSequence fault w = n + 1) := h.sequence_bounds
  have hrest : (publicationSequence fault w < 2 ^ 31 → w = w ∧ 1 ≤ publicationSequence fault w ∧
      publicationSequence fault w ≤ n + 1 ∧ publicationSequence fault w < 2 ^ 31 ∧
      (fault = none → publicationSequence fault w = n + 1)) ∧
      (¬ publicationSequence fault w < 2 ^ 31 → w = w ∧ (fault = none → ¬ n + 1 < 2 ^ 31)) :=
    ⟨fun hlt => ⟨rfl, hpos, hle, hlt, hnone⟩, fun hlt => ⟨rfl, fun hf => hnone hf ▸ hlt⟩⟩
  rw [nextPublicationSequence, wp_bind, wp_read, wp_bind, wp_onlyIf, wp_failAt, wp_bind,
    wp_require]
  refine ⟨fun _ => ⟨fun hf => ⟨rfl, fun hn => ?_⟩, fun _ => hrest⟩, fun _ => hrest⟩
  rw [hf] at hn
  cases hn

/-- A new publication under the next number. -/
theorem Numbered.publish {at_ : String} {m : PublicationManifest} {k : ℕ} (h : Numbered w n)
    (hk : 1 ≤ k) (hkn : k ≤ n + 1) (hbound : k < 2 ^ 31)
    (hp : Published env cfg k at_ w w' m) : k = n + 1 ∧ Numbered w' (n + 1) := by
  have hnew : k = n + 1 := by
    by_contra hne
    have hdir := (h.directory (publicationIdFor k)).mpr ⟨k, hk, by omega, rfl⟩
    rw [hp.fresh] at hdir
    cases hdir
  subst hnew
  have hsep : ∀ name q, name ≠ publicationIdFor (n + 1) →
      w'.root.get (publicationPath name ++ q) = w.root.get (publicationPath name ++ q) := by
    intro name q hname
    refine hp.changes.get ?_
    rintro (⟨r, hr⟩ | ⟨r, hr⟩)
    · simp [publicationPath] at hr
    · simp only [publicationPath, List.cons_append, List.nil_append, List.cons.injEq] at hr
      exact hname hr.2.1.symm
  have hnone : ∀ q, w.root.get (publicationPath (publicationIdFor (n + 1)) ++ q) = none := by
    intro q
    by_cases hq : q = []
    · rw [hq, List.append_nil, h.file]
    · by_contra hn
      obtain ⟨f, hf⟩ := Option.ne_none_iff_exists'.mp hn
      have hdir := isDirectory_iff.mpr ⟨q, f, hq, hf⟩
      rw [hp.fresh] at hdir
      cases hdir
  refine ⟨rfl, hbound, fun name => ?_, fun name => ?_, ?_, ?_⟩
  · by_cases hname : name = publicationIdFor (n + 1)
    · subst hname
      refine ⟨fun _ => ⟨n + 1, by omega, le_rfl, rfl⟩, fun _ => isDirectory_iff.mpr ?_⟩
      exact ⟨["publication.json"], _, by simp, (hp.publication _ (hnone _)).trans
        get_put_self⟩
    · have hsame : w'.root.isDirectory (publicationPath name) =
          w.root.isDirectory (publicationPath name) := by
        rw [Bool.eq_iff_iff, isDirectory_iff, isDirectory_iff]
        simp only [hsep name _ hname]
      rw [hsame, h.directory]
      constructor
      · rintro ⟨k, hk, hkn, rfl⟩
        exact ⟨k, hk, by omega, rfl⟩
      · rintro ⟨k, hk, hkn, rfl⟩
        exact ⟨k, hk, by by_contra hlt; exact hname (by rw [show k = n + 1 by omega]), rfl⟩
  · by_cases hname : name = publicationIdFor (n + 1)
    · subst hname
      have := hp.publication [] (hnone [])
      rw [List.append_nil] at this
      rw [this]
      rfl
    · have := hsep name [] hname
      rw [List.append_nil] at this
      rw [this, h.file]
  · rw [hp.changes.memory]
    exact h.memory.trans (Nat.le_succ n)
  · rw [hp.changes.postgres]
    exact fun s hs => (h.postgres s hs).trans (Nat.le_succ n)

/-- The first `n` publications are those of `base`, and there are at least `k`. -/
def Grown (base : World) (n k : ℕ) (w : World) : Prop :=
  ∃ m, n ≤ m ∧ k ≤ m ∧ Numbered w m ∧ ∀ i, 1 ≤ i → i ≤ n → ∀ q,
    w.root.get (publicationPath (publicationIdFor i) ++ q) =
      base.root.get (publicationPath (publicationIdFor i) ++ q)

section grown

variable {base : World} {k : ℕ}

theorem Grown.refl (h : Numbered w n) : Grown w n 0 w :=
  ⟨n, le_rfl, Nat.zero_le n, h, fun _ _ _ _ => rfl⟩

theorem stable_grown {S : Path → Prop} (hS : ∀ p, S p → ¬ Numbered.InPublications p) :
    StableUnder S (Grown base n k) := by
  rintro w w' hc ⟨m, hnm, hkm, hm, hget⟩
  refine ⟨m, hnm, hkm, hm.of_changes hc hS, fun i hi hin q => ?_⟩
  have hq : ¬ S (publicationPath (publicationIdFor i) ++ q) := fun hs => hS _ hs rfl
  exact (hc.get hq).trans (hget i hi hin q)

/-- Only the repository versions of the stores matter. -/
theorem grown_stores {m : MemoryStateStore} {s : Option PostgresStore} {bucket : Tree}
    {written : List (Path × File)} (h : Grown base n k w)
    (hm : ∀ x ∈ m.repositoryVersions, x ∈ w.memory.repositoryVersions ∨ x.2.sequence ≤ k)
    (hs : ∀ t ∈ s, ∀ x ∈ t.repositoryVersions,
      (∃ t' ∈ w.postgres, ∃ y ∈ t'.repositoryVersions,
        y.2.repositoryId = x.2.repositoryId ∧ y.2.sequence = x.2.sequence) ∨
      x.2.sequence ≤ k) :
    Grown base n k { root := w.root, bucket := bucket, memory := m, postgres := s,
                     written := written } := by
  obtain ⟨j, hnj, hkj, hj, hget⟩ := h
  refine ⟨j, hnj, hkj, ⟨hj.bound, hj.directory, hj.file, ?_, ?_⟩, hget⟩
  · refine maxSequence_le.mpr fun x hx hid => ?_
    rcases hm x hx with hx | hx
    · exact maxSequence_le.mp hj.memory x hx hid
    · exact hx.trans hkj
  · intro t ht
    refine maxSequence_le.mpr fun x hx hid => ?_
    rcases hs t ht x hx with ⟨t', ht', y, hy, hyid, hyseq⟩ | hx
    · exact hyseq ▸ maxSequence_le.mp (hj.postgres t' ht') y hy (hyid.trans hid)
    · exact hx.trans hkj

theorem keeps_grown_modifyMemory {f : MemoryStateStore → MemoryStateStore}
    (h : ∀ m, ∀ x ∈ (f m).repositoryVersions, x ∈ m.repositoryVersions ∨ x.2.sequence ≤ k) :
    Keeps (Grown base n k) (modifyMemory f) :=
  keeps_modify fun w hw => grown_stores hw (h w.memory) fun t ht x hx =>
    Or.inl ⟨t, ht, x, hx, rfl, rfl⟩

theorem keeps_grown_execPostgres {statement : PostgresStatement}
    {f : PostgresStore → PostgresStore}
    (h : ∀ s, ∀ x ∈ (f s).repositoryVersions, (∃ y ∈ s.repositoryVersions,
      y.2.repositoryId = x.2.repositoryId ∧ y.2.sequence = x.2.sequence) ∨ x.2.sequence ≤ k) :
    Keeps (Grown base n k) (execPostgres fault statement f) := by
  refine keeps_iff.mpr fun w hw => wp_execPostgres ?_ fun _ _ => hw
  refine grown_stores hw (fun x hx => Or.inl hx) fun t ht x hx => ?_
  obtain ⟨s, hs, rfl⟩ := Option.map_eq_some_iff.mp ht
  rcases h s x hx with ⟨y, hy, hid, hseq⟩ | hx
  · exact Or.inl ⟨s, hs, y, hy, hid, hseq⟩
  · exact Or.inr hx

theorem mem_upsertRow {κ ν : Type} [LinearOrder κ] {rows : List (κ × ν)} {key : κ} {row : ν}
    {merge : ν → ν} {x : κ × ν} (h : x ∈ upsertRow rows key row merge) :
    x = (key, row) ∨ x ∈ rows ∨ ∃ old, (key, old) ∈ rows ∧ x = (key, merge old) := by
  unfold upsertRow at h
  split at h
  · rcases mem_setKey.mp h with rfl | h
    · exact Or.inl rfl
    · exact Or.inr (Or.inl h.1)
  · next old hold =>
    rcases mem_setKey.mp h with rfl | h
    · exact Or.inr (Or.inr ⟨old, mem_of_getKey hold, rfl⟩)
    · exact Or.inr (Or.inl h.1)

theorem keeps_grown_same {statement : PostgresStatement} {f : PostgresStore → PostgresStore}
    (h : ∀ s, (f s).repositoryVersions = s.repositoryVersions) :
    Keeps (Grown base n k) (execPostgres fault statement f) :=
  keeps_grown_execPostgres fun s x hx => Or.inl ⟨x, h s ▸ hx, rfl, rfl⟩

theorem keeps_grown_recordPublication {changeKind changeRef generatedAt : String}
    {manifest : PublicationManifest} {current : DistributionPointer} :
    Keeps (Grown base n k)
      (recordPublication env cfg fault k changeKind changeRef generatedAt manifest current) := by
  refine keeps_bind (keeps_grown_modifyMemory fun m x hx => ?_) fun _ =>
    keeps_bind (keeps_grown_same fun _ => rfl) fun _ =>
    keeps_bind (keeps_grown_execPostgres fun s x hx => ?_) fun _ =>
    keeps_bind (keeps_grown_same fun _ => rfl) fun _ =>
    keeps_bind (keeps_grown_same fun _ => rfl) fun _ => keeps_grown_same fun _ => rfl
  · rcases mem_setKey.mp hx with rfl | hx
    · exact Or.inr le_rfl
    · exact Or.inl hx.1
  · rcases mem_upsertRow hx with rfl | hx | ⟨old, hold, rfl⟩
    · exact Or.inr le_rfl
    · exact Or.inl ⟨x, hx, rfl, rfl⟩
    · exact Or.inl ⟨_, hold, rfl, rfl⟩

theorem keeps_grown_createRegistryPublication {changeKind changeRef generatedAt : String} :
    Keeps (Grown base n 0)
      (createRegistryPublication env cfg fault changeKind changeRef generatedAt) := by
  rw [keeps_iff]
  rintro w ⟨m, hnm, -, hm, hget⟩
  have hw : Grown base n 0 w := ⟨m, hnm, Nat.zero_le m, hm, hget⟩
  have hweaken : ∀ {k w'}, Grown base n k w' → Grown base n 0 w' := by
    rintro k w' ⟨j, hnj, -, hj, hget⟩
    exact ⟨j, hnj, Nat.zero_le j, hj, hget⟩
  rw [createRegistryPublication, wp_bind]
  refine wp_mono (wp_nextPublicationSequence hm) ?_ (fun _ w' h => h.1 ▸ hw)
  rintro k w' ⟨rfl, hpos, hle, hlt, -⟩
  rw [wp_bind]
  refine wp_mono wp_buildPublication ?_ fun _ w'' h => ?_
  · intro manifest w'' hp
    obtain ⟨rfl, hnumbered⟩ := hm.publish hpos hle hlt hp
    have hgrown : Grown base n (m + 1) w'' := by
      refine ⟨m + 1, by omega, le_rfl, hnumbered, fun i hi hin q => ?_⟩
      rw [← hget i hi hin q]
      refine hp.changes.get ?_
      rintro (⟨r, hr⟩ | ⟨r, hr⟩)
      · simp [publicationPath] at hr
      · simp only [publicationPath, List.cons_append, List.nil_append, List.cons.injEq] at hr
        have := publicationIdFor_injective hr.2.1
        omega
    refine wp_mono (Keeps.wp ?_ hgrown) (fun _ _ => hweaken) (fun _ _ => hweaken)
    have hactivate : StableUnder ActivateScope (Grown base n (m + 1)) :=
      stable_grown fun p hp => by rcases hp with rfl | rfl <;> simp [Numbered.InPublications,
        configPath, distributionPointerPath]
    exact keeps_bind (changes_activatePublication.keeps_of_stable hactivate) fun _ =>
      keeps_bind keeps_grown_recordPublication fun _ => keeps_pure
  · refine stable_grown (fun p hp => ?_) _ _ h.1 hw
    obtain ⟨r, rfl⟩ := hp
    simp [Numbered.InPublications]

theorem keeps_grown_of_changes {α : Type} {S : Path → Prop} {x : Program α} (h : Changes S x)
    (hS : ∀ p, S p → p.head? ≠ some "_publications") : Keeps (Grown base n k) x :=
  h.keeps_of_stable (stable_grown hS)

theorem head_of_tmp {p : Path} (h : ["_tmp"] <+: p) : p.head? = some "_tmp" := by
  obtain ⟨r, rfl⟩ := h
  rfl

theorem head_of_initScope {p : Path} (h : InitScope p) : p.head? ≠ some "_publications" := by
  rcases h with h | h
  · revert p
    decide
  · simp [head_of_tmp h]

theorem head_of_refreshScope {p : Path} (h : RefreshScope p) :
    p.head? ≠ some "_publications" := by
  rcases h with (rfl | rfl | rfl | ⟨_, rfl⟩) | h
  · decide
  · decide
  · decide
  · simp [targetsPath]
  · simp [head_of_tmp h]

theorem head_of_appendScope {r : ReleaseRecord} {p : Path} (h : AppendScope r p)
    (hr : ∃ sha, r.sourceArtifact.path = artifactPath sha) :
    p.head? ≠ some "_publications" := by
  obtain ⟨sha, hsha⟩ := hr
  rcases h with rfl | rfl | ⟨m, rfl⟩
  · simp [hsha, artifactPath]
  · simp [registryIndexPathForPackage]
  · simp [leafPath]

theorem head_of_distributionPointerPath {id : String} :
    (distributionPointerPath id).head? ≠ some "_publications" := by
  unfold distributionPointerPath
  split
  · simp
  · split <;> simp

theorem keeps_grown_refresh {registryTime : String} :
    Keeps (Grown base n k) (refreshSignedRegistryMetadata env cfg host fault registryTime) :=
  keeps_grown_of_changes changes_refreshSignedRegistryMetadata fun _ => head_of_refreshScope

theorem keeps_grown_recordRelease {actor : String} {draft : PublishDraft} {r : ReleaseRecord}
    {payload : PublishPayload} :
    Keeps (Grown base n k) (recordRelease fault actor draft r payload) :=
  keeps_bind (keeps_grown_modifyMemory fun _ _ => Or.inl) fun _ =>
    keeps_bind (keeps_grown_same fun _ => rfl) fun _ =>
    keeps_bind (keeps_grown_same fun _ => rfl) fun _ =>
    keeps_bind (keeps_grown_same fun _ => rfl) fun _ =>
    keeps_grown_modifyMemory fun _ _ => Or.inl

theorem keeps_grown_publishDraft {actor : String} {draft : PublishDraft}
    (hlocal : cfg.usesS3ObjectStore = false) :
    Keeps (Grown base n 0) (publishDraft env cfg host fault actor draft) := by
  refine keeps_publishDraft (keeps_grown_of_changes changes_ensure fun _ => head_of_initScope)
    (fun archive => ?_) keeps_grown_refresh keeps_grown_createRegistryPublication
    (fun hs => ?_) (fun _ _ => keeps_grown_recordRelease)
  · exact keeps_grown_of_changes changes_appendRegistryReleaseToLocal
      fun _ h => head_of_appendScope h ⟨_, rfl⟩
  · rw [hlocal] at hs
    cases hs

theorem keeps_grown_tryYank {package version : String} {yanked : Bool} {reason : String}
    (hlocal : cfg.usesS3ObjectStore = false) :
    Keeps (Grown base n 0) (tryYank env cfg host fault package version yanked reason) := by
  refine keeps_tryYank (fun records => ?_) keeps_grown_refresh
    (fun _ => keeps_grown_createRegistryPublication) (keeps_grown_same fun s => ?_)
    (keeps_grown_modifyMemory fun m x hx => Or.inl ?_) (fun hs => ?_)
  · refine keeps_grown_of_changes (S := fun p => p = registryIndexPathForPackage package)
      (changes_writeTextFile rfl) ?_
    rintro p rfl
    simp [registryIndexPathForPackage]
  · unfold PostgresStore.setRegistryPackageReleaseYanked
    split <;> rfl
  · unfold MemoryStateStore.setRegistryPackageReleaseYanked at hx
    dsimp only at hx
    split at hx <;> exact hx
  · rw [hlocal] at hs
    cases hs

theorem keeps_grown_installPublication {distributionId publicationId : String}
    {publication : Document} {previous : Option String} {updatedAt : String} :
    Keeps (Grown base n k) (installPublication cfg fault distributionId publicationId publication
      previous updatedAt) := by
  refine keeps_bind (keeps_onlyIf fun _ => ?_) fun _ => ?_
  · refine keeps_grown_of_changes changes_materializePublicationToRoot fun p hp hhead => ?_
    cases p with
    | nil => cases hhead
    | cons name rest =>
      obtain rfl : name = "_publications" := by simpa using hhead
      simp [inReadPlane, readPlaneEntries] at hp
  · unfold pointDistribution
    cases publication.repositoryVersionId with
    | none => exact keeps_fail
    | some id =>
      refine keeps_bind keeps_failAt fun _ => keeps_bind ?_ fun _ =>
        keeps_bind (keeps_grown_same fun _ => rfl) fun _ =>
        keeps_bind (keeps_grown_modifyMemory fun _ _ => Or.inl) fun _ => keeps_pure
      refine keeps_grown_of_changes (S := fun p => p = distributionPointerPath distributionId)
        (changes_writeTextFile rfl) ?_
      rintro p rfl
      exact head_of_distributionPointerPath

theorem keeps_grown_handleRequest {r : Request} (hlocal : cfg.usesS3ObjectStore = false) :
    Keeps (Grown base n 0) (handleRequest env cfg host fault r) := by
  cases r with
  | publishRelease request =>
    refine keeps_handlePublishRelease (fun fields => ?_) fun actor draft => keeps_tryPublish ?_
      (keeps_grown_publishDraft hlocal)
    · refine keeps_grown_of_changes changes_buildPublishDraft fun p hp => ?_
      rw [show p.head? = _ from hp]
      simp
    · rw [refreshFromObjectStore, hlocal]
      exact keeps_pure
  | setYanked namespaceName name version yanked request =>
    exact keeps_handleSetPackageReleaseYanked fun _ => keeps_grown_tryYank hlocal
  | promoteDistribution distributionId request =>
    exact keeps_handlePromoteDistribution fun _ _ _ => keeps_grown_installPublication
  | rollbackDistribution distributionId request =>
    exact keeps_handleRollbackDistribution fun _ _ _ => keeps_grown_installPublication

theorem keeps_grown_restart (h : Grown base n 0 w) : Grown base n 0 w.restart :=
  grown_stores h (fun x hx => by cases hx) fun t ht x hx => Or.inl ⟨t, ht, x, hx, rfl, rfl⟩

/-- Every run extends the publications of the state it starts from. -/
theorem grown_run (hlocal : cfg.usesS3ObjectStore = false) (h : Numbered w n)
    (hrun : Relation.ReflTransGen (Step env cfg) w w') : Grown w n 0 w' := by
  induction hrun with
  | refl => exact .refl h
  | tail _ hstep ih =>
    cases hstep with
    | request host fault r => exact keeps_grown_handleRequest hlocal _ ih
    | restart => exact keeps_grown_restart ih

end grown

/-- Publications never change, none is replaced, and a new one has a greater number than every
earlier one, whatever fails and whenever the process restarts. -/
theorem publications_immutable_and_fresh {w₀ : World} (hlocal : cfg.usesS3ObjectStore = false)
    (hinit : Initial w₀) (hreach : Relation.ReflTransGen (Step env cfg) w₀ w)
    (hrun : Relation.ReflTransGen (Step env cfg) w w') :
    (∀ id, w.root.isDirectory (publicationPath id) = true →
      w'.root.isDirectory (publicationPath id) = true ∧
      w'.root.subtree (publicationPath id) = w.root.subtree (publicationPath id)) ∧
    ∀ id id', w'.root.isDirectory (publicationPath id) = true →
      w.root.isDirectory (publicationPath id) = false →
      w.root.isDirectory (publicationPath id') = true →
      ∃ new old, publicationNumber id = some new ∧ publicationNumber id' = some old ∧
        old < new := by
  obtain ⟨n, -, -, hn, -⟩ := grown_run hlocal (.of_initial hinit) hreach
  obtain ⟨m, hnm, -, hm, hget⟩ := grown_run hlocal hn hrun
  constructor
  · intro id hid
    obtain ⟨i, hi, hin, rfl⟩ := (hn.directory id).mp hid
    refine ⟨(hm.directory _).mpr ⟨i, hi, hin.trans hnm, rfl⟩, ?_⟩
    ext q
    rw [get_subtree, get_subtree, hget i hi hin q]
  · intro id id' hid hnew hid'
    obtain ⟨i, hi, him, rfl⟩ := (hm.directory id).mp hid
    obtain ⟨j, hj, hjn, rfl⟩ := (hn.directory id').mp hid'
    have hni : n < i := by
      by_contra hle
      have hold := (hn.directory _).mpr ⟨i, hi, not_lt.mp hle, rfl⟩
      rw [hnew] at hold
      cases hold
    exact ⟨i, j, publicationNumber_publicationIdFor (lt_of_le_of_lt him hm.bound),
      publicationNumber_publicationIdFor (lt_of_le_of_lt hjn hn.bound), lt_of_le_of_lt hjn hni⟩

/-- A publish, a publish that breaks off while it signs, a restart, and a last publish: the first
publication is kept and the new one has the number 2. -/
theorem publications_after_broken_publish :
    let first := sampleAfter [publishOf "a/b" "1" "one"]
    let broken := (handleRequest sampleEnvironment sampleConfig sampleHost (some .signSnapshot)
      (publishOf "a/b" "2" "two") first).2
    let last := (handleRequest sampleEnvironment sampleConfig sampleHost none
      (publishOf "a/c" "1" "three") broken.restart).2
    last.root.subtree (publicationPath (publicationIdFor 1)) =
        first.root.subtree (publicationPath (publicationIdFor 1)) ∧
      ∃ new old, publicationNumber (publicationIdFor 2) = some new ∧
        publicationNumber (publicationIdFor 1) = some old ∧ old < new := by
  intro first broken last
  have hreach : Relation.ReflTransGen (Step sampleEnvironment sampleConfig) sampleStart first :=
    .single (.request sampleHost none _)
  have hrun : Relation.ReflTransGen (Step sampleEnvironment sampleConfig) first last :=
    .head (.request sampleHost _ _) (.head .restart (.single (.request sampleHost none _)))
  obtain ⟨hkept, hfresh⟩ :=
    publications_immutable_and_fresh rfl sampleStart_initial hreach hrun
  exact ⟨(hkept (publicationIdFor 1) (by decide +kernel)).2,
    hfresh (publicationIdFor 2) (publicationIdFor 1) (by decide +kernel) (by decide +kernel)
      (by decide +kernel)⟩

end StyioPlatform.Registry
