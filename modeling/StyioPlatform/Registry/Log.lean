import StyioPlatform.Lib.Fallible
import StyioPlatform.Registry.Snapshots

/-! The transparency log: leaves numbered from 1, a checkpoint over them, and when the log only
grows. -/
namespace StyioPlatform.Registry

open FileTree Prog

variable {env : Environment} {cfg : PlatformConfig} {host : Host} {w w' : World} {t t' : Tree}
  {n : ℕ} {leaves : List LogLeaf}

/-- The leaf files of the tree are those of the list, numbered from 1. -/
structure LeavesAre (t : Tree) (leaves : List LogLeaf) : Prop where
  get : ∀ i leaf, leaves[i]? = some leaf → t.get (leafPath (i + 1)) = some (.json (.leaf leaf))
  only : ∀ p f, isLeafPath p = true → t.get p = some f → ∃ i < leaves.length, p = leafPath (i + 1)
  bound : leaves.length < 10 ^ 12

theorem leafPath_lt {i j : ℕ} (hij : i < j) (hj : j < 10 ^ 12) : leafPath i < leafPath j := by
  have hdigits := paddedDigits_lt (by decide) hj hij
  have hlen : (paddedDigits 12 i).length = (paddedDigits 12 j).length := by
    rw [length_paddedDigits (by decide) hj, length_paddedDigits (by decide) (hij.trans hj)]
  have hname : paddedNumber i 12 ++ ".json" < paddedNumber j 12 ++ ".json" := by
    simp only [String.lt_iff, String.toList_append, paddedNumber, String.toList_ofList]
    exact append_lt_append hlen hdigits _ _
  simpa [leafPath, List.cons_lt_cons_iff] using hname

theorem leafPath_injective : Function.Injective leafPath := by
  intro i j h
  have hname : paddedNumber i 12 ++ ".json" = paddedNumber j 12 ++ ".json" := by
    simpa [leafPath] using h
  have hlist := congrArg String.toList hname
  rw [String.toList_append, String.toList_append, List.append_cancel_right_eq, paddedNumber,
    paddedNumber, String.toList_ofList, String.toList_ofList] at hlist
  exact paddedDigits_injective 12 hlist

theorem isLeafPath_leafPath (i : ℕ) : isLeafPath (leafPath i) = true := by
  have hne : paddedNumber i 12 ++ ".json" ≠ ".json" := by
    intro h
    have hlist := congrArg String.toList h
    rw [String.toList_append, List.append_left_eq_self, paddedNumber, String.toList_ofList] at hlist
    exact paddedDigits_ne_nil 12 i hlist
  simp [leafPath, isLeafPath, hasExtension, hne]

theorem inReadPlane_of_isLeafPath {p : Path} (h : isLeafPath p = true) : inReadPlane p = true := by
  unfold isLeafPath at h
  split at h
  · rfl
  · cases h

namespace LeavesAre

theorem empty : LeavesAre .empty [] := ⟨by simp, nofun, by decide⟩

theorem congr (h : LeavesAre t leaves) (hget : ∀ p, isLeafPath p = true → t'.get p = t.get p) :
    LeavesAre t' leaves :=
  ⟨fun i leaf hi => (hget _ (isLeafPath_leafPath _)).trans (h.get i leaf hi),
    fun p f hp hf => h.only p f hp (hget p hp ▸ hf), h.bound⟩

theorem readPlane (h : LeavesAre t leaves) : LeavesAre (readPlane t) leaves :=
  h.congr fun _ hp => get_readPlane_of (inReadPlane_of_isLeafPath hp)

theorem of_readPlane (h : LeavesAre (Registry.readPlane t) leaves) : LeavesAre t leaves :=
  h.congr fun _ hp => (get_readPlane_of (inReadPlane_of_isLeafPath hp)).symm

theorem sequencePaths (h : LeavesAre t leaves) :
    leafSequencePaths t = (List.range leaves.length).map fun i => leafPath (i + 1) := by
  refine sorted_eq_of_pairwise ?_ fun p => ?_
  · rw [List.pairwise_map]
    refine List.pairwise_lt_range.imp_of_mem fun {i j} _ hj hij => ?_
    have := h.bound
    have := List.mem_range.mp hj
    exact leafPath_lt (by omega) (by omega)
  · simp only [Finset.mem_filter, mem_support_iff, List.mem_map, List.mem_range]
    constructor
    · rintro ⟨⟨f, hf⟩, hp⟩
      obtain ⟨i, hi, rfl⟩ := h.only p f hp hf
      exact ⟨i, hi, rfl⟩
    · rintro ⟨i, hi, rfl⟩
      exact ⟨⟨_, h.get i _ (List.getElem?_eq_getElem hi)⟩, isLeafPath_leafPath _⟩

theorem length_sequencePaths (h : LeavesAre t leaves) :
    (leafSequencePaths t).length = leaves.length := by
  rw [h.sequencePaths, List.length_map, List.length_range]

/-- One more leaf under the next number. -/
theorem append {leaf : LogLeaf} (h : LeavesAre t leaves) (hbound : leaves.length + 1 < 10 ^ 12)
    (hleaf : t'.get (leafPath (leaves.length + 1)) = some (.json (.leaf leaf)))
    (hget : ∀ p, isLeafPath p = true → p ≠ leafPath (leaves.length + 1) → t'.get p = t.get p) :
    LeavesAre t' (leaves ++ [leaf]) := by
  refine ⟨fun i l hi => ?_, fun p f hp hf => ?_, by simpa using hbound⟩
  · by_cases hlt : i < leaves.length
    · rw [List.getElem?_append_left hlt] at hi
      rw [hget _ (isLeafPath_leafPath _) fun heq => ?_, h.get i l hi]
      have := leafPath_injective heq
      omega
    · obtain rfl : i = leaves.length := by
        have := (List.getElem?_eq_some_iff.mp hi).1
        simp only [List.length_append, List.length_singleton] at this
        omega
      obtain rfl : leaf = l := by simpa using hi
      exact hleaf
  · by_cases hnew : p = leafPath (leaves.length + 1)
    · exact ⟨leaves.length, by simp, hnew⟩
    · obtain ⟨i, hi, rfl⟩ := h.only p f hp (hget p hp hnew ▸ hf)
      exact ⟨i, by simp; omega, rfl⟩

end LeavesAre

theorem LeavesAre.leafHashes (h : LeavesAre t leaves) :
    leafHashes env t = .ok (leaves.map (leafSha256 env)) := by
  have hget : ∀ i (hi : i < leaves.length),
      t.get (leafPath (i + 1)) = some (.json (.leaf leaves[i])) := fun i hi =>
    h.get i _ (List.getElem?_eq_getElem hi)
  rw [Registry.leafHashes, h.sequencePaths, List.mapM_map]
  have hleaf : leaves.map (leafSha256 env) = (List.range leaves.length).map fun i =>
      ((leaves[i]?).map (leafSha256 env)).getD "" := by
    refine List.ext_getElem (by simp) fun i h₁ h₂ => ?_
    simp at h₁
    simp [h₁]
  rw [hleaf]
  refine mapM_eq_pure fun i hi => ?_
  have hi := List.mem_range.mp hi
  simp [hget i hi, File.parse, hi, leafSha256, pure, Except.pure]

/-- The files of the log, in their order. -/
def leafFiles (t : Tree) : List (Path × Option File) :=
  (leafSequencePaths t).map fun p => (p, t.get p)

theorem leafFiles_congr (h : ∀ p, isLeafPath p = true → t'.get p = t.get p) :
    leafFiles t' = leafFiles t := by
  rw [leafFiles, leafFiles, leafSequencePaths_congr h]
  refine List.map_congr_left fun p hp => ?_
  simp only [leafSequencePaths, mem_sorted, Finset.mem_filter] at hp
  rw [h p hp.2]

theorem LeavesAre.leafFiles (h : LeavesAre t leaves) :
    leafFiles t = leaves.mapIdx fun i l => (leafPath (i + 1), some (.json (.leaf l))) := by
  rw [Registry.leafFiles, h.sequencePaths, List.map_map]
  refine List.ext_getElem (by simp) fun i h₁ h₂ => ?_
  have hi : i < leaves.length := by simpa using h₂
  simp [h.get i _ (List.getElem?_eq_getElem hi)]

theorem LeavesAre.leafFiles_initial {leaves' : List LogLeaf} (h : LeavesAre t leaves)
    (h' : LeavesAre t' leaves') (hle : leaves <+: leaves') :
    Registry.leafFiles t <+: Registry.leafFiles t' := by
  obtain ⟨more, rfl⟩ := hle
  rw [h.leafFiles, h'.leafFiles, List.mapIdx_append]
  exact List.prefix_append _ _

theorem leafFiles_readPlane : leafFiles (readPlane t) = leafFiles t :=
  leafFiles_congr fun _ hp => get_readPlane_of (inReadPlane_of_isLeafPath hp)

/-- The checkpoint is signed over the leaves. -/
def CheckpointOver (env : Environment) (cfg : PlatformConfig) (t : Tree)
    (leaves : List LogLeaf) : Prop :=
  ∃ version generatedAt rootHash,
    t.get checkpointPath = some (signedFile env cfg .log
      { version, body := .checkpoint generatedAt leaves.length rootHash }) ∧
    transparencyRootHash env (leaves.map (leafSha256 env)) = some rootHash

/-- The log of a read plane, with a checkpoint over its at most `n` leaves. -/
def Logged (env : Environment) (cfg : PlatformConfig) (n : ℕ) (a : Tree) : Prop :=
  ∃ leaves, leaves.length ≤ n ∧ LeavesAre a leaves ∧ CheckpointOver env cfg a leaves

theorem not_isLeafPath_of_initPaths {p : Path} (h : p ∈ initPaths) : isLeafPath p = false := by
  revert p
  decide

theorem isLeafPath_head {p : Path} (h : isLeafPath p = true) : p.head? = some "log" := by
  unfold isLeafPath at h
  split at h
  · rfl
  · cases h

theorem Ensured.get_leaf {p : Path} (h : Ensured env cfg host w w') (hp : isLeafPath p = true) :
    w'.root.get p = w.root.get p := by
  refine h.changes.get ?_
  rintro (hinit | htmp)
  · rw [not_isLeafPath_of_initPaths hinit] at hp
    cases hp
  · have := (head_of_tmp htmp).symm.trans (isLeafPath_head hp)
    simp at this

theorem Drafted.get_leaf {p : Path} {draft : PublishDraft} (h : Drafted env host w draft w')
    (hp : isLeafPath p = true) : w'.root.get p = w.root.get p := by
  refine h.changes.get fun hs => ?_
  have := (show p.head? = _ from hs).symm.trans (isLeafPath_head hp)
  simp at this

theorem Refreshed.get_leaf {p : Path} {registryTime : String} {maps : PackageMaps}
    {hashes : List String} {rootHash : String} {snapshotMeta : List (Path × FileMeta)}
    (h : Refreshed env cfg host registryTime maps hashes rootHash snapshotMeta w w')
    (hp : isLeafPath p = true) : w'.root.get p = w.root.get p := by
  refine h.changes.get ?_
  rintro (rfl | rfl | rfl | ⟨x, -, rfl⟩ | htmp)
  · cases hp
  · cases hp
  · cases hp
  · cases hp
  · have := (head_of_tmp htmp).symm.trans (isLeafPath_head hp)
    simp at this

/-- On the read plane a new publication changes only the configuration. -/
theorem Created.get_plane {p : Path} {generatedAt : String}
    (h : Created env cfg (n + 1) generatedAt w w') (hp : inReadPlane p = true)
    (hconfig : p ≠ configPath) : w'.root.get p = w.root.get p := by
  refine h.changes p ?_
  rintro (⟨q, rfl⟩ | ⟨q, rfl⟩ | rfl | rfl)
  · simp [inReadPlane, readPlaneEntries] at hp
  · simp [publicationPath, inReadPlane, readPlaneEntries] at hp
  · exact hconfig rfl
  · exact absurd hp (by decide)

/-- A release adds its leaf. -/
theorem Appended.leavesAre {archive : File} {draft : PublishDraft}
    (h : Appended env archive (buildReleaseRecord env draft host.now archive) w w')
    (hl : LeavesAre w.root leaves) (hbound : leaves.length + 1 < 10 ^ 12) :
    LeavesAre w'.root (leaves ++ [releaseLeaf env (leaves.length + 1)
      (buildReleaseRecord env draft host.now archive)]) := by
  have hleaf := h.leaf
  have hchanges := h.changes
  rw [hl.length_sequencePaths] at hleaf hchanges
  refine hl.append hbound hleaf fun p hp hne => hchanges.get ?_
  rintro (rfl | rfl | rfl)
  · rw [show (buildReleaseRecord env draft host.now archive).sourceArtifact.path = artifactPath _
      from rfl, isLeafPath_artifactPath] at hp
    cases hp
  · rw [isLeafPath_registryIndexPath] at hp
    cases hp
  · exact hne rfl

/-- A publish adds one leaf, a yank none. -/
theorem Edited.leavesAre (h : Edited env cfg host w w') (hl : LeavesAre w.root leaves)
    (hbound : leaves.length + 1 < 10 ^ 12) :
    ∃ leaves', leaves <+: leaves' ∧ leaves'.length ≤ leaves.length + 1 ∧
      LeavesAre w'.root leaves' := by
  cases h with
  | publish drafted free ensured archive_eq appended =>
    have hl₁ := (hl.congr fun p hp => drafted.get_leaf hp).congr fun p hp => ensured.get_leaf hp
    exact ⟨_, List.prefix_append _ _, by simp, appended.leavesAre hl₁ hbound⟩
  | yank validName read found =>
    refine ⟨leaves, List.prefix_rfl, by omega, hl.congr fun p hp => get_put_of_ne ?_⟩
    rintro rfl
    rw [isLeafPath_registryIndexPath] at hp
    cases hp

/-- Refresh and publication keep the leaves and put a checkpoint over them. -/
theorem Committed.logged (h : Committed env cfg host n w w') (hl : LeavesAre w.root leaves) :
    LeavesAre w'.root leaves ∧ CheckpointOver env cfg w'.root leaves := by
  obtain ⟨⟨maps, hashes, rootHash, snapshotMeta, w₁, hr, hc⟩, -⟩ := h
  have hconfig : ∀ p, isLeafPath p = true → p ≠ configPath := by
    rintro p hp rfl
    cases hp
  have hl₁ : LeavesAre w₁.root leaves := hl.congr fun p hp => hr.get_leaf hp
  refine ⟨hl₁.congr fun p hp => hc.get_plane (inReadPlane_of_isLeafPath hp) (hconfig p hp), ?_⟩
  obtain rfl : leaves.map (leafSha256 env) = hashes :=
    Except.ok.inj (hl.leafHashes.symm.trans hr.hashes_eq)
  refine ⟨readSignedVersion w.root checkpointPath + 1, host.now, rootHash, ?_, hr.rootHash_eq⟩
  rw [hc.get_plane rfl (by decide), hr.checkpoint, checkpointFile, List.length_map]

theorem CheckpointOver.congr (h : CheckpointOver env cfg t leaves)
    (hget : t'.get checkpointPath = t.get checkpointPath) : CheckpointOver env cfg t' leaves := by
  obtain ⟨version, generatedAt, rootHash, hfile, hroot⟩ := h
  exact ⟨version, generatedAt, rootHash, hget.trans hfile, hroot⟩

/-- An edit keeps the log sound and only extends it. -/
theorem Logged.edit {a b : Tree} (h : a = .empty ∨ Logged env cfg n a)
    (he : PlaneEdit env cfg n a b) : Logged env cfg (n + 1) b ∧ leafFiles a <+: leafFiles b := by
  obtain ⟨leaves, hle, hl⟩ : ∃ leaves, leaves.length ≤ n ∧ LeavesAre a leaves := by
    rcases h with rfl | ⟨leaves, hle, hl, -⟩
    · exact ⟨[], Nat.zero_le n, .empty⟩
    · exact ⟨leaves, hle, hl⟩
  obtain ⟨w, w', rfl, rfl, host, w₂, hedited, hcommitted⟩ := he
  have := hcommitted.bound
  obtain ⟨leaves', hprefix, hlen, hl'⟩ := hedited.leavesAre hl.of_readPlane (by omega)
  obtain ⟨hl'', hcheckpoint⟩ := hcommitted.logged hl'
  refine ⟨⟨leaves', by omega, hl''.readPlane, hcheckpoint.congr ?_⟩, ?_⟩
  · exact get_readPlane_of rfl
  · exact hl.leafFiles_initial hl''.readPlane hprefix

theorem Logged.mono {a : Tree} {m : ℕ} (h : Logged env cfg n a) (hnm : n ≤ m) :
    Logged env cfg m a := by
  obtain ⟨leaves, hle, hl⟩ := h
  exact ⟨leaves, hle.trans hnm, hl⟩

theorem hexValue_digitChar {k : ℕ} (h : k < 16) : hexValue k.digitChar = some k := by
  revert k
  decide

theorem leafBytes_hexBytes (bytes : Bytes) : leafBytes (hexBytes bytes).toList = some bytes := by
  rw [hexBytes, String.toList_ofList]
  induction bytes with
  | nil => rfl
  | cons b bytes ih =>
    have hb := b.toNat_lt
    have hbyte : stoiHex (b.toNat / 16).digitChar (b.toNat % 16).digitChar = some b := by
      rw [stoiHex, hexValue_digitChar (by omega), hexValue_digitChar (by omega)]
      change some (UInt8.ofNat (16 * (b.toNat / 16) + b.toNat % 16)) = some b
      rw [Nat.div_add_mod, UInt8.ofNat_toNat]
    rw [List.flatMap_cons, hexByte, List.cons_append, List.cons_append, List.nil_append, leafBytes,
      hbyte, ih]
    rfl

/-- `TransparencyRootHash` continued from a root hash. -/
def resumeRootHash (env : Environment) (rootHash : String) (leafHashes : List String) :
    Option String :=
  (leafBytes rootHash.toList).bind fun state =>
    (leafHashes.foldlM (transparencyStep env) state).map hexBytes

theorem resumeRootHash_append {l m : List String} {rootHash rootHash' : String}
    (h : transparencyRootHash env l = some rootHash)
    (h' : transparencyRootHash env (l ++ m) = some rootHash') :
    resumeRootHash env rootHash m = some rootHash' := by
  obtain ⟨state, hstate, rfl⟩ := Option.map_eq_some_iff.mp h
  rw [transparencyRootHash, List.foldlM_append, hstate] at h'
  rw [resumeRootHash, leafBytes_hexBytes]
  exact h'

/-- The root hash that the checkpoint names. -/
def checkpointRootHash (t : Tree) : Option String :=
  match t.get checkpointPath with
  | some (.json (.envelope { signed := { body := .checkpoint _ _ rootHash, .. }, .. })) =>
    some rootHash
  | _ => none

/-- A publication that the request puts on the read plane has at least as many leaves as the
served log. -/
def KeepsLog (cfg : PlatformConfig) (w : World) (request : Request) : Prop :=
  ∀ id source, installedId w request = some id → publicationRoot cfg w.root id = some source →
    (leafSequencePaths w.root).length ≤ (leafSequencePaths (w.root.subtree source)).length

/-- A request that was answered with 200 and does not shorten the log. -/
def LogStep (env : Environment) (cfg : PlatformConfig) (w w' : World) : Prop :=
  ∃ host request, Succeeds env cfg host request w w' ∧ KeepsLog cfg w request

/-- Every published log is a prefix of the served one. -/
structure LogInvariant (env : Environment) (cfg : PlatformConfig) (n : ℕ) (w : World)
    (s : SnapshotStore ℕ Tree) : Prop where
  represents : Represents cfg n w s
  logged : ∀ i a, s.stored i = some a → Logged env cfg n a
  behind : ∀ i a, s.stored i = some a → leafFiles a <+: leafFiles s.served

theorem length_leafFiles : (leafFiles t).length = (leafSequencePaths t).length := List.length_map _

theorem LogInvariant.step {s : SnapshotStore ℕ Tree} (hlocal : cfg.usesS3ObjectStore = false)
    (h : LogInvariant env cfg n w s) (hs : LogStep env cfg w w') :
    leafFiles w.root <+: leafFiles w'.root ∧ ∃ n' s', LogInvariant env cfg n' w' s' ∧ 1 ≤ n' := by
  obtain ⟨host, request, hs, hkeeps⟩ := hs
  obtain ⟨n', s', hrep, hmoves⟩ := h.represents.succeeds hlocal hs
  have hserved := h.represents.served_cases h.logged
  have hup : leafFiles s.served <+: leafFiles s'.served := by
    cases hmoves with
    | commit _ hc step =>
      rw [hrep.served]
      exact (Logged.edit hserved ⟨w, w', h.represents.served, rfl, hc⟩).2
    | @install id k hid resolves stored =>
      -- The publication is behind the served log and not shorter, so it has the same log.
      have hlen := hkeeps id _ hid resolves.publicationRoot_eq
      rw [← length_leafFiles, ← length_leafFiles, ← leafFiles_readPlane (t := w.root),
        ← leafFiles_readPlane (t := w.root.subtree _), ← h.represents.served] at hlen
      exact ((h.behind k _ stored).eq_of_length_le hlen) ▸ List.prefix_rfl
    | idle _ => exact List.prefix_rfl
  have hbehind := hmoves.step.stored_le (R := fun a b => leafFiles a <+: leafFiles b)
    (fun _ => List.prefix_rfl) (fun _ _ _ => List.IsPrefix.trans) hup h.behind
  have hlogged := hmoves.planes h.represents (fun _ ha => ha.mono (Nat.le_succ n))
    (fun a b ha hb => (Logged.edit ha hb).1) h.logged
  rw [h.represents.served, hrep.served, leafFiles_readPlane, leafFiles_readPlane] at hup
  exact ⟨hup, n', s', ⟨hrep, hlogged, hbehind⟩, hmoves.pos h.represents⟩

theorem LogInvariant.logged_root {s : SnapshotStore ℕ Tree} (h : LogInvariant env cfg n w s)
    (hn : 1 ≤ n) : ∃ leaves, LeavesAre w.root leaves ∧ CheckpointOver env cfg w.root leaves := by
  obtain ⟨k, hk⟩ := h.represents.stored_served hn
  obtain ⟨leaves, -, hl, hcheckpoint⟩ := h.logged k _ hk
  rw [h.represents.served] at hl hcheckpoint
  exact ⟨leaves, hl.of_readPlane, hcheckpoint.congr (get_readPlane_of rfl).symm⟩

theorem LogInvariant.of_initial (h : Initial w) : ∃ s, LogInvariant env cfg 0 w s := by
  have hnone : ∀ i a, storedPlanes w.root 0 i ≠ some a := by
    intro i a hi
    rw [storedPlanes, if_neg (by omega)] at hi
    cases hi
  exact ⟨_, .of_initial h, fun i a hi => (hnone i a hi).elim, fun i a hi => (hnone i a hi).elim⟩

theorem LogInvariant.run {s : SnapshotStore ℕ Tree} (hlocal : cfg.usesS3ObjectStore = false)
    (h : LogInvariant env cfg n w s) (hrun : Relation.ReflTransGen (LogStep env cfg) w w') :
    leafFiles w.root <+: leafFiles w'.root ∧
      ∃ n' s', LogInvariant env cfg n' w' s' ∧ (w = w' ∨ 1 ≤ n') := by
  induction hrun with
  | refl => exact ⟨List.prefix_rfl, n, s, h, Or.inl rfl⟩
  | tail _ hstep ih =>
    obtain ⟨hle, n', s', h', -⟩ := ih
    obtain ⟨hle', n'', s'', h'', hpos⟩ := h'.step hlocal hstep
    exact ⟨hle.trans hle', n'', s'', h'', Or.inr hpos⟩

theorem CheckpointOver.rootHash (h : CheckpointOver env cfg t leaves) :
    ∃ rootHash, checkpointRootHash t = some rootHash ∧
      transparencyRootHash env (leaves.map (leafSha256 env)) = some rootHash := by
  obtain ⟨version, generatedAt, rootHash, hfile, hroot⟩ := h
  exact ⟨rootHash, by rw [checkpointRootHash, hfile]; rfl, hroot⟩

theorem leaves_prefix_of_leafFiles {leaves' : List LogLeaf} (h : LeavesAre t leaves)
    (h' : LeavesAre t' leaves') (hle : leafFiles t <+: leafFiles t') : leaves <+: leaves' := by
  rw [h.leafFiles, h'.leafFiles] at hle
  refine List.prefix_iff_getElem?.mpr fun i hi => ?_
  have hget := List.prefix_iff_getElem?.mp hle i (by simpa using hi)
  rw [List.getElem?_mapIdx] at hget
  obtain ⟨l, hl, heq⟩ := Option.map_eq_some_iff.mp hget
  rw [hl]
  simpa using heq

/-- While no request shortens it, the log only grows: a leaf that was served stays with its
content, and the root hash of the later checkpoint continues that of the earlier one. -/
theorem log_append_only {w₀ s t : World} (hlocal : cfg.usesS3ObjectStore = false)
    (hinit : Initial w₀) (hreach : Relation.ReflTransGen (LogStep env cfg) w₀ s)
    (hrun : Relation.ReflTransGen (LogStep env cfg) s t) :
    leafSequencePaths s.root <+: leafSequencePaths t.root ∧
    (∀ p ∈ leafSequencePaths s.root, t.root.get p = s.root.get p) ∧
    ∀ before, checkpointRootHash s.root = some before →
      ∃ hashes after, leafHashes env t.root = .ok hashes ∧
        checkpointRootHash t.root = some after ∧
        resumeRootHash env before (hashes.drop (leafSequencePaths s.root).length) =
          some after := by
  obtain ⟨s₀, h₀⟩ : ∃ s, LogInvariant env cfg 0 w₀ s := LogInvariant.of_initial hinit
  obtain ⟨-, m, sm, hm, hpos⟩ := h₀.run hlocal hreach
  obtain ⟨hle, n, sn, hn, hsame⟩ := hm.run hlocal hrun
  have hfst : ∀ u : Tree, (leafFiles u).map (·.1) = leafSequencePaths u := by
    intro u
    rw [leafFiles, List.map_map]
    exact List.map_id _
  refine ⟨?_, fun p hp => ?_, fun before hbefore => ?_⟩
  · rw [← hfst s.root, ← hfst t.root]
    exact hle.map _
  · have hmem := hle.subset (List.mem_map.mpr ⟨p, hp, rfl⟩)
    obtain ⟨q, -, heq⟩ := List.mem_map.mp hmem
    rw [Prod.mk.injEq] at heq
    rw [← heq.2, heq.1]
  · have hm₁ : 1 ≤ m := by
      refine hpos.resolve_left fun heq => ?_
      rw [← heq, hinit.root] at hbefore
      cases hbefore
    obtain ⟨leaves, hl, hcheckpoint⟩ := hm.logged_root hm₁
    obtain ⟨leaves', hl', hcheckpoint'⟩ : ∃ leaves', LeavesAre t.root leaves' ∧
        CheckpointOver env cfg t.root leaves' := by
      rcases hsame with rfl | hn₁
      · exact ⟨leaves, hl, hcheckpoint⟩
      · exact hn.logged_root hn₁
    obtain ⟨more, rfl⟩ := leaves_prefix_of_leafFiles hl hl' hle
    obtain ⟨rootHash, hhash, hroot⟩ := hcheckpoint.rootHash
    obtain ⟨after, hafter, hroot'⟩ := hcheckpoint'.rootHash
    obtain rfl : rootHash = before := Option.some.inj (hhash.symm.trans hbefore)
    refine ⟨_, after, hl'.leafHashes, hafter, ?_⟩
    rw [List.map_append] at hroot' ⊢
    rw [hl.length_sequencePaths, ← List.length_map (f := leafSha256 env), List.drop_left]
    exact resumeRootHash_append hroot hroot'

/-- Two publishes; the log of the first state is that of the second without its last leaf. -/
theorem log_after_two_publishes :
    leafSequencePaths (sampleAfter [publishOf "a/b" "1" "one"]).root <+:
      leafSequencePaths (sampleAfter [publishOf "a/b" "1" "one", publishOf "a/b" "2" "two"]).root := by
  have hfirst : LogStep sampleEnvironment sampleConfig sampleStart
      (sampleAfter [publishOf "a/b" "1" "one"]) :=
    ⟨sampleHost, _, succeeds_of_answerStatus (by decide +kernel), nofun⟩
  have hsecond : LogStep sampleEnvironment sampleConfig (sampleAfter [publishOf "a/b" "1" "one"])
      (sampleAfter [publishOf "a/b" "1" "one", publishOf "a/b" "2" "two"]) :=
    ⟨sampleHost, publishOf "a/b" "2" "two", succeeds_of_answerStatus (by decide +kernel), nofun⟩
  exact (log_append_only rfl sampleStart_initial (.single hfirst) (.single hsecond)).1

/-- Two publishes and a rollback: the second leaf is no longer served. -/
theorem log_shortened_by_rollback :
    let s := sampleAfter [publishOf "a/b" "1" "one", publishOf "a/b" "2" "two"]
    let t := sampleAfter [publishOf "a/b" "1" "one", publishOf "a/b" "2" "two", rollbackOf]
    Relation.ReflTransGen (SuccessStep sampleEnvironment sampleConfig) sampleStart s ∧
      Relation.ReflTransGen (SuccessStep sampleEnvironment sampleConfig) s t ∧
      (s.root.get (leafPath 2)).isSome ∧ t.root.get (leafPath 2) = none ∧
      ¬ leafSequencePaths s.root <+: leafSequencePaths t.root := by
  intro s t
  refine ⟨reflTransGen_of_accepts (by decide +kernel), reflTransGen_of_accepts (l := [rollbackOf])
    (by decide +kernel), by decide +kernel, ?_, by decide +kernel⟩
  exact Option.isNone_iff_eq_none.mp (by decide +kernel)

end StyioPlatform.Registry
