import StyioPlatform.Storage.RecoverySteps

/-! What the restoration of a recovery snapshot verifies and writes, and the shape of the disk that
both operations keep. -/
namespace StyioPlatform.Recovery

open Prog FileTree
open Registry (Path Bytes IsPlainId)

variable {cfg : RecoveryConfig} {turn : Mishap} {call : SystemCall} {d d' u : Disk} {p q : Path}
  {id : String} {h : Host}

section Ordinary

/-- The disk has names only, and no file is where the registry root or a directory above it is. -/
structure Ordinary (cfg : RecoveryConfig) (d : Disk) : Prop where
  named : Named d
  way : ∀ q, q <+: cfg.registryRoot → isFile d q = false

theorem Ordinary.root (hd : Ordinary cfg d) : isFile d cfg.registryRoot = false :=
  hd.way _ (List.prefix_refl _)

theorem Ordinary.content_root (hd : Ordinary cfg d) : content d cfg.registryRoot = none :=
  isFile_eq_false_iff.mp hd.root

theorem isFile_restrict {keep : Path → Bool} (h : isFile d q = false) :
    isFile (d.restrict keep) q = false := by
  rw [isFile_eq_false_iff, content, get_restrict] at *
  split at h
  · cases h
  · next hget =>
    split
    · next bytes hfile =>
      split at hfile
      · exact (hget bytes hfile).elim
      · cases hfile
    · rfl

theorem Ordinary.restrict {keep : Path → Bool} (hd : Ordinary cfg d) :
    Ordinary cfg (d.restrict keep) :=
  ⟨named_restrict hd.named, fun q hq => isFile_restrict (hd.way q hq)⟩

theorem Ordinary.withDirectories (hd : Ordinary cfg d) (hp : ∀ name ∈ p, IsPlainId name) :
    Ordinary cfg (withDirectories d p) :=
  ⟨named_withDirectories hd.named hp, fun q hq => by rw [isFile_withDirectories, hd.way q hq]⟩

theorem Ordinary.graft (hcfg : Proper cfg) (hd : Ordinary cfg d) (hp : p ≠ [])
    (hu : ∀ q node, u.get q = some node → (copied d p).get q = some node) :
    Ordinary cfg (d.graft cfg.registryRoot u) := by
  refine ⟨named_graft hd.named hcfg.names fun q hsome => ?_, fun q hq => ?_⟩
  · obtain ⟨node, hget⟩ := Option.isSome_iff_exists.mp hsome
    exact named_copied hd.named hp q (by simp [hu q node hget])
  · have hway := hd.way q hq
    by_cases hroot : cfg.registryRoot <+: q
    · obtain rfl : q = cfg.registryRoot := hq.eq_of_length_le hroot.length_le
      cases hfile : isFile (d.graft cfg.registryRoot u) cfg.registryRoot with
      | false => rfl
      | true =>
        obtain ⟨bytes, hget⟩ := isFile_iff.mp hfile
        have happ := @get_graft_append _ _ _ d u cfg.registryRoot []
        rw [List.append_nil, hget] at happ
        cases hnil : u.get [] with
        | none =>
          rw [hnil, Option.none_or] at happ
          rw [isFile_iff.mpr ⟨bytes, happ.symm⟩] at hway
          cases hway
        | some node =>
          rw [hnil, Option.some_or] at happ
          exact (get_copied_nil (happ ▸ hu [] node hnil)).elim
    · rw [isFile_of_get_eq (get_graft_of_not_below hroot), hway]

theorem keeps_require {I : Host → Prop} {c : Prop} [Decidable c] {e : Failure} :
    Keeps I (require c e) := keeps_ite keeps_pure keeps_fail

theorem keeps_disk {I : Host → Prop} : Keeps I disk := fun _ h => h

/-- What is kept on disk by the making of directories. -/
theorem keeps_createDirectories {J : Disk → Prop} (hJ : ∀ d, J d → J (withDirectories d p)) :
    Keeps (fun h => J h.disk) (createDirectories turn call p) := by
  refine keeps_bind keeps_require fun _ => keeps_bind keeps_disk fun _ => ?_
  exact keeps_bind keeps_require fun _ => keeps_modify fun h => hJ h.disk

theorem keeps_fileManifest {I : Host → Prop} : Keeps I (fileManifest cfg turn call p) := by
  refine keeps_ite keeps_pure ?_
  exact keeps_bind keeps_require fun _ => keeps_bind keeps_disk fun _ => keeps_pure

/-- What is kept on disk by a copy, also by one that is stopped. -/
theorem keeps_copyTree {J : Disk → Prop} {create copy : SystemCall} {source target : Path}
    (hway : ∀ d, J d → J (withDirectories d target))
    (hgraft : ∀ d u, J d → (∀ q node, u.get q = some node → (copied d source).get q = some node) →
      J (d.graft target u)) :
    Keeps (fun h => J h.disk) (copyTree turn create copy source target) := by
  refine keeps_bind (keeps_createDirectories hway) fun _ => ?_
  rw [keeps_iff]
  intro h hJ
  simp only [wp_bind, wp_disk, wp_ite, wp_pure, wp_modifyDisk, wp_fail]
  refine ⟨fun _ => hJ, fun _ => ⟨fun _ => hgraft _ _ hJ fun q node hget => ?_, fun _ =>
    hgraft _ _ hJ fun q node hget => hget⟩⟩
  rw [get_restrict] at hget
  split at hget
  · exact hget
  · cases hget

theorem keeps_restoreFilesystemSnapshot {now : String} (hcfg : Proper cfg) :
    Keeps (fun h => Ordinary cfg h.disk) (restoreFilesystemSnapshot cfg turn id now) := by
  refine keeps_bind keeps_require fun _ => keeps_bind keeps_require fun _ => ?_
  refine keeps_bind keeps_disk fun _ => keeps_bind keeps_require fun _ => ?_
  refine keeps_bind keeps_readJsonFile fun _ => keeps_bind keeps_ofExcept fun _ => ?_
  refine keeps_bind keeps_fileManifest fun _ => keeps_bind keeps_require fun _ => ?_
  refine keeps_bind (keeps_modify fun h hd => Ordinary.restrict hd) fun _ => ?_
  refine keeps_bind (keeps_copyTree (fun d hd => hd.withDirectories hcfg.names) ?_) fun _ =>
    keeps_pure
  exact fun d u hd hu => hd.graft hcfg (by simp) hu

end Ordinary

section Restoration

variable {Q : Unit → Host → Prop} {E : Failure → Host → Prop}

theorem wp_removeAll (hleft : turn.left = []) (hQ : Q () { h with disk := h.disk.removeAll p }) :
    wp (removeAll turn call p) Q E h := by
  rw [removeAll, wp_modifyDisk]
  have hsame : (h.disk.restrict fun q =>
      !decide (p <+: q) || (decide (call ∈ turn.fails) && decide (q ∈ turn.left))) =
      h.disk.removeAll p := by
    ext1 q
    rw [get_removed hleft, get_removeAll]
  rwa [hsame]

/-- The manifest of the snapshot lists what its data holds now. -/
def Verified (cfg : RecoveryConfig) (id : String) (d : Disk) : Prop :=
  ∃ bytes manifest, d.get (snapshotPlace cfg id ++ ["snapshot.json"]) = some (.file bytes) ∧
    cfg.codec.parse bytes = some manifest ∧
    expectedFiles manifest = .ok (fileEntries cfg d (snapshotPlace cfg id ++ ["data"]))

/-- The registry is replaced by the data of the snapshot. -/
def restored (cfg : RecoveryConfig) (id : String) (d : Disk) : Disk :=
  afterCopy (d.removeAll cfg.registryRoot) (snapshotPlace cfg id ++ ["data"]) cfg.registryRoot

theorem writtenBelow_removeAll : WrittenBelow p d (d.removeAll p) :=
  .of_agreeOff fun q hq => by rw [get_removeAll_of_not_below hq]

theorem writtenBelow_restored : WrittenBelow cfg.registryRoot d (restored cfg id d) :=
  writtenBelow_removeAll.trans writtenBelow_afterCopy

/-- The registry is touched only after the data was verified. -/
theorem wp_restoreFilesystemSnapshot {now : String} (hturn : turn.Reported) :
    wp (restoreFilesystemSnapshot cfg turn id now)
      (fun _ h' => Verified cfg id h.disk ∧ h'.disk = restored cfg id h.disk)
      (fun _ h' => h'.disk = h.disk ∨
        Verified cfg id h.disk ∧ WrittenBelow cfg.registryRoot h.disk h'.disk) h := by
  rw [restoreFilesystemSnapshot, wp_bind, wp_require]
  refine ⟨fun _ => ?_, fun _ => .inl rfl⟩
  simp only [mayThrow, wp_bind, wp_require, wp_disk]
  refine ⟨fun _ => ⟨fun _ => ?_, fun _ => .inl trivial⟩, fun _ => .inl trivial⟩
  refine wp_readJsonFile (fun bytes manifest hget hparse => ?_) fun _ => .inl rfl
  rw [wp_ofExcept]
  refine ⟨fun expected hexpected => ?_, fun _ _ => .inl rfl⟩
  refine wp_fileManifest hturn.hidden ?_ fun _ => .inl rfl
  refine ⟨fun hsame => ?_, fun _ => .inl rfl⟩
  have hverified : Verified cfg id h.disk := ⟨bytes, manifest, hget, hparse, hsame ▸ hexpected⟩
  refine wp_removeAll hturn.left ?_
  refine wp_copyTree hturn.hidden ⟨hverified, rfl⟩ fun e d' hd' => .inr ⟨hverified, ?_⟩
  exact writtenBelow_removeAll.trans hd'

end Restoration

end StyioPlatform.Recovery
