import StyioPlatform.Registry.MirrorCopies
import StyioPlatform.Storage.Recovery

/-! What the creation and the restoration of a recovery snapshot change on disk. -/
namespace StyioPlatform.Recovery

open Prog FileTree
open Registry (Path Bytes IsPlainId joined joined_of_isPlainId endsInDots_of_isPlainId)

variable {cfg : RecoveryConfig} {turn : Mishap} {call : SystemCall} {d d' d'' : Disk}
  {p q place root root' : Path} {id : String} {h : Host}

section Content

/-- The content of a regular file. -/
def content (d : Disk) (p : Path) : Option Bytes :=
  match d.get p with
  | some (.file bytes) => some bytes
  | _ => none

theorem content_eq_some {bytes : Bytes} :
    content d p = some bytes ↔ d.get p = some (.file bytes) := by
  unfold content
  split
  · next hget => simp [hget]
  · next hget =>
    constructor
    · exact nofun
    · exact fun hfile => (hget bytes hfile).elim

theorem isFile_iff : isFile d p = true ↔ ∃ bytes, d.get p = some (.file bytes) := by
  cases hget : d.get p with
  | none => simp [isFile, hget]
  | some node => cases node <;> simp [isFile, hget, Node.isFile]

theorem isFile_of_get_eq (h : d'.get p = d.get q) : isFile d' p = isFile d q := by
  rw [isFile, isFile, h]

theorem mem_filesBelow :
    p ∈ filesBelow d root ↔ p ≠ [] ∧ ∃ bytes, content d (root ++ p) = some bytes := by
  simp only [filesBelow, mem_sorted, Finset.mem_filter, Finset.mem_erase, mem_support_iff,
    get_subtree, isFile_iff, content_eq_some]
  constructor
  · rintro ⟨⟨hne, -⟩, hfile⟩
    exact ⟨hne, hfile⟩
  · rintro ⟨hne, bytes, hget⟩
    exact ⟨⟨hne, _, hget⟩, bytes, hget⟩

/-- The manifest lists what the regular files hold, and nothing else. -/
theorem fileEntries_congr (h : ∀ p, p ≠ [] → content d (root ++ p) = content d' (root' ++ p)) :
    fileEntries cfg d root = fileEntries cfg d' root' := by
  have hfiles : filesBelow d root = filesBelow d' root' := by
    refine sorted_eq_of_pairwise pairwise_sorted fun p => ?_
    rw [← mem_sorted]
    change p ∈ filesBelow d root ↔ p ∈ filesBelow d' root'
    rw [mem_filesBelow, mem_filesBelow]
    exact and_congr_right fun hne => by rw [h p hne]
  rw [fileEntries, fileEntries, hfiles]
  congr 1
  refine List.filterMap_congr fun p hp => ?_
  have hsame := h p (mem_filesBelow.mp hp).1
  unfold content at hsame
  split at hsame <;> split at hsame <;> simp_all

theorem mem_fileEntries {entry : Json} : entry ∈ (fileEntries cfg d root).elements ↔
    ∃ p bytes, p ≠ [] ∧ content d (root ++ p) = some bytes ∧ entry = fileEntry cfg p bytes := by
  simp only [fileEntries, Json.elements, List.mem_filterMap, mem_filesBelow]
  constructor
  · rintro ⟨p, ⟨hne, bytes, hcontent⟩, hentry⟩
    rw [content_eq_some] at hcontent
    rw [hcontent] at hentry
    exact ⟨p, bytes, hne, content_eq_some.mpr hcontent, (Option.some.inj hentry).symm⟩
  · rintro ⟨p, bytes, hne, hcontent, rfl⟩
    exact ⟨p, ⟨hne, bytes, hcontent⟩, by rw [content_eq_some.mp hcontent]⟩

theorem get?_fileEntry {bytes : Bytes} :
    (fileEntry cfg p bytes).get? "path" = some (.string (genericString p)) ∧
    (fileEntry cfg p bytes).get? "sha256" = some (.string (cfg.sha256 bytes)) := by
  simp [fileEntry, Json.ofFields, Json.get?, getKey_setKey]

/-- Every name on the way to a path in use is the name of an entry. -/
def Named (d : Disk) : Prop := ∀ p, (d.get p).isSome → ∀ name ∈ p, IsPlainId name

theorem names_of_content {bytes : Bytes} (hd : Named d) (h : content d (root ++ p) = some bytes) :
    ∀ name ∈ p, name ≠ "" ∧ '/' ∉ name.toList := by
  intro name hname
  have hplain := hd (root ++ p) (by simp [content_eq_some.mp h]) name (by simp [hname])
  exact ⟨hplain.1.1, hplain.2⟩

/-- Manifests that are equal list the same files. -/
theorem content_of_fileEntries (hsha : Function.Injective cfg.sha256) (hd : Named d)
    (hd' : Named d') (h : fileEntries cfg d root = fileEntries cfg d' root') (hne : p ≠ []) :
    content d (root ++ p) = content d' (root' ++ p) := by
  have hlisted : ∀ {d d' : Disk} {root root' : Path} {bytes : Bytes}, Named d → Named d' →
      fileEntries cfg d root = fileEntries cfg d' root' → content d (root ++ p) = some bytes →
      content d' (root' ++ p) = some bytes := by
    intro d d' root root' bytes hd hd' h hcontent
    have hmem : fileEntry cfg p bytes ∈ (fileEntries cfg d' root').elements := by
      rw [← h]
      exact mem_fileEntries.mpr ⟨p, bytes, hne, hcontent, rfl⟩
    obtain ⟨p', bytes', -, hcontent', hentry⟩ := mem_fileEntries.mp hmem
    have hfields := @get?_fileEntry cfg p bytes
    rw [hentry, get?_fileEntry.1, get?_fileEntry.2] at hfields
    have hpath : p' = p := by
      refine intercalate_injective (names_of_content hd' hcontent')
        (names_of_content hd hcontent) ?_
      simpa [genericString] using hfields.1
    have hbytes : bytes' = bytes := hsha (by simpa using hfields.2)
    rwa [hpath, hbytes] at hcontent'
  cases hcontent : content d (root ++ p) with
  | some bytes => exact (hlisted hd hd' h hcontent).symm
  | none =>
    cases hcontent' : content d' (root' ++ p) with
    | none => rfl
    | some bytes =>
      rw [hlisted hd' hd h.symm hcontent'] at hcontent
      cases hcontent

end Content

section Frame

/-- Only at and below the place something is written; the directories on the way to it are made. -/
def WrittenBelow (place : Path) (d d' : Disk) : Prop :=
  ∀ p, ¬ place <+: p → d'.get p = d.get p ∨
    p <+: place ∧ d.get p = none ∧ d'.get p = some .directory

namespace WrittenBelow

theorem refl : WrittenBelow place d d := fun _ _ => Or.inl rfl

theorem trans (h : WrittenBelow place d d') (h' : WrittenBelow place d' d'') :
    WrittenBelow place d d'' := by
  intro p hp
  rcases h p hp with hsame | ⟨hway, hnone, hmade⟩
  · rcases h' p hp with hsame' | ⟨hway, hnone, hmade⟩
    · exact Or.inl (hsame'.trans hsame)
    · exact Or.inr ⟨hway, hsame.symm.trans hnone, hmade⟩
  · rcases h' p hp with hsame' | ⟨-, hnone', -⟩
    · exact Or.inr ⟨hway, hnone, hsame'.trans hmade⟩
    · rw [hmade] at hnone'
      cases hnone'

theorem of_agreeOff (h : AgreeOff (place <+: ·) d d') : WrittenBelow place d d' :=
  fun p hp => Or.inl (h p hp)

theorem get_of_apart (h : WrittenBelow place d d') (hp : ¬ place <+: p) (hp' : ¬ p <+: place) :
    d'.get p = d.get p := by
  rcases h p hp with hsame | ⟨hway, -⟩
  · exact hsame
  · exact (hp' hway).elim

theorem mono (h : WrittenBelow q d d') (hq : place <+: q) : WrittenBelow place d d' := by
  intro p hp
  rcases h p (fun hqp => hp (hq.trans hqp)) with hsame | ⟨hway, hmade⟩
  · exact Or.inl hsame
  · exact Or.inr ⟨(List.prefix_or_prefix_of_prefix hway hq).resolve_right hp, hmade⟩

/-- Outside the place no file comes or goes. -/
theorem isFile_eq (h : WrittenBelow place d d') (hp : ¬ place <+: p) :
    isFile d' p = isFile d p := by
  rcases h p hp with hsame | ⟨-, hnone, hmade⟩
  · exact isFile_of_get_eq hsame
  · simp [isFile, hnone, hmade, Node.isFile]

end WrittenBelow

@[simp] theorem get_withDirectories :
    (withDirectories d p).get q = (d.get q).or (if q <+: p then some .directory else none) := rfl

@[simp] theorem isFile_withDirectories : isFile (withDirectories d p) q = isFile d q := by
  cases hget : d.get q with
  | some node => simp [isFile, hget]
  | none => by_cases hq : q <+: p <;> simp [isFile, hget, hq, Node.isFile]

@[simp] theorem content_withDirectories : content (withDirectories d p) q = content d q := by
  cases hget : d.get q with
  | some node => simp [content, hget]
  | none => by_cases hq : q <+: p <;> simp [content, hget, hq]

theorem writtenBelow_withDirectories (hp : p <+: place ∨ place <+: p) :
    WrittenBelow place d (withDirectories d p) := by
  intro q hq
  cases hget : d.get q with
  | some node => exact Or.inl (by simp [hget])
  | none =>
    by_cases hway : q <+: p
    · refine Or.inr ⟨?_, rfl, by simp [hget, hway]⟩
      rcases hp with hp | hp
      · exact hway.trans hp
      · exact (List.prefix_or_prefix_of_prefix hway hp).resolve_right hq
    · exact Or.inl (by simp [hget, hway])

theorem named_withDirectories (hd : Named d) (hp : ∀ name ∈ p, IsPlainId name) :
    Named (withDirectories d p) := by
  intro q hsome name hname
  by_cases hq : q <+: p
  · exact hp name (hq.subset hname)
  · rw [get_withDirectories, if_neg hq, Option.or_none] at hsome
    exact hd q hsome name hname

theorem named_restrict {keep : Path → Bool} (hd : Named d) : Named (d.restrict keep) := by
  intro q hsome
  rw [get_restrict] at hsome
  split at hsome
  · exact hd q hsome
  · cases hsome

theorem named_subtree (hd : Named d) : Named (d.subtree p) := by
  intro q hsome name hname
  exact hd (p ++ q) hsome name (by simp [hname])

theorem named_graft {u : Disk} (hd : Named d) (hp : ∀ name ∈ p, IsPlainId name) (hu : Named u) :
    Named (d.graft p u) := by
  intro q hsome name hname
  rcases get_graft_cases (t := d) (u := u) (p := p) (q := q) with hsame | ⟨r, node, rfl, hr, -⟩
  · rw [hsame] at hsome
    exact hd q hsome name hname
  · rcases List.mem_append.mp hname with hname | hname
    · exact hp name hname
    · exact hu r (by simp [hr]) name hname

theorem named_put {node : Node} (hd : Named d) (hp : ∀ name ∈ p, IsPlainId name) :
    Named (d.put p node) := by
  intro q hsome name hname
  by_cases hq : q = p
  · exact hp name (hq ▸ hname)
  · rw [get_put_of_ne hq] at hsome
    exact hd q hsome name hname

theorem named_copied (hd : Named d) (hp : p ≠ []) : Named (copied d p) := by
  unfold copied
  split
  · next bytes hget =>
    refine named_put (fun q hsome => by simp at hsome) fun name hname => ?_
    obtain rfl : name = p.getLast hp := by
      simpa [List.getLastD_eq_getLast?, List.getLast?_eq_some_getLast hp] using hname
    exact hd p (by simp [hget]) _ (List.getLast_mem hp)
  · exact named_subtree hd

end Frame

section Programs

variable {Q : Unit → Host → Prop} {E : Failure → Host → Prop}

@[simp] theorem wp_disk {Q : Disk → Host → Prop} : wp disk Q E h ↔ Q h.disk h := Iff.rfl

@[simp] theorem wp_modifyDisk {f : Disk → Disk} :
    wp (modifyDisk f) Q E h ↔ Q () { h with disk := f h.disk } := Iff.rfl

@[simp] theorem wp_require {c : Prop} [Decidable c] {e : Failure} :
    wp (require c e) Q E h ↔ (c → Q () h) ∧ (¬ c → E e h) := by
  simp [require]

theorem wp_createDirectories (hQ : Q () { h with disk := withDirectories h.disk p })
    (hE : ∀ e, E e h) : wp (createDirectories turn call p) Q E h := by
  simp only [createDirectories, mayThrow, wp_bind, wp_require, wp_disk, wp_modifyDisk]
  exact ⟨fun _ => ⟨fun _ => hQ, fun _ => hE _⟩, fun _ => hE _⟩

/-- What a copy leaves that is not stopped. -/
def afterCopy (d : Disk) (source target : Path) : Disk :=
  let d := withDirectories d target
  if occupied d source then d.graft target (copied d source) else d

theorem wp_copyTree {create copy : SystemCall} {source target : Path} (hhidden : turn.hidden = [])
    (hQ : Q () { h with disk := afterCopy h.disk source target })
    (hE : ∀ e d', WrittenBelow target h.disk d' → E e { h with disk := d' }) :
    wp (copyTree turn create copy source target) Q E h := by
  have hway : WrittenBelow target h.disk (withDirectories h.disk target) :=
    writtenBelow_withDirectories (Or.inl (List.prefix_refl _))
  rw [copyTree, wp_bind]
  refine wp_createDirectories ?_ fun e => hE e h.disk .refl
  simp only [wp_bind, wp_disk, wp_ite, wp_pure, wp_modifyDisk, wp_fail, hhidden, List.not_mem_nil,
    or_false]
  unfold afterCopy at hQ
  refine ⟨fun hfree => ?_, fun hthere => ⟨fun _ => ?_, fun _ => ?_⟩⟩
  · simpa [hfree] using hQ
  · refine hE _ _ (hway.trans (.of_agreeOff (AgreeOff.refl.graft fun q _ _ => ?_)))
    exact List.prefix_append _ _
  · simpa [hthere] using hQ

theorem wp_fileManifest {Q : Json → Host → Prop} (hhidden : turn.hidden = [])
    (hQ : Q (fileEntries cfg h.disk p) h) (hE : ∀ e, E e h) :
    wp (fileManifest cfg turn call p) Q E h := by
  simp only [fileManifest, mayThrow, hhidden, List.not_mem_nil, if_false, wp_bind, wp_require,
    wp_disk, wp_pure]
  exact ⟨fun _ => hQ, fun _ => hE _⟩

theorem wp_writeJsonFile {payload : Json} (hwrites : .writeManifest ∉ turn.fails)
    (hfree : ∀ q, h.disk.get (p ++ q) = none) (hp : p ≠ [])
    (hQ : Q () { h with disk :=
      (withDirectories h.disk p.dropLast).put p (.file (cfg.codec.print payload)) })
    (hE : ∀ e, E e h) : wp (writeJsonFile cfg turn p payload) Q E h := by
  have hnone : ∀ q, (withDirectories h.disk p.dropLast).get (p ++ q) = none := by
    intro q
    have hlonger : ¬ p ++ q <+: p.dropLast := by
      intro hprefix
      have hlength := hprefix.length_le
      have hpos := List.length_pos_iff.mpr hp
      rw [List.length_append, List.length_dropLast] at hlength
      omega
    rw [get_withDirectories, hfree, if_neg hlonger, Option.or_none]
  have hdirectory : directoryAt (withDirectories h.disk p.dropLast) p = false := by
    have hpath : (withDirectories h.disk p.dropLast).get p = none := by simpa using hnone []
    have hbelow : (withDirectories h.disk p.dropLast).isDirectory p = false := by
      rw [Bool.eq_false_iff]
      intro hdirectory
      obtain ⟨q, node, -, hget⟩ := isDirectory_iff.mp hdirectory
      rw [hnone q] at hget
      cases hget
    rw [directoryAt, occupied, hpath, hbelow]
    rfl
  rw [writeJsonFile, wp_bind]
  refine wp_createDirectories ?_ hE
  simpa [hdirectory, hwrites] using hQ

theorem keeps_readJsonFile {I : Host → Prop} : Keeps I (readJsonFile cfg turn call p) := by
  refine keeps_bind ?_ fun _ => keeps_bind (fun _ h => h) fun d => ?_
  · exact keeps_ite keeps_pure keeps_fail
  · split
    · exact keeps_ofExcept
    · exact keeps_fail
    · exact keeps_fail

theorem wp_readJsonFile {Q : Json → Host → Prop}
    (hQ : ∀ bytes j, h.disk.get p = some (.file bytes) → cfg.codec.parse bytes = some j → Q j h)
    (hE : ∀ e, E e h) : wp (readJsonFile cfg turn call p) Q E h := by
  simp only [readJsonFile, wp_bind, wp_require, wp_disk]
  refine ⟨fun _ => ?_, fun _ => hE _⟩
  split
  · next bytes hget =>
    rw [wp_ofExcept]
    refine ⟨fun j hj => ?_, fun e _ => hE e⟩
    cases hparse : cfg.codec.parse bytes with
    | none => simp [hparse, typed] at hj
    | some j' =>
      obtain rfl : j' = j := by simpa [hparse, typed] using hj
      exact hQ bytes j' hget hparse
  · exact hE _
  · exact hE _

theorem get_removed (hleft : turn.left = []) : (d.restrict fun q =>
    !decide (p <+: q) || (decide (call ∈ turn.fails) && decide (q ∈ turn.left))).get q =
      if p <+: q then none else d.get q := by
  by_cases hq : p <+: q <;> simp [get_restrict, hq, hleft]

end Programs

section Places

/-- The registry root has a directory of its own beside the snapshots. -/
structure Proper (cfg : RecoveryConfig) : Prop where
  beside : ∃ parent name, cfg.registryRoot = parent ++ [name] ∧ name ≠ "recovery-snapshots"
  names : ∀ name ∈ cfg.registryRoot, IsPlainId name

/-- The name of an entry beside the directory in which snapshots are built. -/
def IsSnapshotId (id : String) : Prop := IsPlainId id ∧ '\x00' ∉ id.toList ∧ id ≠ "_tmp"

instance : DecidablePred IsSnapshotId := fun _ => inferInstanceAs (Decidable (_ ∧ _ ∧ _))

theorem Proper.snapshotsRoot_names (hcfg : Proper cfg) :
    ∀ name ∈ cfg.snapshotsRoot, IsPlainId name := by
  intro name hname
  rcases List.mem_append.mp hname with hname | hname
  · exact hcfg.names name (List.dropLast_subset _ hname)
  · rw [List.mem_singleton.mp hname]
    decide

theorem Proper.registryRoot_ne (hcfg : Proper cfg) : cfg.registryRoot ≠ [] := by
  obtain ⟨parent, name, hroot, -⟩ := hcfg.beside
  simp [hroot]

/-- Nothing is in the registry and among the snapshots. -/
theorem Proper.apart (hcfg : Proper cfg) :
    ¬ cfg.snapshotsRoot ++ p <+: cfg.registryRoot ++ q ∧
      ¬ cfg.registryRoot ++ q <+: cfg.snapshotsRoot ++ p := by
  obtain ⟨parent, name, hroot, hname⟩ := hcfg.beside
  have hsnapshots : cfg.snapshotsRoot = parent ++ ["recovery-snapshots"] := by
    simp [RecoveryConfig.snapshotsRoot, hroot]
  rw [hroot, hsnapshots]
  simp [List.append_assoc, List.prefix_append_right_inj, hname, Ne.symm hname]

theorem snapshotPlace_eq (hcfg : Proper cfg) (hid : IsPlainId id) :
    snapshotPlace cfg id = cfg.snapshotsRoot ++ [id] := by
  rw [snapshotPlace, joined_of_isPlainId hid, normal_of_isName]
  intro name hname
  rcases List.mem_append.mp hname with hname | hname
  · exact (hcfg.snapshotsRoot_names name hname).1
  · exact List.mem_singleton.mp hname ▸ hid.1

theorem temporaryPlace_eq (hcfg : Proper cfg) (hid : IsPlainId id) :
    temporaryPlace cfg id = cfg.snapshotsRoot ++ ["_tmp", id] := by
  rw [temporaryPlace, joined_of_isPlainId hid, normal_of_isName]
  · simp
  · intro name hname
    simp only [List.mem_append, List.mem_singleton] at hname
    rcases hname with (hname | rfl) | rfl
    · exact (hcfg.snapshotsRoot_names name hname).1
    · decide
    · exact hid.1

theorem parentPlace_eq (hcfg : Proper cfg) (hid : IsPlainId id) :
    normal (joined cfg.snapshotsRoot id).dropLast = cfg.snapshotsRoot := by
  rw [joined_of_isPlainId hid, List.dropLast_concat, normal_of_isName]
  exact fun name hname => (hcfg.snapshotsRoot_names name hname).1

end Places

section Creation

/-- No error of the operating system is overlooked. -/
structure Mishap.Reported (turn : Mishap) : Prop where
  hidden : turn.hidden = []
  left : turn.left = []

/-- The snapshot that was built from the registry, before it is put in its place. -/
structure Built (cfg : RecoveryConfig) (request : RecoverySnapshotRequest) (d built : Disk) :
    Prop where
  writes : WrittenBelow (cfg.snapshotsRoot ++ ["_tmp", request.snapshotId]) d built
  manifest : ∃ counted,
    built.get (cfg.snapshotsRoot ++ ["_tmp", request.snapshotId, "snapshot.json"]) =
      some (.file (cfg.codec.print
        (snapshotManifest cfg request counted (fileEntries cfg d cfg.registryRoot))))
  data : built.get (cfg.snapshotsRoot ++ ["_tmp", request.snapshotId, "data"]) = some .directory
  files : ∀ q, content built (cfg.snapshotsRoot ++ ["_tmp", request.snapshotId, "data"] ++ q) =
    content d (cfg.registryRoot ++ q)
  free : built.isDirectory (cfg.snapshotsRoot ++ [request.snapshotId]) = false
  way : ∀ q, q <+: cfg.snapshotsRoot ++ [request.snapshotId] → isFile built q = false

variable {source target : Path} {request : RecoverySnapshotRequest}

theorem get_of_not_occupied (h : occupied d p = false) : d.get (p ++ q) = none := by
  simp only [occupied, Bool.or_eq_false_iff, Option.isSome_eq_false_iff, Option.isNone_iff_eq_none]
    at h
  rcases eq_or_ne q [] with rfl | hq
  · simpa using h.1
  · cases hget : d.get (p ++ q) with
    | none => rfl
    | some node =>
      have hdirectory := isDirectory_iff.mpr ⟨q, node, hq, hget⟩
      rw [h.2] at hdirectory
      cases hdirectory

theorem writtenBelow_afterCopy : WrittenBelow target d (afterCopy d source target) := by
  have hway : WrittenBelow target d (withDirectories d target) :=
    writtenBelow_withDirectories (Or.inl (List.prefix_refl _))
  unfold afterCopy
  dsimp only
  split
  · exact hway.trans (.of_agreeOff (AgreeOff.refl.graft fun q _ _ => List.prefix_append _ _))
  · exact hway

/-- A copy into an empty place has the files of its source. -/
theorem content_afterCopy (hclear : ∀ p, content d (target ++ p) = none)
    (hsource : isFile d source = false) :
    content (afterCopy d source target) (target ++ p) = content d (source ++ p) := by
  unfold afterCopy
  dsimp only
  split
  · have hcopied : copied (withDirectories d target) source =
        (withDirectories d target).subtree source := by
      unfold copied
      split
      · next bytes hget =>
        have hfile : isFile (withDirectories d target) source = true := isFile_iff.mpr ⟨bytes, hget⟩
        rw [isFile_withDirectories, hsource] at hfile
        cases hfile
      · rfl
    rw [hcopied]
    have hempty : content (withDirectories d target) (target ++ p) = none := by simp [hclear]
    have hfiles : content (withDirectories d target) (source ++ p) = content d (source ++ p) := by
      simp
    rw [← hfiles]
    unfold content at hempty ⊢
    rw [get_graft_append, get_subtree]
    cases hget : (withDirectories d target).get (source ++ p) with
    | some node => simp
    | none => simpa using hempty
  · next hfree =>
    have hnone := @get_of_not_occupied (withDirectories d target) source p (by simpa using hfree)
    have hfiles : content (withDirectories d target) (source ++ p) = content d (source ++ p) := by
      simp
    rw [← hfiles, content_withDirectories, hclear, content, hnone]

/-- A copy never puts a file in the place of its target. -/
theorem get_copied_nil {bytes : Bytes} : (copied d p).get [] ≠ some (.file bytes) := by
  unfold copied
  split
  · simp [get_put]
  · next hget =>
    rw [get_subtree, List.append_nil]
    exact hget bytes

/-- The target of a copy is a directory. -/
theorem get_afterCopy_target (hclear : d.get target = none) :
    (afterCopy d source target).get target = some .directory := by
  have hmade : (withDirectories d target).get target = some .directory := by simp [hclear]
  unfold afterCopy
  dsimp only
  split
  · have happ := @get_graft_append _ _ _ (withDirectories d target)
      (copied (withDirectories d target) source) target []
    rw [List.append_nil, hmade] at happ
    rw [happ]
    cases hcopied : (copied (withDirectories d target) source).get [] with
    | none => rfl
    | some node =>
      cases node with
      | directory => rfl
      | file bytes => exact (get_copied_nil hcopied).elim
  · exact hmade

theorem isFile_eq_false_iff : isFile d p = false ↔ content d p = none := by
  cases hget : d.get p with
  | none => simp [isFile, content, hget]
  | some node => cases node <;> simp [isFile, content, hget, Node.isFile]

theorem wp_activate {Q : Unit → Host → Prop} {E : Failure → Host → Prop}
    (hQ : h.disk.isDirectory target = false → (∀ q ∈ target.inits, isFile h.disk q = false) →
      Q () { h with disk := h.disk.rename source target }) (hE : ∀ e, E e h) :
    wp (activate turn id source target) Q E h := by
  simp only [activate, wp_bind, wp_disk, wp_require, wp_modifyDisk]
  exact ⟨fun hmoves => hQ hmoves.2.2.2.1 hmoves.2.2.2.2.1, fun _ => hE _⟩

/-- The temporary place, after the registry has been copied into it. -/
structure CopiedInto (cfg : RecoveryConfig) (temp : Path) (d d' : Disk) : Prop where
  writes : WrittenBelow temp d d'
  data : d'.get (temp ++ ["data"]) = some .directory
  files : ∀ q, content d' (temp ++ ["data"] ++ q) = content d (cfg.registryRoot ++ q)
  free : ∀ q, d'.get (temp ++ "snapshot.json" :: q) = none

namespace CopiedInto

variable {temp : Path}

theorem of_cleared
    (hapart : ∀ q, ¬ temp <+: cfg.registryRoot ++ q ∧ ¬ cfg.registryRoot ++ q <+: temp)
    (hroot : isFile d cfg.registryRoot = false) (hwritten : WrittenBelow temp d d')
    (hcleared : ∀ q, d'.get (temp ++ q) = none) :
    CopiedInto cfg temp d (afterCopy d' cfg.registryRoot (temp ++ ["data"])) := by
  have hcopied : WrittenBelow (temp ++ ["data"]) d'
      (afterCopy d' cfg.registryRoot (temp ++ ["data"])) := writtenBelow_afterCopy
  have hregistry : ∀ q, d'.get (cfg.registryRoot ++ q) = d.get (cfg.registryRoot ++ q) :=
    fun q => hwritten.get_of_apart (hapart q).1 (hapart q).2
  have hroot' : isFile d' cfg.registryRoot = false := by
    have hsame := isFile_of_get_eq (hregistry [])
    rw [List.append_nil] at hsame
    rw [hsame, hroot]
  refine ⟨hwritten.trans (hcopied.mono (List.prefix_append _ _)),
    get_afterCopy_target (hcleared _), fun q => ?_, fun q => ?_⟩
  · rw [content_afterCopy (fun r => by rw [List.append_assoc, content, hcleared]) hroot',
      content, content, hregistry]
  · rw [hcopied.get_of_apart (by simp) (by simp), hcleared]

theorem fileEntries_eq (h : CopiedInto cfg temp d d') :
    fileEntries cfg d' (temp ++ ["data"]) = fileEntries cfg d cfg.registryRoot :=
  fileEntries_congr fun q _ => h.files q

/-- The manifest is written beside the copy. -/
theorem withManifest {bytes : Bytes} (h : CopiedInto cfg temp d d')
    (hd : d'' = (withDirectories d' (temp ++ ["snapshot.json"]).dropLast).put
      (temp ++ ["snapshot.json"]) (.file bytes)) :
    WrittenBelow temp d d'' ∧ d''.get (temp ++ ["data"]) = some .directory ∧
      ∀ q, content d'' (temp ++ ["data"] ++ q) = content d (cfg.registryRoot ++ q) := by
  refine ⟨?_, ?_, fun q => ?_⟩
  · rw [hd]
    exact h.writes.trans ((writtenBelow_withDirectories (Or.inl (by simp))).trans
      (.of_agreeOff (AgreeOff.refl.put (List.prefix_append _ _))))
  · have hother : temp ++ ["data"] ≠ temp ++ ["snapshot.json"] := by simp
    rw [hd, get_put_of_ne hother, get_withDirectories, h.data, Option.some_or]
  · have hother : temp ++ ["data"] ++ q ≠ temp ++ ["snapshot.json"] := by simp
    rw [← h.files, ← @content_withDirectories d' (temp ++ ["snapshot.json"]).dropLast, content,
      content, hd, get_put_of_ne hother]

end CopiedInto

/-- The creation of a snapshot builds it from the files of the registry and moves it to its place,
or leaves something in the temporary place only. -/
theorem wp_createFilesystemSnapshot (hcfg : Proper cfg) (hturn : turn.Reported)
    (hwrites : .writeManifest ∉ turn.fails) (hid : IsPlainId request.snapshotId)
    (hroot : isFile h.disk cfg.registryRoot = false) :
    wp (createFilesystemSnapshot cfg turn request)
      (fun _ h' => ∃ built, Built cfg request h.disk built ∧ h'.disk = built.rename
        (cfg.snapshotsRoot ++ ["_tmp", request.snapshotId])
        (cfg.snapshotsRoot ++ [request.snapshotId]))
      (fun _ h' => WrittenBelow (cfg.snapshotsRoot ++ ["_tmp", request.snapshotId]) h.disk h'.disk)
      h := by
  have hplace := snapshotPlace_eq hcfg hid
  have htemp := temporaryPlace_eq hcfg hid
  set temp := cfg.snapshotsRoot ++ ["_tmp", request.snapshotId] with htempdef
  rw [createFilesystemSnapshot, wp_bind, wp_require]
  refine ⟨fun _ => ?_, fun _ => .refl⟩
  simp only [wp_bind, wp_disk, wp_require, hplace, htemp, parentPlace_eq hcfg hid]
  refine ⟨fun _ => ?_, fun _ => .refl⟩
  refine wp_createDirectories ?_ fun _ => .refl
  -- the temporary place is cleared
  set d₁ := withDirectories h.disk cfg.snapshotsRoot with hd₁
  have hwritten₁ : WrittenBelow temp h.disk d₁ :=
    writtenBelow_withDirectories (Or.inl (List.prefix_append _ _))
  simp only [removeAll, wp_modifyDisk]
  set d₂ := d₁.restrict fun q => !decide (temp <+: q) ||
    (decide (.clearTemporary ∈ turn.fails) && decide (q ∈ turn.left)) with hd₂
  have hget₂ : ∀ q, d₂.get q = if temp <+: q then none else d₁.get q := fun q =>
    get_removed hturn.left
  have hwritten₂ : WrittenBelow temp h.disk d₂ :=
    hwritten₁.trans (.of_agreeOff fun q hq => by rw [hget₂, if_neg hq])
  have hcleared : ∀ q, d₂.get (temp ++ q) = none := fun q => by
    rw [hget₂, if_pos (List.prefix_append _ _)]
  -- the registry is copied
  refine wp_copyTree hturn.hidden ?_ fun e d' hd' =>
    hwritten₂.trans (hd'.mono (List.prefix_append _ _))
  have hcopied : CopiedInto cfg temp h.disk (afterCopy d₂ cfg.registryRoot (temp ++ ["data"])) :=
    .of_cleared (fun _ => hcfg.apart) hroot hwritten₂ hcleared
  -- the files are listed, and the manifest is written
  refine wp_fileManifest hturn.hidden ?_ fun _ => hcopied.writes
  refine wp_fileManifest hturn.hidden ?_ fun _ => hcopied.writes
  refine wp_writeJsonFile hwrites (fun q => ?_) (by simp) ?_ fun _ => hcopied.writes
  · simpa using hcopied.free q
  rw [hcopied.fileEntries_eq]
  set manifest := snapshotManifest cfg request
    (fileEntries cfg h.disk cfg.registryRoot).elements.length
    (fileEntries cfg h.disk cfg.registryRoot)
  set d₅ := (withDirectories (afterCopy d₂ cfg.registryRoot (temp ++ ["data"]))
    (temp ++ ["snapshot.json"]).dropLast).put (temp ++ ["snapshot.json"])
      (.file (cfg.codec.print manifest)) with hd₅
  obtain ⟨hwritten₅, hdata₅, hfiles₅⟩ := hcopied.withManifest hd₅
  have hmanifest : d₅.get (temp ++ ["snapshot.json"]) = some (.file (cfg.codec.print manifest)) :=
    get_put_self
  rw [htempdef, List.append_assoc] at hmanifest hdata₅ hfiles₅
  refine wp_activate (fun hfree hway => ?_) fun _ => hwritten₅
  exact ⟨d₅, ⟨hwritten₅, ⟨_, hmanifest⟩, hdata₅, hfiles₅, hfree,
    fun q hq => hway q ((List.mem_inits _ _).mpr hq)⟩, rfl⟩

end Creation

end StyioPlatform.Recovery
