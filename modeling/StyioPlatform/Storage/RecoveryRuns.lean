import StyioPlatform.Lib.Backups
import StyioPlatform.Lib.Runs
import StyioPlatform.Storage.RecoveryRestore

/-! Runs of a registry with its recovery snapshots, as a live value with backups. -/
namespace StyioPlatform.Recovery

open Prog FileTree
open Registry (Path Bytes IsPlainId paddedNumber)

variable {cfg : RecoveryConfig} {turn turn' : Mishap} {call : SystemCall} {d d' : Disk} {p q : Path}
  {id now now' : String} {body : Json} {h h' : Host} {request : RecoverySnapshotRequest}

section Handlers

theorem named_rename (hd : Named d) (hq : ∀ name ∈ q, IsPlainId name) : Named (d.rename p q) :=
  named_graft (named_restrict hd) hq (named_subtree hd)

theorem keeps_writeJsonFile_named {payload : Json} (hp : ∀ name ∈ p, IsPlainId name) :
    Keeps (fun h => Named h.disk) (writeJsonFile cfg turn p payload) := by
  have hput : ∀ bytes, Keeps (fun h => Named h.disk) (modifyDisk (·.put p (.file bytes))) :=
    fun bytes => keeps_modify fun h hd => named_put hd hp
  refine keeps_bind (keeps_createDirectories fun d hd =>
    named_withDirectories hd fun name hname => hp name (List.dropLast_subset _ hname)) fun _ => ?_
  refine keeps_bind keeps_disk fun _ => keeps_ite keeps_pure (keeps_ite ?_ (hput _))
  split
  · exact keeps_pure
  · exact hput _

theorem keeps_createFilesystemSnapshot (hcfg : Proper cfg) (hid : IsPlainId request.snapshotId) :
    Keeps (fun h => Named h.disk) (createFilesystemSnapshot cfg turn request) := by
  have hplace : ∀ name ∈ cfg.snapshotsRoot ++ [request.snapshotId], IsPlainId name := by
    intro name hname
    rcases List.mem_append.mp hname with hname | hname
    · exact hcfg.snapshotsRoot_names name hname
    · exact List.mem_singleton.mp hname ▸ hid
  have htemp : ∀ entry, IsPlainId entry →
      ∀ name ∈ cfg.snapshotsRoot ++ ["_tmp", request.snapshotId] ++ [entry], IsPlainId name := by
    intro entry hentry name hname
    simp only [List.mem_append, List.mem_cons, List.not_mem_nil, or_false] at hname
    rcases hname with (hname | rfl | rfl) | rfl
    · exact hcfg.snapshotsRoot_names name hname
    · decide
    · exact hid
    · exact hentry
  rw [createFilesystemSnapshot]
  simp only [snapshotPlace_eq hcfg hid, temporaryPlace_eq hcfg hid, parentPlace_eq hcfg hid]
  refine keeps_bind keeps_require fun _ => keeps_bind keeps_disk fun _ => ?_
  refine keeps_bind keeps_require fun _ => ?_
  refine keeps_bind (keeps_createDirectories fun d hd =>
    named_withDirectories hd hcfg.snapshotsRoot_names) fun _ => ?_
  refine keeps_bind (keeps_modify fun h hd => named_restrict hd) fun _ => ?_
  have hdata := htemp "data" (by decide)
  refine keeps_bind (keeps_copyTree (fun d hd => named_withDirectories hd hdata)
    fun d u hd hu => named_graft hd hdata fun q hsome => ?_) fun _ => ?_
  · obtain ⟨node, hget⟩ := Option.isSome_iff_exists.mp hsome
    exact named_copied hd hcfg.registryRoot_ne q (by simp [hu q node hget])
  refine keeps_bind keeps_fileManifest fun _ => keeps_bind keeps_fileManifest fun _ => ?_
  refine keeps_bind (keeps_writeJsonFile_named (htemp "snapshot.json" (by decide))) fun _ => ?_
  refine keeps_bind (keeps_bind keeps_disk fun _ => keeps_bind keeps_require fun _ =>
    keeps_modify fun h hd => named_rename hd hplace) fun _ => keeps_pure

/-- The snapshot with the id was put in its place. -/
def Took (cfg : RecoveryConfig) (id : String) (d d' : Disk) : Prop :=
  ∃ request built, request.snapshotId = id ∧ Built cfg request d built ∧
    d' = built.rename (cfg.snapshotsRoot ++ ["_tmp", id]) (cfg.snapshotsRoot ++ [id])

/-- Only below the directory in which snapshots are built something is written. -/
def Attempted (cfg : RecoveryConfig) (d d' : Disk) : Prop :=
  WrittenBelow (cfg.snapshotsRoot ++ ["_tmp"]) d d'

theorem returns_createFilesystemSnapshot :
    Returns (fun j => j.get? "snapshot_id" = some (.string request.snapshotId))
      (createFilesystemSnapshot cfg turn request) := by
  rw [createFilesystemSnapshot]
  refine returns_bind fun _ => returns_bind fun _ => returns_bind fun _ => returns_bind fun _ => ?_
  refine returns_bind fun _ => returns_bind fun _ => returns_bind fun _ => returns_bind fun _ => ?_
  refine returns_bind fun _ => returns_bind fun _ => returns_pure ?_
  simp [snapshotManifest, Json.ofFields, Json.setField, Json.get?, getKey_setKey]

theorem wp_recordRegistryAudit {operation result : String} {Q : Unit → Host → Prop}
    {E : Failure → Host → Prop} (hQ : ∀ events, Q () { h with auditEvents := events })
    (hE : ∀ e, E e h) : wp (recordRegistryAudit turn call operation id result) Q E h := by
  simp only [recordRegistryAudit, mayThrow, wp_bind, wp_require, wp_modify]
  exact ⟨fun _ => hQ _, fun _ => hE _⟩

theorem keeps_recordRegistryAudit {operation result : String} {J : Disk → Prop} :
    Keeps (fun h => J h.disk) (recordRegistryAudit turn call operation id result) :=
  keeps_bind keeps_require fun _ => keeps_modify fun _ hJ => hJ

/-- The answer is a success for the snapshot with the id. -/
def Created (id : String) (response : Response) : Prop :=
  ∃ message payload, response = .success message payload ∧
    payload.get? "snapshot_id" = some (.string id)

/-- What a response says the id of the created snapshot is. -/
def Response.createdId : Response → Option Json
  | .success _ payload => payload.get? "snapshot_id"
  | .failure .. => none

theorem created_iff {response : Response} :
    Created id response ↔ response.createdId = some (.string id) := by
  constructor
  · rintro ⟨message, payload, rfl, hid⟩
    exact hid
  · cases response with
    | success message payload => exact fun hid => ⟨message, payload, rfl, hid⟩
    | failure => exact fun hid => by cases hid

theorem eq_ok_of_toOption {ε α : Type} {r : Except ε α} {a : α} (h : r.toOption = some a) :
    r = .ok a := by
  cases r with
  | ok b => exact congrArg _ (Option.some.inj h)
  | error e => cases h

def Response.Succeeds (response : Response) : Prop :=
  ∃ message payload, response = .success message payload

theorem not_succeeds_failure {status returncode : ℕ} {message detail category operation : String} :
    ¬ (Response.failure status message detail category operation returncode).Succeeds :=
  fun ⟨_, _, hresponse⟩ => nomatch hresponse

theorem wp_tryCreate (hcfg : Proper cfg) (hturn : turn.Reported)
    (hwrites : .writeManifest ∉ turn.fails) (hid : IsPlainId id)
    (hroot : isFile h.disk cfg.registryRoot = false) :
    wp (tryCreate cfg turn body id now)
      (fun response h' => Took cfg id h.disk h'.disk ∧ (response.Succeeds → Created id response) ∨
        Attempted cfg h.disk h'.disk ∧ ¬ response.Succeeds)
      (fun _ h' => Took cfg id h.disk h'.disk ∨ Attempted cfg h.disk h'.disk) h := by
  have hfailed : ∀ e t, Took cfg id h.disk t.disk ∨ Attempted cfg h.disk t.disk →
      wp (do
        recordRegistryAudit turn .auditFailure "createRecoverySnapshot" id "failed"
        return .failure 422 "recovery snapshot failed" (Failure.what e) "RecoveryError"
          "createRecoverySnapshot" 17)
        (fun response h' => Took cfg id h.disk h'.disk ∧ (response.Succeeds → Created id response) ∨
          Attempted cfg h.disk h'.disk ∧ ¬ response.Succeeds)
        (fun _ h' => Took cfg id h.disk h'.disk ∨ Attempted cfg h.disk h'.disk) t := by
    intro e t ht
    rw [wp_bind]
    refine wp_recordRegistryAudit (fun events => ?_) fun _ => ht
    rcases ht with ht | ht
    · exact .inl ⟨ht, fun hsuccess => (not_succeeds_failure hsuccess).elim⟩
    · exact .inr ⟨ht, not_succeeds_failure⟩
  rw [tryCreate, wp_handle, wp_bind, wp_ofExcept]
  refine ⟨fun label _ => ?_, fun e _ => hfailed e h (.inr .refl)⟩
  rw [wp_bind]
  refine wp_mono (wp_and (wp_createFilesystemSnapshot hcfg hturn hwrites hid hroot) wp_self)
    (fun snapshot t ht => ?_) fun e t ht => ?_
  · obtain ⟨⟨built, hbuilt, hdisk⟩, hrun⟩ := ht
    have htook : Took cfg id h.disk t.disk := ⟨_, built, rfl, hbuilt, hdisk⟩
    rw [wp_bind]
    refine wp_recordRegistryAudit (fun events => ?_) fun e => hfailed e t (.inl htook)
    exact .inl ⟨htook, fun _ => ⟨_, _, rfl, returns_createFilesystemSnapshot _ _ _ hrun⟩⟩
  · exact hfailed e t (.inr (ht.1.mono (by simp)))

theorem keeps_mapM {α β : Type} {I : Host → Prop} {f : α → RecoveryProgram β} {l : List α}
    (hf : ∀ a, Keeps I (f a)) : Keeps I (l.mapM f) := by
  have hloop : ∀ done, Keeps I (List.mapM.loop f l done) := by
    induction l with
    | nil => exact fun _ => keeps_pure
    | cons a l ih => exact fun done => keeps_bind (hf a) fun b => ih (b :: done)
  exact hloop []

theorem keeps_listFilesystemSnapshots {I : Host → Prop} :
    Keeps I (listFilesystemSnapshots cfg turn) := by
  refine keeps_ite keeps_pure ?_
  refine keeps_bind keeps_require fun _ => keeps_bind keeps_disk fun _ => ?_
  exact keeps_mapM fun _ => keeps_readJsonFile

theorem isSnapshotId_snapshotIdFor {n : ℕ} : IsSnapshotId (snapshotIdFor n) := by
  have hlist : (snapshotIdFor n).toList = 's' :: 'n' :: 'a' :: 'p' :: '-' :: paddedDigits 6 n := by
    simp [snapshotIdFor, paddedNumber, String.toList_append]
  have hne : ∀ s : String, s.toList.head? ≠ some 's' → snapshotIdFor n ≠ s := by
    rintro s hs rfl
    exact hs (by rw [hlist]; rfl)
  have hmem : ∀ c : Char, c.isDigit = false → c ∉ ['s', 'n', 'a', 'p', '-'] →
      c ∉ (snapshotIdFor n).toList := by
    intro c hdigit hc hin
    rw [hlist] at hin
    rcases List.mem_append.mp (show c ∈ ['s', 'n', 'a', 'p', '-'] ++ paddedDigits 6 n from hin)
      with hin | hin
    · exact hc hin
    · rw [isDigit_of_mem_paddedDigits hin] at hdigit
      cases hdigit
  exact ⟨⟨⟨hne _ (by decide), hne _ (by decide), hne _ (by decide)⟩,
    hmem _ (by decide) (by decide)⟩, hmem _ (by decide) (by decide), hne _ (by decide)⟩

theorem textOr_eq_some {key default s : String} (hs : body.textOr key default = some s) :
    body.textField key = some s ∨ s = default := by
  cases body with
  | object fields =>
    rw [Json.textOr] at hs
    rw [Json.textField, Json.get?]
    split at hs
    · exact .inr (Option.some.inj hs).symm
    · next member hmember =>
      rw [hmember]
      exact .inl hs
  | _ => cases hs

/-- The id that a request brings, or the one that is made for it. -/
theorem isSnapshotId_of_found {n : ℕ}
    (hid : ∀ id, body.textField "snapshot_id" = some id → IsSnapshotId id)
    (hfound : typed (body.textOr "snapshot_id" (snapshotIdFor n)) = .ok id) : IsSnapshotId id := by
  cases htext : body.textOr "snapshot_id" (snapshotIdFor n) with
  | none =>
    rw [htext] at hfound
    cases hfound
  | some found =>
    rw [htext] at hfound
    obtain rfl : found = id := Except.ok.inj hfound
    rcases textOr_eq_some htext with hgiven | rfl
    · exact hid _ hgiven
    · exact isSnapshotId_snapshotIdFor

/-- What a request to create a snapshot does. -/
theorem wp_handleCreateRecoverySnapshot (hcfg : Proper cfg) (hturn : turn.Reported)
    (hwrites : .writeManifest ∉ turn.fails)
    (hid : ∀ id, body.textField "snapshot_id" = some id → IsSnapshotId id)
    (hroot : isFile h.disk cfg.registryRoot = false) :
    wp (handleCreateRecoverySnapshot cfg turn body now)
      (fun response h' => (∃ id, IsSnapshotId id ∧ Took cfg id h.disk h'.disk ∧
          (response.Succeeds → Created id response)) ∨
        Attempted cfg h.disk h'.disk ∧ ¬ response.Succeeds)
      (fun _ h' => (∃ id, IsSnapshotId id ∧ Took cfg id h.disk h'.disk) ∨
        Attempted cfg h.disk h'.disk) h := by
  unfold handleCreateRecoverySnapshot
  rw [wp_ite]
  refine ⟨fun _ => .inr ⟨.refl, not_succeeds_failure⟩, fun _ => ?_⟩
  have hlist : Keeps (· = h) (listFilesystemSnapshots cfg turn) := keeps_listFilesystemSnapshots
  rw [wp_bind]
  refine wp_mono (hlist.wp rfl) (fun snapshots t ht => ?_) fun e t ht => ?_
  · subst ht
    rw [wp_bind, wp_ofExcept]
    refine ⟨fun id hfound => ?_, fun _ _ => .inr .refl⟩
    have hsnapshot := isSnapshotId_of_found hid hfound
    refine wp_mono (wp_tryCreate hcfg hturn hwrites hsnapshot.1 hroot) (fun response u hu => ?_)
      fun e u hu => ?_
    · exact hu.imp_left fun hu => ⟨id, hsnapshot, hu⟩
    · exact hu.imp_left fun hu => ⟨id, hsnapshot, hu⟩
  · subst ht
    exact .inr .refl

theorem writtenBelow_of_refused (h : d' = d ∨ Verified cfg id d ∧
    WrittenBelow cfg.registryRoot d d') : WrittenBelow cfg.registryRoot d d' := by
  rcases h with rfl | ⟨-, hwritten⟩
  · exact .refl
  · exact hwritten

/-- What a request to restore a snapshot does. -/
theorem wp_handleRestoreRecoverySnapshot (hturn : turn.Reported) :
    wp (handleRestoreRecoverySnapshot cfg turn id now)
      (fun response h' => (Verified cfg id h.disk ∧ h'.disk = restored cfg id h.disk) ∨
        (h'.disk = h.disk ∨ Verified cfg id h.disk ∧
          WrittenBelow cfg.registryRoot h.disk h'.disk) ∧ ¬ response.Succeeds)
      (fun _ h' => h'.disk = h.disk ∨
        Verified cfg id h.disk ∧ WrittenBelow cfg.registryRoot h.disk h'.disk) h := by
  have hfailed : ∀ e t, (t.disk = h.disk ∨ Verified cfg id h.disk ∧
      WrittenBelow cfg.registryRoot h.disk t.disk) →
      wp (do
        recordRegistryAudit turn .auditFailure "restoreRecoverySnapshot" id "failed"
        return Response.failure 422 "recovery restore failed" (Failure.what e) "RecoveryError"
          "restoreRecoverySnapshot" 17)
        (fun response h' => (Verified cfg id h.disk ∧ h'.disk = restored cfg id h.disk) ∨
          (h'.disk = h.disk ∨ Verified cfg id h.disk ∧
            WrittenBelow cfg.registryRoot h.disk h'.disk) ∧ ¬ response.Succeeds)
        (fun _ h' => h'.disk = h.disk ∨
          Verified cfg id h.disk ∧ WrittenBelow cfg.registryRoot h.disk h'.disk) t := by
    intro e t ht
    rw [wp_bind]
    exact wp_recordRegistryAudit (fun events => .inr ⟨ht, not_succeeds_failure⟩) fun _ => ht
  rw [handleRestoreRecoverySnapshot, wp_handle, wp_bind]
  refine wp_mono (wp_restoreFilesystemSnapshot hturn) (fun _ t ht => ?_) hfailed
  rw [wp_bind]
  refine wp_recordRegistryAudit (fun events => .inl ht) fun e => hfailed e t (.inr ⟨ht.1, ?_⟩)
  rw [ht.2]
  exact writtenBelow_restored

/-- The names on disk stay names. -/
theorem keeps_handleCreateRecoverySnapshot (hcfg : Proper cfg)
    (hid : ∀ id, body.textField "snapshot_id" = some id → IsSnapshotId id) :
    Keeps (fun h => Named h.disk) (handleCreateRecoverySnapshot cfg turn body now) := by
  unfold handleCreateRecoverySnapshot
  refine keeps_ite keeps_pure (keeps_bind keeps_listFilesystemSnapshots fun snapshots =>
    keeps_bind_ofExcept fun id hfound => ?_)
  have hsnapshot := isSnapshotId_of_found hid hfound
  refine keeps_handle (keeps_bind keeps_ofExcept fun label => ?_) fun e =>
    keeps_bind keeps_recordRegistryAudit fun _ => keeps_pure
  exact keeps_bind (keeps_createFilesystemSnapshot hcfg hsnapshot.1) fun _ =>
    keeps_bind keeps_recordRegistryAudit fun _ => keeps_pure

theorem keeps_handleRestoreRecoverySnapshot (hcfg : Proper cfg) :
    Keeps (fun h => Ordinary cfg h.disk) (handleRestoreRecoverySnapshot cfg turn id now) :=
  keeps_handle (keeps_bind (keeps_restoreFilesystemSnapshot hcfg) fun _ =>
    keeps_bind keeps_recordRegistryAudit fun _ => keeps_pure) fun _ =>
    keeps_bind keeps_recordRegistryAudit fun _ => keeps_pure

end Handlers

section Kept

/-- The snapshot with the id lists the files with the given contents. -/
structure Kept (cfg : RecoveryConfig) (d : Disk) (id : String) (a : Path → Option Bytes) :
    Prop where
  plain : IsSnapshotId id
  manifest : ∃ d₀ request counted, Ordinary cfg d₀ ∧
    (∀ p, content d₀ (cfg.registryRoot ++ p) = a p) ∧
    d.get (cfg.snapshotsRoot ++ [id, "snapshot.json"]) = some (.file (cfg.codec.print
      (snapshotManifest cfg request counted (fileEntries cfg d₀ cfg.registryRoot))))
  data : d.get (cfg.snapshotsRoot ++ [id, "data"]) = some .directory

variable {a : Path → Option Bytes}

theorem Kept.frame (hkept : Kept cfg d id a) (hframe : ∀ entry ∈ ["snapshot.json", "data"],
    d'.get (cfg.snapshotsRoot ++ [id, entry]) = d.get (cfg.snapshotsRoot ++ [id, entry])) :
    Kept cfg d' id a := by
  obtain ⟨d₀, request, counted, hd₀, ha, hget⟩ := hkept.manifest
  refine ⟨hkept.plain, ⟨d₀, request, counted, hd₀, ha, ?_⟩, ?_⟩
  · rw [hframe _ (by simp), hget]
  · rw [hframe _ (by simp), hkept.data]

/-- A write in the registry leaves the snapshots alone. -/
theorem get_snapshot_of_written (hcfg : Proper cfg) (h : WrittenBelow cfg.registryRoot d d') :
    d'.get (cfg.snapshotsRoot ++ p) = d.get (cfg.snapshotsRoot ++ p) := by
  have hapart := @Proper.apart cfg p [] hcfg
  rw [List.append_nil] at hapart
  exact h.get_of_apart hapart.2 hapart.1

/-- The building of a snapshot leaves the others alone. -/
theorem get_snapshot_of_attempted (hid : id ≠ "_tmp") (h : Attempted cfg d d') :
    d'.get (cfg.snapshotsRoot ++ id :: p) = d.get (cfg.snapshotsRoot ++ id :: p) :=
  h.get_of_apart (by simp [List.prefix_append_right_inj, Ne.symm hid])
    (by simp [List.prefix_append_right_inj, hid])

theorem Built.attempted {built : Disk} (hbuilt : Built cfg request d built) :
    Attempted cfg d built := hbuilt.writes.mono (by simp)

theorem Took.ne_tmp (htook : Took cfg id d d') : id ≠ "_tmp" := by
  rintro rfl
  obtain ⟨request, built, hid, hbuilt, -⟩ := htook
  obtain ⟨counted, hmanifest⟩ := hbuilt.manifest
  have hdirectory := isDirectory_iff.mpr ⟨["_tmp", "snapshot.json"], _, by simp, (by
    simpa [hid] using hmanifest : built.get ((cfg.snapshotsRoot ++ ["_tmp"]) ++ _) = _)⟩
  have hfree := hbuilt.free
  rw [hid, hdirectory] at hfree
  cases hfree

/-- Outside its two places the creation of a snapshot changes nothing but the directories on the
way. -/
theorem Took.get_of_apart (htook : Took cfg id d d') (htemp : ¬ cfg.snapshotsRoot ++ ["_tmp"] <+: p)
    (htemp' : ¬ p <+: cfg.snapshotsRoot ++ ["_tmp"]) (hplace : ¬ cfg.snapshotsRoot ++ [id] <+: p) :
    d'.get p = d.get p := by
  obtain ⟨request, built, -, hbuilt, rfl⟩ := htook
  rw [get_rename_of_not_below (fun hp => htemp (List.IsPrefix.trans (by simp) hp)) hplace]
  exact hbuilt.attempted.get_of_apart htemp htemp'

theorem Took.get_registry (hcfg : Proper cfg) (htook : Took cfg id d d') :
    d'.get (cfg.registryRoot ++ p) = d.get (cfg.registryRoot ++ p) :=
  htook.get_of_apart hcfg.apart.1 hcfg.apart.2 hcfg.apart.1

/-- The new snapshot is that of the files of the registry. -/
theorem Took.kept (htook : Took cfg id d d') (hid : IsSnapshotId id) (hd : Ordinary cfg d) :
    Kept cfg d' id fun p => content d (cfg.registryRoot ++ p) := by
  have hne := htook.ne_tmp
  obtain ⟨request, built, rfl, hbuilt, rfl⟩ := htook
  obtain ⟨counted, hmanifest⟩ := hbuilt.manifest
  have hmoved : ∀ q node, built.get (cfg.snapshotsRoot ++ ["_tmp", request.snapshotId] ++ q) =
      some node → (built.rename (cfg.snapshotsRoot ++ ["_tmp", request.snapshotId])
        (cfg.snapshotsRoot ++ [request.snapshotId])).get
        (cfg.snapshotsRoot ++ [request.snapshotId] ++ q) = some node := by
    intro q node hget
    rw [get_rename_append, hget, Option.some_or]
    · simp [List.prefix_append_right_inj, Ne.symm hne]
    · simp [List.prefix_append_right_inj, hne]
  refine ⟨hid, ⟨d, request, counted, hd, fun _ => rfl, ?_⟩, ?_⟩
  · simpa using hmoved ["snapshot.json"] _ (by simpa using hmanifest)
  · simpa using hmoved ["data"] _ (by simpa using hbuilt.data)

/-- The data of the new snapshot is the files of the registry. -/
theorem Took.content_data (htook : Took cfg id d d') :
    content d' (cfg.snapshotsRoot ++ [id, "data"] ++ p) = content d (cfg.registryRoot ++ p) := by
  have hne := htook.ne_tmp
  obtain ⟨request, built, rfl, hbuilt, rfl⟩ := htook
  have hfree : built.get (cfg.snapshotsRoot ++ [request.snapshotId] ++ ("data" :: p)) = none := by
    cases hget : built.get (cfg.snapshotsRoot ++ [request.snapshotId] ++ ("data" :: p)) with
    | none => rfl
    | some node =>
      have hdirectory := isDirectory_iff.mpr ⟨"data" :: p, node, by simp, hget⟩
      rw [hbuilt.free] at hdirectory
      cases hdirectory
  have hmoved := @get_rename_append _ _ _ built
    (cfg.snapshotsRoot ++ ["_tmp", request.snapshotId]) ("data" :: p)
    (cfg.snapshotsRoot ++ [request.snapshotId])
    (by simp [List.prefix_append_right_inj, Ne.symm hne])
    (by simp [List.prefix_append_right_inj, hne])
  rw [hfree, Option.or_none] at hmoved
  simp only [List.append_assoc, List.cons_append, List.nil_append] at hmoved
  have hfiles := hbuilt.files p
  simp only [List.append_assoc, List.cons_append, List.nil_append] at hfiles ⊢
  rw [← hfiles, content, content, hmoved]

/-- A snapshot that is there is not taken again. -/
theorem Took.not_kept (htook : Took cfg id d d') : ¬ Kept cfg d id a := by
  intro hkept
  have hne := htook.ne_tmp
  obtain ⟨request, built, rfl, hbuilt, -⟩ := htook
  have hdata := get_snapshot_of_attempted (p := ["data"]) hne hbuilt.attempted
  rw [hkept.data] at hdata
  have hdirectory := isDirectory_iff.mpr ⟨["data"], _, by simp, (by
    simpa using hdata : built.get ((cfg.snapshotsRoot ++ [request.snapshotId]) ++ ["data"]) = _)⟩
  rw [hbuilt.free] at hdirectory
  cases hdirectory

theorem Ordinary.of_attempted (hcfg : Proper cfg) (hd : Ordinary cfg d) (hnamed : Named d')
    (h : Attempted cfg d d') : Ordinary cfg d' := by
  refine ⟨hnamed, fun q hq => ?_⟩
  have hapart : ¬ cfg.snapshotsRoot ++ ["_tmp"] <+: q := by
    intro hstart
    have happ := @Proper.apart cfg ["_tmp"] [] hcfg
    rw [List.append_nil] at happ
    exact happ.1 (hstart.trans hq)
  rw [h.isFile_eq hapart, hd.way q hq]

theorem Ordinary.of_took (hcfg : Proper cfg) (hd : Ordinary cfg d) (hnamed : Named d')
    (h : Took cfg id d d') : Ordinary cfg d' := by
  refine ⟨hnamed, fun q hq => ?_⟩
  obtain ⟨request, built, -, hbuilt, rfl⟩ := h
  have hapart : ∀ p, ¬ cfg.snapshotsRoot ++ p <+: q := by
    intro p hstart
    have happ := @Proper.apart cfg p [] hcfg
    rw [List.append_nil] at happ
    exact happ.1 (hstart.trans hq)
  rw [isFile_of_get_eq (get_rename_of_not_below (hapart _) (hapart _)),
    hbuilt.attempted.isFile_eq (hapart _), hd.way q hq]

theorem expectedFiles_snapshotManifest {counted : ℕ} {files : Json} :
    expectedFiles (snapshotManifest cfg request counted files) = .ok files := by
  simp [snapshotManifest, Json.ofFields, expectedFiles, getKey_setKey]

/-- The data of a kept snapshot that passes its verification is what the snapshot was taken of. -/
theorem Kept.content_data (hcfg : Proper cfg) (hsha : Function.Injective cfg.sha256)
    (hcodec : ∀ j, cfg.codec.parse (cfg.codec.print j) = some j) (hkept : Kept cfg d id a)
    (hd : Ordinary cfg d) (hverified : Verified cfg id d) :
    content d (cfg.snapshotsRoot ++ [id, "data"] ++ p) = a p := by
  obtain ⟨d₀, request, counted, hd₀, ha, hmanifest⟩ := hkept.manifest
  obtain ⟨bytes, manifest, hget, hparse, hfiles⟩ := hverified
  rw [snapshotPlace_eq hcfg hkept.plain.1, List.append_assoc] at hget hfiles
  rw [List.cons_append, List.nil_append] at hget hfiles
  rw [hget] at hmanifest
  obtain rfl : bytes = _ := Node.file.inj (Option.some.inj hmanifest)
  rw [hcodec] at hparse
  obtain rfl := Option.some.inj hparse
  rw [expectedFiles_snapshotManifest] at hfiles
  rcases eq_or_ne p [] with rfl | hp
  · rw [← ha, List.append_nil, List.append_nil, hd₀.content_root, content, hkept.data]
  · rw [← ha]
    exact (content_of_fileEntries hsha hd₀.named hd.named (Except.ok.inj hfiles) hp).symm

theorem content_restored (hcfg : Proper cfg) (hkept : Kept cfg d id a) :
    content (restored cfg id d) (cfg.registryRoot ++ p) =
      content d (cfg.snapshotsRoot ++ [id, "data"] ++ p) := by
  have hdata : ∀ q, (d.removeAll cfg.registryRoot).get (cfg.snapshotsRoot ++ [id, "data"] ++ q) =
      d.get (cfg.snapshotsRoot ++ [id, "data"] ++ q) := by
    intro q
    have hapart := @Proper.apart cfg ([id, "data"] ++ q) [] hcfg
    rw [List.append_nil, ← List.append_assoc] at hapart
    exact get_removeAll_of_not_below hapart.2
  have hplace : snapshotPlace cfg id ++ ["data"] = cfg.snapshotsRoot ++ [id, "data"] := by
    rw [snapshotPlace_eq hcfg hkept.plain.1, List.append_assoc, List.cons_append, List.nil_append]
  rw [restored, hplace, content_afterCopy (fun q => by rw [content, get_removeAll_append]), content,
    content, hdata]
  have hnil := hdata []
  rw [List.append_nil, hkept.data] at hnil
  rw [isFile, hnil]
  rfl

end Kept

section Runs

/-- What happens to the registry and its snapshots. -/
inductive Event where
  /-- The registry is served, and its files change. -/
  | serve (d : Disk)
  /-- Something other than this program changes the data of a snapshot. -/
  | tamper (id : String) (d : Disk)
  | create (turn : Mishap) (body : Json) (now : String)
  | restore (turn : Mishap) (id now : String)

def step (cfg : RecoveryConfig) (h : Host) : Event → Host
  | .serve d => { h with disk := d }
  | .tamper _ d => { h with disk := d }
  | .create turn body now => (handleCreateRecoverySnapshot cfg turn body now h).2
  | .restore turn id now => (handleRestoreRecoverySnapshot cfg turn id now h).2

/-- Changes are those of one place; no error is overlooked; snapshots are named by one name. -/
def Allowed (cfg : RecoveryConfig) (h : Host) : Event → Prop
  | .serve d => AgreeOff (cfg.registryRoot <+: ·) h.disk d ∧ Ordinary cfg d
  | .tamper id d => Named d ∧ ∀ p, (∀ q, q ≠ [] → p ≠ cfg.snapshotsRoot ++ [id, "data"] ++ q) →
      d.get p = h.disk.get p
  | .create turn body _ => turn.Reported ∧ .writeManifest ∉ turn.fails ∧
      ∀ id, body.textField "snapshot_id" = some id → IsSnapshotId id
  | .restore turn _ _ => turn.Reported

/-- The event is answered as the creation of the snapshot with the id. -/
def Creates (cfg : RecoveryConfig) (h : Host) (id : String) : Event → Prop
  | .create turn body now =>
    ∃ response, (handleCreateRecoverySnapshot cfg turn body now h).1 = .ok response ∧
      Created id response
  | _ => False

/-- The event is answered as the restoration of the snapshot with the id. -/
def Restores (cfg : RecoveryConfig) (h : Host) (id : String) : Event → Prop
  | .restore turn id' now => id' = id ∧
    ∃ response, (handleRestoreRecoverySnapshot cfg turn id' now h).1 = .ok response ∧
      response.Succeeds
  | _ => False

/-- The registry is the live value, and the snapshots are its backups. -/
structure Represents (cfg : RecoveryConfig) (h : Host) (s : Backups String (Path → Option Bytes)) :
    Prop where
  ordinary : Ordinary cfg h.disk
  live : ∀ p, content h.disk (cfg.registryRoot ++ p) = s.live p
  kept : ∀ id a, s.kept id = some a → Kept cfg h.disk id a

variable {s : Backups String (Path → Option Bytes)} {e : Event}

theorem represents_of_ordinary (hd : Ordinary cfg h.disk) :
    Represents cfg h ⟨fun p => content h.disk (cfg.registryRoot ++ p), fun _ => none⟩ :=
  ⟨hd, fun _ => rfl, fun _ _ hkept => nomatch hkept⟩

/-- A change that leaves the snapshots alone is an edit of the registry. -/
theorem Represents.edit (hs : Represents cfg h s) (h' : Host) (hd : Ordinary cfg h'.disk)
    (hframe : ∀ id, id ≠ "_tmp" → ∀ entry ∈ ["snapshot.json", "data"],
      h'.disk.get (cfg.snapshotsRoot ++ [id, entry]) =
        h.disk.get (cfg.snapshotsRoot ++ [id, entry])) :
    Represents cfg h' ⟨fun p => content h'.disk (cfg.registryRoot ++ p), s.kept⟩ :=
  ⟨hd, fun _ => rfl, fun id a hkept =>
    (hs.kept id a hkept).frame (hframe id (hs.kept id a hkept).plain.2.2)⟩

theorem Represents.take (hcfg : Proper cfg) (hs : Represents cfg h s) (hid : IsSnapshotId id)
    (htook : Took cfg id h.disk h'.disk) (hnamed : Named h'.disk) :
    ∃ t, Backups.Step s (.keep id) t ∧ Represents cfg h' t := by
  have hlive : ∀ p, content h'.disk (cfg.registryRoot ++ p) = s.live p := fun p => by
    rw [content, htook.get_registry hcfg, ← hs.live, content]
  have hnew : s.kept id = none := by
    rw [Option.eq_none_iff_forall_ne_some]
    exact fun a hkept => htook.not_kept (hs.kept id a hkept)
  refine ⟨⟨s.live, Function.update s.kept id (some s.live)⟩,
    .keep hnew (Function.update_self ..) fun j hj => Function.update_of_ne hj .., ?_⟩
  refine ⟨hs.ordinary.of_took hcfg hnamed htook, hlive, fun j a hkept => ?_⟩
  by_cases hj : j = id
  · subst hj
    change Function.update s.kept j (some s.live) j = some a at hkept
    rw [Function.update_self] at hkept
    have hnewly := htook.kept hid hs.ordinary
    rwa [funext hs.live, Option.some.inj hkept] at hnewly
  · change Function.update s.kept id (some s.live) j = some a at hkept
    rw [Function.update_of_ne hj] at hkept
    have hold := hs.kept j a hkept
    refine hold.frame fun entry _ => htook.get_of_apart ?_ ?_ ?_
    · simp [List.prefix_append_right_inj, Ne.symm hold.plain.2.2]
    · simp [List.prefix_append_right_inj, hold.plain.2.2]
    · simp [List.prefix_append_right_inj, Ne.symm hj]

/-- A restoration that puts the data of a kept snapshot in the place of the registry. -/
theorem Represents.bringBack (hcfg : Proper cfg) (hsha : Function.Injective cfg.sha256)
    (hcodec : ∀ j, cfg.codec.parse (cfg.codec.print j) = some j) (hs : Represents cfg h s)
    (hkept : s.kept id = some a) (hd : Ordinary cfg h'.disk) (hverified : Verified cfg id h.disk)
    (hdisk : h'.disk = restored cfg id h.disk) : Represents cfg h' ⟨a, s.kept⟩ := by
  have hold := hs.kept id a hkept
  refine ⟨hd, fun p => ?_, fun j b hj => (hs.kept j b hj).frame fun entry _ => ?_⟩
  · rw [hdisk, content_restored hcfg hold,
      hold.content_data hcfg hsha hcodec hs.ordinary hverified]
  · rw [hdisk, get_snapshot_of_written hcfg writtenBelow_restored]

/-- A creation takes one snapshot and is answered as the creation of no other one, or it only works
in the temporary place and is not answered as a creation. -/
theorem taken_or_attempted {body : Json} {now : String} (hcfg : Proper cfg)
    (hd : Ordinary cfg h.disk) (he : Allowed cfg h (.create turn body now)) :
    (∃ id, IsSnapshotId id ∧ Took cfg id h.disk (step cfg h (.create turn body now)).disk ∧
      ∀ id', Creates cfg h id' (.create turn body now) → id = id') ∨
    Attempted cfg h.disk (step cfg h (.create turn body now)).disk ∧
      ∀ id, ¬ Creates cfg h id (.create turn body now) := by
  obtain ⟨hturn, hwrites, hid⟩ := he
  have hresult := result_of_wp (x := handleCreateRecoverySnapshot cfg turn body now)
    (P := fun r h' => (∃ id, IsSnapshotId id ∧ Took cfg id h.disk h'.disk ∧
      ∀ response, r = .ok response → response.Succeeds → Created id response) ∨
    Attempted cfg h.disk h'.disk ∧ ∀ response, r = .ok response → ¬ response.Succeeds)
    (wp_mono (wp_handleCreateRecoverySnapshot hcfg hturn hwrites hid hd.root)
      (fun response h' hend => ?_) fun e h' hend => ?_)
  · rcases hresult with ⟨id, hid, htook, hcreated⟩ | ⟨hattempted, hfailed⟩
    · refine .inl ⟨id, hid, htook, fun id' ⟨response, hok, hcreates⟩ => ?_⟩
      obtain ⟨message, payload, rfl, hpayload⟩ := hcreates
      obtain ⟨_, _, heq, hpayload'⟩ := hcreated _ hok ⟨message, payload, rfl⟩
      cases heq
      rw [hpayload] at hpayload'
      simpa using hpayload'.symm
    · refine .inr ⟨hattempted, fun id ⟨response, hok, hcreates⟩ => ?_⟩
      obtain ⟨message, payload, rfl, -⟩ := hcreates
      exact hfailed _ hok ⟨message, payload, rfl⟩
  · rcases hend with ⟨id, hid, htook, hcreated⟩ | ⟨hattempted, hfailed⟩
    · refine .inl ⟨id, hid, htook, fun response' heq => ?_⟩
      obtain rfl := Except.ok.inj heq
      exact hcreated
    · refine .inr ⟨hattempted, fun response' heq => ?_⟩
      obtain rfl := Except.ok.inj heq
      exact hfailed
  · rcases hend with ⟨id, hid, htook⟩ | hattempted
    · exact .inl ⟨id, hid, htook, fun _ heq => nomatch heq⟩
    · exact .inr ⟨hattempted, fun _ heq => nomatch heq⟩

/-- A restoration verifies the snapshot and puts its data in the place of the registry, or it is not
answered as a restoration. -/
theorem restored_or_refused {now : String} (he : Allowed cfg h (.restore turn id now)) :
    (Verified cfg id h.disk ∧ (step cfg h (.restore turn id now)).disk = restored cfg id h.disk) ∨
    WrittenBelow cfg.registryRoot h.disk (step cfg h (.restore turn id now)).disk ∧
      ∀ id', ¬ Restores cfg h id' (.restore turn id now) := by
  have hresult := result_of_wp (P := fun r h' =>
    (Verified cfg id h.disk ∧ h'.disk = restored cfg id h.disk) ∨
    WrittenBelow cfg.registryRoot h.disk h'.disk ∧
      ∀ response, r = .ok response → ¬ response.Succeeds)
    (wp_mono (@wp_handleRestoreRecoverySnapshot cfg turn id now h he)
      (fun response h' hend => ?_) fun e h' hend => .inr ⟨writtenBelow_of_refused hend,
        fun _ heq => nomatch heq⟩)
  · refine hresult.imp_right fun ⟨hwritten, hfailed⟩ => ⟨hwritten, fun id' hrestores => ?_⟩
    obtain ⟨-, response, hok, hsucceeds⟩ := hrestores
    exact hfailed _ hok hsucceeds
  · rcases hend with hend | ⟨hend, hfailed⟩
    · exact .inl hend
    · refine .inr ⟨writtenBelow_of_refused hend, fun response' heq => ?_⟩
      obtain rfl := Except.ok.inj heq
      exact hfailed

/-- The simulation: every event is an action on the registry and its backups, and what is answered
as a creation or as a restoration is one. -/
theorem Represents.step (hcfg : Proper cfg) (hsha : Function.Injective cfg.sha256)
    (hcodec : ∀ j, cfg.codec.parse (cfg.codec.print j) = some j) (hs : Represents cfg h s)
    (he : Allowed cfg h e) :
    ∃ b t, Backups.Step s b t ∧ Represents cfg (step cfg h e) t ∧
      (∀ id, Creates cfg h id e → b = .keep id) ∧
      ∀ id, Restores cfg h id e → (s.kept id).isSome → b = .bringBack id := by
  cases e with
  | serve d =>
    refine ⟨.edit, _, .edit, hs.edit { h with disk := d } he.2 fun id _ entry _ => ?_,
      fun _ => False.elim, fun _ => False.elim⟩
    exact get_snapshot_of_written hcfg (.of_agreeOff he.1)
  | tamper id d =>
    refine ⟨.edit, _, .edit, hs.edit { h with disk := d } ⟨he.1, fun q hq => ?_⟩
      fun j _ entry hentry => he.2 _ fun q hq => ?_, fun _ => False.elim, fun _ => False.elim⟩
    · rw [isFile_of_get_eq (he.2 q fun r _ => ?_), hs.ordinary.way q hq]
      rintro rfl
      have hapart := @Proper.apart cfg ([id, "data"] ++ r) [] hcfg
      rw [List.append_nil, ← List.append_assoc] at hapart
      exact hapart.1 hq
    · rw [List.append_assoc, Ne, List.append_cancel_left_eq]
      simp [hq.symm]
  | create turn body now =>
    have hnamed : Named (handleCreateRecoverySnapshot cfg turn body now h).2.disk :=
      keeps_handleCreateRecoverySnapshot hcfg he.2.2 h hs.ordinary.named
    rcases taken_or_attempted hcfg hs.ordinary he with
      ⟨id, hid, htook, hcreates⟩ | ⟨hattempted, hcreates⟩
    · obtain ⟨t, hstep, ht⟩ := hs.take hcfg hid htook hnamed
      exact ⟨.keep id, t, hstep, ht, fun id' h' => congrArg _ (hcreates id' h'),
        fun _ => False.elim⟩
    · exact ⟨.edit, _, .edit, hs.edit _ (hs.ordinary.of_attempted hcfg hnamed hattempted)
        fun id hid entry _ => get_snapshot_of_attempted hid hattempted,
        fun id h' => (hcreates id h').elim, fun _ => False.elim⟩
  | restore turn id now =>
    have hordinary : Ordinary cfg (handleRestoreRecoverySnapshot cfg turn id now h).2.disk :=
      keeps_handleRestoreRecoverySnapshot hcfg h hs.ordinary
    rcases restored_or_refused he with ⟨hverified, hdisk⟩ | ⟨hwritten, hrefused⟩
    · cases hkept : s.kept id with
      | some a =>
        exact ⟨.bringBack id, ⟨a, s.kept⟩, .bringBack hkept,
          hs.bringBack hcfg hsha hcodec hkept hordinary hverified hdisk, fun _ => False.elim,
          fun id' hrestores _ => congrArg _ hrestores.1⟩
      | none =>
        refine ⟨.edit, _, .edit, hs.edit _ hordinary fun j _ entry _ => ?_, fun _ => False.elim,
          fun id' hrestores hsome => ?_⟩
        · exact get_snapshot_of_written hcfg (hdisk ▸ writtenBelow_restored)
        · rw [← hrestores.1, hkept] at hsome
          cases hsome
    · exact ⟨.edit, _, .edit, hs.edit _ hordinary fun j _ entry _ =>
        get_snapshot_of_written hcfg hwritten, fun _ => False.elim,
        fun id' hrestores _ => (hrefused id' hrestores).elim⟩

/-- A run of the registry is a run of the live value with its backups. -/
theorem Represents.run {l : List Event} (hcfg : Proper cfg) (hsha : Function.Injective cfg.sha256)
    (hcodec : ∀ j, cfg.codec.parse (cfg.codec.print j) = some j) (hs : Represents cfg h s)
    (hl : Along (Recovery.step cfg) (Allowed cfg) l h) :
    ∃ t, Backups.Steps s t ∧ Represents cfg (l.foldl (Recovery.step cfg) h) t := by
  induction l generalizing h s with
  | nil => exact ⟨s, .refl, hs⟩
  | cons e l ih =>
    obtain ⟨b, t, hstep, ht, -, -⟩ := hs.step hcfg hsha hcodec hl.1
    obtain ⟨u, hrun, hu⟩ := ih ht hl.2
    exact ⟨u, hrun.head ⟨b, hstep⟩, hu⟩

end Runs

end StyioPlatform.Recovery
