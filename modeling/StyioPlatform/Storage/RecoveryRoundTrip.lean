import StyioPlatform.Storage.RecoveryRuns

/-! A snapshot brings back the registry that it was taken of, exactly as long as nothing has touched
its data. -/
namespace StyioPlatform.Recovery

open Prog FileTree
open Registry (Path Bytes IsPlainId)

variable {cfg : RecoveryConfig} {turn : Mishap} {d d' : Disk} {p q : Path} {id now : String}
  {h : Host} {a : Path → Option Bytes} {s : Backups String (Path → Option Bytes)}

/-- What the run up to the restoration comes to. -/
theorem Represents.taken {taking : Event} (between : List Event) (hcfg : Proper cfg)
    (hsha : Function.Injective cfg.sha256)
    (hcodec : ∀ j, cfg.codec.parse (cfg.codec.print j) = some j) (hs : Represents cfg h s)
    (hrun : Along (Recovery.step cfg) (Allowed cfg) (taking :: between) h)
    (htaken : Creates cfg h id taking) :
    ∃ t u, Backups.Step s (.keep id) t ∧ Backups.Steps t u ∧
      Represents cfg (between.foldl (Recovery.step cfg) (Recovery.step cfg h taking)) u := by
  obtain ⟨b, t, hstep, ht, hkeep, -⟩ := hs.step hcfg hsha hcodec hrun.1
  obtain ⟨u, hsteps, hu⟩ := ht.run hcfg hsha hcodec hrun.2
  rw [hkeep id htaken] at hstep
  exact ⟨t, u, hstep, hsteps, hu⟩

/-- Whatever happened since, a restoration makes the files of the registry those that it had when
the snapshot was taken. -/
theorem restored_as_taken (taking restoring : Event) (between : List Event) (hcfg : Proper cfg)
    (hsha : Function.Injective cfg.sha256)
    (hcodec : ∀ j, cfg.codec.parse (cfg.codec.print j) = some j) (hd : Ordinary cfg h.disk)
    (hrun : Along (step cfg) (Allowed cfg) (taking :: between) h)
    (htaken : Creates cfg h id taking)
    (hallowed : Allowed cfg (between.foldl (step cfg) (step cfg h taking)) restoring)
    (hrestored : Restores cfg (between.foldl (step cfg) (step cfg h taking)) id restoring) :
    ∀ p, content (step cfg (between.foldl (step cfg) (step cfg h taking)) restoring).disk
      (cfg.registryRoot ++ p) = content h.disk (cfg.registryRoot ++ p) := by
  obtain ⟨t, u, hkeep, hsteps, hu⟩ :=
    (represents_of_ordinary hd).taken between hcfg hsha hcodec hrun htaken
  obtain ⟨b, v, hstep, hv, -, hback⟩ := hu.step hcfg hsha hcodec hallowed
  have hkept := hsteps.kept_mono hkeep.kept_of_keep
  rw [hback id hrestored (by rw [hkept]; rfl)] at hstep
  intro p
  rw [hv.live, Backups.live_of_bringBack hkeep hsteps hstep]

section Untouched

/-- A creation that is answered with success has put the snapshot in its place. -/
theorem took_of_creates {e : Event} (hcfg : Proper cfg) (hd : Ordinary cfg h.disk)
    (he : Allowed cfg h e) (hcreates : Creates cfg h id e) :
    Took cfg id h.disk (step cfg h e).disk := by
  cases e with
  | create turn body now =>
    obtain ⟨response, hok, message, payload, rfl, hpayload⟩ := hcreates
    have hrun : handleCreateRecoverySnapshot cfg turn body now h = (.ok (.success message payload),
        (handleCreateRecoverySnapshot cfg turn body now h).2) := Prod.ext hok rfl
    rcases (wp_handleCreateRecoverySnapshot hcfg he.1 he.2.1 he.2.2 hd.root).of_ok hrun with
      ⟨id', -, htook, hcreated⟩ | ⟨-, hfailed⟩
    · obtain ⟨_, _, heq, hpayload'⟩ := hcreated ⟨message, payload, rfl⟩
      cases heq
      rw [hpayload] at hpayload'
      obtain rfl : id = id' := by simpa using hpayload'
      exact htook
    · exact (hfailed ⟨message, payload, rfl⟩).elim
  | _ => exact hcreates.elim

/-- The data lists as the files that the snapshot was taken of. -/
theorem Kept.verified (hcfg : Proper cfg)
    (hcodec : ∀ j, cfg.codec.parse (cfg.codec.print j) = some j) (hkept : Kept cfg d id a)
    (hdata : ∀ p, content d (cfg.snapshotsRoot ++ [id, "data"] ++ p) = a p) :
    Verified cfg id d := by
  obtain ⟨d₀, request, counted, hd₀, ha, hmanifest⟩ := hkept.manifest
  have hentries : fileEntries cfg d₀ cfg.registryRoot =
      fileEntries cfg d (cfg.snapshotsRoot ++ [id, "data"]) :=
    fileEntries_congr fun p _ => by rw [ha, hdata]
  refine ⟨_, snapshotManifest cfg request counted (fileEntries cfg d₀ cfg.registryRoot), ?_,
    hcodec _, ?_⟩
  · rw [snapshotPlace_eq hcfg hkept.plain.1, List.append_assoc, List.cons_append, List.nil_append]
    exact hmanifest
  · rw [expectedFiles_snapshotManifest, hentries, snapshotPlace_eq hcfg hkept.plain.1,
      List.append_assoc, List.cons_append, List.nil_append]

theorem occupied_of_get {node : Node} (hget : d.get p = some node) : occupied d p = true := by
  simp [occupied, hget]

theorem eq_ok_of_wp {α : Type} {x : RecoveryProgram α} {v : α} {t : Host}
    (h' : wp x (fun b u => (b, u) = (v, t)) (fun _ _ => False) h) : x h = (.ok v, t) := by
  unfold wp at h'
  rcases hx : x h with ⟨_ | b, u⟩
  · rw [hx] at h'
    exact h'.elim
  · rw [hx] at h'
    obtain ⟨rfl, rfl⟩ := Prod.mk.inj h'
    rfl

theorem readJsonFile_ok {call : SystemCall} {bytes : Bytes} {j : Json}
    (hget : h.disk.get p = some (.file bytes)) (hparse : cfg.codec.parse bytes = some j) :
    readJsonFile cfg {} call p h = (.ok j, h) := by
  have hwp : wp (readJsonFile cfg {} call p) (fun a t => (a, t) = (j, h)) (fun _ _ => False) h := by
    simp only [readJsonFile, wp_bind, wp_require, wp_disk, hget, hparse, typed, wp_ofExcept]
    exact ⟨fun _ => ⟨fun a ha => by rw [Except.ok.inj ha], fun e he => by cases he⟩,
      fun hfails => (hfails (by simp)).elim⟩
  exact eq_ok_of_wp hwp

theorem fileManifest_ok {call : SystemCall} :
    fileManifest cfg {} call p h = (.ok (fileEntries cfg h.disk p), h) := by
  have hwp : wp (fileManifest cfg {} call p) (fun a t => (a, t) = (fileEntries cfg h.disk p, h))
      (fun _ _ => False) h := by
    simp only [fileManifest, mayThrow, List.not_mem_nil, if_false, wp_bind, wp_require, wp_disk,
      wp_pure]
    exact ⟨fun _ => trivial, fun hfails => (hfails not_false).elim⟩
  exact eq_ok_of_wp hwp

/-- Nothing is in the way of a copy to the place of a directory that was removed. -/
theorem not_obstructs_removed {source root : Path} (hd : ∀ r, r ≠ [] → d.get (root ++ r) = none)
    (hroot : d.get root = some .directory) : obstructs d root (copied d' source) q = false := by
  have hfile : ∀ r, isFile d (root ++ r) = false := by
    intro r
    rcases eq_or_ne r [] with rfl | hr
    · rw [isFile, List.append_nil, hroot]
      rfl
    · rw [isFile, hd r hr]
      rfl
  have habsent : ∀ r, r ≠ [] → directoryAt d (root ++ r) = false := by
    intro r hr
    have hbelow : d.isDirectory (root ++ r) = false := by
      rw [Bool.eq_false_iff]
      intro hdirectory
      obtain ⟨t, node, -, hget⟩ := isDirectory_iff.mp hdirectory
      rw [List.append_assoc, hd _ (by simp [hr])] at hget
      cases hget
    rw [directoryAt, occupied, hd r hr, hbelow]
    rfl
  rw [obstructs, Bool.or_eq_false_iff]
  constructor
  · split
    · next hisFile =>
      refine habsent q fun hnil => ?_
      obtain ⟨bytes, hget⟩ := isFile_iff.mp hisFile
      exact get_copied_nil (hnil ▸ hget)
    · exact hfile q
  · rw [List.any_eq_false]
    intro r _
    rw [hfile r]
    exact Bool.false_ne_true

/-- Without an error a copy to a place that was cleared goes through. -/
theorem wp_copyTree_cleared {create copy : SystemCall} {source root : Path}
    (hway : ∀ q ∈ root.inits, isFile h.disk q = false)
    (hclear : ∀ r, h.disk.get (root ++ r) = none) :
    wp (copyTree {} create copy source root) (fun _ _ => True) (fun _ _ => False) h := by
  have hroot : (withDirectories h.disk root).get root = some .directory := by
    have hnone := hclear []
    rw [List.append_nil] at hnone
    simp [hnone]
  have hnone : ∀ r, r ≠ [] → (withDirectories h.disk root).get (root ++ r) = none := by
    intro r hr
    rw [get_withDirectories, hclear, Option.none_or, if_neg]
    exact fun hbelow => hr (List.append_right_eq_self.mp (hbelow.eq_of_length_le (by simp)))
  simp only [copyTree, createDirectories, mayThrow, wp_bind, wp_require, wp_disk, wp_modifyDisk,
    wp_ite, wp_pure, wp_fail]
  refine ⟨fun _ => ⟨fun _ => ⟨fun _ => trivial, fun _ => ⟨fun hstops => ?_, fun _ => trivial⟩⟩,
    fun hfile => hfile hway⟩, fun hfails => hfails (by simp)⟩
  rcases hstops with hfails | ⟨q, -, hobstructs⟩
  · exact absurd hfails (by simp)
  · rw [not_obstructs_removed hnone hroot] at hobstructs
    cases hobstructs

/-- Without an error of the operating system a snapshot that passes its verification is restored. -/
theorem wp_restore_verified (hcfg : Proper cfg) (hd : Ordinary cfg h.disk)
    (hkept : Kept cfg h.disk id a) (hverified : Verified cfg id h.disk) :
    wp (restoreFilesystemSnapshot cfg {} id now) (fun _ _ => True) (fun _ _ => False) h := by
  obtain ⟨bytes, manifest, hget, hparse, hfiles⟩ := hverified
  have hdata : h.disk.get (snapshotPlace cfg id ++ ["data"]) = some .directory := by
    rw [snapshotPlace_eq hcfg hkept.plain.1, List.append_assoc, List.cons_append, List.nil_append,
      hkept.data]
  rw [restoreFilesystemSnapshot]
  simp only [mayThrow, wp_bind, wp_require, wp_disk]
  refine ⟨fun _ => ⟨fun _ => ⟨fun _ => ?_, fun hmissing => ?_⟩, fun hfails => hfails (by simp)⟩,
    fun hne => hne hkept.plain.1.1.1⟩
  swap
  · exact hmissing ⟨occupied_of_get hget, occupied_of_get hdata⟩
  rw [wp_of_eq_ok (readJsonFile_ok hget hparse), wp_ofExcept]
  refine ⟨fun expected hexpected => ?_, fun e he => by rw [hfiles] at he; cases he⟩
  obtain rfl := Except.ok.inj (hfiles.symm.trans hexpected)
  rw [wp_of_eq_ok fileManifest_ok]
  refine ⟨fun _ => wp_removeAll rfl ?_, fun hne => hne rfl⟩
  refine wp_mono (wp_copyTree_cleared (fun q hq => ?_) fun r => get_removeAll_append)
    (fun _ _ _ => trivial) fun _ _ hfalse => hfalse
  exact isFile_restrict (hd.way q ((List.mem_inits _ _).mp hq))

theorem wp_handleRestore_verified (hcfg : Proper cfg) (hd : Ordinary cfg h.disk)
    (hkept : Kept cfg h.disk id a) (hverified : Verified cfg id h.disk) :
    wp (handleRestoreRecoverySnapshot cfg {} id now) (fun response _ => response.Succeeds)
      (fun _ _ => False) h := by
  rw [handleRestoreRecoverySnapshot, wp_handle, wp_bind]
  refine wp_mono (wp_restore_verified hcfg hd hkept hverified) (fun snapshot t _ => ?_)
    fun _ _ hfalse => hfalse.elim
  simp only [recordRegistryAudit, mayThrow, wp_bind, wp_require, wp_modify, wp_pure]
  exact ⟨fun _ => ⟨_, _, rfl⟩, fun hfails => (hfails (by simp)).elim⟩

theorem restores_of_verified (hcfg : Proper cfg) (hd : Ordinary cfg h.disk)
    (hkept : Kept cfg h.disk id a) (hverified : Verified cfg id h.disk) :
    Restores cfg h id (.restore {} id now) :=
  ⟨rfl, result_of_wp (P := fun r _ => ∃ response, r = .ok response ∧ response.Succeeds)
    (wp_mono (wp_handleRestore_verified hcfg hd hkept hverified)
      (fun response _ hresponse => ⟨response, rfl, hresponse⟩) fun _ _ hfalse => hfalse.elim)⟩

/-- While no call reports an error, a snapshot is restored exactly when its data is still what it
was taken of, and otherwise the disk stays as it is. -/
theorem restored_iff_untouched (taking : Event) (between : List Event) (hcfg : Proper cfg)
    (hsha : Function.Injective cfg.sha256)
    (hcodec : ∀ j, cfg.codec.parse (cfg.codec.print j) = some j) (hd : Ordinary cfg h.disk)
    (hrun : Along (step cfg) (Allowed cfg) (taking :: between) h) (htaken : Creates cfg h id taking)
    {h' : Host} (hh' : h' = between.foldl (step cfg) (step cfg h taking)) :
    (Restores cfg h' id (.restore {} id now) ↔
      ∀ p, content h'.disk (cfg.snapshotsRoot ++ [id, "data"] ++ p) =
        content h.disk (cfg.registryRoot ++ p)) ∧
    (¬ Restores cfg h' id (.restore {} id now) →
      (step cfg h' (.restore {} id now)).disk = h'.disk) := by
  obtain ⟨t, u, hkeep, hsteps, hu⟩ :=
    (represents_of_ordinary hd).taken between hcfg hsha hcodec hrun htaken
  rw [← hh'] at hu
  have hkept : Kept cfg h'.disk id fun p => content h.disk (cfg.registryRoot ++ p) :=
    hu.kept id _ (hsteps.kept_mono hkeep.kept_of_keep)
  have hends := result_of_wp (P := fun r t => Verified cfg id h'.disk ∨
      t.disk = h'.disk ∧ ∀ response, r = .ok response → ¬ response.Succeeds)
    (wp_mono (@wp_handleRestoreRecoverySnapshot cfg {} id now h' ⟨rfl, rfl⟩)
      (fun response t ht => ?_) fun e t ht => ?_)
  · have hsucceeds : Verified cfg id h'.disk → Restores cfg h' id (.restore {} id now) :=
      restores_of_verified hcfg hu.ordinary hkept
    have honly : Restores cfg h' id (.restore {} id now) → Verified cfg id h'.disk := by
      rintro ⟨-, response, hok, hresponse⟩
      rcases hends with hverified | ⟨-, hfailed⟩
      · exact hverified
      · exact (hfailed response hok hresponse).elim
    refine ⟨⟨fun hrestores p => ?_, fun hdata => hsucceeds (hkept.verified hcfg hcodec hdata)⟩,
      fun hrefused => ?_⟩
    · exact hkept.content_data hcfg hsha hcodec hu.ordinary (honly hrestores)
    · rcases hends with hverified | ⟨hdisk, -⟩
      · exact (hrefused (hsucceeds hverified)).elim
      · exact hdisk
  · rcases ht with ht | ⟨ht | ht, hfailed⟩
    · exact .inl ht.1
    · refine .inr ⟨ht, fun response' heq => ?_⟩
      obtain rfl := Except.ok.inj heq
      exact hfailed
    · exact .inl ht.1
  · rcases ht with ht | ht
    · exact .inr ⟨ht, fun _ heq => nomatch heq⟩
    · exact .inl ht.1

end Untouched

section Sample

/-- A number as bytes, so that one can see where it ends. -/
def numberCode (n : ℕ) : Bytes := List.replicate n 1 ++ [0]

def textCode (s : String) : Bytes :=
  numberCode s.toList.length ++ s.toList.flatMap fun c => numberCode c.toNat

mutual

/-- A text form of JSON values. -/
def jsonCode : Json → Bytes
  | .null => numberCode 0
  | .bool b => numberCode 1 ++ numberCode b.toNat
  | .int n => numberCode 2 ++ (numberCode n.toNat ++ numberCode (-n).toNat)
  | .float x =>
    numberCode 3 ++ (numberCode x.num.toNat ++ (numberCode (-x.num).toNat ++ numberCode x.den))
  | .string s => numberCode 4 ++ textCode s
  | .array l => numberCode 5 ++ elementsCode l
  | .object l => numberCode 6 ++ fieldsCode l

def elementsCode : List Json → Bytes
  | [] => numberCode 0
  | j :: l => numberCode 1 ++ (jsonCode j ++ elementsCode l)

def fieldsCode : List (String × Json) → Bytes
  | [] => numberCode 0
  | x :: l => numberCode 1 ++ (textCode x.1 ++ (jsonCode x.2 ++ fieldsCode l))

end

variable {m n : ℕ} {r r' : Bytes}

theorem numberCode_append (h : numberCode m ++ r = numberCode n ++ r') : m = n ∧ r = r' := by
  induction m generalizing n with
  | zero => cases n <;> simp_all [numberCode, List.replicate_succ]
  | succ m ih =>
    cases n with
    | zero => simp [numberCode, List.replicate_succ] at h
    | succ n =>
      obtain ⟨rfl, rfl⟩ := ih (n := n) (by simpa [numberCode, List.replicate_succ] using h)
      exact ⟨rfl, rfl⟩

theorem textCode_append {s s' : String} (h : textCode s ++ r = textCode s' ++ r') :
    s = s' ∧ r = r' := by
  have hchars : ∀ l l' : List Char, l.length = l'.length →
      (l.flatMap fun c => numberCode c.toNat) ++ r =
        (l'.flatMap fun c => numberCode c.toNat) ++ r' → l = l' ∧ r = r' := by
    intro l
    induction l with
    | nil =>
      intro l' hlength hcode
      obtain rfl := List.length_eq_zero_iff.mp hlength.symm
      exact ⟨rfl, hcode⟩
    | cons c l ih =>
      intro l' hlength hcode
      cases l' with
      | nil => cases hlength
      | cons c' l' =>
        simp only [List.flatMap_cons, List.append_assoc] at hcode
        obtain ⟨hchar, hrest⟩ := numberCode_append hcode
        obtain ⟨rfl, hr⟩ := ih l' (by simpa using hlength) hrest
        exact ⟨by rw [Char.toNat_inj.mp hchar], hr⟩
  rw [textCode, textCode, List.append_assoc, List.append_assoc] at h
  obtain ⟨hlength, hrest⟩ := numberCode_append h
  obtain ⟨hlist, hr⟩ := hchars _ _ hlength hrest
  exact ⟨String.toList_inj.mp hlist, hr⟩

mutual

theorem jsonCode_append : (j j' : Json) → (r r' : Bytes) → jsonCode j ++ r = jsonCode j' ++ r' →
    j = j' ∧ r = r'
  | .array l, j', r, r', h => by
    cases j' <;> simp only [jsonCode, List.append_assoc] at h <;>
      obtain ⟨hkind, h⟩ := numberCode_append h <;> try cases hkind
    obtain ⟨rfl, hr⟩ := elementsCode_append l _ _ _ h
    exact ⟨rfl, hr⟩
  | .object l, j', r, r', h => by
    cases j' <;> simp only [jsonCode, List.append_assoc] at h <;>
      obtain ⟨hkind, h⟩ := numberCode_append h <;> try cases hkind
    obtain ⟨rfl, hr⟩ := fieldsCode_append l _ _ _ h
    exact ⟨rfl, hr⟩
  | .null, j', r, r', h => by
    cases j' <;> simp only [jsonCode, List.append_assoc] at h <;>
      obtain ⟨hkind, h⟩ := numberCode_append h <;> try cases hkind
    exact ⟨rfl, h⟩
  | .bool b, j', r, r', h => by
    cases j' <;> simp only [jsonCode, List.append_assoc] at h <;>
      obtain ⟨hkind, h⟩ := numberCode_append h <;> try cases hkind
    obtain ⟨hbool, hr⟩ := numberCode_append h
    refine ⟨congrArg Json.bool (Bool.eq_iff_iff.mpr ?_), hr⟩
    rw [← Bool.toNat_eq_one, hbool, Bool.toNat_eq_one]
  | .int n, j', r, r', h => by
    cases j' <;> simp only [jsonCode, List.append_assoc] at h <;>
      obtain ⟨hkind, h⟩ := numberCode_append h <;> try cases hkind
    obtain ⟨hpos, h⟩ := numberCode_append h
    obtain ⟨hneg, hr⟩ := numberCode_append h
    exact ⟨congrArg Json.int (by omega), hr⟩
  | .float x, j', r, r', h => by
    cases j' <;> simp only [jsonCode, List.append_assoc] at h <;>
      obtain ⟨hkind, h⟩ := numberCode_append h <;> try cases hkind
    obtain ⟨hpos, h⟩ := numberCode_append h
    obtain ⟨hneg, h⟩ := numberCode_append h
    obtain ⟨hden, hr⟩ := numberCode_append h
    exact ⟨congrArg Json.float (Rat.ext (by omega) hden), hr⟩
  | .string s, j', r, r', h => by
    cases j' <;> simp only [jsonCode, List.append_assoc] at h <;>
      obtain ⟨hkind, h⟩ := numberCode_append h <;> try cases hkind
    obtain ⟨rfl, hr⟩ := textCode_append h
    exact ⟨rfl, hr⟩

theorem elementsCode_append : (l l' : List Json) → (r r' : Bytes) →
    elementsCode l ++ r = elementsCode l' ++ r' → l = l' ∧ r = r'
  | [], l', r, r', h => by
    cases l' <;> simp only [elementsCode, List.append_assoc] at h <;>
      obtain ⟨hkind, h⟩ := numberCode_append h <;> try cases hkind
    exact ⟨rfl, h⟩
  | j :: l, l', r, r', h => by
    cases l' <;> simp only [elementsCode, List.append_assoc] at h <;>
      obtain ⟨hkind, h⟩ := numberCode_append h <;> try cases hkind
    obtain ⟨rfl, hrest⟩ := jsonCode_append j _ _ _ h
    obtain ⟨rfl, hr⟩ := elementsCode_append l _ _ _ hrest
    exact ⟨rfl, hr⟩

theorem fieldsCode_append : (l l' : List (String × Json)) → (r r' : Bytes) →
    fieldsCode l ++ r = fieldsCode l' ++ r' → l = l' ∧ r = r'
  | [], l', r, r', h => by
    cases l' <;> simp only [fieldsCode, List.append_assoc] at h <;>
      obtain ⟨hkind, h⟩ := numberCode_append h <;> try cases hkind
    exact ⟨rfl, h⟩
  | x :: l, l', r, r', h => by
    cases l' <;> simp only [fieldsCode, List.append_assoc] at h <;>
      obtain ⟨hkind, h⟩ := numberCode_append h <;> try cases hkind
    obtain ⟨hkey, h⟩ := textCode_append h
    obtain ⟨hvalue, h⟩ := jsonCode_append x.2 _ _ _ h
    obtain ⟨rfl, hr⟩ := fieldsCode_append l _ _ _ h
    exact ⟨by rw [Prod.ext hkey hvalue], hr⟩

end

theorem jsonCode_injective : Function.Injective jsonCode := fun j j' h =>
  (jsonCode_append j j' [] [] (by rw [h])).1

open Classical in
/-- Reads what it has written, and nothing else. -/
noncomputable def sampleCodec : Registry.JsonCodec where
  parse bytes := if h : ∃ j, jsonCode j = bytes then some h.choose else none
  print := jsonCode

theorem sampleCodec_reads (j : Json) : sampleCodec.parse (sampleCodec.print j) = some j := by
  have hex : ∃ k, jsonCode k = jsonCode j := ⟨j, rfl⟩
  exact (dif_pos hex).trans (congrArg some (jsonCode_injective hex.choose_spec))

noncomputable def sampleConfig : RecoveryConfig where
  registryRoot := ["srv", "registry"]
  sha256 bytes := String.ofList (bytes.map fun b => Char.ofNat b.toNat)
  codec := sampleCodec

/-- A registry of one file. -/
def sampleHost : Host := ⟨FileTree.empty.put ["srv", "registry", "config.json"] (.file [1]), []⟩

def sampleBody : Json := .object [("snapshot_id", .string "before-upgrade")]

theorem sampleConfig_proper : Proper sampleConfig :=
  ⟨⟨["srv"], "registry", rfl, by decide⟩, by decide +kernel⟩

theorem sampleConfig_sha256 : Function.Injective sampleConfig.sha256 := by
  have hchar : ∀ n < 256, (Char.ofNat n).toNat = n := by decide +kernel
  refine fun l l' h => List.map_injective_iff.mpr (fun b c hbc => ?_) (String.ofList_inj.mp h)
  have hcode := congrArg Char.toNat hbc
  rw [hchar _ b.toNat_lt, hchar _ c.toNat_lt] at hcode
  exact UInt8.toNat_inj.mp hcode

theorem sampleHost_ordinary : Ordinary sampleConfig sampleHost.disk := by
  refine ⟨fun p hsome => ?_, fun q hq => ?_⟩
  swap
  · have hway : ∀ q ∈ sampleConfig.registryRoot.inits, isFile sampleHost.disk q = false := by
      decide +kernel
    exact hway q ((List.mem_inits _ _).mpr hq)
  have hnames : ∀ q ∈ sampleHost.disk.support, ∀ name ∈ q, IsPlainId name := by decide +kernel
  exact hnames p ((FileTree.mem_support _ _).mpr hsome)

def sampleTaking : Event := .create {} sampleBody "2026-01-01"

theorem sampleTaking_creates : Creates sampleConfig sampleHost "before-upgrade" sampleTaking := by
  have hcreated : (handleCreateRecoverySnapshot sampleConfig {} sampleBody "2026-01-01"
      sampleHost).1.toOption.bind Response.createdId = some (.string "before-upgrade") := by
    decide +kernel
  obtain ⟨response, hanswer, hid⟩ := Option.bind_eq_some_iff.mp hcreated
  exact ⟨response, eq_ok_of_toOption hanswer, created_iff.mpr hid⟩

theorem sampleTaking_allowed : Allowed sampleConfig sampleHost sampleTaking := by
  refine ⟨⟨rfl, rfl⟩, by simp, fun id hid => ?_⟩
  have hfield : sampleBody.textField "snapshot_id" = some "before-upgrade" := by decide
  rw [hfield] at hid
  obtain rfl := Option.some.inj hid
  decide +kernel

/-- The registry after the snapshot, with another content of its file. -/
noncomputable def sampleServed : Disk :=
  (step sampleConfig sampleHost sampleTaking).disk.put ["srv", "registry", "config.json"]
    (.file [2])

theorem sampleServed_allowed :
    Allowed sampleConfig (step sampleConfig sampleHost sampleTaking) (.serve sampleServed) := by
  obtain ⟨b, t, -, ht, -, -⟩ := (represents_of_ordinary sampleHost_ordinary).step
    sampleConfig_proper sampleConfig_sha256 sampleCodec_reads sampleTaking_allowed
  refine ⟨AgreeOff.refl.put (by decide +kernel),
    named_put ht.ordinary.named (by decide +kernel), fun q hq => ?_⟩
  have hne : q ≠ ["srv", "registry", "config.json"] := by
    rintro rfl
    exact absurd hq (by decide +kernel)
  rw [sampleServed, isFile_of_get_eq (get_put_of_ne hne), ht.ordinary.way q hq]

/-- The data of the snapshot is what it was taken of. -/
theorem sampleServed_data :
    content sampleServed (sampleConfig.snapshotsRoot ++ ["before-upgrade", "data"] ++ p) =
      content sampleHost.disk (sampleConfig.registryRoot ++ p) := by
  have hsame : sampleServed.get (sampleConfig.snapshotsRoot ++ ["before-upgrade", "data"] ++ p) =
      (step sampleConfig sampleHost sampleTaking).disk.get
        (sampleConfig.snapshotsRoot ++ ["before-upgrade", "data"] ++ p) := by
    rw [List.append_assoc]
    exact get_snapshot_of_written sampleConfig_proper (.of_agreeOff sampleServed_allowed.1)
  have htook := took_of_creates sampleConfig_proper sampleHost_ordinary sampleTaking_allowed
    sampleTaking_creates
  rw [content, hsame, ← htook.content_data, content]

theorem sampleServed_restores : Restores sampleConfig
    (step sampleConfig (step sampleConfig sampleHost sampleTaking) (.serve sampleServed))
    "before-upgrade" (.restore {} "before-upgrade" "2026-01-03") := by
  obtain ⟨t, u, hkeep, hsteps, hu⟩ := (represents_of_ordinary sampleHost_ordinary).taken
    [.serve sampleServed] sampleConfig_proper sampleConfig_sha256 sampleCodec_reads
    ⟨sampleTaking_allowed, sampleServed_allowed, trivial⟩ sampleTaking_creates
  have hkept := hu.kept _ _ (hsteps.kept_mono hkeep.kept_of_keep)
  exact restores_of_verified sampleConfig_proper hu.ordinary hkept
    (hkept.verified sampleConfig_proper sampleCodec_reads fun _ => sampleServed_data)

/-- A snapshot, a change of the registry and a restoration. -/
theorem restored_as_taken_sample : content (step sampleConfig (step sampleConfig
      (step sampleConfig sampleHost sampleTaking) (.serve sampleServed))
      (.restore {} "before-upgrade" "2026-01-03")).disk
    (sampleConfig.registryRoot ++ ["config.json"]) = some [1] := by
  have htaken : content sampleHost.disk (sampleConfig.registryRoot ++ ["config.json"]) =
      some [1] := by decide +kernel
  exact (restored_as_taken sampleTaking (.restore {} "before-upgrade" "2026-01-03")
    [.serve sampleServed] sampleConfig_proper sampleConfig_sha256
    sampleCodec_reads sampleHost_ordinary ⟨sampleTaking_allowed, sampleServed_allowed, trivial⟩
    sampleTaking_creates ⟨rfl, rfl⟩ sampleServed_restores _).trans htaken

/-- The same run: the snapshot is restored as long as its data is untouched. -/
theorem restored_iff_untouched_sample : Restores sampleConfig
    (step sampleConfig (step sampleConfig sampleHost sampleTaking) (.serve sampleServed))
    "before-upgrade" (.restore {} "before-upgrade" "2026-01-03") :=
  (restored_iff_untouched sampleTaking [.serve sampleServed] sampleConfig_proper sampleConfig_sha256
    sampleCodec_reads sampleHost_ordinary ⟨sampleTaking_allowed, sampleServed_allowed, trivial⟩
    sampleTaking_creates rfl).1.mpr fun _ => sampleServed_data

end Sample

end StyioPlatform.Recovery
