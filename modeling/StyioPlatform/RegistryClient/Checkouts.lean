import StyioPlatform.Lib.Runs
import StyioPlatform.RegistryClient.Containment

/-! What the client returns is complete: a checkout with the marker holds every member of an
artifact with the digest of the record, over every run of calls, failed ones among them. -/
namespace StyioPlatform.RegistryClient

open Manifest Prog FileTree

section Areas

/-! Each operation changes files only below the directories that it is for. -/

variable {root p : Path} {d : Disk} {turn : Turn} {content : Content} {names : Path}

/-- The files below the directory are the only ones that changed since `d`. -/
def StaysOff (root : Path) (d : Disk) (s : State) : Prop := AgreeOff (normal root <+: ·) d s.disk

theorem keeps_off_changeDisk {f : Disk → Disk} (h : ∀ d, AgreeOff (normal root <+: ·) d (f d)) :
    Keeps (StaysOff root d) (changeDisk f) := keeps_modify fun s hs => hs.trans (h s.disk)

theorem keeps_off_put (h : Within root p) :
    Keeps (StaysOff root d) (changeDisk (·.put (normal p) content)) :=
  keeps_off_changeDisk fun _ => AgreeOff.refl.put h

theorem keeps_off_removeAll (h : Within root p) :
    Keeps (StaysOff root d) (changeDisk (·.removeAll (normal p))) :=
  keeps_off_changeDisk fun _ => AgreeOff.refl.removeAll fun _ hq => h.trans hq

theorem keeps_off_ask {paths : List Path} : Keeps (StaysOff root d) (ask paths) :=
  keeps_modify fun _ hs => hs

theorem keeps_off_createDirectories : Keeps (StaysOff root d) (createDirectories turn p) :=
  keeps_bind keeps_off_ask fun _ => keeps_bind keeps_read fun _ => keeps_ite keeps_fail keeps_pure

theorem keeps_off_leavePartial (h : Within root p) :
    Keeps (StaysOff root d) (leavePartial turn p) := by
  rw [leavePartial]
  split
  · exact keeps_pure
  · exact keeps_off_put h

theorem keeps_off_finishFile (h : Writable (Within root) p) {message : String} :
    Keeps (StaysOff root d) (finishFile turn p content message) := by
  refine keeps_bind keeps_off_ask fun _ => keeps_bind keeps_read fun _ => keeps_ite ?_ ?_
  · refine keeps_bind keeps_off_ask fun _ => keeps_ite keeps_fail ?_
    exact keeps_bind (keeps_off_removeAll h.temporary) fun _ => keeps_fail
  · refine keeps_off_changeDisk fun d => AgreeOff.put ?_ h.file
    exact AgreeOff.refl.removeAll fun _ hq => h.temporary.trans hq

theorem keeps_off_writeFileAtomically (h : Writable (Within root) p) {context : String} :
    Keeps (StaysOff root d) (writeFileAtomically turn p content context) := by
  refine keeps_bind keeps_off_createDirectories fun _ => ?_
  refine keeps_bind keeps_off_ask fun _ => keeps_bind keeps_read fun _ => ?_
  refine keeps_ite keeps_fail (keeps_ite ?_ ?_)
  · exact keeps_bind (keeps_off_leavePartial h.temporary) fun _ => keeps_fail
  · exact keeps_bind (keeps_off_put h.temporary) fun _ => keeps_off_finishFile h

theorem keeps_off_fetchIntoDirectory (h : Writable (Within root) p) {url : String} :
    Keeps (StaysOff root d) (fetchIntoDirectory turn url p) := by
  refine keeps_bind keeps_off_ask fun _ => keeps_bind keeps_read fun _ => ?_
  dsimp only
  split
  · refine keeps_ite ?_ ?_
    · exact keeps_bind (keeps_off_leavePartial h.temporary) fun _ => keeps_fail
    · exact keeps_bind (keeps_off_removeAll h.temporary) fun _ => keeps_fail
  · exact keeps_bind (keeps_off_put h.temporary) fun _ => keeps_off_finishFile h

theorem keeps_off_copyFile (h : Within root p) {source : Path} :
    Keeps (StaysOff root d) (copyFile turn source p) := by
  refine keeps_bind keeps_off_ask fun _ => keeps_bind keeps_read fun _ => ?_
  split
  · exact keeps_fail
  · exact keeps_ite (keeps_bind (keeps_off_leavePartial h) fun _ => keeps_fail) (keeps_off_put h)

theorem keeps_off_readsBelow : Keeps (StaysOff root d) (readsBelow p) := keeps_modify fun _ hs => hs

theorem writable_append (hne : names ≠ []) (h : ∀ n ∈ names, n ≠ "..") :
    Writable (Within root) (root ++ names) := by
  obtain ⟨initial, last, rfl⟩ : ∃ initial last, names = initial ++ [last] := by
    rcases List.eq_nil_or_concat names with rfl | ⟨initial, last, hconcat⟩
    · exact absurd rfl hne
    · exact ⟨initial, last, by simpa using hconcat⟩
  have hinitial : ∀ n ∈ initial, n ≠ ".." := fun n hn => h n (List.mem_append_left _ hn)
  refine ⟨?_, ?_, within_append h⟩
  · rw [← List.append_assoc, List.dropLast_concat]
    exact within_append hinitial
  · rw [← List.append_assoc, temporaryPath_concat, List.append_assoc]
    refine within_append fun n hn => ?_
    rcases List.mem_append.mp hn with hn | hn
    · exact hinitial n hn
    · rw [List.mem_singleton.mp hn]
      exact temporary_name

end Areas

section Stages

variable {d : Disk} {turn : Turn} {spioHome root : Path} {parse : Content → Option Json}
  {registryRoot packageName version : String} {offline : Bool} {entry : RegistryEntry}

theorem writable_index {text : String} {p : Path}
    (h : registryObjectCachePath spioHome registryRoot text = .ok p) :
    Writable (Within (registryIndexCacheRoot spioHome)) p := by
  obtain ⟨normalized, hnormalized, hp⟩ := bind_ok_iff.mp h
  cases hp
  rw [List.append_assoc]
  refine writable_append (by simp) fun n hn => ?_
  rcases List.mem_append.mp hn with hn | hn
  · rw [List.mem_singleton.mp hn]
    exact hex64_ne_up
  · exact (not_up_of_normalize hnormalized).2 n hn

theorem isPart_twoFrom {digest : String} {start : ℕ} (h : IsDigest digest) :
    IsPart (twoFrom digest start) := by
  have hhex : ("0123456789abcdef".toList.all fun c => decide (c ≠ '/' ∧ c ≠ '.')) = true := by
    decide
  refine isPart_of_forall fun c hc => ?_
  rw [twoFrom, String.toList_ofList] at hc
  exact of_decide_eq_true (List.all_eq_true.mp hhex c
    (h.2 c (List.mem_of_mem_drop (List.mem_of_mem_take hc))))

theorem blobCachePath_eq {digest : String} (h : IsDigest digest) :
    blobCachePath spioHome digest = registryBlobCacheRoot spioHome ++
      [twoFrom digest 0, twoFrom digest 2, digest ++ ".tar"] := by
  have hfile : '/' ∉ (digest ++ ".tar").toList := by
    rw [String.toList_append, List.mem_append, not_or]
    exact ⟨(isPart_of_isDigest h).whole, by decide⟩
  rw [blobCachePath, joinText_of_not_mem (isPart_twoFrom h).whole,
    joinText_of_not_mem (isPart_twoFrom h).whole, joinText_of_not_mem hfile]
  simp

theorem writable_blob {digest : String} (h : IsDigest digest) :
    Writable (Within (registryBlobCacheRoot spioHome)) (blobCachePath spioHome digest) := by
  rw [blobCachePath_eq h]
  refine writable_append (by simp) fun n hn => ?_
  simp only [List.mem_cons, List.not_mem_nil, or_false] at hn
  rcases hn with rfl | rfl | rfl
  · exact (isPart_twoFrom h).down
  · exact (isPart_twoFrom h).down
  · exact isName_tar.2.2

theorem keeps_off_selectEntry : Keeps (StaysOff (registryIndexCacheRoot spioHome) d)
    (selectEntry parse turn spioHome registryRoot offline packageName version) := by
  have hload : ∀ stage relativePath context, Keeps (StaysOff (registryIndexCacheRoot spioHome) d)
      (loadRegistryObjectText turn spioHome registryRoot offline stage relativePath context) := by
    intro stage relativePath context
    refine keeps_bind_ofExcept fun normalized _ => keeps_ite ?_ (keeps_ite keeps_fail ?_)
    · exact keeps_bind keeps_off_readsBelow fun _ => keeps_readTextFile
    · refine keeps_bind_ofExcept fun cachePath hcachePath => keeps_ite ?_ ?_
      · exact keeps_bind keeps_read fun _ => keeps_ite keeps_fail keeps_readTextFile
      · refine keeps_bind_ofExcept fun url _ => ?_
        split
        · exact keeps_fail
        · exact keeps_bind (keeps_off_writeFileAtomically (writable_index hcachePath))
            fun _ => keeps_pure
  refine keeps_bind (keeps_bind (hload _ _ _) fun _ => keeps_ofExcept) fun config => ?_
  refine keeps_bind (keeps_bind keeps_ofExcept fun names => ?_) fun metadata => ?_
  · exact keeps_bind (hload _ _ _) fun _ => keeps_ofExcept
  · exact keeps_bind (hload _ _ _) fun _ => keeps_ofExcept

theorem keeps_off_cacheArtifact (h : IsDigest entry.sha256) :
    Keeps (StaysOff (registryBlobCacheRoot spioHome) d)
      (cacheArtifact turn spioHome registryRoot offline entry) := by
  have hblob : Writable (Within (registryBlobCacheRoot spioHome))
      (blobCachePath spioHome entry.sha256) := writable_blob h
  refine keeps_bind_ofExcept fun artifact _ => keeps_ite ?_ (keeps_ite keeps_fail ?_)
  · refine keeps_bind keeps_off_readsBelow fun _ => keeps_bind keeps_read fun _ =>
      keeps_ite keeps_fail ?_
    exact keeps_bind keeps_off_createDirectories fun _ => keeps_off_copyFile hblob.file
  · exact keeps_bind_ofExcept fun url _ => keeps_bind keeps_off_createDirectories fun _ =>
      keeps_off_fetchIntoDirectory hblob

/-- The text is the SHA-256 digest of the content, as long as it has less than `2 ^ 61` bytes. -/
structure DigestOf (content : Content) (digest : String) : Prop where
  digest_eq : (bytesOf content).length < 2 ^ 61 →
    digest.toList = Sha2.hex (Sha2.digest (bytesOf content))

theorem digest_of_sha256File {path : String} {file : Core.InputFile} {digest : List Char}
    (h : Core.sha256File path file = .ok digest) (hlength : file.content.length < 2 ^ 61) :
    digest = Sha2.hex (Sha2.digest file.content) := by
  have hready : file.opens = true ∧ file.content.length ≤ file.readable := by
    unfold Core.sha256File at h
    split at h
    · cases h
    · next hopens =>
      dsimp only at h
      split at h
      · cases h
      · next hreadable => exact ⟨by simpa using hopens, not_lt.mp hreadable⟩
  rw [Core.sha256File_eq hready.1 hready.2 hlength] at h
  exact (Except.ok.inj h).symm

/-- The digest of a file that could be read to its end. -/
theorem wp_sha256File_content {s : State} {p : Path} : wp (sha256File turn p)
    (fun digest t => t = s ∧ IsDigest digest ∧
      ∀ content, fileAt s.disk p = some content → DigestOf content digest)
    (fun _ t => t = s) s := by
  rw [sha256File, wp_bind, wp_read]
  dsimp only
  split
  · exact rfl
  · next digest hdigest =>
    refine ⟨rfl, isDigest_of_sha256File hdigest, fun content hcontent => ⟨fun hlength => ?_⟩⟩
    simp only [hcontent] at hdigest
    rw [String.toList_ofList]
    have heq := digest_of_sha256File hdigest
    exact heq hlength

/-- After `MaterializeArtifact` the blob has the digest of the record. -/
theorem wp_materializeArtifact_digest {s : State} (h : IsDigest entry.sha256) :
    wp (materializeArtifact turn spioHome registryRoot offline entry)
      (fun _ t => StaysOff (registryBlobCacheRoot spioHome) s.disk t ∧
        ∀ content, fileAt t.disk (blobCachePath spioHome entry.sha256) = some content →
          DigestOf content entry.sha256)
      (fun _ t => StaysOff (registryBlobCacheRoot spioHome) s.disk t) s := by
  have hverify : ∀ (t : State) (e : Failure), StaysOff (registryBlobCacheRoot spioHome) s.disk t →
      wp (do
        let actual ← sha256File turn (blobCachePath spioHome entry.sha256)
        if actual ≠ entry.sha256 then fail e)
        (fun _ t => StaysOff (registryBlobCacheRoot spioHome) s.disk t ∧
          ∀ content, fileAt t.disk (blobCachePath spioHome entry.sha256) = some content →
            DigestOf content entry.sha256)
        (fun _ t => StaysOff (registryBlobCacheRoot spioHome) s.disk t) t := by
    intro t e ht
    rw [wp_bind]
    refine wp_mono wp_sha256File_content (fun actual u hu => ?_) fun _ u hu => ?_
    · obtain ⟨rfl, -, hdigest⟩ := hu
      rw [wp_ite]
      refine ⟨fun _ => ht, fun hsame => ⟨ht, ?_⟩⟩
      rw [not_not.mp hsame] at hdigest
      exact hdigest
    · rw [hu]
      exact ht
  rw [materializeArtifact, wp_bind, wp_read, wp_ite]
  refine ⟨fun _ => hverify s _ .refl, fun _ => ?_⟩
  rw [wp_bind]
  exact wp_mono ((keeps_off_cacheArtifact h).wp AgreeOff.refl) (fun _ t ht => hverify t _ ht)
    fun _ _ ht => ht

end Stages

section Roots

variable {spioHome root root' p : Path} {packageName version digest : String} {d d' : Disk}

theorem dot_not_mem_packageName (h : isPackageName packageName = true) :
    '.' ∉ packageName.toList := by
  intro hdot
  unfold isPackageName at h
  split at h
  · next owner package hsplit =>
    rw [Bool.and_eq_true] at h
    have hpart : ∀ part, isNamePart part = true → '.' ∉ part := by
      intro part hpart hmem
      cases part with
      | nil => cases hmem
      | cons first rest =>
        rw [isNamePart, Bool.and_eq_true] at hpart
        rcases List.mem_cons.mp hmem with rfl | hmem
        · exact absurd hpart.1 (by decide)
        · exact absurd (List.all_eq_true.mp hpart.2 '.' hmem) (by decide)
    have htext : ['/'].intercalate (packageName.toList.splitOn '/') = packageName.toList :=
      List.intercalate_splitOn '/'
    rw [← htext, hsplit] at hdot
    rcases eq_or_mem_of_mem_intercalate hdot with heq | ⟨part, hmem, hin⟩
    · exact absurd heq (by decide)
    · simp only [List.mem_cons, List.not_mem_nil, or_false] at hmem
      rcases hmem with rfl | rfl
      · exact hpart _ h.1 hin
      · exact hpart _ h.2 hin
  · cases h

theorem isName_of_not_dot {text : String} (hne : text.toList ≠ []) (hdot : '.' ∉ text.toList) :
    IsName text := by
  refine ⟨?_, ?_, ?_⟩
  · rintro rfl
    exact hne rfl
  · rintro rfl
    exact hdot (by decide)
  · rintro rfl
    exact hdot (by decide)

theorem isName_of_isSemver (h : isSemver version = true) : IsName version := by
  refine ⟨?_, ?_, (isPart_of_isSemver h).down⟩
  · rintro rfl
    exact absurd h (by decide)
  · rintro rfl
    exact absurd h (by decide)

theorem isName_of_isDigest (h : IsDigest digest) : IsName digest := by
  refine ⟨?_, ?_, (isPart_of_isDigest h).down⟩
  · rintro rfl
    exact absurd h.1 (by decide)
  · rintro rfl
    exact absurd h.1 (by decide)

/-- The place of the checkout of a version that a manifest can name, with a digest. -/
structure IsCheckout (spioHome : Path) (packageName version digest : String) (root : Path) :
    Prop where
  validName : isPackageName packageName = true
  validVersion : isSemver version = true
  isDigest : IsDigest digest
  path : checkoutPath spioHome packageName version digest = .ok root

/-- A checkout lies four names below the root of the checkouts. -/
theorem IsCheckout.names (h : IsCheckout spioHome packageName version digest root) :
    ∃ owner package, (∀ n ∈ [owner, package, version, digest], IsName n) ∧
      root = registryCheckoutRoot spioHome ++ [owner, package, version, digest] := by
  obtain ⟨hname, hversion, hdigest, h⟩ := h
  have hdot := dot_not_mem_packageName hname
  obtain ⟨owner, package, hsplit, howner, hpackage⟩ := splitPackageName_of_isPackageName hname
  rw [checkoutPath, hsplit] at h
  cases h
  rw [joinText_of_not_mem howner.whole, joinText_of_not_mem hpackage.whole,
    joinText_of_not_mem (isPart_of_isSemver hversion).whole,
    joinText_of_not_mem (isPart_of_isDigest hdigest).whole]
  refine ⟨owner, package, ?_, by simp⟩
  have hparts : IsName owner ∧ IsName package := by
    unfold splitPackageName at hsplit
    dsimp only at hsplit
    split at hsplit
    · cases hsplit
    · next hne =>
      cases hsplit
      rw [not_or] at hne
      constructor
      · refine isName_of_not_dot (by simpa using hne.1) fun hmem => hdot ?_
        rw [String.toList_ofList] at hmem
        exact List.takeWhile_subset _ hmem
      · refine isName_of_not_dot (by simpa using hne.2) fun hmem => hdot ?_
        rw [String.toList_ofList] at hmem
        exact List.mem_of_mem_drop hmem
  simp only [List.mem_cons, List.not_mem_nil, or_false, forall_eq_or_imp, forall_eq]
  exact ⟨hparts.1, hparts.2, isName_of_isSemver hversion, isName_of_isDigest hdigest⟩

theorem normal_append_names {names : Path} (h : ∀ n ∈ names, IsName n) :
    normal (root ++ names) = normal root ++ names := by
  rw [normal, List.foldl_append, foldl_enter_of_isName h]
  rfl

/-- The disks hold the same files below the directory. -/
def SameBelow (root : Path) (d d' : Disk) : Prop :=
  ∀ q, d'.get (normal root ++ q) = d.get (normal root ++ q)

theorem SameBelow.refl : SameBelow root d d := fun _ => rfl

/-- Neither directory is the other or lies below it. -/
def Apart (root root' : Path) : Prop :=
  ¬ normal root <+: normal root' ∧ ¬ normal root' <+: normal root

theorem sameBelow_of_off (h : AgreeOff (normal root' <+: ·) d d') (ha : Apart root root') :
    SameBelow root d d' := by
  intro q
  refine h _ fun hq => ?_
  rcases List.prefix_or_prefix_of_prefix hq (List.prefix_append _ q) with hle | hle
  · exact ha.2 hle
  · exact ha.1 hle

theorem isName_marker : IsName ".spio-snapshot-ready" := by decide

theorem normal_readyMarker :
    normal (readyMarker root) = normal root ++ [".spio-snapshot-ready"] :=
  normal_concat isName_marker

/-- The marker is there, as a file or as a directory. -/
def Marked (d : Disk) (root : Path) : Prop := occupied d (readyMarker root) = true

theorem marked_iff : Marked d root ↔
    ∃ q f, d.get (normal root ++ ".spio-snapshot-ready" :: q) = some f := by
  have hlast : (readyMarker root).getLast? ≠ some "" := by simp [readyMarker]
  rw [Marked, occupied, fileAt, if_neg hlast, Bool.or_eq_true, isDirectory_iff, normal_readyMarker]
  constructor
  · rintro (hfile | ⟨q, f, -, hf⟩)
    · obtain ⟨f, hf⟩ := Option.isSome_iff_exists.mp hfile
      exact ⟨[], f, hf⟩
    · exact ⟨q, f, by simpa using hf⟩
  · rintro ⟨q, f, hf⟩
    cases q with
    | nil => exact Or.inl (Option.isSome_of_eq_some hf)
    | cons n q => exact Or.inr ⟨n :: q, f, by simp, by simpa using hf⟩

theorem SameBelow.marked (h : SameBelow root d d') : Marked d' root ↔ Marked d root := by
  rw [marked_iff, marked_iff]
  exact exists₂_congr fun q f => by rw [h]

theorem normal_below {names : Path} (h : ∀ n ∈ names, IsName n) :
    normal (spioHome ++ ["registry"] ++ names) = normal spioHome ++ ["registry"] ++ names := by
  rw [normal_append_names h, normal_append_names (by decide)]

/-- The checkouts lie apart from the caches of objects and of blobs. -/
theorem apart_caches {names : Path} (h : ∀ n ∈ names, IsName n) :
    Apart (registryCheckoutRoot spioHome ++ names) (registryIndexCacheRoot spioHome) ∧
      Apart (registryCheckoutRoot spioHome ++ names) (registryBlobCacheRoot spioHome) := by
  have hindex : normal (registryIndexCacheRoot spioHome) =
      normal spioHome ++ ["registry"] ++ ["index"] := normal_below (by decide)
  have hblob : normal (registryBlobCacheRoot spioHome) =
      normal spioHome ++ ["registry"] ++ ["blobs", "sha256"] := normal_below (by decide)
  have hcheckout : normal (registryCheckoutRoot spioHome ++ names) =
      normal spioHome ++ ["registry"] ++ ("checkouts" :: names) := by
    rw [registryCheckoutRoot, registryCacheRoot, List.append_assoc _ ["checkouts"]]
    refine normal_below fun n hn => ?_
    rcases List.mem_cons.mp hn with rfl | hn
    · decide
    · exact h n hn
  simp only [Apart, hindex, hblob, hcheckout, List.prefix_append_right_inj]
  simp

theorem IsCheckout.apart_caches (h : IsCheckout spioHome packageName version digest root) :
    Apart root (registryIndexCacheRoot spioHome) ∧ Apart root (registryBlobCacheRoot spioHome) := by
  obtain ⟨owner, package, hnames, rfl⟩ := h.names
  exact RegistryClient.apart_caches hnames

/-- Two checkouts are one, with one digest, or lie apart. -/
theorem IsCheckout.apart_or_eq {packageName' version' digest' : String}
    (h : IsCheckout spioHome packageName version digest root)
    (h' : IsCheckout spioHome packageName' version' digest' root') :
    root = root' ∧ digest = digest' ∨ Apart root root' := by
  obtain ⟨owner, package, hnames, rfl⟩ := h.names
  obtain ⟨owner', package', hnames', rfl⟩ := h'.names
  by_cases heq : [owner, package, version, digest] = [owner', package', version', digest']
  · left
    rw [heq]
    simp only [List.cons.injEq, and_true] at heq
    exact ⟨rfl, heq.2.2.2⟩
  · right
    rw [Apart, normal_append_names hnames, normal_append_names hnames',
      List.prefix_append_right_inj, List.prefix_append_right_inj]
    exact ⟨fun hle => heq (hle.eq_of_length rfl), fun hle => heq (hle.eq_of_length rfl).symm⟩

end Roots

section Checkout

variable {members : Content → FileTree String Content} {turn : Turn} {spioHome root p : Path}
  {entry : RegistryEntry} {d d' : Disk} {digest : String} {s : State}

/-- `tar` writes members of the archive, and all of them when it succeeds. -/
structure Tars (members : Content → FileTree String Content) (turn : Turn) : Prop where
  written : ∀ content q f, (turn.extract content).files.get q = some f →
    (members content).get q = some f
  all : ∀ content, (turn.extract content).succeeded = true → ∀ q f,
    (members content).get q = some f → (turn.extract content).files.get q = some f

/-- No archive has a member of the marker's name. -/
def Unmarked (members : Content → FileTree String Content) : Prop :=
  ∀ content q, (members content).get (".spio-snapshot-ready" :: q) = none

/-- Every member of an artifact with the digest is below the directory. -/
def HoldsArtifact (members : Content → FileTree String Content) (d : Disk) (root : Path)
    (digest : String) : Prop :=
  ∃ content, DigestOf content digest ∧
    ∀ q f, (members content).get q = some f → d.get (normal root ++ q) = some f

theorem HoldsArtifact.of_same (h : HoldsArtifact members d root digest)
    (hsame : SameBelow root d d') : HoldsArtifact members d' root digest := by
  obtain ⟨content, hdigest, hfiles⟩ := h
  exact ⟨content, hdigest, fun q f hf => (hsame q).trans (hfiles q f hf)⟩

theorem wp_detectSnapshotRoot : wp (detectSnapshotRoot p)
    (fun q t => t = s ∧ (q = p ∨ ∃ name, q = p ++ [name]) ∧
      occupied s.disk (q ++ ["spio.toml"]) = true) (fun _ t => t = s) s := by
  rw [detectSnapshotRoot, wp_bind, wp_read, wp_ite]
  refine ⟨fun hroot => ⟨rfl, Or.inl rfl, hroot⟩, fun _ => ?_⟩
  split
  · next name _ =>
    rw [wp_ite]
    exact ⟨fun hroot => ⟨rfl, Or.inr ⟨name, rfl⟩, by simpa using hroot⟩, fun _ => rfl⟩
  · exact rfl

/-- A removal takes no marker in. -/
theorem wp_clearCheckout (hmarked : ¬ Marked s.disk root) :
    wp (clearCheckout turn root)
      (fun _ t => StaysOff root s.disk t ∧ ¬ Marked t.disk root) (fun _ _ => False) s := by
  rw [marked_iff] at hmarked
  push Not at hmarked
  have hnone : ∀ q, s.disk.get (normal root ++ ".spio-snapshot-ready" :: q) = none := fun q =>
    Option.eq_none_iff_forall_ne_some.mpr (hmarked q)
  have hcleared : ∀ d' : Disk, (∀ q, d'.get q = s.disk.get q ∨ d'.get q = none) →
      ¬ Marked d' root := by
    intro d' hd hmarked'
    obtain ⟨q, f, hf⟩ := marked_iff.mp hmarked'
    rcases hd (normal root ++ ".spio-snapshot-ready" :: q) with heq | heq
    · rw [heq, hnone] at hf
      cases hf
    · rw [heq] at hf
      cases hf
  rw [clearCheckout, wp_bind, ask, wp_modify, wp_ite]
  refine ⟨fun _ => ?_, fun _ => ?_⟩
  · rw [changeDisk, wp_modify]
    refine ⟨AgreeOff.refl.restrict fun q hq => ?_, hcleared _ fun q => ?_⟩
    · simp only [Bool.or_eq_false_iff, Bool.not_eq_false', List.isPrefixOf_iff_prefix] at hq
      exact hq.1
    · rw [get_restrict]
      split
      · exact Or.inl rfl
      · exact Or.inr rfl
  · rw [changeDisk, wp_modify]
    refine ⟨AgreeOff.refl.removeAll fun _ hq => hq, hcleared _ fun q => ?_⟩
    rw [get_removeAll]
    split
    · exact Or.inr rfl
    · exact Or.inl rfl

theorem wp_createDirectories_disk : wp (createDirectories turn p) (fun _ t => t.disk = s.disk)
    (fun _ t => t.disk = s.disk) s :=
  (keeps_bind (keeps_modify fun _ hs => hs) fun _ => keeps_bind keeps_read fun _ =>
    keeps_ite keeps_fail keeps_pure : Keeps (fun t : State => t.disk = s.disk) _).wp rfl

theorem occupied_put {q : Path} {f : Content} (h : occupied d p = true) :
    occupied (d.put q f) p = true := by
  have hsome : ∀ r, (d.get r).isSome → ((d.put q f).get r).isSome := by
    intro r hr
    rw [get_put]
    split
    · rfl
    · exact hr
  rw [occupied, Bool.or_eq_true] at h ⊢
  refine h.imp (fun hfile => ?_) (isDirectory_mono hsome)
  unfold fileAt at hfile ⊢
  split
  · next hlast => simp [hlast] at hfile
  · next hlast =>
    rw [if_neg hlast] at hfile
    exact hsome _ hfile

/-- Members that `tar` has written: no marker, and all of them when it has succeeded. -/
theorem wp_extractArtifact {blob : Path} (hmembers : Unmarked members) (htar : Tars members turn)
    (hclear : ¬ Marked s.disk root)
    (hblob : ∀ content, fileAt s.disk blob = some content → DigestOf content digest) :
    wp (extractArtifact turn blob root)
      (fun _ t => StaysOff root s.disk t ∧ ¬ Marked t.disk root ∧
        HoldsArtifact members t.disk root digest)
      (fun _ t => StaysOff root s.disk t ∧ ¬ Marked t.disk root) s := by
  rw [extractArtifact, wp_bind, wp_read]
  dsimp only
  split
  · exact ⟨AgreeOff.refl, hclear⟩
  · next content hcontent =>
    have hoff : AgreeOff (normal root <+: ·) s.disk
        (s.disk.graft (normal root) (turn.extract content).files) :=
      AgreeOff.refl.graft fun q _ _ => List.prefix_append _ q
    have hunmarked : ¬ Marked (s.disk.graft (normal root) (turn.extract content).files) root := by
      intro hmarked
      obtain ⟨q, f, hf⟩ := marked_iff.mp hmarked
      rw [get_graft_append, Option.or_eq_some_iff] at hf
      rcases hf with hf | ⟨-, hf⟩
      · have := htar.written content _ f hf
        rw [hmembers] at this
        cases this
      · exact hclear (marked_iff.mpr ⟨q, f, hf⟩)
    rw [wp_bind, changeDisk, wp_modify, wp_ite]
    refine ⟨fun _ => ⟨hoff, hunmarked⟩, fun hsucceeded => ⟨hoff, hunmarked, content,
      hblob content hcontent, fun q f hf => ?_⟩⟩
    rw [get_graft_append, htar.all content (by simpa using hsucceeded) q f hf]
    rfl

/-- What `EnsureCheckout` leaves: a marker only where the artifact is complete. -/
theorem wp_ensureCheckout (hmembers : Unmarked members) (htar : Tars members turn)
    (hroot : checkoutPath spioHome entry.package entry.version entry.sha256 = .ok root)
    (hapart : ¬ normal root <+: normal (blobCachePath spioHome entry.sha256))
    (hholds : Marked s.disk root → HoldsArtifact members s.disk root entry.sha256)
    (hblob : ∀ content, fileAt s.disk (blobCachePath spioHome entry.sha256) = some content →
      DigestOf content entry.sha256) :
    wp (ensureCheckout turn spioHome entry)
      (fun p t => StaysOff root s.disk t ∧ (Marked s.disk root → t = s) ∧ Marked t.disk root ∧
        HoldsArtifact members t.disk root entry.sha256 ∧ (p = root ∨ ∃ name, p = root ++ [name]) ∧
        occupied t.disk (p ++ ["spio.toml"]) = true)
      (fun _ t => StaysOff root s.disk t ∧ (Marked s.disk root → t = s) ∧
        (Marked t.disk root → HoldsArtifact members t.disk root entry.sha256)) s := by
  rw [ensureCheckout, wp_bind, wp_ofExcept]
  refine ⟨fun root' hroot' => ?_, fun e he => nomatch hroot.symm.trans he⟩
  obtain rfl : root = root' := Except.ok.inj (hroot.symm.trans hroot')
  rw [wp_bind, wp_read, wp_ite]
  refine ⟨fun hmarked => ?_, fun hmarked => ?_⟩
  · refine wp_mono wp_detectSnapshotRoot (fun p t h => ?_) fun _ t h => ?_
    · obtain ⟨rfl, hp, htoml⟩ := h
      exact ⟨AgreeOff.refl, fun _ => rfl, hmarked, hholds hmarked, hp, htoml⟩
    · rw [h]
      exact ⟨AgreeOff.refl, fun _ => rfl, hholds⟩
  have hnew : ∀ {t : State}, Marked s.disk root → t = s := fun h => (hmarked h).elim
  rw [wp_bind]
  refine wp_mono (wp_clearCheckout hmarked) (fun _ s₁ h₁ => ?_) fun _ _ h => h.elim
  obtain ⟨hoff₁, hclear₁⟩ := h₁
  rw [wp_bind]
  refine wp_mono wp_createDirectories_disk (fun _ s₂ h₂ => ?_) fun _ t h => ?_
  swap
  · rw [StaysOff, h]
    exact ⟨hoff₁, hnew, fun hmarked => (hclear₁ hmarked).elim⟩
  have hsame : fileAt s₂.disk (blobCachePath spioHome entry.sha256) =
      fileAt s.disk (blobCachePath spioHome entry.sha256) := by
    rw [h₂, fileAt, fileAt, hoff₁ _ hapart]
  rw [wp_bind]
  refine wp_mono (wp_extractArtifact hmembers htar (h₂ ▸ hclear₁) fun content hcontent =>
    hblob content (hsame ▸ hcontent)) (fun _ s₃ h₃ => ?_) fun _ t h => ?_
  swap
  · exact ⟨hoff₁.trans (h₂ ▸ h.1), hnew, fun hmarked => (h.2 hmarked).elim⟩
  obtain ⟨hoff₃, hclear₃, hholds₃⟩ := h₃
  have hoff : StaysOff root s.disk s₃ := hoff₁.trans (h₂ ▸ hoff₃)
  rw [wp_bind]
  refine wp_mono wp_detectSnapshotRoot (fun p t h => ?_) fun _ t h => ?_
  swap
  · rw [h]
    exact ⟨hoff, hnew, fun hmarked => (hclear₃ hmarked).elim⟩
  obtain ⟨rfl, hp, htoml⟩ := h
  rw [wp_bind, ask, wp_modify, wp_bind, wp_read, wp_ite]
  refine ⟨fun _ => ⟨hoff, hnew, fun hmarked => (hclear₃ hmarked).elim⟩, fun _ => ?_⟩
  rw [wp_bind, changeDisk, wp_modify, wp_pure, normal_readyMarker]
  refine ⟨AgreeOff.put hoff (List.prefix_append _ _), hnew,
    marked_iff.mpr ⟨[], _, get_put_self⟩, ?_, hp, occupied_put htoml⟩
  obtain ⟨content, hdigest, hfiles⟩ := hholds₃
  refine ⟨content, hdigest, fun q f hf => ?_⟩
  rw [get_put_of_ne, hfiles q f hf]
  intro heq
  rw [List.append_cancel_left_eq] at heq
  rw [heq, hmembers] at hf
  cases hf

end Checkout

/-- A call of the client, with what the outside does in it. -/
structure Call where
  turn : Turn
  registryRoot : String
  offline : Bool
  packageName : String
  version : String

section Runs

variable {parse : Content → Option Json} {members : Content → FileTree String Content}
  {spioHome : Path} {root root' : Path} {d d' d'' : Disk} {s t : State} {call : Call}
  {before after : List Call} {result : RegistryMaterializationResult}

@[irreducible] def Call.run (parse : Content → Option Json) (spioHome : Path) (call : Call) :
    Program RegistryMaterializationResult :=
  materializeRegistryPackage parse call.turn spioHome call.registryRoot call.offline
    call.packageName call.version

def afterCall (parse : Content → Option Json) (spioHome : Path) (s : State) (call : Call) : State :=
  (call.run parse spioHome s).2

/-- The version can stand in a manifest, the registry's record for it has a digest, and `tar` writes
the members of the archive. -/
structure Call.Proper (parse : Content → Option Json)
    (members : Content → FileTree String Content) (spioHome : Path) (s : State) (call : Call) :
    Prop where
  name : isPackageName call.packageName = true
  version : isSemver call.version = true
  tars : Tars members call.turn
  digest : ∀ resolved entry, resolveRegistryRead call.registryRoot = .ok resolved →
    (selectEntry parse call.turn spioHome resolved call.offline call.packageName call.version s).1 =
      .ok entry → IsDigest entry.sha256

/-- Every checkout with a marker is complete. -/
def Sound (members : Content → FileTree String Content) (spioHome : Path) (d : Disk) : Prop :=
  ∀ packageName version digest root, IsCheckout spioHome packageName version digest root →
    Marked d root → HoldsArtifact members d root digest

/-- No file of a checkout with a marker changes. -/
def Settled (spioHome : Path) (d d' : Disk) : Prop :=
  ∀ packageName version digest root, IsCheckout spioHome packageName version digest root →
    Marked d root → SameBelow root d d'

theorem Settled.refl : Settled spioHome d d := fun _ _ _ _ _ _ => .refl

theorem Settled.trans (h : Settled spioHome d d') (h' : Settled spioHome d' d'') :
    Settled spioHome d d'' := by
  intro packageName version digest root hroot hmarked q
  have hsame := h _ _ _ _ hroot hmarked
  exact (h' _ _ _ _ hroot (hsame.marked.mpr hmarked) q).trans (hsame q)

/-- A stage that stays away from the checkouts. -/
theorem Sound.of_apart (h : Sound members spioHome d)
    (hsame : ∀ packageName version digest root,
      IsCheckout spioHome packageName version digest root → SameBelow root d d') :
    Sound members spioHome d' ∧ Settled spioHome d d' := by
  refine ⟨fun packageName version digest root hroot hmarked => ?_,
    fun packageName version digest root hroot _ => hsame _ _ _ _ hroot⟩
  have hbelow := hsame _ _ _ _ hroot
  exact (h _ _ _ _ hroot (hbelow.marked.mp hmarked)).of_same hbelow

/-- A stage that works on one checkout. -/
theorem Sound.of_checkout {packageName version digest : String} (h : Sound members spioHome d)
    (hroot : IsCheckout spioHome packageName version digest root)
    (hoff : AgreeOff (normal root <+: ·) d d') (hsettled : Marked d root → SameBelow root d d')
    (hholds : Marked d' root → HoldsArtifact members d' root digest) :
    Sound members spioHome d' ∧ Settled spioHome d d' := by
  constructor
  · intro packageName' version' digest' root' hroot' hmarked
    rcases hroot'.apart_or_eq hroot with ⟨rfl, rfl⟩ | hapart
    · exact hholds hmarked
    · have hbelow := sameBelow_of_off hoff hapart
      exact (h _ _ _ _ hroot' (hbelow.marked.mp hmarked)).of_same hbelow
  · intro packageName' version' digest' root' hroot' hmarked
    rcases hroot'.apart_or_eq hroot with ⟨rfl, -⟩ | hapart
    · exact hsettled hmarked
    · exact sameBelow_of_off hoff hapart

/-- What a call that succeeds returns. -/
structure Returned (spioHome : Path) (call : Call) (result : RegistryMaterializationResult)
    (root : Path) (d : Disk) : Prop where
  checkout : IsCheckout spioHome call.packageName call.version result.sha256 root
  marked : Marked d root
  snapshotRoot : result.snapshotRoot = root ∨ ∃ name, result.snapshotRoot = root ++ [name]
  manifest : occupied d (result.snapshotRoot ++ ["spio.toml"]) = true

/-- One call: the checkouts that were ready stay as they are, and those that are ready after it are
complete. -/
theorem wp_call (hmembers : Unmarked members) (hsound : Sound members spioHome s.disk)
    (hproper : call.Proper parse members spioHome s) :
    wp (call.run parse spioHome)
      (fun result t => (Sound members spioHome t.disk ∧ Settled spioHome s.disk t.disk) ∧
        ∃ root, Returned spioHome call result root t.disk)
      (fun _ t => Sound members spioHome t.disk ∧ Settled spioHome s.disk t.disk) s := by
  rw [Call.run, materializeRegistryPackage, wp_bind, wp_ofExcept]
  refine ⟨fun resolved hresolved => ?_, fun _ _ => ⟨hsound, .refl⟩⟩
  have hselect : Keeps (StaysOff (registryIndexCacheRoot spioHome) s.disk)
      (selectEntry parse call.turn spioHome resolved call.offline call.packageName call.version) :=
    keeps_off_selectEntry
  have hoff₁ := hselect s AgreeOff.refl
  rw [wp_bind]
  rcases hrun : selectEntry parse call.turn spioHome resolved call.offline call.packageName
    call.version s with ⟨e | entry, s₁⟩
  · rw [hrun] at hoff₁
    rw [wp_of_eq_error hrun]
    exact hsound.of_apart fun _ _ _ _ hroot => sameBelow_of_off hoff₁ hroot.apart_caches.1
  rw [hrun] at hoff₁
  obtain ⟨hsound₁, hsettled₁⟩ :=
    hsound.of_apart fun _ _ _ _ hroot => sameBelow_of_off hoff₁ hroot.apart_caches.1
  obtain ⟨hpackage, hversion⟩ := returns_selectEntry _ _ _ hrun
  have hdigest : IsDigest entry.sha256 :=
    hproper.digest resolved entry hresolved (congrArg Prod.fst hrun)
  rw [wp_of_eq_ok hrun, wp_bind]
  refine wp_mono (wp_materializeArtifact_digest hdigest) (fun _ s₂ h₂ => ?_) fun _ t h => ?_
  swap
  · obtain ⟨hsound', hsettled'⟩ :=
      hsound₁.of_apart fun _ _ _ _ hroot => sameBelow_of_off h hroot.apart_caches.2
    exact ⟨hsound', hsettled₁.trans hsettled'⟩
  obtain ⟨hoff₂, hblob⟩ := h₂
  obtain ⟨hsound₂, hsettled₂⟩ :=
    hsound₁.of_apart fun _ _ _ _ hroot => sameBelow_of_off hoff₂ hroot.apart_caches.2
  have hsettled := hsettled₁.trans hsettled₂
  obtain ⟨owner, package, hsplit, -⟩ := splitPackageName_of_isPackageName hproper.name
  obtain ⟨root, hpath⟩ : ∃ root, checkoutPath spioHome entry.package entry.version entry.sha256 =
      .ok root := by
    rw [hpackage, checkoutPath, hsplit]
    exact ⟨_, rfl⟩
  have hroot : IsCheckout spioHome call.packageName call.version entry.sha256 root :=
    ⟨hproper.name, hproper.version, hdigest, hpackage ▸ hversion ▸ hpath⟩
  have hapart : ¬ normal root <+: normal (blobCachePath spioHome entry.sha256) := by
    intro hle
    rcases List.prefix_or_prefix_of_prefix hle (writable_blob hdigest).file with h | h
    · exact hroot.apart_caches.2.1 h
    · exact hroot.apart_caches.2.2 h
  have hfinish : ∀ {t : State}, StaysOff root s₂.disk t → (Marked s₂.disk root → t = s₂) →
      (Marked t.disk root → HoldsArtifact members t.disk root entry.sha256) →
      Sound members spioHome t.disk ∧ Settled spioHome s.disk t.disk := by
    intro t hoff hsame hholds
    have hbelow : Marked s₂.disk root → SameBelow root s₂.disk t.disk := fun hmarked => by
      rw [hsame hmarked]
      exact .refl
    obtain ⟨hsound', hsettled'⟩ := hsound₂.of_checkout hroot hoff hbelow hholds
    exact ⟨hsound', hsettled.trans hsettled'⟩
  rw [wp_bind]
  refine wp_mono (wp_ensureCheckout hmembers hproper.tars hpath hapart (hsound₂ _ _ _ _ hroot)
    hblob) (fun p t h => ?_) fun _ t h => hfinish h.1 h.2.1 h.2.2
  obtain ⟨hoff, hsame, hmarked, hholds, hp, htoml⟩ := h
  exact ⟨hfinish hoff hsame fun _ => hholds, root, hroot, hmarked, hp, htoml⟩

theorem sound_step (hmembers : Unmarked members) (hsound : Sound members spioHome s.disk)
    (hproper : call.Proper parse members spioHome s) :
    Sound members spioHome (afterCall parse spioHome s call).disk ∧
      Settled spioHome s.disk (afterCall parse spioHome s call).disk := by
  have hwp : wp (call.run parse spioHome)
      (fun _ t => Sound members spioHome t.disk ∧ Settled spioHome s.disk t.disk)
      (fun _ t => Sound members spioHome t.disk ∧ Settled spioHome s.disk t.disk) s := by
    refine wp_mono (wp_call hmembers hsound hproper) (fun result t h => ?_) fun _ t h => h
    exact h.1
  have hend := hwp.of_snd
  exact hend

/-- A run: the checkouts that are ready stay as they are. -/
theorem sound_run {calls : List Call} (hmembers : Unmarked members)
    (hsound : Sound members spioHome s.disk)
    (hproper : Along (afterCall parse spioHome) (fun s c => c.Proper parse members spioHome s)
      calls s) :
    Sound members spioHome (calls.foldl (afterCall parse spioHome) s).disk ∧
      Settled spioHome s.disk (calls.foldl (afterCall parse spioHome) s).disk := by
  induction calls generalizing s with
  | nil => exact ⟨hsound, .refl⟩
  | cons call calls ih =>
    obtain ⟨hsound', hsettled⟩ := sound_step hmembers hsound hproper.1
    obtain ⟨hsound'', hsettled'⟩ := ih hsound' hproper.2
    exact ⟨hsound'', hsettled.trans hsettled'⟩

/-- Where there is no checkout yet, none has a marker. -/
theorem sound_of_empty (h : ∀ q, d.get (normal (registryCheckoutRoot spioHome) ++ q) = none) :
    Sound members spioHome d := by
  intro packageName version digest root hroot hmarked
  obtain ⟨owner, package, hnames, rfl⟩ := hroot.names
  obtain ⟨q, f, hf⟩ := marked_iff.mp hmarked
  rw [normal_append_names hnames, List.append_assoc, h] at hf
  cases hf

/-- The checkout that a call returns holds every member of an artifact whose digest is that of the
record, whatever calls, failed or not, came before, and no later call changes a file of it. -/
theorem returned_checkout_complete (hmembers : Unmarked members)
    (hstart : ∀ q, s.disk.get (normal (registryCheckoutRoot spioHome) ++ q) = none)
    (hproper : Along (afterCall parse spioHome) (fun s c => c.Proper parse members spioHome s)
      (before ++ call :: after) s)
    (hok : call.run parse spioHome (before.foldl (afterCall parse spioHome) s) = (.ok result, t)) :
    ∃ root content, checkoutPath spioHome call.packageName call.version result.sha256 = .ok root ∧
      (result.snapshotRoot = root ∨ ∃ name, result.snapshotRoot = root ++ [name]) ∧
      occupied t.disk (result.snapshotRoot ++ ["spio.toml"]) = true ∧
      DigestOf content result.sha256 ∧
      (∀ q f, (members content).get q = some f → t.disk.get (normal root ++ q) = some f) ∧
      ∀ q, (after.foldl (afterCall parse spioHome) t).disk.get (normal root ++ q) =
        t.disk.get (normal root ++ q) := by
  obtain ⟨hbefore, hcall, hafter⟩ := along_append.mp hproper
  obtain ⟨hsound, -⟩ := sound_run hmembers (sound_of_empty hstart) hbefore
  obtain ⟨⟨hsound', -⟩, root, hreturned⟩ := (wp_call hmembers hsound hcall).of_ok hok
  have ht : afterCall parse spioHome (before.foldl (afterCall parse spioHome) s) call = t :=
    congrArg Prod.snd hok
  rw [ht] at hafter
  obtain ⟨-, hsettled⟩ := sound_run hmembers hsound' hafter
  obtain ⟨content, hdigest, hfiles⟩ := hsound' _ _ _ _ hreturned.checkout hreturned.marked
  exact ⟨root, content, hreturned.checkout.path, hreturned.snapshotRoot, hreturned.manifest,
    hdigest, hfiles, hsettled _ _ _ _ hreturned.checkout hreturned.marked⟩

end Runs

section Sample

/-- The digest of the artifact in the sample registry. -/
def artifactDigest : String :=
  "c7c5c1d70c5dec4416ab6158afd0b223ef40c29b1dc1f97ed9428b94d4cadb1c"

theorem isDigest_artifactDigest : IsDigest artifactDigest := by
  have hall : artifactDigest.toList.all ("0123456789abcdef".toList.contains ·) = true := by
    decide +kernel
  exact ⟨by decide +kernel, fun c hc => by simpa using List.all_eq_true.mp hall c hc⟩

/-- Every archive has a manifest and nothing else. -/
def sampleMembers (_ : Content) : FileTree String Content := FileTree.empty.put ["spio.toml"] []

def sampleCall : Call where
  turn := { sampleTurn with extract := fun content => ⟨sampleMembers content, true⟩ }
  registryRoot := "file:///srv"
  offline := false
  packageName := "a/b"
  version := "1.0.0"

def sampleState : State := { disk := sampleDisk artifactDigest }

theorem returned_checkout_complete_sample :
    ∃ result t root content, sampleCall.run (sampleParse artifactDigest) sampleHome sampleState =
        (.ok result, t) ∧
      checkoutPath sampleHome "a/b" "1.0.0" result.sha256 = .ok root ∧
      DigestOf content result.sha256 ∧
      ∀ q f, (sampleMembers content).get q = some f → t.disk.get (normal root ++ q) = some f := by
  have hok :
      (sampleCall.run (sampleParse artifactDigest) sampleHome sampleState).1.isOk = true := by
    decide +kernel
  have hselect : (selectEntry (sampleParse artifactDigest) sampleCall.turn sampleHome "file:///srv"
      false "a/b" "1.0.0" sampleState).1 = .ok (sampleEntry artifactDigest) := by decide +kernel
  have hresolved : resolveRegistryRead "file:///srv" = .ok "file:///srv" := by rfl
  have hmembers : Unmarked sampleMembers := by
    intro content q
    exact get_put_of_ne (by simp)
  have hproper : sampleCall.Proper (sampleParse artifactDigest) sampleMembers sampleHome
      sampleState := by
    refine ⟨by decide, by decide, ⟨fun _ _ _ hf => hf, fun _ _ _ _ hf => hf⟩, ?_⟩
    intro resolved entry hresolved' hentry
    obtain rfl : "file:///srv" = resolved := Except.ok.inj (hresolved.symm.trans hresolved')
    obtain rfl : sampleEntry artifactDigest = entry := Except.ok.inj (hselect.symm.trans hentry)
    exact isDigest_artifactDigest
  have hstart : ∀ q,
      sampleState.disk.get (normal (registryCheckoutRoot sampleHome) ++ q) = none := by
    intro q
    have hroot : normal (registryCheckoutRoot sampleHome) =
        ["home", "user", ".spio", "registry", "checkouts"] := by decide
    simp [hroot, sampleState, sampleDisk, get_put]
  rcases hrun : sampleCall.run (sampleParse artifactDigest) sampleHome sampleState with
    ⟨e | result, t⟩
  · rw [hrun] at hok
    cases hok
  obtain ⟨root, content, hroot, -, -, hdigest, hfiles, -⟩ :=
    @returned_checkout_complete (sampleParse artifactDigest) sampleMembers sampleHome sampleState t
      sampleCall [] [] result hmembers hstart ⟨hproper, trivial⟩ hrun
  exact ⟨result, t, root, content, rfl, hroot, hdigest, hfiles⟩

end Sample

end StyioPlatform.RegistryClient
