import StyioPlatform.Core.DigestAgreement
import StyioPlatform.RegistryClient.Client

/-! Where the registry client changes files and reads the registry: every path is checked on the way
from the registry to the file system except the digest of a record, which `BlobCachePath` cuts into
names before anything is known about it. -/
namespace StyioPlatform.RegistryClient

open Manifest Prog

/-- The path leads below the directory or to it, by the names alone. -/
def Within (root p : Path) : Prop := normal root <+: normal p

instance (root p : Path) : Decidable (Within root p) := inferInstanceAs (Decidable (_ <+: _))

/-- The caches of the client. -/
def cacheRoots (spioHome : Path) : List Path :=
  [registryIndexCacheRoot spioHome, registryBlobCacheRoot spioHome, registryCheckoutRoot spioHome]

def Cached (spioHome p : Path) : Prop := ∃ root ∈ cacheRoots spioHome, Within root p

instance (spioHome p : Path) : Decidable (Cached spioHome p) :=
  inferInstanceAs (Decidable (∃ root ∈ cacheRoots spioHome, Within root p))

/-- The client changed paths in its caches only, and read only below a registry on the host. -/
structure Confined (spioHome : Path) (registryRoot : String) (s : State) : Prop where
  changed : ∀ p ∈ s.changed, Cached spioHome p
  read : ∀ p ∈ s.read, Within (fileUrlToPath registryRoot) p

/-- The artifact is not in the cache, and it is there to be copied or its address to be asked. -/
def Downloads (spioHome : Path) (registryRoot : String) (offline : Bool) (d : Disk)
    (entry : RegistryEntry) : Prop :=
  occupied d (blobCachePath spioHome entry.sha256) = false ∧
    ∃ artifact, normalizeRelativeRegistryPath entry.artifactPath
        "registry v2 source artifact path" = .ok artifact ∧
      if isFileRegistry registryRoot then
        occupied d (fileUrlToPath registryRoot ++ artifact) = true
      else offline = false ∧ ∃ url, joinUrl registryRoot (genericString artifact) = .ok url

/-- A digest as SHA-256 prints it. -/
def IsDigest (text : String) : Prop :=
  text.length = 64 ∧ ∀ c ∈ text.toList, c ∈ "0123456789abcdef".toList

section Names

variable {root p names dir : Path} {name text context : String}

theorem within_append (h : ∀ name ∈ names, name ≠ "..") : Within root (root ++ names) := by
  unfold Within normal
  rw [List.foldl_append]
  exact prefix_foldl_enter h

theorem Within.append (hp : Within root p) (h : ∀ name ∈ names, name ≠ "..") :
    Within root (p ++ names) := hp.trans (within_append h)

theorem getLast?_suffix {suffix : String} (hne : suffix.toList ≠ []) :
    (name ++ suffix).toList.getLast? = suffix.toList.getLast? := by
  rw [String.toList_append, List.getLast?_append_of_ne_nil _ hne]

theorem ne_of_suffix {suffix other : String} (hne : suffix.toList ≠ [])
    (hlast : suffix.toList.getLast? ≠ other.toList.getLast?) : name ++ suffix ≠ other := by
  rintro rfl
  exact hlast (getLast?_suffix hne).symm

theorem not_up_of_normalize (h : normalizeRelativeRegistryPath text context = .ok p) :
    p ≠ [] ∧ ∀ n ∈ p, n ≠ ".." := by
  unfold normalizeRelativeRegistryPath at h
  dsimp only at h
  split at h
  · cases h
  split at h
  · cases h
  split at h
  · cases h
  next hinside =>
    push Not at hinside
    have hnames : ∀ n ∈ relativeNormal (pieces text), n ≠ ".." := fun n hn =>
      (isName_of_mem_relativeNormal hinside.2 n hn).2.2
    split at h
    · cases h
      refine ⟨by simp, fun n hn => ?_⟩
      rcases List.mem_append.mp hn with hn | hn
      · exact hnames n hn
      · rw [List.mem_singleton.mp hn]
        decide
    · cases h
      exact ⟨hinside.1, hnames⟩

/-- A file that may be written by way of a temporary file, with its directory. -/
structure Writable (P : Path → Prop) (p : Path) : Prop where
  directory : P p.dropLast
  temporary : P (temporaryPath p)
  file : P p

theorem temporary_name {name : String} : name ++ ".tmp" ≠ ".." :=
  ne_of_suffix (by decide) (by decide)

theorem hex64_ne_up {value : UInt64} : hex64 value ≠ ".." := by
  intro h
  have hdigits := congrArg String.toList h
  rw [hex64, String.toList_ofList, Nat.toDigits_eq_if (by decide)] at hdigits
  obtain ⟨k, hk, hdot⟩ : ∃ k < 16, Nat.digitChar k = '.' := by
    split at hdigits
    · have hlength := congrArg List.length hdigits
      cases hlength
    · have hlast := congrArg List.getLast? hdigits
      rw [List.getLast?_concat] at hlast
      exact ⟨_, Nat.mod_lt _ (by decide), Option.some.inj hlast⟩
  have hdigit : ∀ k < 16, Nat.digitChar k ≠ '.' := by decide
  exact hdigit k hk hdot

theorem temporaryPath_concat : temporaryPath (p ++ [name]) = p ++ [name ++ ".tmp"] := by
  simp [temporaryPath]

theorem writable_of_registryObjectCachePath {spioHome : Path} {registryRoot : String}
    (h : registryObjectCachePath spioHome registryRoot text = .ok p) :
    Writable (Cached spioHome) p := by
  obtain ⟨normalized, hnormalized, hp⟩ := bind_ok_iff.mp h
  cases hp
  obtain ⟨hne, hup⟩ := not_up_of_normalize hnormalized
  obtain ⟨initial, last, rfl⟩ : ∃ initial last, normalized = initial ++ [last] := by
    rcases List.eq_nil_or_concat normalized with rfl | ⟨initial, last, hconcat⟩
    · exact absurd rfl hne
    · exact ⟨initial, last, by simpa using hconcat⟩
  have hcached : ∀ names : Path, (∀ n ∈ names, n ≠ "..") →
      Cached spioHome (registryIndexCacheRoot spioHome ++ names) :=
    fun names hnames => ⟨_, List.mem_cons_self, within_append hnames⟩
  have hhash : ∀ n ∈ hex64 (fnv1a64 registryRoot) :: initial, n ≠ ".." := by
    intro n hn
    rcases List.mem_cons.mp hn with rfl | hn
    · exact hex64_ne_up
    · exact hup n (List.mem_append_left _ hn)
  have hextended : ∀ name, name ≠ ".." →
      ∀ n ∈ (hex64 (fnv1a64 registryRoot) :: initial) ++ [name], n ≠ ".." := by
    intro name hname n hn
    rcases List.mem_append.mp hn with hn | hn
    · exact hhash n hn
    · rw [List.mem_singleton.mp hn]
      exact hname
  have hpath : registryIndexCacheRoot spioHome ++ [hex64 (fnv1a64 registryRoot)] ++
      (initial ++ [last]) =
      registryIndexCacheRoot spioHome ++ ((hex64 (fnv1a64 registryRoot) :: initial) ++ [last]) := by
    simp
  rw [hpath]
  constructor
  · rw [← List.append_assoc, List.dropLast_concat]
    exact hcached _ hhash
  · rw [← List.append_assoc, temporaryPath_concat, List.append_assoc]
    exact hcached _ (hextended _ temporary_name)
  · exact hcached _ (hextended _ (hup last (by simp)))

/-- The place of a blob ends with a name that no directory of the caches has. -/
theorem blobCachePath_concat {spioHome : Path} {sha256 : String} : ∃ initial last,
    blobCachePath spioHome sha256 = initial ++ [last ++ ".tar"] := by
  have hsuffix : '/' ∉ ".tar".toList := by decide
  obtain ⟨initial, last, -, hpieces⟩ := splitOn_append (l := sha256.toList) hsuffix
  have hnames : pieces (sha256 ++ ".tar") =
      initial.map String.ofList ++ [String.ofList last ++ ".tar"] := by
    rw [pieces, String.toList_append, hpieces, List.map_append, List.map_singleton,
      String.ofList_append, String.ofList_toList]
  rw [blobCachePath, joinText, hnames]
  split
  · next hroot =>
    cases initial with
    | nil =>
      have htext : ['/'].intercalate ((sha256 ++ ".tar").toList.splitOn '/') =
          (sha256 ++ ".tar").toList := List.intercalate_splitOn '/'
      rw [String.toList_append] at hroot htext
      rw [hpieces, List.nil_append, List.intercalate_singleton] at htext
      have hnone : '/' ∉ last ++ ".tar".toList := by
        refine not_mem_of_mem_splitOn (l := sha256.toList ++ ".tar".toList) ?_
        rw [hpieces]
        exact List.mem_singleton_self _
      rw [htext] at hnone
      exact absurd (List.mem_of_mem_head? hroot) hnone
    | cons first initial => exact ⟨initial.map String.ofList, String.ofList last, rfl⟩
  · exact ⟨_ ++ initial.map String.ofList, String.ofList last, (List.append_assoc ..).symm⟩

theorem isName_tar {last : String} : IsName (last ++ ".tar") :=
  ⟨ne_of_suffix (by decide) (by decide), ne_of_suffix (by decide) (by decide),
    ne_of_suffix (by decide) (by decide)⟩

/-- The roots of the caches end with names of their own. -/
theorem normal_cacheRoot {spioHome : Path} (h : root ∈ cacheRoots spioHome) :
    ∃ above, ∃ own ∈ ["index", "sha256", "checkouts"], normal root = above ++ [own] := by
  have hnames : ∀ names : Path, (∀ n ∈ names, IsName n) →
      normal (spioHome ++ names) = normal spioHome ++ names := by
    intro names hnames
    rw [normal, List.foldl_append, foldl_enter_of_isName hnames]
    rfl
  simp only [cacheRoots, List.mem_cons, List.not_mem_nil, or_false] at h
  rcases h with rfl | rfl | rfl
  · refine ⟨normal spioHome ++ ["registry"], "index", by simp, ?_⟩
    rw [registryIndexCacheRoot, registryCacheRoot, List.append_assoc, hnames _ (by decide)]
    simp
  · refine ⟨normal spioHome ++ ["registry", "blobs"], "sha256", by simp, ?_⟩
    rw [registryBlobCacheRoot, registryCacheRoot, List.append_assoc, hnames _ (by decide)]
    simp
  · refine ⟨normal spioHome ++ ["registry"], "checkouts", by simp, ?_⟩
    rw [registryCheckoutRoot, registryCacheRoot, List.append_assoc, hnames _ (by decide)]
    simp

/-- The directory of a blob lies in the caches exactly when the blob does. -/
theorem cached_tar_iff {spioHome : Path} {last : String} :
    Cached spioHome (p ++ [last ++ ".tar"]) ↔ Cached spioHome p := by
  constructor
  · rintro ⟨root, hroot, hwithin⟩
    refine ⟨root, hroot, ?_⟩
    rw [Within, normal_concat isName_tar, List.prefix_concat_iff] at hwithin
    rcases hwithin with heq | hwithin
    · obtain ⟨above, own, hown, hnormal⟩ := normal_cacheRoot hroot
      rw [hnormal] at heq
      have hname : own = last ++ ".tar" := (List.append_inj' heq rfl).2 |> List.singleton_injective
      have hne : ∀ own ∈ ["index", "sha256", "checkouts"],
          ".tar".toList.getLast? ≠ own.toList.getLast? := by decide
      exact absurd hname.symm (ne_of_suffix (by decide) (hne own hown))
    · exact hwithin
  · rintro ⟨root, hroot, hwithin⟩
    refine ⟨root, hroot, hwithin.append fun n hn => ?_⟩
    rw [List.mem_singleton.mp hn]
    exact isName_tar.2.2

theorem writable_of_directory {spioHome : Path} {last : String} (h : Cached spioHome p) :
    Writable (Cached spioHome) (p ++ [last ++ ".tar"]) := by
  constructor
  · rwa [List.dropLast_concat]
  · rw [temporaryPath_concat]
    obtain ⟨root, hroot, hwithin⟩ := h
    refine ⟨root, hroot, hwithin.append fun n hn => ?_⟩
    rw [List.mem_singleton.mp hn]
    exact temporary_name
  · exact cached_tar_iff.mpr h

end Names

section Run

variable {I : State → Prop} {P R : Path → Prop} {turn : Turn} {spioHome p : Path}
  {paths : List Path} {registryRoot packageName version : String} {offline : Bool}
  {entry : RegistryEntry} {parse : Content → Option Json}

/-- A property of the state that holds on as long as only paths in `P` are changed and only paths in
`R` are read. -/
structure Allows (P R : Path → Prop) (I : State → Prop) : Prop where
  disk : ∀ s d, I s → I { s with disk := d }
  changed : ∀ s paths, (∀ p ∈ paths, P p) → I s → I { s with changed := s.changed ++ paths }
  read : ∀ s p, R p → I s → I { s with read := s.read ++ [p] }

/-- The places of the objects of a registry. -/
structure Places (P R : Path → Prop) (spioHome : Path) (registryRoot : String) : Prop where
  cached : ∀ text p, registryObjectCachePath spioHome registryRoot text = .ok p → Writable P p
  hosted : ∀ text context p, normalizeRelativeRegistryPath text context = .ok p →
    R (fileUrlToPath registryRoot ++ p)

theorem keeps_ask (h : Allows P R I) (hpaths : ∀ p ∈ paths, P p) : Keeps I (ask paths) :=
  keeps_modify fun s hs => h.changed s paths hpaths hs

theorem keeps_ask_one (h : Allows P R I) (hp : P p) : Keeps I (ask [p]) :=
  keeps_ask h fun q hq => by rwa [List.mem_singleton.mp hq]

theorem keeps_changeDisk (h : Allows P R I) {f : Disk → Disk} : Keeps I (changeDisk f) :=
  keeps_modify fun s hs => h.disk s _ hs

theorem keeps_readsBelow (h : Allows P R I) (hp : R p) : Keeps I (readsBelow p) :=
  keeps_modify fun s hs => h.read s p hp hs

theorem keeps_leavePartial (h : Allows P R I) : Keeps I (leavePartial turn p) := by
  rw [leavePartial]
  split
  · exact keeps_pure
  · exact keeps_changeDisk h

theorem keeps_createDirectories (h : Allows P R I) (hp : P p) :
    Keeps I (createDirectories turn p) := by
  refine keeps_bind (keeps_ask_one h hp) fun _ => keeps_bind keeps_read fun s => ?_
  exact keeps_ite keeps_fail keeps_pure

theorem keeps_finishFile (h : Allows P R I) (hp : Writable P p) {content : Content}
    {message : String} : Keeps I (finishFile turn p content message) := by
  have hboth : ∀ q ∈ [temporaryPath p, p], P q := by
    intro q hq
    rcases List.mem_cons.mp hq with rfl | hq
    · exact hp.temporary
    · rw [List.mem_singleton.mp hq]
      exact hp.file
  refine keeps_bind (keeps_ask h hboth) fun _ => keeps_bind keeps_read fun s => ?_
  refine keeps_ite (keeps_bind (keeps_ask_one h hp.temporary) fun _ => ?_) (keeps_changeDisk h)
  exact keeps_ite keeps_fail (keeps_bind (keeps_changeDisk h) fun _ => keeps_fail)

theorem keeps_writeFileAtomically (h : Allows P R I) (hp : Writable P p) {content : Content}
    {context : String} : Keeps I (writeFileAtomically turn p content context) := by
  refine keeps_bind (keeps_createDirectories h hp.directory) fun _ => ?_
  refine keeps_bind (keeps_ask_one h hp.temporary) fun _ => keeps_bind keeps_read fun s => ?_
  refine keeps_ite keeps_fail (keeps_ite ?_ ?_)
  · exact keeps_bind (keeps_leavePartial h) fun _ => keeps_fail
  · exact keeps_bind (keeps_changeDisk h) fun _ => keeps_finishFile h hp

theorem keeps_fetchIntoDirectory (h : Allows P R I) (hp : Writable P p) {url : String} :
    Keeps I (fetchIntoDirectory turn url p) := by
  refine keeps_bind (keeps_ask_one h hp.temporary) fun _ => keeps_bind keeps_read fun s => ?_
  dsimp only
  split
  · refine keeps_ite ?_ ?_
    · exact keeps_bind (keeps_leavePartial h) fun _ => keeps_fail
    · exact keeps_bind (keeps_changeDisk h) fun _ => keeps_fail
  · exact keeps_bind (keeps_changeDisk h) fun _ => keeps_finishFile h hp

theorem keeps_copyFile (h : Allows P R I) {source : Path} (hp : P p) :
    Keeps I (copyFile turn source p) := by
  refine keeps_bind (keeps_ask_one h hp) fun _ => keeps_bind keeps_read fun s => ?_
  split
  · exact keeps_fail
  · exact keeps_ite (keeps_bind (keeps_leavePartial h) fun _ => keeps_fail) (keeps_changeDisk h)

theorem keeps_readTextFile {context : String} : Keeps I (readTextFile turn p context) := by
  refine keeps_bind keeps_read fun s => ?_
  split
  · exact keeps_ite keeps_fail keeps_pure
  · exact keeps_ite keeps_pure keeps_fail

theorem keeps_sha256File : Keeps I (sha256File turn p) := by
  refine keeps_bind keeps_read fun s => ?_
  dsimp only
  split
  · exact keeps_fail
  · exact keeps_pure

theorem keeps_loadRegistryObjectText (h : Allows P R I) (hplaces : Places P R spioHome registryRoot)
    {stage : Stage} {relativePath context : String} :
    Keeps I (loadRegistryObjectText turn spioHome registryRoot offline stage relativePath
      context) := by
  refine keeps_bind_ofExcept fun normalized hnormalized => keeps_ite ?_ (keeps_ite keeps_fail ?_)
  · refine keeps_bind (keeps_readsBelow h ?_) fun _ => keeps_readTextFile
    exact hplaces.hosted _ _ _ hnormalized
  · refine keeps_bind_ofExcept fun cachePath hcachePath => keeps_ite ?_ ?_
    · exact keeps_bind keeps_read fun s => keeps_ite keeps_fail keeps_readTextFile
    · refine keeps_bind_ofExcept fun url _ => ?_
      split
      · exact keeps_fail
      · refine keeps_bind (keeps_writeFileAtomically h ?_) fun _ => keeps_pure
        exact hplaces.cached _ _ hcachePath

theorem keeps_selectEntry (h : Allows P R I) (hplaces : Places P R spioHome registryRoot) :
    Keeps I (selectEntry parse turn spioHome registryRoot offline packageName version) := by
  refine keeps_bind ?_ fun config => keeps_bind ?_ fun metadata => ?_
  · exact keeps_bind (keeps_loadRegistryObjectText h hplaces) fun _ => keeps_ofExcept
  · refine keeps_bind keeps_ofExcept fun names => ?_
    exact keeps_bind (keeps_loadRegistryObjectText h hplaces) fun _ => keeps_ofExcept
  · exact keeps_bind (keeps_loadRegistryObjectText h hplaces) fun _ => keeps_ofExcept

theorem keeps_cacheArtifact (h : Allows P R I) (hplaces : Places P R spioHome registryRoot)
    (hblob : Writable P (blobCachePath spioHome entry.sha256)) :
    Keeps I (cacheArtifact turn spioHome registryRoot offline entry) := by
  refine keeps_bind_ofExcept fun artifact hartifact => keeps_ite ?_ (keeps_ite keeps_fail ?_)
  · refine keeps_bind (keeps_readsBelow h (hplaces.hosted _ _ _ hartifact)) fun _ => ?_
    refine keeps_bind keeps_read fun s => keeps_ite keeps_fail ?_
    exact keeps_bind (keeps_createDirectories h hblob.directory) fun _ => keeps_copyFile h hblob.file
  · refine keeps_bind_ofExcept fun url _ => ?_
    exact keeps_bind (keeps_createDirectories h hblob.directory) fun _ =>
      keeps_fetchIntoDirectory h hblob

theorem keeps_detectSnapshotRoot : Keeps I (detectSnapshotRoot p) := by
  refine keeps_bind keeps_read fun s => keeps_ite keeps_pure ?_
  split
  · exact keeps_ite keeps_pure keeps_fail
  · exact keeps_fail

theorem keeps_clearCheckout (h : Allows P R I) (hp : P p) : Keeps I (clearCheckout turn p) :=
  keeps_bind (keeps_ask_one h hp) fun _ => keeps_ite (keeps_changeDisk h) (keeps_changeDisk h)

theorem keeps_extractArtifact (h : Allows P R I) {blob : Path} :
    Keeps I (extractArtifact turn blob p) := by
  refine keeps_bind keeps_read fun s => ?_
  dsimp only
  split
  · exact keeps_fail
  · exact keeps_bind (keeps_changeDisk h) fun _ => keeps_ite keeps_fail keeps_pure

theorem keeps_ensureCheckout (h : Allows P R I)
    (hcheckout : ∀ p, checkoutPath spioHome entry.package entry.version entry.sha256 = .ok p →
      P p ∧ P (readyMarker p)) :
    Keeps I (ensureCheckout turn spioHome entry) := by
  refine keeps_bind_ofExcept fun checkoutRoot hroot => keeps_bind keeps_read fun s => ?_
  obtain ⟨hdirectory, hmarker⟩ := hcheckout _ hroot
  refine keeps_ite keeps_detectSnapshotRoot ?_
  refine keeps_bind (keeps_clearCheckout h hdirectory) fun _ => ?_
  refine keeps_bind (keeps_createDirectories h hdirectory) fun _ => ?_
  refine keeps_bind (keeps_extractArtifact h) fun _ => ?_
  refine keeps_bind keeps_detectSnapshotRoot fun snapshotRoot => ?_
  refine keeps_bind (keeps_ask_one h hmarker) fun _ => keeps_bind keeps_read fun s => ?_
  exact keeps_ite keeps_fail (keeps_bind (keeps_changeDisk h) fun _ => keeps_pure)

end Run

section Records

variable {packageName version text : String} {p : Path} {c : Char} {lines : List Content}
  {entry : RegistryEntry} {parse : Content → Option Json} {turn : Turn} {spioHome : Path}
  {registryRoot : String} {offline : Bool}

theorem joinText_of_not_mem (h : '/' ∉ text.toList) : joinText p text = p ++ [text] := by
  have hhead : text.toList.head? ≠ some '/' := fun hhead => h (List.mem_of_mem_head? hhead)
  rw [joinText, if_neg hhead, pieces, List.splitOn_eq_singleton h, List.map_singleton,
    String.ofList_toList]

/-- One name of a path that does not lead upwards. -/
structure IsPart (text : String) : Prop where
  whole : '/' ∉ text.toList
  down : text ≠ ".."

theorem isPart_of_forall (h : ∀ c ∈ text.toList, c ≠ '/' ∧ c ≠ '.') : IsPart text where
  whole := fun hslash => (h '/' hslash).1 rfl
  down := by
    rintro rfl
    exact (h '.' (by decide)).2 rfl

theorem isPart_of_isNamePart {part : List Char} (h : isNamePart part = true) :
    IsPart (String.ofList part) := by
  have hchar : ∀ c, isNameChar c = true → c ≠ '/' ∧ c ≠ '.' := by
    intro c hc
    constructor <;> rintro rfl <;> exact absurd hc (by decide)
  apply isPart_of_forall
  rw [String.toList_ofList]
  cases part with
  | nil => exact nofun
  | cons first rest =>
    rw [isNamePart, Bool.and_eq_true] at h
    intro c hc
    rcases List.mem_cons.mp hc with rfl | hc
    · exact hchar c (by rw [isNameChar, h.1]; rfl)
    · exact hchar c (List.all_eq_true.mp h.2 c hc)

theorem isPart_of_isSemver (h : isSemver version = true) : IsPart version := by
  have hdown : version ≠ ".." := by
    rintro rfl
    exact absurd h (by decide)
  refine ⟨fun hslash => ?_, hdown⟩
  have htext : ['.'].intercalate (version.toList.splitOn '.') = version.toList :=
    List.intercalate_splitOn '.'
  rw [← htext] at hslash
  rcases eq_or_mem_of_mem_intercalate hslash with heq | ⟨part, hpart, hslash⟩
  · exact absurd heq (by decide)
  unfold isSemver at h
  split at h
  · next major minor patch hsplit =>
    rw [hsplit] at hpart
    have hdigits := List.all_eq_true.mp h part hpart
    rw [Bool.and_eq_true] at hdigits
    exact absurd (List.all_eq_true.mp hdigits.2 '/' hslash) (by decide)
  · cases h

theorem isPart_of_isDigest (h : IsDigest text) : IsPart text := by
  refine isPart_of_forall fun c hc => ?_
  have hhex : ("0123456789abcdef".toList.all fun c => decide (c ≠ '/' ∧ c ≠ '.')) = true := by
    decide
  exact of_decide_eq_true (List.all_eq_true.mp hhex c (h.2 c hc))

theorem splitPackageName_of_isPackageName (h : isPackageName packageName = true) :
    ∃ owner package, splitPackageName packageName = .ok (owner, package) ∧ IsPart owner ∧
      IsPart package := by
  unfold isPackageName at h
  split at h
  · next owner package hsplit =>
    rw [Bool.and_eq_true] at h
    have htext : packageName.toList = owner ++ '/' :: package := by
      have hjoin : ['/'].intercalate (packageName.toList.splitOn '/') = packageName.toList :=
        List.intercalate_splitOn '/'
      rw [← hjoin, hsplit]
      simp
    have howner : '/' ∉ owner := by
      have := (isPart_of_isNamePart h.1).whole
      rwa [String.toList_ofList] at this
    have htake : packageName.toList.takeWhile (· ≠ '/') = owner := by
      rw [htext, List.takeWhile_append_of_pos]
      · simp
      · intro c hc
        exact decide_eq_true fun heq => howner (heq ▸ hc)
    have hdrop : packageName.toList.drop (owner.length + 1) = package := by
      rw [htext]
      simp
    have hne : ∀ part, isNamePart part = true → part ≠ [] := by
      rintro _ hpart rfl
      cases hpart
    refine ⟨String.ofList owner, String.ofList package, ?_, isPart_of_isNamePart h.1,
      isPart_of_isNamePart h.2⟩
    rw [splitPackageName, htake, hdrop, if_neg (not_or.mpr ⟨hne _ h.1, hne _ h.2⟩)]
  · cases h

/-- The checkout of a version, with the marker in it, is in the caches when its digest is one. -/
theorem cached_checkoutPath {digest : String} (hname : isPackageName packageName = true)
    (hversion : isSemver version = true) (hdigest : IsDigest digest)
    (h : checkoutPath spioHome packageName version digest = .ok p) :
    Cached spioHome p ∧ Cached spioHome (readyMarker p) := by
  obtain ⟨owner, package, hsplit, howner, hpackage⟩ := splitPackageName_of_isPackageName hname
  have hv := isPart_of_isSemver hversion
  have hd := isPart_of_isDigest hdigest
  rw [checkoutPath, hsplit] at h
  cases h
  rw [joinText_of_not_mem howner.whole, joinText_of_not_mem hpackage.whole,
    joinText_of_not_mem hv.whole, joinText_of_not_mem hd.whole]
  have hcached : ∀ names : Path, (∀ n ∈ names, n ≠ "..") →
      Cached spioHome (registryCheckoutRoot spioHome ++ names) :=
    fun names hnames => ⟨_, by simp [cacheRoots], within_append hnames⟩
  have hdown : ∀ n ∈ [owner, package, version, digest, ".spio-snapshot-ready"], n ≠ ".." := by
    simpa using ⟨howner.down, hpackage.down, hv.down, hd.down⟩
  constructor
  · have := hcached [owner, package, version, digest] fun n hn =>
      hdown n (List.mem_append_left [".spio-snapshot-ready"] hn)
    simpa using this
  · have := hcached _ hdown
    simpa [readyMarker] using this

theorem length_hexWord {w : Sha2.Word} : (Core.hexWord w).length = 8 := by
  rw [Core.hexWord_eq]
  rfl

theorem mem_hexWord {w : Sha2.Word} (h : c ∈ Core.hexWord w) : c ∈ "0123456789abcdef".toList := by
  have hdigit : ∀ k < 16, Nat.digitChar k ∈ "0123456789abcdef".toList := by decide
  rw [Core.hexWord_eq, Sha2.hex, List.mem_flatMap] at h
  obtain ⟨byte, -, hc⟩ := h
  have hbyte := byte.toNat_lt
  rcases List.mem_cons.mp hc with rfl | hc
  · exact hdigit _ (by omega)
  · rw [List.mem_singleton.mp hc]
    exact hdigit _ (Nat.mod_lt _ (by decide))

theorem isDigest_finalHex (s : Core.Sha256) : IsDigest (String.ofList s.finalHex) := by
  constructor
  · rw [String.length_ofList, Core.Sha256.finalHex, List.length_flatMap]
    simp only [length_hexWord]
    rfl
  · intro c hc
    rw [String.toList_ofList, Core.Sha256.finalHex] at hc
    obtain ⟨w, -, hc⟩ := List.mem_flatMap.mp hc
    exact mem_hexWord hc

theorem isDigest_of_sha256File {path : String} {file : Core.InputFile} {digest : List Char}
    (h : Core.sha256File path file = .ok digest) : IsDigest (String.ofList digest) := by
  unfold Core.sha256File at h
  split at h
  · cases h
  · dsimp only at h
    split at h
    · cases h
    · cases h
      exact isDigest_finalHex _

theorem wp_sha256File {s : State} : wp (sha256File turn p) (fun digest t => t = s ∧ IsDigest digest)
    (fun _ t => t = s) s := by
  rw [sha256File, wp_bind, wp_read]
  dsimp only
  split
  · exact rfl
  · next digest hdigest => exact ⟨rfl, isDigest_of_sha256File hdigest⟩

theorem validateEntry_ok {record : Json} (h : validateEntry record packageName version = .ok entry) :
    entry.package = packageName ∧ entry.version = version := by
  unfold validateEntry at h
  obtain ⟨package, -, h⟩ := bind_ok_iff.mp h
  obtain ⟨found, -, h⟩ := bind_ok_iff.mp h
  split at h
  · cases h
  · next hpackage =>
    split at h
    · cases h
    · next hversion =>
      split at h
      · cases h
      · obtain ⟨sha256, -, h⟩ := bind_ok_iff.mp h
        obtain ⟨artifactPath, -, h⟩ := bind_ok_iff.mp h
        split at h
        · cases h
        · obtain ⟨normalized, -, h⟩ := bind_ok_iff.mp h
          cases h
          exact ⟨not_not.mp hpackage, not_not.mp hversion⟩

theorem findEntry_ok (h : findEntry parse packageName version lines = .ok entry) :
    entry.package = packageName ∧ entry.version = version := by
  induction lines with
  | nil => cases h
  | cons line lines ih =>
    unfold findEntry at h
    split at h
    · exact ih h
    · obtain ⟨record, -, h⟩ := bind_ok_iff.mp h
      obtain ⟨package, -, h⟩ := bind_ok_iff.mp h
      split at h
      · exact ih h
      · obtain ⟨found, -, h⟩ := bind_ok_iff.mp h
        split at h
        · exact ih h
        · exact validateEntry_ok h

theorem returns_selectEntry :
    Returns (fun entry : RegistryEntry => entry.package = packageName ∧ entry.version = version)
      (selectEntry parse turn spioHome registryRoot offline packageName version) := by
  refine returns_bind fun config => returns_bind fun metadata => returns_bind fun text => ?_
  intro s entry t hrun
  exact findEntry_ok (congrArg Prod.fst hrun)

end Records

section Calls

variable {I : State → Prop} {P R : Path → Prop} {parse : Content → Option Json} {turn : Turn}
  {spioHome : Path} {registryRoot packageName version : String} {offline : Bool} {d : Disk}
  {s : State} {entry : RegistryEntry}

/-- Nothing is changed where nothing is downloaded. -/
theorem wp_cacheArtifact (h : Allows P R I) (hplaces : Places P R spioHome registryRoot)
    (hempty : occupied s.disk (blobCachePath spioHome entry.sha256) = false)
    (hblob : Downloads spioHome registryRoot offline s.disk entry →
      Writable P (blobCachePath spioHome entry.sha256)) (hs : I s) :
    wp (cacheArtifact turn spioHome registryRoot offline entry) (fun _ t => I t) (fun _ t => I t)
      s := by
  by_cases hdownloads : Downloads spioHome registryRoot offline s.disk entry
  · exact (keeps_cacheArtifact h hplaces (hblob hdownloads)).wp hs
  rw [cacheArtifact, wp_bind, wp_ofExcept]
  refine ⟨fun artifact hartifact => ?_, fun _ _ => hs⟩
  rw [wp_ite]
  refine ⟨fun hfile => ?_, fun hfile => ?_⟩
  · rw [wp_bind, readsBelow, wp_modify, wp_bind, wp_read, wp_ite]
    refine ⟨fun _ => h.read s _ (hplaces.hosted _ _ _ hartifact) hs, fun hoccupied => ?_⟩
    refine absurd ⟨hempty, artifact, hartifact, ?_⟩ hdownloads
    rw [if_pos hfile]
    simpa using hoccupied
  · rw [wp_ite]
    refine ⟨fun _ => hs, fun honline => ?_⟩
    rw [wp_bind, wp_ofExcept]
    refine ⟨fun url hurl => absurd ⟨hempty, artifact, hartifact, ?_⟩ hdownloads, fun _ _ => hs⟩
    rw [if_neg hfile]
    exact ⟨Bool.eq_false_of_not_eq_true honline, url, hurl⟩

/-- A record whose artifact is in the cache has a digest. -/
theorem wp_materializeArtifact (h : Allows P R I) (hplaces : Places P R spioHome registryRoot)
    (hblob : Downloads spioHome registryRoot offline s.disk entry →
      Writable P (blobCachePath spioHome entry.sha256)) (hs : I s) :
    wp (materializeArtifact turn spioHome registryRoot offline entry)
      (fun _ t => I t ∧ IsDigest entry.sha256) (fun _ t => I t) s := by
  have hverify : ∀ (t : State) (e : Failure), I t →
      wp (do
        let actual ← sha256File turn (blobCachePath spioHome entry.sha256)
        if actual ≠ entry.sha256 then fail e)
        (fun _ t => I t ∧ IsDigest entry.sha256) (fun _ t => I t) t := by
    intro t e ht
    rw [wp_bind]
    refine wp_mono wp_sha256File ?_ ?_
    · rintro actual _ ⟨rfl, hdigest⟩
      rw [wp_ite]
      exact ⟨fun _ => ht, fun hsame => ⟨ht, not_not.mp hsame ▸ hdigest⟩⟩
    · rintro _ _ rfl
      exact ht
  rw [materializeArtifact, wp_bind, wp_read, wp_ite]
  refine ⟨fun _ => hverify s _ hs, fun hempty => ?_⟩
  rw [wp_bind]
  refine wp_mono (wp_cacheArtifact h hplaces (Bool.eq_false_of_not_eq_true hempty) hblob hs) ?_ ?_
  · exact fun _ t ht => hverify t _ ht
  · exact fun _ _ ht => ht

theorem resolveRegistryRead_ok {resolved : String}
    (h : resolveRegistryRead registryRoot = .ok resolved) :
    resolved = normalizeRegistryRoot registryRoot := by
  unfold resolveRegistryRead at h
  dsimp only at h
  split at h
  · cases h
    rfl
  · cases h

theorem allows_confined :
    Allows (Cached spioHome) (Within (fileUrlToPath registryRoot))
      (Confined spioHome registryRoot) where
  disk := fun s d hs => ⟨hs.changed, hs.read⟩
  changed := fun s paths hpaths hs =>
    ⟨fun p hp => (List.mem_append.mp hp).elim (hs.changed p) (hpaths p), hs.read⟩
  read := fun s p hp hs => ⟨hs.changed, fun q hq => by
    rcases List.mem_append.mp hq with hq | hq
    · exact hs.read q hq
    · rwa [List.mem_singleton.mp hq]⟩

theorem places_confined :
    Places (Cached spioHome) (Within (fileUrlToPath registryRoot)) spioHome registryRoot where
  cached := fun _ _ hpath => writable_of_registryObjectCachePath hpath
  hosted := fun _ _ _ hnormalized => within_append (not_up_of_normalize hnormalized).2

theorem allows_asked {q : Path} : Allows (fun _ => True) (fun _ => True) (q ∈ ·.changed) where
  disk := fun _ _ hs => hs
  changed := fun _ _ _ hs => List.mem_append_left _ hs
  read := fun _ _ _ hs => hs

theorem writable_true {p : Path} : Writable (fun _ => True) p := ⟨trivial, trivial, trivial⟩

theorem asked_createDirectories {p : Path} : wp (createDirectories turn p)
    (fun _ t => p ∈ t.changed) (fun _ t => p ∈ t.changed) s := by
  rw [createDirectories, wp_bind, ask, wp_modify]
  refine (keeps_bind keeps_read fun _ => keeps_ite keeps_fail keeps_pure).wp ?_
  exact List.mem_append_right _ (List.mem_singleton_self _)

/-- The directory of the blob is created first. -/
theorem asked_cacheArtifact (h : Downloads spioHome registryRoot offline s.disk entry) :
    wp (cacheArtifact turn spioHome registryRoot offline entry)
      (fun _ t => (blobCachePath spioHome entry.sha256).dropLast ∈ t.changed)
      (fun _ t => (blobCachePath spioHome entry.sha256).dropLast ∈ t.changed) s := by
  obtain ⟨-, artifact, hartifact, hsource⟩ := h
  rw [cacheArtifact, wp_bind, wp_ofExcept]
  refine ⟨fun found hfound => ?_, fun e he => nomatch hartifact.symm.trans he⟩
  obtain rfl : artifact = found := Except.ok.inj (hartifact.symm.trans hfound)
  rw [wp_ite]
  refine ⟨fun hfile => ?_, fun hfile => ?_⟩
  · rw [if_pos hfile] at hsource
    rw [wp_bind, readsBelow, wp_modify, wp_bind, wp_read, wp_ite]
    refine ⟨fun hmissing => ?_, fun _ => ?_⟩
    · rw [hsource] at hmissing
      cases hmissing
    · rw [wp_bind]
      refine wp_mono asked_createDirectories ?_ fun _ _ ht => ht
      exact fun _ t ht => (keeps_copyFile allows_asked trivial).wp ht
  · rw [if_neg hfile] at hsource
    obtain ⟨honline, url, hurl⟩ := hsource
    rw [wp_ite]
    refine ⟨fun hoffline => absurd (honline.symm.trans hoffline) Bool.false_ne_true, fun _ => ?_⟩
    rw [wp_bind, wp_ofExcept]
    refine ⟨fun _ _ => ?_, fun e he => nomatch hurl.symm.trans he⟩
    rw [fetchUrlToFile, wp_bind]
    refine wp_mono asked_createDirectories ?_ fun _ _ ht => ht
    exact fun _ t ht => (keeps_fetchIntoDirectory allows_asked writable_true).wp ht

/-- What is asked while the artifact is cached stays in the record of the whole call. -/
theorem asked_materializeRegistryPackage {resolved : String}
    (hresolved : resolveRegistryRead registryRoot = .ok resolved)
    (hselect : (selectEntry parse turn spioHome resolved offline packageName version
      { disk := d }).1 = .ok entry)
    (hdownloads : Downloads spioHome resolved offline (selectEntry parse turn spioHome resolved offline
      packageName version { disk := d }).2.disk entry) :
    (blobCachePath spioHome entry.sha256).dropLast ∈
      (materializeRegistryPackage parse turn spioHome registryRoot offline packageName version
        { disk := d }).2.changed := by
  apply wp.of_snd (P := fun t : State => (blobCachePath spioHome entry.sha256).dropLast ∈ t.changed)
  rw [materializeRegistryPackage, wp_bind, wp_ofExcept]
  refine ⟨fun found hfound => ?_, fun e he => nomatch hresolved.symm.trans he⟩
  obtain rfl : resolved = found := Except.ok.inj (hresolved.symm.trans hfound)
  rcases hrun : selectEntry parse turn spioHome resolved offline packageName version { disk := d }
    with ⟨selected, s⟩
  rw [hrun] at hselect hdownloads
  obtain rfl : selected = .ok entry := hselect
  rw [wp_bind, wp_of_eq_ok hrun, wp_bind, materializeArtifact, wp_bind, wp_read, wp_ite]
  refine ⟨fun hoccupied => absurd (hdownloads.1.symm.trans hoccupied) Bool.false_ne_true,
    fun _ => ?_⟩
  rw [wp_bind]
  refine wp_mono (asked_cacheArtifact hdownloads) (fun _ t ht => ?_) fun _ _ ht => ht
  have hverify : Keeps (fun t : State => (blobCachePath spioHome entry.sha256).dropLast ∈ t.changed)
      (do
        let actual ← sha256File turn (blobCachePath spioHome entry.sha256)
        if actual ≠ entry.sha256 then
          fail (.thrown .fetch ("registry v2 source artifact sha256 mismatch for " ++ entry.package ++
            "@" ++ entry.version))) :=
    keeps_bind keeps_sha256File fun _ => keeps_ite keeps_fail keeps_pure
  refine wp_mono (hverify.wp ht) (fun _ t ht => ?_) fun _ _ ht => ht
  exact (keeps_bind (keeps_ensureCheckout allows_asked fun _ _ => ⟨trivial, trivial⟩)
    fun _ => keeps_pure).wp ht

theorem writable_blobCachePath {digest : String}
    (h : Cached spioHome (blobCachePath spioHome digest)) :
    Writable (Cached spioHome) (blobCachePath spioHome digest) := by
  obtain ⟨initial, last, hblob⟩ := @blobCachePath_concat spioHome digest
  rw [hblob] at h ⊢
  exact writable_of_directory (cached_tar_iff.mp h)

theorem cached_of_dropLast {digest : String}
    (h : Cached spioHome (blobCachePath spioHome digest).dropLast) :
    Cached spioHome (blobCachePath spioHome digest) := by
  obtain ⟨initial, last, hblob⟩ := @blobCachePath_concat spioHome digest
  rw [hblob, List.dropLast_concat] at h
  rw [hblob]
  exact cached_tar_iff.mpr h

/-- The client stays in its caches if and only if it downloads no artifact to a place outside. -/
theorem materialize_confined_iff (hname : isPackageName packageName = true)
    (hversion : isSemver version = true) :
    Confined spioHome (normalizeRegistryRoot registryRoot)
      (materializeRegistryPackage parse turn spioHome registryRoot offline packageName version
        { disk := d }).2 ↔
    ∀ resolved entry s, resolveRegistryRead registryRoot = .ok resolved →
      selectEntry parse turn spioHome resolved offline packageName version { disk := d } =
        (.ok entry, s) →
      Downloads spioHome resolved offline s.disk entry →
      Cached spioHome (blobCachePath spioHome entry.sha256) := by
  constructor
  · intro hconfined resolved entry s hresolved hrun hdownloads
    have hasked := asked_materializeRegistryPackage hresolved (congrArg Prod.fst hrun)
      (by rwa [hrun])
    exact cached_of_dropLast (hconfined.changed _ hasked)
  · intro hcached
    have hstart : Confined spioHome (normalizeRegistryRoot registryRoot) { disk := d } :=
      ⟨nofun, nofun⟩
    apply wp.of_snd (P := Confined spioHome (normalizeRegistryRoot registryRoot))
    rw [materializeRegistryPackage, wp_bind, wp_ofExcept]
    refine ⟨fun resolved hresolved => ?_, fun _ _ => hstart⟩
    obtain rfl := resolveRegistryRead_ok hresolved
    rw [wp_bind]
    have hselect : Keeps (Confined spioHome (normalizeRegistryRoot registryRoot))
        (selectEntry parse turn spioHome (normalizeRegistryRoot registryRoot) offline packageName
          version) := keeps_selectEntry allows_confined places_confined
    have hkept := hselect _ hstart
    rcases hrun : selectEntry parse turn spioHome (normalizeRegistryRoot registryRoot) offline
      packageName version { disk := d } with ⟨_ | entry, s⟩
    · rw [hrun] at hkept
      rwa [wp_of_eq_error hrun]
    · rw [hrun] at hkept
      rw [wp_of_eq_ok hrun, wp_bind]
      refine wp_mono (wp_materializeArtifact allows_confined places_confined
        (fun hdownloads => writable_blobCachePath (hcached _ _ _ hresolved hrun hdownloads)) hkept)
        (fun _ t ht => ?_) fun _ _ ht => ht
      obtain ⟨hpackage, hfound⟩ := returns_selectEntry _ _ _ hrun
      refine (keeps_bind (keeps_ensureCheckout allows_confined fun p hp => ?_)
        fun _ => keeps_pure).wp ht.1
      rw [hpackage, hfound] at hp
      exact cached_checkoutPath hname hversion ht.2 hp

end Calls

section Sample

def sampleHome : Path := ["home", "user", ".spio"]

def configText : String := "\x7b\"protocol\":\"spio-static-registry\",\"protocol_version\":2\x7d"

def targetsText : String :=
  "\x7b\"signed\":\x7b\"namespace\":\"a\",\"packages\":\x7b\"a/b\":\x7b\"index_path\":\"index/a\"," ++
    "\"releases\":\x7b\"1.0.0\":\x7b\x7d\x7d\x7d\x7d,\"type\":\"targets\"\x7d\x7d"

def recordText (digest : String) : String :=
  "\x7b\"package\":\"a/b\",\"source_artifact\":\x7b\"path\":\"b.tar\",\"sha256\":\"" ++ digest ++
    "\"\x7d,\"version\":\"1.0.0\"\x7d"

/-- What the JSON parser makes of the three texts. -/
def sampleParse (digest : String) (text : Content) : Option Json :=
  [(configText.toList, Json.object
      [("protocol", .string "spio-static-registry"), ("protocol_version", .int 2)]),
    (targetsText.toList, .object [("signed", .object [("namespace", .string "a"),
      ("packages", .object [("a/b", .object [("index_path", .string "index/a"),
        ("releases", .object [("1.0.0", .object [])])])]), ("type", .string "targets")])]),
    ((recordText digest).toList, .object [("package", .string "a/b"),
      ("source_artifact", .object [("path", .string "b.tar"), ("sha256", .string digest)]),
      ("version", .string "1.0.0")])].lookup text

/-- A registry in `/srv` with one version of one package. -/
def sampleDisk (digest : String) : Disk :=
  (((FileTree.empty.put ["srv", "config.json"] configText.toList).put
    ["srv", "trust", "targets", "a.json"] targetsText.toList).put
    ["srv", "index", "a"] (recordText digest).toList).put ["srv", "b.tar"] "artifact".toList

def sampleTurn : Turn where
  fetch _ _ := none
  description := "exit code 1"
  fails _ _ := false
  partialContent := none
  uncleared _ := false
  extract _ := { files := .empty, succeeded := false }

def sampleEntry (digest : String) : RegistryEntry where
  package := "a/b"
  version := "1.0.0"
  sha256 := digest
  artifactPath := "b.tar"

def plainDigest : String := String.ofList (List.replicate 64 '0')

/-- 64 characters that lead from the blob cache to `/tmp`. -/
def leadingDigest : String :=
  String.ofList ((List.replicate 18 "../".toList).flatten ++ "tmp/owned0".toList)

theorem materialize_confined_plainDigest :
    Confined sampleHome "file:///srv" (materializeRegistryPackage (sampleParse plainDigest) sampleTurn
      sampleHome "file:///srv/" false "a/b" "1.0.0" { disk := sampleDisk plainDigest }).2 := by
  have hroot : normalizeRegistryRoot "file:///srv/" = "file:///srv" := by decide
  have hselect : (selectEntry (sampleParse plainDigest) sampleTurn sampleHome "file:///srv" false "a/b"
      "1.0.0" { disk := sampleDisk plainDigest }).1 = .ok (sampleEntry plainDigest) := by
    decide +kernel
  rw [← hroot]
  refine (materialize_confined_iff (by decide) (by decide)).mpr ?_
  intro resolved entry s hresolved hrun _
  rw [resolveRegistryRead_ok hresolved, hroot] at hrun
  rw [hrun] at hselect
  obtain rfl : entry = sampleEntry plainDigest := Except.ok.inj hselect
  decide

/-- The digest of a record leads out of the cache. -/
theorem not_materialize_confined_leadingDigest : leadingDigest.length = 64 ∧
    ¬ Confined sampleHome "file:///srv" (materializeRegistryPackage (sampleParse leadingDigest)
      sampleTurn sampleHome "file:///srv" false "a/b" "1.0.0"
      { disk := sampleDisk leadingDigest }).2 := by
  refine ⟨by decide, fun hconfined => ?_⟩
  have hresolved : resolveRegistryRead "file:///srv" = .ok "file:///srv" := by rfl
  have hrun : (selectEntry (sampleParse leadingDigest) sampleTurn sampleHome "file:///srv" false "a/b"
      "1.0.0" { disk := sampleDisk leadingDigest }).1 = .ok (sampleEntry leadingDigest) := by
    decide +kernel
  have hdownloads : Downloads sampleHome "file:///srv" false (selectEntry (sampleParse leadingDigest)
      sampleTurn sampleHome "file:///srv" false "a/b" "1.0.0"
      { disk := sampleDisk leadingDigest }).2.disk (sampleEntry leadingDigest) := by
    refine ⟨by decide +kernel, ["b.tar"], by decide +kernel, ?_⟩
    rw [if_pos (by decide)]
    decide +kernel
  have hasked := asked_materializeRegistryPackage hresolved hrun hdownloads
  have houtside : ¬ Cached sampleHome (blobCachePath sampleHome leadingDigest) := by decide +kernel
  exact houtside (cached_of_dropLast (hconfined.changed _ hasked))

end Sample

end StyioPlatform.RegistryClient
