import StyioPlatform.Registry.Index
import StyioPlatform.Registry.PublishFailures

/-! A release is immutable: over every run, whatever fails in it, a file of the index has one
record for a version, and the files that list a version, served, published or left behind, name
one archive for it. What can break this is the publish of a version that nothing but an earlier
publication lists any more. -/
namespace StyioPlatform.Registry

open FileTree Prog

variable {env : Environment} {cfg : PlatformConfig} {host : Host} {fault : Option Site}
  {w w' w'' w₀ : World} {p q : Path} {package package' : String} {draft : PublishDraft}
  {archive : File}

/-- What a line of an index file says about the identity of a release. -/
structure Listing where
  package : String
  version : String
  sha256 : String
  deriving DecidableEq

def ReleaseRecord.listing (r : ReleaseRecord) : Listing where
  package := r.package
  version := r.version
  sha256 := r.sourceArtifact.sha256

/-- The file at a path of the root, or of the bucket where one is used, has these lines. -/
def Lists (cfg : PlatformConfig) (w : World) (p : Path) (l : List Listing) : Prop :=
  ∃ records, l = records.map ReleaseRecord.listing ∧
    (w.root.get p = some (.jsonl records) ∨
      cfg.usesS3ObjectStore = true ∧ w.bucket.get p = some (.jsonl records))

/-- The directory and the file of a package in the index. -/
def indexName (package : String) : Path := (registryIndexPathForPackage package).tail

/-- The path is one for the index of the package, in the root or in a copy of the read plane. -/
structure IndexOf (package : String) (p : Path) : Prop where
  validName : validatePackageName package = none
  suffix : indexName package <:+ p

theorem PackageName.indexName {space name : List Char} (h : PackageName package space name) :
    indexName package = [String.ofList space, String.ofList name ++ ".jsonl"] := by
  rw [Registry.indexName, h.indexPath]
  rfl

theorem indexOf_registryIndexPath (h : validatePackageName package = none) :
    IndexOf package (registryIndexPathForPackage package) :=
  ⟨h, List.tail_suffix _⟩

/-- The path of an index file in the root tells the package. -/
theorem IndexOf.package_eq (h : IndexOf package (registryIndexPathForPackage package'))
    (h' : validatePackageName package' = none) : package = package' := by
  obtain ⟨space, name, hp⟩ := exists_packageName h.validName
  obtain ⟨space', name', hp'⟩ := exists_packageName h'
  have hlength : (indexName package).length = (indexName package').length := by
    rw [hp.indexName, hp'.indexName]
    rfl
  have hsuffix : indexName package <:+ indexName package' :=
    List.suffix_of_suffix_length_le h.suffix (List.tail_suffix _) hlength.le
  have hsame : indexName package = indexName package' := hsuffix.eq_of_length hlength
  refine registryIndexPath_injective h.validName h' ?_
  rw [hp.indexPath, hp'.indexPath, ← hp.indexName, ← hp'.indexName, hsame]

theorem not_inReadPlane_indexFile {name : List Char} :
    inReadPlane [String.ofList name ++ ".jsonl"] = false := by
  have hlast : ∀ other : String, other.toList.getLast? ≠ some 'l' →
      String.ofList name ++ ".jsonl" ≠ other := by
    rintro other hne rfl
    simp at hne
  simp [inReadPlane, readPlaneEntries, hlast "index" (by decide), hlast "artifacts" (by decide),
    hlast "trust" (by decide), hlast "log" (by decide), hlast "config.json" (by decide)]

/-- A file of the read plane is an index file wherever the read plane is copied. -/
theorem IndexOf.move {source dest : Path} (hq : inReadPlane q = true)
    (h : IndexOf package (source ++ q)) : IndexOf package (dest ++ q) := by
  obtain ⟨space, name, hp⟩ := exists_packageName h.validName
  refine ⟨h.validName, ?_⟩
  have hsuffix := h.suffix
  match q, hq with
  | [], hq => cases hq
  | [file], hq =>
    rw [hp.indexName] at hsuffix
    have hfile : [file] <:+ [String.ofList space, String.ofList name ++ ".jsonl"] :=
      List.suffix_of_suffix_length_le (List.suffix_append _ _) hsuffix (by simp)
    have heq : file = String.ofList name ++ ".jsonl" := by
      obtain ⟨before, hbefore⟩ := hfile
      have := congrArg List.getLast? hbefore
      simpa using this
    rw [heq, not_inReadPlane_indexFile] at hq
    cases hq
  | first :: second :: rest, _ =>
    refine (List.suffix_of_suffix_length_le hsuffix (List.suffix_append _ _) ?_).trans
      (List.suffix_append _ _)
    rw [hp.indexName]
    simp

/-- What is listed in `w'` is listed, line by line, in a file of `w` that belongs to the same
packages. -/
def ListedFrom (cfg : PlatformConfig) (w w' : World) : Prop :=
  ∀ p l, Lists cfg w' p l → ∃ q, Lists cfg w q l ∧ ∀ package, IndexOf package q → IndexOf package p

namespace ListedFrom

theorem refl : ListedFrom cfg w w := fun p _ h => ⟨p, h, fun _ => id⟩

theorem trans (h : ListedFrom cfg w w') (h' : ListedFrom cfg w' w'') : ListedFrom cfg w w'' := by
  intro p l hl
  obtain ⟨q, hq, hpq⟩ := h' p l hl
  obtain ⟨r, hr, hqr⟩ := h q l hq
  exact ⟨r, hr, fun package hp => hpq package (hqr package hp)⟩

theorem of_root (hbucket : w'.bucket = w.bucket)
    (hroot : ∀ p records, w'.root.get p = some (.jsonl records) →
      ∃ q, Lists cfg w q (records.map ReleaseRecord.listing) ∧
        ∀ package, IndexOf package q → IndexOf package p) : ListedFrom cfg w w' := by
  rintro p _ ⟨records, rfl, hp | ⟨hs3, hp⟩⟩
  · exact hroot p records hp
  · rw [hbucket] at hp
    exact ⟨p, ⟨records, rfl, Or.inr ⟨hs3, hp⟩⟩, fun _ => id⟩

theorem of_sub (hbucket : w'.bucket = w.bucket)
    (hroot : ∀ p records, w'.root.get p = some (.jsonl records) →
      w.root.get p = some (.jsonl records)) : ListedFrom cfg w w' :=
  of_root hbucket fun p records hp => ⟨p, ⟨records, rfl, Or.inl (hroot p records hp)⟩, fun _ => id⟩

/-- A file of any other kind is written. -/
theorem write {f : File} (h : ListedFrom cfg w₀ w) (hf : ∀ records, f ≠ .jsonl records) :
    ListedFrom cfg w₀ (w.write p f) := by
  refine h.trans (of_sub rfl fun q records hq => ?_)
  rw [World.write_root, get_put] at hq
  split at hq
  · exact (hf records (Option.some.inj hq)).elim
  · exact hq

theorem restrict (h : ListedFrom cfg w₀ w) (keep : Path → Bool) :
    ListedFrom cfg w₀ (w.setRoot (w.root.restrict keep)) := by
  refine h.trans (of_sub rfl fun q records hq => ?_)
  rw [World.setRoot_root, get_restrict] at hq
  split at hq
  · exact hq
  · cases hq

theorem graft {u : Tree} {dest : Path} (h : ListedFrom cfg w₀ w)
    (hu : ∀ q records, u.get q = some (.jsonl records) →
      ∃ r, Lists cfg w r (records.map ReleaseRecord.listing) ∧
        ∀ package, IndexOf package r → IndexOf package (dest ++ q)) :
    ListedFrom cfg w₀ (w.setRoot (w.root.graft dest u)) := by
  refine h.trans (of_root rfl fun p records hp => ?_)
  rw [World.setRoot_root] at hp
  rcases get_graft_cases (t := w.root) (u := u) (p := dest) (q := p) with hg | ⟨q, f, rfl, hf, hg⟩
  · rw [hg] at hp
    exact ⟨p, ⟨records, rfl, Or.inl hp⟩, fun _ => id⟩
  · rw [hg] at hp
    cases hp
    exact hu q records hf

/-- The read plane of a directory is copied, in full or in part. -/
theorem copy {u : Tree} (h : ListedFrom cfg w₀ w) (source dest : Path)
    (hu : ∀ q f, u.get q = some f → (readPlane (w.root.subtree source)).get q = some f) :
    ListedFrom cfg w₀ (w.setRoot (w.root.graft dest u)) := by
  refine h.graft fun q records hq => ?_
  have hplane := hu q _ hq
  rw [get_readPlane] at hplane
  split at hplane
  · next hin => exact ⟨source ++ q, ⟨records, rfl, Or.inl hplane⟩, fun _ hp => hp.move hin⟩
  · cases hplane

theorem of_sameTree (h : ListedFrom cfg w₀ w) (hs : SameTree w w') : ListedFrom cfg w₀ w' :=
  h.trans (of_sub hs.bucket fun _ _ hp => hs.root ▸ hp)

end ListedFrom

section stages

/-! Every stage of a request but the edit of the index only moves what is listed. -/

theorem keeps_listed_write {f : File} (hf : ∀ records, f ≠ .jsonl records) :
    Keeps (ListedFrom cfg w₀) (writeTextFile p f) := fun _ hw => hw.write hf

theorem StoresOnly.keeps_listed {x : Program Unit} (h : StoresOnly fault x) :
    Keeps (ListedFrom cfg w₀) x := by
  rw [keeps_iff]
  exact fun w hw => wp_mono (h w) (fun _ _ hs => hw.of_sameTree hs) fun _ _ hs =>
    hw.of_sameTree hs.1

theorem keeps_listed_modifyMemory {f : MemoryStateStore → MemoryStateStore} :
    Keeps (ListedFrom cfg w₀) (modifyMemory f) := fun _ hw => hw.of_sameTree ⟨rfl, rfl, rfl⟩

theorem keeps_listed_removeAll {pre : Path} :
    Keeps (ListedFrom cfg w₀) (modifyRoot (·.removeAll pre)) := fun _ hw => hw.restrict _

theorem keeps_listed_writeSigned {role : RegistryRole} {payload : SignedPayload} :
    Keeps (ListedFrom cfg w₀) (writeSigned env cfg role p payload) :=
  keeps_bind (keeps_listed_write (by simp)) fun _ => keeps_pure

theorem keeps_listed_writeSignedIfMissing {role : RegistryRole} {payload : SignedPayload} :
    Keeps (ListedFrom cfg w₀) (writeSignedIfMissing env cfg fault role p payload) := by
  refine keeps_bind keeps_rootTree fun t => ?_
  cases t.get p with
  | some f => exact keeps_pure
  | none => exact keeps_bind keeps_failAt fun _ => keeps_listed_writeSigned

theorem keeps_listed_ensure :
    Keeps (ListedFrom cfg w₀) (ensureRegistryRootInitialized env cfg host fault) :=
  keeps_bind keeps_failAt fun _ => keeps_bind keeps_failAt fun _ =>
    keeps_bind (keeps_bind keeps_rootTree fun _ =>
      keeps_onlyIf fun _ => keeps_listed_write (by simp)) fun _ =>
    keeps_bind keeps_listed_writeSignedIfMissing fun _ =>
    keeps_bind keeps_listed_writeSignedIfMissing fun _ =>
    keeps_bind keeps_listed_writeSignedIfMissing fun _ =>
    keeps_bind keeps_listed_writeSignedIfMissing fun _ => keeps_listed_removeAll

theorem keeps_listed_writeTargets {l : List (String × List (String × PackageEntry))}
    {snapshotMeta : List (Path × FileMeta)} :
    Keeps (ListedFrom cfg w₀) (writeTargets env cfg host fault l snapshotMeta) := by
  induction l generalizing snapshotMeta with
  | nil => exact keeps_pure
  | cons x l ih =>
    exact keeps_bind keeps_rootTree fun _ => keeps_bind keeps_failAt fun _ =>
      keeps_bind keeps_listed_writeSigned fun _ => ih

theorem keeps_listed_refresh {registryTime : String} :
    Keeps (ListedFrom cfg w₀) (refreshSignedRegistryMetadata env cfg host fault registryTime) := by
  unfold refreshSignedRegistryMetadata
  exact keeps_bind keeps_failAt fun _ => keeps_bind keeps_rootTree fun _ =>
    keeps_bind keeps_ofExcept fun _ => keeps_bind keeps_listed_writeTargets fun _ =>
    keeps_bind keeps_rootTree fun _ => keeps_bind keeps_ofExcept fun _ =>
    keeps_bind keeps_ofExcept fun _ => keeps_bind keeps_rootTree fun _ =>
    keeps_bind keeps_failAt fun _ => keeps_bind keeps_listed_writeSigned fun _ =>
    keeps_bind keeps_rootTree fun _ => keeps_bind keeps_failAt fun _ =>
    keeps_bind keeps_listed_writeSigned fun _ => keeps_bind keeps_rootTree fun _ =>
    keeps_bind keeps_failAt fun _ => keeps_bind keeps_listed_writeSigned fun _ =>
    keeps_bind keeps_listed_removeAll fun _ => keeps_pure

theorem keeps_listed_copyReadPlane {source dest : Path} :
    Keeps (ListedFrom cfg w₀) (copyRegistryReadPlaneTo fault source dest) := by
  rw [keeps_iff]
  intro w hw
  have hfull : ListedFrom cfg w₀
      (w.setRoot (w.root.graft dest (readPlane (w.root.subtree source)))) :=
    hw.copy source dest fun _ _ hf => hf
  refine wp_copyRegistryReadPlaneTo (fun _ _ => hfull)
    (fun copied _ => hw.copy source dest fun q f hq => ?_) fun _ _ => hfull
  rw [get_restrict] at hq
  split at hq
  · exact hq
  · cases hq

theorem keeps_listed_materialize {publicationId : String} :
    Keeps (ListedFrom cfg w₀) (materializePublicationToRoot cfg fault publicationId) := by
  refine keeps_bind (fun _ hw => hw.restrict _) fun _ => keeps_bind keeps_rootTree fun t => ?_
  cases publicationRoot cfg t publicationId with
  | none => exact keeps_fail
  | some source => exact keeps_listed_copyReadPlane

/-- A new publication lists what the read plane lists. -/
theorem get_publicationTree_jsonl {t : Tree} {sequence : ℕ} {generatedAt : String}
    {records : List ReleaseRecord}
    (h : (publicationTree env cfg t sequence generatedAt).get q = some (.jsonl records)) :
    t.get q = some (.jsonl records) := by
  rw [publicationTree, get_put] at h
  split at h
  · cases h
  · rw [publicationPlane, get_put] at h
    split at h
    · cases h
    · rw [get_readPlane] at h
      split at h
      · exact h
      · cases h

theorem IndexOf.append (h : IndexOf package q) : IndexOf package (p ++ q) :=
  ⟨h.validName, h.suffix.trans (List.suffix_append _ _)⟩

theorem listedFrom_stagedTree {sequence : ℕ} {generatedAt : String} :
    ListedFrom cfg w (w.setRoot (stagedTree env cfg w.root sequence generatedAt)) := by
  refine ListedFrom.of_root rfl fun p records hp => ?_
  by_cases hstaged : stagedPublicationPath (publicationIdFor sequence) <+: p
  · obtain ⟨q, rfl⟩ := hstaged
    rw [World.setRoot_root, get_stagedTree] at hp
    exact ⟨q, ⟨records, rfl, Or.inl (get_publicationTree_jsonl hp)⟩, fun _ => .append⟩
  · rw [World.setRoot_root, agreeOff_stagedTree _ hstaged] at hp
    exact ⟨p, ⟨records, rfl, Or.inl hp⟩, fun _ => id⟩

theorem listedFrom_renamed {sequence : ℕ} {generatedAt : String} {final : Path}
    (hbucket : w'.bucket = w.bucket)
    (hroot : w'.root = (stagedTree env cfg w.root sequence generatedAt).rename
      (stagedPublicationPath (publicationIdFor sequence)) final) : ListedFrom cfg w w' := by
  refine ListedFrom.of_root hbucket fun p records hp => ?_
  rw [hroot, rename] at hp
  rcases get_graft_cases (t := (stagedTree env cfg w.root sequence generatedAt).removeAll
      (stagedPublicationPath (publicationIdFor sequence)))
    (u := (stagedTree env cfg w.root sequence generatedAt).subtree
      (stagedPublicationPath (publicationIdFor sequence)))
    (p := final) (q := p) with hg | ⟨q, f, rfl, hf, hg⟩
  · rw [hg, get_removeAll] at hp
    split at hp
    · cases hp
    · exact listedFrom_stagedTree p _ ⟨records, rfl, Or.inl hp⟩
  · rw [hg] at hp
    cases hp
    rw [get_subtree, get_stagedTree] at hf
    exact ⟨q, ⟨records, rfl, Or.inl (get_publicationTree_jsonl hf)⟩, fun _ => .append⟩

theorem keeps_listed_buildPublication {sequence : ℕ} {generatedAt : String} :
    Keeps (ListedFrom cfg w₀) (buildPublication env cfg fault sequence generatedAt) := by
  rw [keeps_iff]
  intro w hw
  have hremoved := hw.restrict (fun q =>
    !decide (stagedPublicationPath (publicationIdFor sequence) <+: q))
  have hcopied : ∀ u : Tree, (∀ q f, u.get q = some f → (readPlane ((w.root.removeAll
      (stagedPublicationPath (publicationIdFor sequence))).subtree [])).get q = some f) →
      ListedFrom cfg w₀ (w.setRoot ((w.root.removeAll
        (stagedPublicationPath (publicationIdFor sequence))).graft
          (stagedPublicationPath (publicationIdFor sequence)) u)) := fun u hu =>
    hremoved.copy [] _ hu
  rw [buildPublication, wp_bind, wp_modifyRoot, wp_bind]
  refine wp_copyRegistryReadPlaneTo (fun _ _ => ?_) (fun copied _ => hcopied _ fun q f hq => ?_)
    fun _ _ => hcopied _ fun _ _ hf => hf
  · have hstaged := (((hcopied _ fun _ _ hf => hf).write (p := stagedPublicationPath
        (publicationIdFor sequence) ++ configPath) (f := .json (.config (publicationConfig cfg
          sequence generatedAt))) (by simp)))
    simp only [wp_bind, wp_writeTextFile, wp_rootTree, wp_require, wp_failAt, wp_modifyRoot,
      wp_pure]
    exact ⟨fun _ => ⟨fun _ => ⟨fun _ => hstaged.write (by simp),
        fun _ => hw.trans (listedFrom_renamed rfl rfl)⟩,
      fun _ => hstaged.write (by simp)⟩, fun _ => hstaged.write (by simp)⟩
  · rw [get_restrict] at hq
    split at hq
    · exact hq
    · cases hq

theorem keeps_listed_createPublication {changeKind changeRef generatedAt : String} :
    Keeps (ListedFrom cfg w₀)
      (createRegistryPublication env cfg fault changeKind changeRef generatedAt) := by
  refine keeps_bind (keeps_bind keeps_read fun _ => keeps_bind (keeps_onlyIf fun _ => keeps_failAt)
    fun _ => keeps_bind keeps_require fun _ => keeps_pure) fun _ =>
    keeps_bind keeps_listed_buildPublication fun _ => keeps_bind ?_ fun _ =>
    keeps_bind storesOnly_recordPublication.keeps_listed fun _ => keeps_pure
  exact keeps_bind keeps_failAt fun _ => keeps_bind (keeps_listed_write (by simp)) fun _ =>
    keeps_bind keeps_failAt fun _ => keeps_bind keeps_rootTree fun _ =>
    keeps_bind keeps_ofExcept fun _ => keeps_bind keeps_failAt fun _ =>
    keeps_bind (keeps_listed_write (by simp)) fun _ => keeps_pure

theorem keeps_listed_install {distributionId publicationId : String} {publication : Document}
    {previous : Option String} {updatedAt : String} :
    Keeps (ListedFrom cfg w₀) (installPublication cfg fault distributionId publicationId publication
      previous updatedAt) := by
  refine keeps_bind (keeps_onlyIf fun _ => keeps_listed_materialize) fun _ => ?_
  unfold pointDistribution
  cases publication.repositoryVersionId with
  | none => exact keeps_fail
  | some id =>
    exact keeps_bind keeps_failAt fun _ => keeps_bind (keeps_listed_write (by simp)) fun _ =>
      keeps_bind storesOnly_execPostgres.keeps_listed fun _ =>
      keeps_bind keeps_listed_modifyMemory fun _ => keeps_pure

/-- An upload puts the files of the root at their own paths. -/
theorem ListedFrom.uploaded {u : Tree} (h : ListedFrom cfg w₀ w)
    (hu : ∀ p f, u.get p = some f → w.root.get p = some f) :
    ListedFrom cfg w₀ { w with bucket := w.bucket.graft [] u } := by
  refine h.trans ?_
  rintro p _ ⟨records, rfl, hp | ⟨hs3, hp⟩⟩
  · exact ⟨p, ⟨records, rfl, Or.inl hp⟩, fun _ => id⟩
  · dsimp only at hp
    rw [get_graft_nil, Option.or_eq_some_iff] at hp
    rcases hp with hp | ⟨-, hp⟩
    · exact ⟨p, ⟨records, rfl, Or.inl (hu p _ hp)⟩, fun _ => id⟩
    · exact ⟨p, ⟨records, rfl, Or.inr ⟨hs3, hp⟩⟩, fun _ => id⟩

theorem keeps_listed_upload : Keeps (ListedFrom cfg w₀) (uploadRegistryTreeToS3 fault) := by
  have hsub : ∀ {t : Tree} {keep : Path → Bool} {p : Path} {f : File},
      (t.restrict keep).get p = some f → t.get p = some f := by
    intro t keep p f hf
    rw [get_restrict] at hf
    split at hf
    · exact hf
    · cases hf
  rw [keeps_iff]
  intro w hw
  rw [uploadRegistryTreeToS3, wp_bind, wp_rootTree]
  dsimp only
  split
  · rw [wp_bind, wp_modify, wp_fail]
    exact hw.uploaded fun p f hf => hsub (hsub hf)
  · rw [wp_modify]
    exact hw.uploaded fun p f hf => hsub hf

theorem ListedFrom.synced (h : ListedFrom cfg w₀ w) :
    ListedFrom cfg w₀ (w.setRoot (syncedTree cfg fault w)) := by
  unfold syncedTree
  split
  · next hs3 =>
    split
    · refine (h.restrict fun p => !inReadPlane p).graft fun q records hq => ?_
      rw [get_restrict] at hq
      split at hq
      · exact ⟨q, ⟨records, rfl, Or.inr ⟨hs3.1, hq⟩⟩, fun _ => id⟩
      · cases hq
    · exact h.restrict _
  · exact h

theorem keeps_listed_placeArtifact {r : ReleaseRecord}
    (harchive : ∀ records, archive ≠ .jsonl records) :
    Keeps (ListedFrom cfg w₀) (placeArtifact env fault archive r) := by
  refine keeps_bind keeps_rootTree fun t => ?_
  cases t.get r.sourceArtifact.path with
  | some f => exact keeps_require
  | none =>
    dsimp only
    split
    · next left =>
      refine keeps_bind ?_ fun _ => keeps_fail
      cases left with
      | none => exact keeps_pure
      | some bytes => exact keeps_listed_write (by simp)
    · exact keeps_listed_write harchive

end stages

/-- The files that list releases: each belongs to the packages that it names, it names a version
once, and no two of them disagree about an archive. -/
structure Immutable (cfg : PlatformConfig) (w : World) : Prop where
  indexOf : ∀ p l, Lists cfg w p l → ∀ x ∈ l, IndexOf x.package p
  nodup : ∀ p l, Lists cfg w p l → (l.map Listing.version).Nodup
  agree : ∀ p q l m, Lists cfg w p l → Lists cfg w q m → ∀ x ∈ l, ∀ y ∈ m,
    x.package = y.package → x.version = y.version → x.sha256 = y.sha256

theorem Immutable.of_listedFrom (h : Immutable cfg w) (hfrom : ListedFrom cfg w w') :
    Immutable cfg w' where
  indexOf p l hl x hx := by
    obtain ⟨q, hq, hpq⟩ := hfrom p l hl
    exact hpq _ (h.indexOf q l hq x hx)
  nodup p l hl := by
    obtain ⟨q, hq, -⟩ := hfrom p l hl
    exact h.nodup q l hq
  agree p q l m hl hm := by
    obtain ⟨p', hp', -⟩ := hfrom p l hl
    obtain ⟨q', hq', -⟩ := hfrom q m hm
    exact h.agree p' q' l m hp' hq'

theorem keeps_immutable {α : Type} {x : Program α} (h : ∀ w, Keeps (ListedFrom cfg w) x) :
    Keeps (Immutable cfg) x := fun w hw => hw.of_listedFrom (h w w .refl)

/-- A new registry lists nothing. -/
theorem Immutable.of_initial (hinit : Initial w)
    (hbucket : cfg.usesS3ObjectStore = true → w.bucket = .empty) : Immutable cfg w := by
  have hnone : ∀ p l, ¬ Lists cfg w p l := by
    rintro p l ⟨records, -, hp | ⟨hs3, hp⟩⟩
    · rw [hinit.root] at hp
      cases hp
    · rw [hbucket hs3] at hp
      cases hp
  exact ⟨fun p l hl => (hnone p l hl).elim, fun p l hl => (hnone p l hl).elim,
    fun p _ l _ hl => (hnone p l hl).elim⟩

/-- No file lists the release with another archive. -/
def NoOtherArchive (cfg : PlatformConfig) (w : World) (package version sha256 : String) : Prop :=
  ∀ p l, Lists cfg w p l → ∀ x ∈ l, x.package = package → x.version = version → x.sha256 = sha256

theorem NoOtherArchive.of_listedFrom {version sha256 : String}
    (h : NoOtherArchive cfg w package version sha256) (hfrom : ListedFrom cfg w w') :
    NoOtherArchive cfg w' package version sha256 := by
  intro p l hl
  obtain ⟨q, hq, -⟩ := hfrom p l hl
  exact h q l hq

theorem lists_write {records : List ReleaseRecord} {l : List Listing}
    (h : Lists cfg (w.write q (.jsonl records)) p l) :
    (p = q ∧ l = records.map ReleaseRecord.listing) ∨ Lists cfg w p l := by
  obtain ⟨records', rfl, hp | ⟨hs3, hp⟩⟩ := h
  · rw [World.write_root, get_put] at hp
    split at hp
    · next hpq =>
      cases hp
      exact Or.inl ⟨hpq, rfl⟩
    · exact Or.inr ⟨records', rfl, Or.inl hp⟩
  · exact Or.inr ⟨records', rfl, Or.inr ⟨hs3, hp⟩⟩

/-- The line that a publish appends keeps the files in agreement. -/
theorem Immutable.appended {r : ReleaseRecord} {records : List ReleaseRecord}
    (h : Immutable cfg w) (hname : validatePackageName r.package = none)
    (hold : records = [] ∨
      w.root.get (registryIndexPathForPackage r.package) = some (.jsonl records))
    (hfresh : ∀ s ∈ records, ¬ jsonLineHasRelease r.package r.version s)
    (hother : NoOtherArchive cfg w r.package r.version r.sourceArtifact.sha256) :
    Immutable cfg (w.write (registryIndexPathForPackage r.package) (.jsonl (records ++ [r]))) := by
  -- the lines that were there before are those of a file of `w`
  have hlines : ∀ x ∈ records.map ReleaseRecord.listing, ∃ l,
      Lists cfg w (registryIndexPathForPackage r.package) l ∧ x ∈ l := by
    intro x hx
    rcases hold with rfl | hget
    · cases hx
    · exact ⟨_, ⟨records, rfl, Or.inl hget⟩, hx⟩
  have hline : ∀ p l, Lists cfg (w.write (registryIndexPathForPackage r.package)
      (.jsonl (records ++ [r]))) p l → ∀ x ∈ l,
      (∃ m, Lists cfg w p m ∧ x ∈ m) ∨
        p = registryIndexPathForPackage r.package ∧ x = r.listing := by
    intro p l hl x hx
    rcases lists_write hl with ⟨rfl, rfl⟩ | hl
    · rw [List.map_append, List.mem_append] at hx
      exact hx.imp (hlines x) fun hx => ⟨rfl, by simpa using hx⟩
    · exact Or.inl ⟨l, hl, hx⟩
  refine ⟨fun p l hl x hx => ?_, fun p l hl => ?_,
    fun p q l m hl hm x hx y hy hpackage hversion => ?_⟩
  · rcases hline p l hl x hx with ⟨m, hm, hx⟩ | ⟨rfl, rfl⟩
    · exact h.indexOf p m hm x hx
    · exact indexOf_registryIndexPath hname
  · rcases lists_write hl with ⟨rfl, rfl⟩ | hl
    · rw [List.map_append, List.map_append, List.nodup_append]
      refine ⟨?_, by simp, fun v hv v' hv' heq => ?_⟩
      · rcases hold with rfl | hget
        · simp
        · exact h.nodup _ _ ⟨records, rfl, Or.inl hget⟩
      · obtain ⟨x, hx, rfl⟩ := List.mem_map.mp hv
        obtain ⟨s, hs, rfl⟩ := List.mem_map.mp hx
        obtain rfl : v' = r.version := by simpa [ReleaseRecord.listing] using hv'
        obtain ⟨l, hl, hxl⟩ := hlines _ hx
        refine hfresh s hs ?_
        simp only [jsonLineHasRelease, decide_eq_true_eq]
        exact ⟨(h.indexOf _ l hl _ hxl).package_eq hname, heq⟩
    · exact h.nodup p l hl
  · rcases hline p l hl x hx with ⟨l', hl', hx⟩ | ⟨-, rfl⟩ <;>
      rcases hline q m hm y hy with ⟨m', hm', hy⟩ | ⟨-, rfl⟩
    · exact h.agree p q l' m' hl' hm' x hx y hy hpackage hversion
    · exact hother p l' hl' x hx hpackage hversion
    · exact (hother q m' hm' y hy hpackage.symm hversion.symm).symm
    · rfl

theorem Immutable.appendLine {r : ReleaseRecord} (env : Environment) (h : Immutable cfg w)
    (hname : validatePackageName r.package = none)
    (hfresh : releaseExistsOnDisk w.root r.package r.version = false)
    (hother : NoOtherArchive cfg w r.package r.version r.sourceArtifact.sha256) :
    Immutable cfg (w.write (registryIndexPathForPackage r.package)
      (.appendLine env r (w.root.get (registryIndexPathForPackage r.package)))) := by
  have hotherFile : ∀ f : File, (∀ records, f ≠ .jsonl records) →
      Immutable cfg (w.write (registryIndexPathForPackage r.package) f) := fun f hf =>
    h.of_listedFrom (ListedFrom.refl.write hf)
  rw [releaseExistsOnDisk] at hfresh
  cases hget : w.root.get (registryIndexPathForPackage r.package) with
  | none => exact h.appended hname (Or.inl rfl) (by simp) hother
  | some f =>
    cases f with
    | jsonl records =>
      rw [hget] at hfresh
      refine h.appended hname (Or.inr hget) (fun s hs => ?_) hother
      simpa using List.any_eq_false.mp hfresh s hs
    | json d => exact hotherFile _ (by simp [File.appendLine])
    | blob b => exact hotherFile _ (by simp [File.appendLine])

theorem wp_append_immutable {r : ReleaseRecord} (h : Immutable cfg w)
    (harchive : ∀ records, archive ≠ .jsonl records)
    (hname : validatePackageName r.package = none)
    (hother : NoOtherArchive cfg w r.package r.version r.sourceArtifact.sha256) :
    wp (appendRegistryReleaseToLocal env fault archive r) (fun _ w' => Immutable cfg w')
      (fun _ w' => Immutable cfg w') w := by
  rw [appendRegistryReleaseToLocal, wp_bind]
  refine wp_mono ((keeps_listed_placeArtifact harchive).wp .refl) (fun _ w₁ hfrom => ?_)
    fun _ w₁ hfrom => h.of_listedFrom hfrom
  have h₁ := h.of_listedFrom hfrom
  simp only [wp_bind, wp_rootTree, wp_require, wp_failAt, appendJsonLine, wp_writeTextFile, wp_pure]
  refine ⟨fun hfresh => ⟨fun _ => h₁, fun _ => ?_⟩, fun _ => h₁⟩
  have happended := h₁.appendLine env hname hfresh (hother.of_listedFrom hfrom)
  exact ⟨fun _ => happended,
    fun _ => happended.of_listedFrom (ListedFrom.refl.write (by simp))⟩

theorem wp_publishDraft_immutable {actor : String} (h : Immutable cfg w)
    (hname : validatePackageName draft.package = none)
    (harchive : draftArchive host draft = some archive)
    (hfile : ∀ w₁, OnlyChanges InitScope w w₁ →
      archiveFile host w₁.root draft.archivePath = some archive)
    (hother : NoOtherArchive cfg w draft.package draft.version (archive.sha256 env)) :
    wp (publishDraft env cfg host fault actor draft) (fun _ w' => Immutable cfg w')
      (fun _ w' => Immutable cfg w') w := by
  have hjsonl : ∀ records, archive ≠ .jsonl records := by
    rintro records rfl
    unfold draftArchive at harchive
    split at harchive
    · obtain ⟨bytes, -, hbytes⟩ := Option.map_eq_some_iff.mp harchive
      cases hbytes
    · cases harchive
  rw [publishDraft, wp_bind, wp_rootTree, wp_bind]
  refine wp_mono (wp_and changes_ensure.wp (keeps_listed_ensure.wp .refl)) ?_
    fun _ w₁ hw₁ => h.of_listedFrom hw₁.2
  rintro _ w₁ ⟨hchanges, hfrom⟩
  have h₁ := h.of_listedFrom hfrom
  rw [wp_bind, wp_failAt]
  refine ⟨fun _ => h₁, fun _ => ?_⟩
  rw [wp_bind, wp_failAt]
  refine ⟨fun _ => h₁, fun _ => ?_⟩
  rw [wp_bind, wp_rootTree, hfile w₁ hchanges]
  dsimp only
  rw [wp_bind]
  refine wp_mono (wp_append_immutable h₁ hjsonl hname (hother.of_listedFrom hfrom)) ?_
    fun _ _ hw => hw
  intro appended w₂ h₂
  refine Keeps.wp ?_ h₂
  exact keeps_bind (keeps_immutable fun _ => keeps_listed_refresh) fun _ =>
    keeps_bind (keeps_immutable fun _ => keeps_listed_createPublication) fun _ =>
    keeps_bind (keeps_onlyIf fun _ => keeps_immutable fun _ => keeps_listed_upload) fun _ =>
    keeps_bind (keeps_immutable fun _ => storesOnly_recordRelease.keeps_listed) fun _ =>
    keeps_bind keeps_audit fun _ => keeps_pure

/-- The release that a publish adds is either taken for the check for duplicates, or no index file
in the root or in the bucket lists it with another archive. -/
def Consistent (env : Environment) (cfg : PlatformConfig) (host : Host) (fault : Option Site)
    (w : World) : Request → Prop
  | .publishRelease request => ∀ draft archive, draftOf env host fault request = some draft →
      draftArchive host draft = some archive →
      releaseIsTaken (w.setRoot (syncedTree cfg fault w)) draft.package draft.version = true ∨
        NoOtherArchive cfg w draft.package draft.version (archive.sha256 env)
  | _ => True

theorem get_syncedTree_congr (hbucket : w'.bucket = w.bucket)
    (hget : w'.root.get p = w.root.get p) :
    (syncedTree cfg fault w').get p = (syncedTree cfg fault w).get p := by
  unfold syncedTree
  rw [hbucket]
  split
  · split
    · rw [get_graft_nil, get_graft_nil, get_cleared, get_cleared, hget]
    · rw [get_cleared, get_cleared, hget]
  · exact hget

theorem wp_publish_immutable {request : HttpRequest} (h : Immutable cfg w)
    (hconsistent : Consistent env cfg host fault w (.publishRelease request)) :
    wp (handlePublishRelease env cfg host fault request) (fun _ w' => Immutable cfg w')
      (fun _ w' => Immutable cfg w') w := by
  have hstaged : ∀ draft, ListedFrom cfg w (stagedWorld draft w) := by
    intro draft
    unfold stagedWorld
    split
    · exact .refl
    · exact ListedFrom.refl.write (by simp)
  refine wp_handlePublishRelease (fun _ _ _ => h) (fun draft _ _ => h.of_listedFrom (hstaged draft))
    (fun draft _ _ => ?_) fun draft hdraft _ _ => wp_tryPublish ?_
  · have := h.of_listedFrom (hstaged draft)
    exact ⟨fun _ _ => this, fun _ => this⟩
  have hdrafted := drafted_of_draftOf (w := w) hdraft
  have hfrom : ListedFrom cfg w ((stagedWorld draft w).setRoot
      (syncedTree cfg fault (stagedWorld draft w))) := (hstaged draft).synced
  have h₁ := h.of_listedFrom hfrom
  have hboth : ∀ {w'}, Immutable cfg w' → (∀ r : HttpResponse, r.status = 422 → Immutable cfg w') ∧
      (fault = some .audit → Immutable cfg w') := fun h => ⟨fun _ _ => h, fun _ => h⟩
  refine wp_mono wp_refreshFromObjectStore ?_ fun _ _ hw => hw.2 ▸ hboth h₁
  rintro _ w₁ ⟨-, rfl⟩
  refine ⟨fun _ _ => hboth h₁, fun _ => ⟨fun _ _ => h₁, fun _ => hboth h₁⟩, fun hfree _ => ?_⟩
  obtain ⟨archive, harchive, hfile⟩ := archiveFile_of_draftOf (w := w) hdraft
  have hother : NoOtherArchive cfg w draft.package draft.version (archive.sha256 env) := by
    refine (hconsistent draft archive hdraft harchive).resolve_left fun htaken => ?_
    have hindex : (syncedTree cfg fault (stagedWorld draft w)).get
        (registryIndexPathForPackage draft.package) =
          (syncedTree cfg fault w).get (registryIndexPathForPackage draft.package) :=
      get_syncedTree_congr hdrafted.changes.bucket
        (staged_get hdraft (by simp [InStaging, head_of_registryIndexPath]))
    simp only [releaseIsTaken, World.setRoot_memory, World.setRoot_postgres, World.setRoot_root,
      hdrafted.changes.memory, hdrafted.changes.postgres, releaseExistsOnDisk_congr hindex]
      at hfree htaken
    rw [hfree] at htaken
    cases htaken
  refine wp_mono (wp_publishDraft_immutable h₁ hdrafted.validName harchive (fun w₂ hc => ?_)
    (hother.of_listedFrom hfrom)) (fun _ _ hw => hw) fun _ _ hw => hboth hw
  exact hfile w₂ fun p hp => (hc.get_staging hp).trans (get_syncedTree_staging hp)

theorem keeps_immutable_tryYank {version reason : String} {yanked : Bool} :
    Keeps (Immutable cfg) (tryYank env cfg host fault package version yanked reason) := by
  refine keeps_tryYank_of_read (fun w records h hread hfound => ?_)
    (keeps_immutable fun _ => keeps_listed_refresh)
    (fun _ => keeps_immutable fun _ => keeps_listed_createPublication)
    (keeps_immutable fun _ => storesOnly_execPostgres.keeps_listed)
    (keeps_immutable fun _ => keeps_listed_modifyMemory)
    fun _ => keeps_immutable fun _ => keeps_listed_upload
  -- a yank changes no line's package, version or archive
  have hget := readPackageIndexRecords_ok hread (ne_nil_of_any hfound)
  refine h.of_listedFrom fun p l hl => ?_
  rcases lists_write hl with ⟨rfl, rfl⟩ | hl
  · rw [yankRecords_map fun _ => rfl]
    exact ⟨_, ⟨records, rfl, Or.inl hget⟩, fun _ => id⟩
  · exact ⟨p, hl, fun _ => id⟩

/-- A request keeps the files in agreement, however it ends. -/
theorem immutable_handleRequest {r : Request} (h : Immutable cfg w)
    (hconsistent : Consistent env cfg host fault w r) :
    Immutable cfg (handleRequest env cfg host fault r w).2 := by
  cases r with
  | publishRelease request => exact (wp_publish_immutable h hconsistent).of_snd
  | setYanked namespaceName name version yanked request =>
    exact keeps_handleSetPackageReleaseYanked (fun _ => keeps_immutable_tryYank) w h
  | promoteDistribution distributionId request =>
    exact keeps_handlePromoteDistribution
      (fun _ _ _ => keeps_immutable fun _ => keeps_listed_install) w h
  | rollbackDistribution distributionId request =>
    exact keeps_handleRollbackDistribution
      (fun _ _ _ => keeps_immutable fun _ => keeps_listed_install) w h

/-- One step of a node, a request that can break off anywhere or a restart, with a consistent
request. -/
inductive ConsistentStep (env : Environment) (cfg : PlatformConfig) (w : World) : World → Prop where
  | request (host : Host) (fault : Option Site) (r : Request)
      (consistent : Consistent env cfg host fault w r) :
      ConsistentStep env cfg w (handleRequest env cfg host fault r w).2
  | restart : ConsistentStep env cfg w w.restart

theorem immutable_run (h : Immutable cfg w₀)
    (hrun : Relation.ReflTransGen (ConsistentStep env cfg) w₀ w) : Immutable cfg w := by
  induction hrun with
  | refl => exact h
  | tail _ hstep ih =>
    cases hstep with
    | request host fault r hconsistent => exact immutable_handleRequest ih hconsistent
    | restart => exact ih.of_listedFrom (ListedFrom.refl.of_sameTree ⟨rfl, rfl, rfl⟩)

/-- The lines of a file, whatever kind of file it is. -/
theorem lists_releaseLines {f : File} (h : w.root.get p = some f) (hne : f.releaseLines ≠ []) :
    Lists cfg w p (f.releaseLines.map ReleaseRecord.listing) := by
  cases f with
  | jsonl records => exact ⟨records, rfl, Or.inl h⟩
  | json d => exact (hne rfl).elim
  | blob b => exact (hne rfl).elim

/-- Two publications list a release with the same archive. -/
def PublicationsAgree (t : Tree) : Prop :=
  ∀ id id' p p' f f', t.get (publicationPath id ++ p) = some f →
    t.get (publicationPath id' ++ p') = some f' → ∀ r ∈ f.releaseLines, ∀ s ∈ f'.releaseLines,
    r.package = s.package → r.version = s.version →
      r.sourceArtifact.sha256 = s.sourceArtifact.sha256

/-- In a run whose publishes are consistent, publications agree on the archive of every release,
and a file, of the served index or of a publication, has one record for a version. -/
theorem releases_immutable (hinit : Initial w₀)
    (hbucket : cfg.usesS3ObjectStore = true → w₀.bucket = .empty)
    (hrun : Relation.ReflTransGen (ConsistentStep env cfg) w₀ w) :
    PublicationsAgree w.root ∧
      ∀ p f, w.root.get p = some f ∨ (cfg.usesS3ObjectStore = true ∧ w.bucket.get p = some f) →
        (f.releaseLines.map (·.version)).Nodup := by
  have h := immutable_run (.of_initial hinit hbucket) hrun
  constructor
  · intro id id' p p' f f' hf hf' r hr s hs hpackage hversion
    exact h.agree _ _ _ _ (lists_releaseLines hf (List.ne_nil_of_mem hr))
      (lists_releaseLines hf' (List.ne_nil_of_mem hs)) r.listing (List.mem_map_of_mem hr)
      s.listing (List.mem_map_of_mem hs) hpackage hversion
  · intro p f hf
    cases f with
    | jsonl records =>
      have hnodup := h.nodup p _ ⟨records, rfl, hf⟩
      rwa [List.map_map] at hnodup
    | json d => exact List.nodup_nil
    | blob b => exact List.nodup_nil

/-- A publish, a yank, a rollback and a restart. -/
theorem releases_immutable_after_rollback :
    PublicationsAgree
      (sampleAfter [publishOf "a/b" "1" "one", yankOf "a" "b" "1", rollbackOf]).restart.root := by
  have hrun : Relation.ReflTransGen (ConsistentStep sampleEnvironment sampleConfig) sampleStart
      (sampleAfter [publishOf "a/b" "1" "one", yankOf "a" "b" "1", rollbackOf]).restart := by
    refine .tail (.tail (.tail (.tail .refl (.request sampleHost none (publishOf "a/b" "1" "one") ?_))
      (.request sampleHost none (yankOf "a" "b" "1") trivial))
      (.request sampleHost none rollbackOf trivial)) .restart
    -- an empty root lists nothing
    exact fun _ _ _ _ => Or.inr fun p l => by
      rintro ⟨records, -, hp | ⟨-, hp⟩⟩ <;> cases hp
  exact (releases_immutable sampleStart_initial (fun _ => rfl) hrun).1

/-- The archives of a release in the index of a publication. -/
def publishedArchives (t : Tree) (id package version : String) : List String :=
  ((t.get (publicationPath id ++ registryIndexPathForPackage package)).map fun f =>
    (f.releaseLines.filter (jsonLineHasRelease package version)).map
      (·.sourceArtifact.sha256)).getD []

theorem exists_of_publishedArchives {t : Tree} {id version sha256 : String}
    (h : publishedArchives t id package version = [sha256]) :
    ∃ f, t.get (publicationPath id ++ registryIndexPathForPackage package) = some f ∧
      ∃ r ∈ f.releaseLines, r.package = package ∧ r.version = version ∧
        r.sourceArtifact.sha256 = sha256 := by
  unfold publishedArchives at h
  cases hf : t.get (publicationPath id ++ registryIndexPathForPackage package) with
  | none =>
    rw [hf] at h
    cases h
  | some f =>
    rw [hf] at h
    have hmem : sha256 ∈ (f.releaseLines.filter (jsonLineHasRelease package version)).map
        (·.sourceArtifact.sha256) := by
      rw [show (f.releaseLines.filter (jsonLineHasRelease package version)).map
        (·.sourceArtifact.sha256) = [sha256] from h]
      exact List.mem_singleton_self _
    obtain ⟨r, hr, hsha⟩ := List.mem_map.mp hmem
    obtain ⟨hr, hrelease⟩ := List.mem_filter.mp hr
    simp only [jsonLineHasRelease, decide_eq_true_eq] at hrelease
    exact ⟨f, rfl, r, hr, hrelease.1, hrelease.2, hsha⟩

/-- Two versions are published, the distribution is rolled back to the first and the process is
started again; then the second version can be published with another archive. -/
theorem not_releases_immutable :
    let again := (handleRequest sampleEnvironment sampleConfig sampleHost none
      (publishOf "a/b" "2" "three")
      (sampleAfter [publishOf "a/b" "1" "one", publishOf "a/b" "2" "two", rollbackOf]).restart).2
    Relation.ReflTransGen (Step sampleEnvironment sampleConfig) sampleStart again ∧
      ¬ PublicationsAgree again.root := by
  intro again
  constructor
  · exact .tail (.tail (.tail (.tail (.tail .refl (.request sampleHost none _))
      (.request sampleHost none _)) (.request sampleHost none _)) .restart)
      (.request sampleHost none _)
  · intro hagree
    have htwo : publishedArchives again.root (publicationIdFor 2) "a/b" "2" =
        [sha256Bytes sampleEnvironment "two".toUTF8.toList] := by decide +kernel
    have hthree : publishedArchives again.root (publicationIdFor 3) "a/b" "2" =
        [sha256Bytes sampleEnvironment "three".toUTF8.toList] := by decide +kernel
    obtain ⟨f, hf, r, hr, hpackage, hversion, hsha⟩ := exists_of_publishedArchives htwo
    obtain ⟨f', hf', s, hs, hpackage', hversion', hsha'⟩ := exists_of_publishedArchives hthree
    have heq := hagree _ _ _ _ f f' hf hf' r hr s hs (hpackage.trans hpackage'.symm)
      (hversion.trans hversion'.symm)
    rw [hsha, hsha'] at heq
    revert heq
    decide +kernel

end StyioPlatform.Registry
