import StyioPlatform.Registry.Log

/-! The package index: one file for each package, one record for each version, and the archive of
every record among the artifacts. -/
namespace StyioPlatform.Registry

open FileTree Prog

variable {env : Environment} {cfg : PlatformConfig} {host : Host} {w w' : World} {t t' : Tree}
  {n : ℕ} {package : String} {space name : List Char}

/-- A well-formed package name and its two parts. -/
structure PackageName (package : String) (space name : List Char) : Prop where
  toList : package.toList = space ++ '/' :: name
  split : package.toList.splitOn '/' = [space, name]
  space : isSafeLowercaseIdentifier space = true
  name : isSafeLowercaseIdentifier name = true

theorem exists_packageName (h : validatePackageName package = none) :
    ∃ space name, PackageName package space name := by
  unfold validatePackageName at h
  split at h
  · next space name hsplit =>
    split at h
    · next hsafe =>
      rw [Bool.and_eq_true] at hsafe
      refine ⟨space, name, ?_, hsplit, hsafe.1, hsafe.2⟩
      have hjoin : List.intercalate ['/'] (package.toList.splitOn '/') = package.toList :=
        List.intercalate_splitOn '/'
      rw [← hjoin, hsplit]
      simp [List.intercalate]
    · cases h
  · cases h

theorem isSafeLowercaseIdentifier_iff {value : List Char} :
    isSafeLowercaseIdentifier value = true ↔ ∃ first rest, value = first :: rest ∧
      isSafeLowercase first = true ∧
      ∀ c ∈ value, isSafeLowercase c = true ∨ c = '-' ∨ c = '_' := by
  cases value with
  | nil => simp [isSafeLowercaseIdentifier]
  | cons first rest => simp [isSafeLowercaseIdentifier, or_assoc]

theorem keptByte_of_safe {c : Char} (h : isSafeLowercase c = true ∨ c = '-' ∨ c = '_') :
    keptByte c = true := by
  rcases h with h | rfl | rfl
  · have halpha : c.isAlpha = (c.isUpper || c.isLower) := rfl
    simp only [isSafeLowercase, keptByte, Char.isAlphanum, halpha, Bool.or_eq_true] at h ⊢
    tauto
  · decide
  · decide

theorem sanitizePathSegment_of_safe {value : List Char}
    (h : isSafeLowercaseIdentifier value = true) : sanitizePathSegment value = value := by
  obtain ⟨first, rest, rfl, hfirst, hsafe⟩ := isSafeLowercaseIdentifier_iff.mp h
  have hmap : ((first :: rest).flatMap fun c =>
      if keptByte c then [c] else List.replicate c.utf8Size '_') = first :: rest := by
    calc ((first :: rest).flatMap fun c =>
          if keptByte c then [c] else List.replicate c.utf8Size '_')
        = (first :: rest).flatMap fun c => [c] :=
          List.flatMap_congr fun c hc => if_pos (keptByte_of_safe (hsafe c hc))
      _ = first :: rest := List.flatMap_singleton' _
  rw [sanitizePathSegment, hmap]
  refine if_neg ?_
  rintro (h | h | h)
  · cases h
  · simp only [List.cons.injEq] at h
    rw [h.1] at hfirst
    exact absurd hfirst (by decide)
  · simp only [List.cons.injEq] at h
    rw [h.1] at hfirst
    exact absurd hfirst (by decide)

namespace PackageName

theorem splitPackageName (h : PackageName package space name) :
    splitPackageName package = [String.ofList space, String.ofList name] := by
  obtain ⟨_, _, hspace, _⟩ := isSafeLowercaseIdentifier_iff.mp h.space
  obtain ⟨_, _, hname, _⟩ := isSafeLowercaseIdentifier_iff.mp h.name
  rw [Registry.splitPackageName, h.split, List.filter_cons_of_pos (by simp [hspace]),
    List.filter_cons_of_pos (by simp [hname]), List.filter_nil, List.map_cons, List.map_cons,
    List.map_nil, sanitizePathSegment_of_safe h.space, sanitizePathSegment_of_safe h.name]

theorem packageNamespace (h : PackageName package space name) :
    packageNamespace package = String.ofList space := by
  rw [Registry.packageNamespace, h.splitPackageName]
  rfl

theorem indexPath (h : PackageName package space name) :
    registryIndexPathForPackage package =
      ["index", String.ofList space, String.ofList name ++ ".jsonl"] := by
  rw [registryIndexPathForPackage, h.splitPackageName]
  rfl

theorem ext {package' : String} (h : PackageName package space name)
    (h' : PackageName package' space name) : package = package' :=
  String.toList_injective (h.toList.trans h'.toList.symm)

end PackageName

theorem registryIndexPath_injective {package' : String} (h : validatePackageName package = none)
    (h' : validatePackageName package' = none)
    (heq : registryIndexPathForPackage package = registryIndexPathForPackage package') :
    package = package' := by
  obtain ⟨space, name, h⟩ := exists_packageName h
  obtain ⟨space', name', h'⟩ := exists_packageName h'
  rw [h.indexPath, h'.indexPath] at heq
  simp only [List.cons.injEq, and_true, true_and] at heq
  obtain rfl : space = space' := by simpa using congrArg String.toList heq.1
  have hlist := congrArg String.toList heq.2
  rw [String.toList_append, String.toList_append, List.append_cancel_right_eq,
    String.toList_ofList, String.toList_ofList] at hlist
  subst hlist
  exact h.ext h'

theorem isIndexPath_registryIndexPath (h : validatePackageName package = none) :
    isIndexPath (registryIndexPathForPackage package) = true := by
  obtain ⟨space, name, h⟩ := exists_packageName h
  obtain ⟨first, rest, rfl, -⟩ := isSafeLowercaseIdentifier_iff.mp h.name
  simp [h.indexPath, isIndexPath, hasExtension]

/-- The archive of the record is among the artifacts. -/
def HasArtifact (env : Environment) (t : Tree) (r : ReleaseRecord) : Prop :=
  r.sourceArtifact.path = artifactPath r.sourceArtifact.sha256 ∧
  ∃ f, t.get r.sourceArtifact.path = some f ∧ f.sha256 env = r.sourceArtifact.sha256

/-- The records of one package. -/
structure PackageIndex (env : Environment) (t : Tree) (package : String)
    (records : List ReleaseRecord) : Prop where
  validName : validatePackageName package = none
  ne_nil : records ≠ []
  package_eq : ∀ r ∈ records, r.package = package
  version_ne : ∀ r ∈ records, r.version ≠ ""
  nodup : (records.map (·.version)).Nodup
  artifact : ∀ r ∈ records, HasArtifact env t r

/-- Every index file holds the releases of the package that its path names. -/
def Stocked (env : Environment) (t : Tree) : Prop :=
  ∀ p f, isIndexPath p = true → t.get p = some f → ∃ package records, f = .jsonl records ∧
    p = registryIndexPathForPackage package ∧ PackageIndex env t package records

theorem Stocked.empty : Stocked env .empty := nofun

theorem PackageIndex.of_artifacts {records : List ReleaseRecord}
    (h : PackageIndex env t package records)
    (hget : ∀ sha f, t.get (artifactPath sha) = some f → t'.get (artifactPath sha) = some f) :
    PackageIndex env t' package records :=
  { h with
    artifact := fun r hr => by
      obtain ⟨hpath, f, hf, hsha⟩ := h.artifact r hr
      refine ⟨hpath, f, ?_, hsha⟩
      rw [hpath] at hf ⊢
      exact hget _ f hf }

/-- A stage that leaves the index alone and removes no artifact. -/
theorem Stocked.congr (h : Stocked env t)
    (hindex : ∀ p, isIndexPath p = true → t'.get p = t.get p)
    (hartifact : ∀ sha f, t.get (artifactPath sha) = some f → t'.get (artifactPath sha) = some f) :
    Stocked env t' := by
  intro p f hp hf
  obtain ⟨package, records, hrecords, hpath, hpackage⟩ := h p f hp (hindex p hp ▸ hf)
  exact ⟨package, records, hrecords, hpath, hpackage.of_artifacts hartifact⟩

theorem isIndexPath_head {p : Path} (h : isIndexPath p = true) : p.head? = some "index" := by
  simp only [isIndexPath, Bool.and_eq_true, beq_iff_eq] at h
  exact h.1

/-- A rewritten index file of a package. -/
theorem Stocked.rewrite {records : List ReleaseRecord} (h : Stocked env t)
    (hpackage : PackageIndex env t' package records)
    (hfile : t'.get (registryIndexPathForPackage package) = some (.jsonl records))
    (hindex : ∀ p, isIndexPath p = true → p ≠ registryIndexPathForPackage package →
      t'.get p = t.get p)
    (hartifact : ∀ sha f, t.get (artifactPath sha) = some f → t'.get (artifactPath sha) = some f) :
    Stocked env t' := by
  intro p f hp hf
  by_cases hnew : p = registryIndexPathForPackage package
  · rw [hnew, hfile] at hf
    cases hf
    exact ⟨package, records, rfl, hnew, hpackage⟩
  · obtain ⟨package', records', hrecords, hpath, hpackage'⟩ := h p f hp (hindex p hp hnew ▸ hf)
    exact ⟨package', records', hrecords, hpath, hpackage'.of_artifacts hartifact⟩

/-- The index file of a package, if it is there. -/
theorem Stocked.get (h : Stocked env t) (hname : validatePackageName package = none) {f : File}
    (hf : t.get (registryIndexPathForPackage package) = some f) :
    ∃ records, f = .jsonl records ∧ PackageIndex env t package records := by
  obtain ⟨package', records, hrecords, hpath, hpackage⟩ :=
    h _ f (isIndexPath_registryIndexPath hname) hf
  obtain rfl := registryIndexPath_injective hname hpackage.validName hpath
  exact ⟨records, hrecords, hpackage⟩

/-- A stage that stays out of the index and the artifacts. -/
theorem Stocked.of_agreeOff {S : Path → Prop} (h : Stocked env t) (hc : AgreeOff S t t')
    (hS : ∀ p, S p → p.head? ≠ some "index" ∧ p.head? ≠ some "artifacts") : Stocked env t' :=
  h.congr (fun p hp => hc p fun hs => (hS p hs).1 (isIndexPath_head hp))
    fun _ _ hf => (hc _ fun hs => (hS _ hs).2 rfl).trans hf

theorem Stocked.readPlane (h : Stocked env t) : Stocked env (readPlane t) := by
  refine h.congr (fun p hp => get_readPlane_of ?_) fun sha f hf => (get_readPlane_of rfl).trans hf
  cases p with
  | nil => cases hp
  | cons name rest =>
    obtain rfl : name = "index" := by simpa using isIndexPath_head hp
    rfl

theorem Stocked.of_readPlane (h : Stocked env (Registry.readPlane t)) : Stocked env t := by
  refine h.congr (fun p hp => (get_readPlane_of ?_).symm) fun sha f hf => ?_
  · cases p with
    | nil => cases hp
    | cons name rest =>
      obtain rfl : name = "index" := by simpa using isIndexPath_head hp
      rfl
  · rwa [get_readPlane_of rfl] at hf

theorem Drafted.stocked {draft : PublishDraft} (h : Drafted env host w draft w')
    (hs : Stocked env w.root) : Stocked env w'.root := by
  refine hs.of_agreeOff h.changes.root fun p hp => ?_
  rw [show p.head? = _ from hp]
  simp

theorem Ensured.stocked (h : Ensured env cfg host w w') (hs : Stocked env w.root) :
    Stocked env w'.root := by
  refine hs.of_agreeOff h.changes.root fun p hp => ?_
  rcases hp with hp | hp
  · revert p
    decide
  · simp [head_of_tmp hp]

theorem Refreshed.stocked {registryTime : String} {maps : PackageMaps} {hashes : List String}
    {rootHash : String} {snapshotMeta : List (Path × FileMeta)}
    (h : Refreshed env cfg host registryTime maps hashes rootHash snapshotMeta w w')
    (hs : Stocked env w.root) : Stocked env w'.root := by
  refine hs.of_agreeOff h.changes.root ?_
  rintro p (rfl | rfl | rfl | ⟨x, -, rfl⟩ | hp)
  · decide
  · decide
  · decide
  · simp [targetsPath]
  · simp [head_of_tmp hp]

theorem Created.stocked {generatedAt : String} (h : Created env cfg (n + 1) generatedAt w w')
    (hs : Stocked env w.root) : Stocked env w'.root := by
  refine hs.of_agreeOff h.changes ?_
  rintro p (hp | ⟨q, rfl⟩ | rfl | rfl)
  · simp [head_of_tmp hp]
  · simp [publicationPath]
  · decide
  · decide

theorem Appended.get_artifact {archive f : File} {draft : PublishDraft} {sha : String}
    (h : Appended env archive (buildReleaseRecord env draft host.now archive) w w')
    (hf : w.root.get (artifactPath sha) = some f) : w'.root.get (artifactPath sha) = some f := by
  by_cases hnew : artifactPath sha = artifactPath (archive.sha256 env)
  · rw [hnew] at hf ⊢
    have hartifact := h.artifact
    rw [show (buildReleaseRecord env draft host.now archive).sourceArtifact.path =
      artifactPath (archive.sha256 env) from rfl, hf] at hartifact
    exact hartifact
  · rw [h.changes.get, hf]
    rintro (heq | heq | heq)
    · exact hnew heq
    · exact artifactPath_ne_indexPath heq
    · exact artifactPath_ne_leafPath heq

/-- The records of a package after a release was added. -/
theorem Appended.records {archive : File} {draft : PublishDraft}
    (h : Appended env archive (buildReleaseRecord env draft host.now archive) w w')
    (hs : Stocked env w.root) (hname : validatePackageName draft.package = none) :
    ∃ records, (w.root.get (registryIndexPathForPackage draft.package) = some (.jsonl records) ∧
        PackageIndex env w.root draft.package records ∨
      w.root.get (registryIndexPathForPackage draft.package) = none ∧ records = []) ∧
    w'.root.get (registryIndexPathForPackage draft.package) =
      some (.jsonl (records ++ [buildReleaseRecord env draft host.now archive])) := by
  have hindex : w'.root.get (registryIndexPathForPackage draft.package) = some (.appendLine env
    (buildReleaseRecord env draft host.now archive)
    (w.root.get (registryIndexPathForPackage draft.package))) := h.index
  cases hget : w.root.get (registryIndexPathForPackage draft.package) with
  | none =>
    rw [hget] at hindex
    exact ⟨[], Or.inr ⟨rfl, rfl⟩, hindex⟩
  | some f =>
    obtain ⟨records, rfl, hpackage⟩ := hs.get hname hget
    rw [hget] at hindex
    exact ⟨records, Or.inl ⟨rfl, hpackage⟩, hindex⟩

theorem Appended.stocked {archive : File} {draft : PublishDraft}
    (h : Appended env archive (buildReleaseRecord env draft host.now archive) w w')
    (hs : Stocked env w.root) (hname : validatePackageName draft.package = none)
    (hversion : draft.version ≠ "") : Stocked env w'.root := by
  obtain ⟨records, hold, hnew⟩ := h.records hs hname
  have hartifact : ∀ sha f, w.root.get (artifactPath sha) = some f →
      w'.root.get (artifactPath sha) = some f := fun _ _ => h.get_artifact
  have hartifact_new : HasArtifact env w'.root (buildReleaseRecord env draft host.now archive) := by
    refine ⟨rfl, _, h.artifact, ?_⟩
    cases hget : w.root.get (buildReleaseRecord env draft host.now archive).sourceArtifact.path with
    | none => rfl
    | some f => exact h.artifact_sha256 f hget
  refine hs.rewrite ?_ hnew
    (fun p hp hne => h.changes.get ?_) hartifact
  · have hfresh := h.fresh
    rcases hold with ⟨hget, hpackage⟩ | ⟨hget, rfl⟩
    · have hpackage' := hpackage.of_artifacts hartifact
      refine ⟨hname, by simp, fun r hr => ?_, fun r hr => ?_, ?_, fun r hr => ?_⟩
      · rcases List.mem_append.mp hr with hr | hr
        · exact hpackage.package_eq r hr
        · rw [List.mem_singleton.mp hr]
          rfl
      · rcases List.mem_append.mp hr with hr | hr
        · exact hpackage.version_ne r hr
        · rw [List.mem_singleton.mp hr]
          exact hversion
      · rw [List.map_append, List.nodup_append]
        refine ⟨hpackage.nodup, by simp, fun v hv v' hv' => ?_⟩
        obtain ⟨r, hr, rfl⟩ := List.mem_map.mp hv
        obtain rfl : v' = draft.version := by simpa [buildReleaseRecord] using hv'
        intro heq
        rw [releaseExistsOnDisk, show (buildReleaseRecord env draft host.now archive).package =
          draft.package from rfl, hget] at hfresh
        simp only [File.releaseLines, List.any_eq_false, jsonLineHasRelease,
          decide_eq_true_eq] at hfresh
        exact hfresh r hr ⟨hpackage.package_eq r hr, heq⟩
      · rcases List.mem_append.mp hr with hr | hr
        · exact hpackage'.artifact r hr
        · rw [List.mem_singleton.mp hr]
          exact hartifact_new
    · refine ⟨hname, by simp, ?_, ?_, by simp, ?_⟩
      · simp [buildReleaseRecord]
      · simpa [buildReleaseRecord] using hversion
      · simpa using hartifact_new
  · rintro (rfl | heq | rfl)
    · exact absurd (isIndexPath_head hp) (by simp [buildReleaseRecord, artifactPath])
    · exact hne heq
    · exact absurd (isIndexPath_head hp) (by simp [leafPath])

theorem yankRecords_map {α : Type} {f : ReleaseRecord → α} {version reason yankedAt : String}
    {yanked : Bool} {records : List ReleaseRecord}
    (hf : ∀ r, f (setYanked yanked reason yankedAt r) = f r) :
    (yankRecords version yanked reason yankedAt records).map f = records.map f := by
  rw [yankRecords, List.map_map]
  refine List.map_congr_left fun r _ => ?_
  simp only [Function.comp_apply]
  split
  · exact hf r
  · rfl

/-- A yank changes neither name, version nor artifact of a record. -/
theorem mem_yankRecords {version reason yankedAt : String} {yanked : Bool}
    {records : List ReleaseRecord} {r : ReleaseRecord}
    (h : r ∈ yankRecords version yanked reason yankedAt records) :
    ∃ r' ∈ records, r.package = r'.package ∧ r.version = r'.version ∧
      r.sourceArtifact = r'.sourceArtifact := by
  obtain ⟨r', hr', rfl⟩ := List.mem_map.mp h
  refine ⟨r', hr', ?_⟩
  split <;> exact ⟨rfl, rfl, rfl⟩

theorem PackageIndex.yank {version reason yankedAt : String} {yanked : Bool}
    {records : List ReleaseRecord} (h : PackageIndex env t package records) :
    PackageIndex env t package (yankRecords version yanked reason yankedAt records) where
  validName := h.validName
  ne_nil := by simpa [yankRecords] using h.ne_nil
  package_eq r hr := by
    obtain ⟨r', hr', heq, -⟩ := mem_yankRecords hr
    exact heq.trans (h.package_eq r' hr')
  version_ne r hr := by
    obtain ⟨r', hr', -, heq, -⟩ := mem_yankRecords hr
    exact heq ▸ h.version_ne r' hr'
  nodup := by
    rw [yankRecords_map fun _ => rfl]
    exact h.nodup
  artifact r hr := by
    obtain ⟨r', hr', -, -, heq⟩ := mem_yankRecords hr
    have := h.artifact r' hr'
    rwa [HasArtifact, ← heq] at this

theorem readPackageIndexRecords_ok {records : List ReleaseRecord}
    (h : readPackageIndexRecords t package = .ok records) (hne : records ≠ []) :
    t.get (registryIndexPathForPackage package) = some (.jsonl records) := by
  unfold readPackageIndexRecords at h
  split at h
  · cases h
    exact (hne rfl).elim
  · next f hf =>
    cases f with
    | json d => cases h
    | blob b => cases h
    | jsonl l =>
      cases h
      exact hf

theorem ne_nil_of_any {records : List ReleaseRecord} {version : String}
    (h : records.any (·.version = version) = true) : records ≠ [] := by
  rintro rfl
  cases h

theorem Edited.stocked (h : Edited env cfg host w w') (hs : Stocked env w.root) :
    Stocked env w'.root := by
  cases h with
  | publish drafted free ensured archive_eq appended =>
    exact appended.stocked (ensured.stocked (drafted.stocked hs)) drafted.validName
      drafted.version_ne
  | @yank package _ _ _ _ validName read found =>
    have hget := readPackageIndexRecords_ok read (ne_nil_of_any found)
    obtain ⟨records, heq, hpackage⟩ := hs.get validName hget
    cases heq
    have hartifact : ∀ f, ∀ sha g, w.root.get (artifactPath sha) = some g →
        (w.root.put (registryIndexPathForPackage package) f).get (artifactPath sha) = some g :=
      fun f sha g hg => (get_put_of_ne artifactPath_ne_indexPath).trans hg
    exact hs.rewrite (hpackage.yank.of_artifacts (hartifact _)) get_put_self
      (fun p _ hne => get_put_of_ne hne) (hartifact _)

theorem Committed.stocked (h : Committed env cfg host n w w') (hs : Stocked env w.root) :
    Stocked env w'.root := by
  obtain ⟨⟨maps, hashes, rootHash, snapshotMeta, w₁, hr, hc⟩, -⟩ := h
  exact hc.stocked (hr.stocked hs)

/-- An edit keeps the index in order. -/
theorem Stocked.edit {a b : Tree} (h : Stocked env a) (he : PlaneEdit env cfg n a b) :
    Stocked env b := by
  obtain ⟨w, w', rfl, rfl, host, w₂, hedited, hcommitted⟩ := he
  exact (hcommitted.stocked (hedited.stocked h.of_readPlane)).readPlane

/-- The leaf belongs to the record in the index file at the path. -/
structure LeafOf (env : Environment) (p : Path) (r : ReleaseRecord) (leaf : LogLeaf) : Prop where
  package : leaf.package = r.package
  version : leaf.version = r.version
  indexPath : leaf.indexPath = p
  indexRecordSha256 : leaf.indexRecordSha256 = recordSha256 env r

/-- Every record of the index has a leaf, and every leaf a record. -/
structure LogCommits (env : Environment) (t : Tree) (leaves : List LogLeaf) : Prop where
  leaf : ∀ p records, isIndexPath p = true → t.get p = some (.jsonl records) →
    ∀ r ∈ records, ∃ leaf ∈ leaves, LeafOf env p r leaf
  record : ∀ leaf ∈ leaves, isIndexPath leaf.indexPath = true ∧ ∃ records r,
    t.get leaf.indexPath = some (.jsonl records) ∧ r ∈ records ∧ LeafOf env leaf.indexPath r leaf

theorem LogCommits.congr {leaves : List LogLeaf} (h : LogCommits env t leaves)
    (hget : ∀ p, isIndexPath p = true → t'.get p = t.get p) : LogCommits env t' leaves where
  leaf p records hp hrecords := h.leaf p records hp (hget p hp ▸ hrecords)
  record leaf hleaf := by
    obtain ⟨hp, records, r, hrecords, hr⟩ := h.record leaf hleaf
    exact ⟨hp, records, r, (hget _ hp).trans hrecords, hr⟩

theorem leafOf_releaseLeaf {sequence : ℕ} {r : ReleaseRecord} :
    LeafOf env (registryIndexPathForPackage r.package) r (releaseLeaf env sequence r) :=
  ⟨rfl, rfl, rfl, rfl⟩

/-- A release and its leaf are added together. -/
theorem Appended.logCommits {archive : File} {draft : PublishDraft} {leaves : List LogLeaf}
    {sequence : ℕ}
    (h : Appended env archive (buildReleaseRecord env draft host.now archive) w w')
    (hs : Stocked env w.root) (hname : validatePackageName draft.package = none)
    (hl : LogCommits env w.root leaves) :
    LogCommits env w'.root (leaves ++ [releaseLeaf env sequence
      (buildReleaseRecord env draft host.now archive)]) := by
  obtain ⟨records, hold, hnew⟩ := h.records hs hname
  have hof : LeafOf env (registryIndexPathForPackage draft.package)
      (buildReleaseRecord env draft host.now archive)
      (releaseLeaf env sequence (buildReleaseRecord env draft host.now archive)) :=
    leafOf_releaseLeaf (r := buildReleaseRecord env draft host.now archive)
  have hother : ∀ p, isIndexPath p = true → p ≠ registryIndexPathForPackage draft.package →
      w'.root.get p = w.root.get p := by
    intro p hp hne
    refine h.changes.get ?_
    rintro (rfl | heq | rfl)
    · exact absurd (isIndexPath_head hp) (by simp [buildReleaseRecord, artifactPath])
    · exact hne heq
    · exact absurd (isIndexPath_head hp) (by simp [leafPath])
  constructor
  · intro p records' hp hrecords' r hr
    by_cases hpath : p = registryIndexPathForPackage draft.package
    · subst hpath
      rw [hnew] at hrecords'
      cases hrecords'
      rcases List.mem_append.mp hr with hr | hr
      · rcases hold with ⟨hget, -⟩ | ⟨-, rfl⟩
        · obtain ⟨leaf, hleaf, hof⟩ := hl.leaf _ records hp hget r hr
          exact ⟨leaf, List.mem_append_left _ hleaf, hof⟩
        · cases hr
      · rw [List.mem_singleton.mp hr]
        exact ⟨_, List.mem_append_right _ List.mem_cons_self, hof⟩
    · rw [hother p hp hpath] at hrecords'
      obtain ⟨leaf, hleaf, hof⟩ := hl.leaf p records' hp hrecords' r hr
      exact ⟨leaf, List.mem_append_left _ hleaf, hof⟩
  · intro leaf hleaf
    rcases List.mem_append.mp hleaf with hleaf | hleaf
    · obtain ⟨hp, records', r, hget, hr, hof⟩ := hl.record leaf hleaf
      refine ⟨hp, ?_⟩
      by_cases hpath : leaf.indexPath = registryIndexPathForPackage draft.package
      · rw [hpath] at hget hof ⊢
        rcases hold with ⟨hget', -⟩ | ⟨hget', -⟩
        · rw [hget'] at hget
          cases hget
          exact ⟨_, r, hnew, List.mem_append_left _ hr, hof⟩
        · rw [hget'] at hget
          cases hget
      · exact ⟨records', r, (hother _ hp hpath).trans hget, hr, hof⟩
    · rw [List.mem_singleton.mp hleaf]
      exact ⟨isIndexPath_registryIndexPath hname, _, _, hnew,
        List.mem_append_right _ List.mem_cons_self, hof⟩

/-- A publish that was answered with 200. -/
def PublishStep (env : Environment) (cfg : PlatformConfig) (w w' : World) : Prop :=
  ∃ host request, Succeeds env cfg host (.publishRelease request) w w'

/-- The state of a registry that only published. -/
structure PublishedOnly (env : Environment) (cfg : PlatformConfig) (n : ℕ) (w : World)
    (leaves : List LogLeaf) : Prop where
  represents : ∃ s, Represents cfg n w s
  stocked : Stocked env w.root
  leavesAre : LeavesAre w.root leaves
  length_le : leaves.length ≤ n
  logCommits : LogCommits env w.root leaves

theorem PublishedOnly.of_initial (h : Initial w) : PublishedOnly env cfg 0 w [] where
  represents := ⟨_, .of_initial h⟩
  stocked := h.root ▸ .empty
  leavesAre := h.root ▸ .empty
  length_le := le_rfl
  logCommits :=
    { leaf := fun p records _ hget => by
        rw [h.root] at hget
        cases hget
      record := nofun }

theorem Ensured.get_index {p : Path} (h : Ensured env cfg host w w') (hp : isIndexPath p = true) :
    w'.root.get p = w.root.get p := by
  refine h.changes.get ?_
  rintro (hinit | htmp)
  · have hhead : ∀ q ∈ initPaths, q.head? ≠ some "index" := by decide
    exact hhead p hinit (isIndexPath_head hp)
  · have := (head_of_tmp htmp).symm.trans (isIndexPath_head hp)
    simp at this

theorem Drafted.get_index {p : Path} {draft : PublishDraft} (h : Drafted env host w draft w')
    (hp : isIndexPath p = true) : w'.root.get p = w.root.get p := by
  refine h.changes.get fun hs => ?_
  have := (show p.head? = _ from hs).symm.trans (isIndexPath_head hp)
  simp at this

theorem Committed.get_index {p : Path} (h : Committed env cfg host n w w')
    (hp : isIndexPath p = true) : w'.root.get p = w.root.get p := by
  obtain ⟨⟨maps, hashes, rootHash, snapshotMeta, w₁, hr, hc⟩, -⟩ := h
  have hhead := isIndexPath_head hp
  rw [hc.changes, hr.changes.get]
  · rintro (rfl | rfl | rfl | ⟨x, -, rfl⟩ | htmp)
    · exact absurd hhead (by decide)
    · exact absurd hhead (by decide)
    · exact absurd hhead (by decide)
    · simp [targetsPath] at hhead
    · simp [head_of_tmp htmp] at hhead
  · rintro (htmp | ⟨q, rfl⟩ | rfl | rfl)
    · simp [head_of_tmp htmp] at hhead
    · simp [publicationPath] at hhead
    · exact absurd hhead (by decide)
    · exact absurd hhead (by decide)

/-- A publish adds its record and its leaf. -/
theorem PublishedOnly.step {leaves : List LogLeaf} (hlocal : cfg.usesS3ObjectStore = false)
    (h : PublishedOnly env cfg n w leaves) (hs : PublishStep env cfg w w') :
    ∃ leaves', PublishedOnly env cfg (n + 1) w' leaves' := by
  obtain ⟨host, request, hs⟩ := hs
  obtain ⟨s, hrep⟩ := h.represents
  obtain ⟨s', -, hrep', -⟩ := hrep.commit (publish_commits hlocal hrep.numbered hs)
    (numbered_of_succeeds hlocal hrep.numbered hs)
  obtain ⟨draft, w₀, hdraft, -, hensured, -, happended, hcommitted⟩ :=
    publish_succeeded hlocal hrep.numbered hs
  have hbound := hcommitted.bound
  have hlen := h.length_le
  have hstocked := hensured.stocked (hdraft.stocked h.stocked)
  have hleaves := (h.leavesAre.congr fun p hp => hdraft.get_leaf hp).congr fun p hp =>
    hensured.get_leaf hp
  have hcommits := (h.logCommits.congr fun p hp => hdraft.get_index hp).congr fun p hp =>
    hensured.get_index hp
  exact ⟨_,
    { represents := ⟨s', hrep'⟩
      stocked := hcommitted.stocked
        (happended.stocked hstocked hdraft.validName hdraft.version_ne)
      leavesAre := (hcommitted.logged (happended.leavesAre hleaves (by omega))).1
      length_le := by simpa using hlen
      logCommits := (happended.logCommits hstocked hdraft.validName hcommits).congr
        fun p hp => hcommitted.get_index hp }⟩

/-- While nothing is yanked, the log commits to the index: every record that is served has a leaf
with its digest, and every leaf names a record that is served. -/
theorem log_commits_to_index {w₀ : World} (hlocal : cfg.usesS3ObjectStore = false)
    (hinit : Initial w₀) (hrun : Relation.ReflTransGen (PublishStep env cfg) w₀ w) :
    (∀ p f, isIndexPath p = true → w.root.get p = some f → ∃ records, f = .jsonl records ∧
      ∀ r ∈ records, ∃ q ∈ leafSequencePaths w.root, ∃ leaf,
        w.root.get q = some (.json (.leaf leaf)) ∧ LeafOf env p r leaf) ∧
    ∀ q ∈ leafSequencePaths w.root, ∃ leaf, w.root.get q = some (.json (.leaf leaf)) ∧
      ∃ records r, w.root.get leaf.indexPath = some (.jsonl records) ∧ r ∈ records ∧
        LeafOf env leaf.indexPath r leaf := by
  obtain ⟨n, leaves, h⟩ : ∃ n leaves, PublishedOnly env cfg n w leaves := by
    induction hrun with
    | refl => exact ⟨0, [], .of_initial hinit⟩
    | tail _ hstep ih =>
      obtain ⟨n, leaves, h⟩ := ih
      obtain ⟨leaves', h'⟩ := h.step hlocal hstep
      exact ⟨n + 1, leaves', h'⟩
  have hpaths := h.leavesAre.sequencePaths
  constructor
  · intro p f hp hf
    obtain ⟨package, records, rfl, -, -⟩ := h.stocked p f hp hf
    refine ⟨records, rfl, fun r hr => ?_⟩
    obtain ⟨leaf, hleaf, hof⟩ := h.logCommits.leaf p records hp hf r hr
    obtain ⟨i, hi, rfl⟩ := List.mem_iff_getElem.mp hleaf
    refine ⟨leafPath (i + 1), ?_, leaves[i], h.leavesAre.get i _ (List.getElem?_eq_getElem hi), hof⟩
    rw [hpaths]
    exact List.mem_map.mpr ⟨i, List.mem_range.mpr hi, rfl⟩
  · intro q hq
    rw [hpaths] at hq
    obtain ⟨i, hi, rfl⟩ := List.mem_map.mp hq
    have hi := List.mem_range.mp hi
    refine ⟨leaves[i], h.leavesAre.get i _ (List.getElem?_eq_getElem hi), ?_⟩
    obtain ⟨-, records, r, hget, hr, hof⟩ := h.logCommits.record leaves[i] (List.getElem_mem hi)
    exact ⟨records, r, hget, hr, hof⟩

/-- One publish. -/
theorem log_commits_after_publish :
    ∃ leaf, (sampleAfter [publishOf "a/b" "1" "one"]).root.get (leafPath 1) =
        some (.json (.leaf leaf)) ∧
      ∃ records r, (sampleAfter [publishOf "a/b" "1" "one"]).root.get leaf.indexPath =
          some (.jsonl records) ∧ r ∈ records ∧
        LeafOf sampleEnvironment leaf.indexPath r leaf := by
  have hstep : PublishStep sampleEnvironment sampleConfig sampleStart
      (sampleAfter [publishOf "a/b" "1" "one"]) :=
    ⟨sampleHost, _, succeeds_of_answerStatus (by decide +kernel)⟩
  exact (log_commits_to_index rfl sampleStart_initial (.single hstep)).2 (leafPath 1)
    (by decide +kernel)

/-- Some leaf has the digest of the record. -/
def hasLeaf (env : Environment) (t : Tree) (r : ReleaseRecord) : Bool :=
  (leafSequencePaths t).any fun q =>
    match t.get q with
    | some (.json (.leaf leaf)) => leaf.indexRecordSha256 == recordSha256 env r
    | _ => false

theorem hasLeaf_of_leafOf {p q : Path} {r : ReleaseRecord} {leaf : LogLeaf}
    (hq : q ∈ leafSequencePaths t) (hget : t.get q = some (.json (.leaf leaf)))
    (hof : LeafOf env p r leaf) : hasLeaf env t r = true := by
  refine List.any_eq_true.mpr ⟨q, hq, ?_⟩
  rw [hget]
  exact beq_iff_eq.mpr hof.indexRecordSha256

/-- A publish and a yank: the record that is served then has no leaf. -/
theorem log_behind_after_yank :
    let w := sampleAfter [publishOf "a/b" "1" "one", yankOf "a" "b" "1"]
    Relation.ReflTransGen (SuccessStep sampleEnvironment sampleConfig) sampleStart w ∧
      ∃ f, w.root.get (registryIndexPathForPackage "a/b") = some f ∧ ∃ r ∈ f.releaseLines,
        ∀ q ∈ leafSequencePaths w.root, ∀ leaf, w.root.get q = some (.json (.leaf leaf)) →
          ¬ LeafOf sampleEnvironment (registryIndexPathForPackage "a/b") r leaf := by
  intro w
  refine ⟨reflTransGen_of_accepts (by decide +kernel), ?_⟩
  have hunlogged : ((w.root.get (registryIndexPathForPackage "a/b")).map fun f =>
      f.releaseLines.any (!hasLeaf sampleEnvironment w.root ·)) = some true := by decide +kernel
  obtain ⟨f, hf, hany⟩ := Option.map_eq_some_iff.mp hunlogged
  obtain ⟨r, hr, hleaf⟩ := List.any_eq_true.mp hany
  refine ⟨f, hf, r, hr, fun q hq leaf hget hof => ?_⟩
  rw [hasLeaf_of_leafOf hq hget hof] at hleaf
  cases hleaf

end StyioPlatform.Registry
