import Mathlib.Logic.Equiv.List
import StyioPlatform.Registry.Log
import StyioPlatform.Registry.Mirror

/-! The checks of a publication, by the mirror and by the control plane: they see every change of
the index and of the trust metadata, and of the artifacts and the log only the number of files. -/
namespace StyioPlatform.Registry

open FileTree Prog

variable {env : Environment} {codec : JsonCodec} {cfg : PlatformConfig} {fault : Option Site}
  {w w' : World} {d d' : Disk} {t : Tree} {root root' : Path} {generatedAt : String}

/-- A directory that one call of `CreateRegistryPublication` has made. -/
def WrittenPublication (env : Environment) (publication : Tree) : Prop :=
  ∃ cfg fault changeKind changeRef generatedAt w publicationId,
    let w' := (createRegistryPublication env cfg fault changeKind changeRef generatedAt w).2
    w.root.isDirectory (publicationPath publicationId) = false ∧
      w'.root.isDirectory (publicationPath publicationId) = true ∧
      publication = w'.root.subtree (publicationPath publicationId)

/-- `publication.json` as it is parsed. -/
def manifestJson (m : PublicationManifest) : Json :=
  .ofFields [("publication_id", .string m.publicationId),
    ("repository_id", .string (m.repositoryId.getD "default")),
    ("repository_version_id", .string (m.repositoryVersionId.getD "")),
    ("layout_version", .int m.layoutVersion), ("generated_at", .string m.generatedAt),
    ("tree_size", .int m.treeSize), ("index_digest", .string m.indexDigest),
    ("trust_digest", .string m.trustDigest), ("artifact_count", .int m.artifactCount),
    ("verified", .bool m.verified)]

section Manifest

variable {m : PublicationManifest}

theorem manifestJson_indexDigest :
    (manifestJson m).textOr "index_digest" "" = some m.indexDigest := by
  simp [manifestJson, Json.ofFields, Json.textOr, Json.text?, setKey, getKey]

theorem manifestJson_trustDigest :
    (manifestJson m).textOr "trust_digest" "" = some m.trustDigest := by
  simp [manifestJson, Json.ofFields, Json.textOr, Json.text?, setKey, getKey]

theorem intOr_of_getKey {fields : List (String × Json)} {key : String} {n : ℕ} {default : ℤ}
    (h : getKey fields key = some (.int n)) :
    (Json.object fields).intOr key default = some (asInt n) := by
  simp only [Json.intOr, h, Json.toInt?]
  unfold asInt
  rfl

theorem manifestJson_artifactCount :
    (manifestJson m).intOr "artifact_count" 0 = some (asInt m.artifactCount) := by
  rw [manifestJson, Json.ofFields, intOr_of_getKey]
  simp [setKey, getKey]

theorem manifestJson_treeSize :
    (manifestJson m).intOr "tree_size" 0 = some (asInt m.treeSize) := by
  rw [manifestJson, Json.ofFields, intOr_of_getKey]
  simp [setKey, getKey]

theorem manifestJson_repositoryVersionId :
    (manifestJson m).textOr "repository_version_id" "" =
      some (m.repositoryVersionId.getD "") := by
  simp [manifestJson, Json.ofFields, Json.textOr, Json.text?, setKey, getKey]

theorem manifestJson_verified :
    (manifestJson m).boolOr "verified" false = some m.verified := by
  simp [manifestJson, Json.ofFields, Json.boolOr, setKey, getKey]

end Manifest

/-- The JSON library reads the manifest of the publication as it was written. -/
def ReadsManifest (env : Environment) (codec : JsonCodec) (publication : Tree) : Prop :=
  ∀ m, publication.get ["publication.json"] = some (.json (.publication m)) →
    codec.parse (env.jsonText (.publication m)) = some (manifestJson m)

/-- What the mirror checks. -/
structure Verified (env : Environment) (d : Disk) (root : Path) (publication : Json) : Prop where
  config : occupied d (root ++ ["config.json"]) = true
  rootFile : occupied d (root ++ ["trust", "root.json"]) = true
  manifest : occupied d (root ++ ["publication.json"]) = true
  verified : publication.boolOr "verified" false = some true
  artifactCount :
    publication.intOr "artifact_count" 0 = some (asInt (countFiles d (root ++ ["artifacts"])))
  indexDigest :
    publication.textOr "index_digest" "" = some (diskDigest env d (root ++ ["index"]))
  trustDigest :
    publication.textOr "trust_digest" "" = some (diskDigest env d (root ++ ["trust"]))
  treeSize : publication.intOr "tree_size" 0 = some (asInt (countLogLeaves d root))

theorem verifyPublicationSnapshot_eq_ok {publication : Json} :
    verifyPublicationSnapshot env d root publication = .ok () ↔
      Verified env d root publication := by
  unfold verifyPublicationSnapshot
  constructor
  · intro h
    obtain ⟨_, hcomplete, h⟩ := bind_ok_iff.mp h
    obtain ⟨verified, hverified, h⟩ := bind_ok_iff.mp h
    obtain ⟨_, htrue, h⟩ := bind_ok_iff.mp h
    obtain ⟨artifactCount, hartifacts, h⟩ := bind_ok_iff.mp h
    obtain ⟨_, hcount, h⟩ := bind_ok_iff.mp h
    obtain ⟨indexDigest, hindex, h⟩ := bind_ok_iff.mp h
    obtain ⟨_, hindex', h⟩ := bind_ok_iff.mp h
    obtain ⟨trustDigest, htrust, h⟩ := bind_ok_iff.mp h
    obtain ⟨_, htrust', h⟩ := bind_ok_iff.mp h
    obtain ⟨treeSize, hsize, hsize'⟩ := bind_ok_iff.mp h
    clear h
    simp only [typed_eq_ok] at hverified hartifacts hindex htrust hsize
    simp only [demand_eq_ok] at hcomplete htrue hcount hindex' htrust' hsize'
    rw [htrue] at hverified
    rw [hcount] at hartifacts
    rw [hindex'] at hindex
    rw [htrust'] at htrust
    rw [hsize'] at hsize
    exact ⟨hcomplete.1, hcomplete.2.1, hcomplete.2.2, hverified, hartifacts, hindex, htrust, hsize⟩
  · intro h
    refine bind_ok_iff.mpr ⟨(), demand_eq_ok.mpr ⟨h.config, h.rootFile, h.manifest⟩, ?_⟩
    refine bind_ok_iff.mpr ⟨_, typed_eq_ok.mpr h.verified, ?_⟩
    refine bind_ok_iff.mpr ⟨(), demand_eq_ok.mpr rfl, ?_⟩
    refine bind_ok_iff.mpr ⟨_, typed_eq_ok.mpr h.artifactCount, ?_⟩
    refine bind_ok_iff.mpr ⟨(), demand_eq_ok.mpr rfl, ?_⟩
    refine bind_ok_iff.mpr ⟨_, typed_eq_ok.mpr h.indexDigest, ?_⟩
    refine bind_ok_iff.mpr ⟨(), demand_eq_ok.mpr rfl, ?_⟩
    refine bind_ok_iff.mpr ⟨_, typed_eq_ok.mpr h.trustDigest, ?_⟩
    refine bind_ok_iff.mpr ⟨(), demand_eq_ok.mpr rfl, ?_⟩
    refine bind_ok_iff.mpr ⟨_, typed_eq_ok.mpr h.treeSize, ?_⟩
    exact demand_eq_ok.mpr rfl

section Digests

theorem hexBytes_injective : Function.Injective hexBytes := by
  intro b b' h
  have hbytes := leafBytes_hexBytes b
  rw [h, leafBytes_hexBytes] at hbytes
  exact (Option.some.inj hbytes).symm

theorem sha256Bytes_injective (hsha : Function.Injective env.sha256) :
    Function.Injective (sha256Bytes env) := hexBytes_injective.comp hsha

/-- The listing under a digest of a directory. -/
def listingOf (env : Environment) (get : Path → Option Bytes) (paths : List Path) :
    List (Path × String) :=
  paths.filterMap fun p => (get p).map fun b => (p, sha256Bytes env b)

/-- A name of a file: not empty, and without the separator. -/
def IsFileName (name : String) : Prop := name ≠ "" ∧ '/' ∉ name.toList

instance : DecidablePred IsFileName := fun _ => inferInstanceAs (Decidable (_ ∧ _))

/-- The paths of the files are made of names of files. -/
def NamesFiles (d : Disk) : Prop := ∀ p, (d.get p).isSome → ∀ name ∈ p, IsFileName name

variable {get get' : Path → Option Bytes} {paths paths' : List Path} {p : Path} {b : Bytes}

theorem mem_listingOf {e : Path × String} (h : e ∈ listingOf env get paths) :
    e.1 ∈ paths ∧ ∃ b, get e.1 = some b ∧ e.2 = sha256Bytes env b := by
  obtain ⟨p, hp, he⟩ := List.mem_filterMap.mp h
  obtain ⟨b, hb, rfl⟩ := Option.map_eq_some_iff.mp he
  exact ⟨hp, b, hb, rfl⟩

/-- The digest of a listing. -/
def listingDigest (env : Environment) (l : List (Path × String)) : String :=
  "sha256:" ++ sha256Bytes env (env.canonicalJson (.listing l))

theorem diskDigest_eq : diskDigest env d root =
    listingDigest env (listingOf env (fun p => d.get (root ++ p)) (filesBelow d root)) := rfl

theorem directoryDigest_eq : directoryDigest env t root = listingDigest env
    (listingOf env (fun p => (onDisk env t).get (root ++ p)) (sorted (t.subtree root).support)) := by
  have hentry : ∀ p, (t.get (root ++ p)).map (fun f => (p, f.sha256 env)) =
      ((onDisk env t).get (root ++ p)).map fun b => (p, sha256Bytes env b) := by
    intro p
    rw [onDisk, get_map, Option.map_map]
    rfl
  simp only [directoryDigest, hentry]
  rfl

theorem mem_filesBelow : p ∈ filesBelow d root ↔ p ≠ [] ∧ (d.get (root ++ p)).isSome := by
  rw [filesBelow, mem_sorted, Finset.mem_erase, FileTree.mem_support, get_subtree]

theorem NamesFiles.listingOf {d : Disk} (h : NamesFiles d) :
    ∀ e ∈ listingOf env (fun p => d.get (root ++ p)) paths, ∀ name ∈ e.1, IsFileName name := by
  intro e he name hname
  obtain ⟨-, b, hb, -⟩ := mem_listingOf he
  exact h (root ++ e.1) (by rw [hb]; rfl) name (List.mem_append_right _ hname)

/-- The mirror and the control plane compute the same digest. -/
theorem diskDigest_eq_directoryDigest (hroot : t.get root = none)
    (hget : ∀ p, p ≠ [] → d.get (root' ++ p) = (onDisk env t).get (root ++ p)) :
    diskDigest env d root' = directoryDigest env t root := by
  have hsome : ∀ p, ((onDisk env t).get p).isSome = (t.get p).isSome := by
    intro p
    rw [onDisk, get_map, Option.isSome_map]
  have hmem : ∀ p, p ∈ (t.subtree root).support → p ≠ [] := by
    rintro p hp rfl
    rw [FileTree.mem_support, get_subtree, List.append_nil, hroot] at hp
    cases hp
  have hfiles : filesBelow d root' = sorted (t.subtree root).support := by
    refine congrArg sorted (Finset.ext fun p => ?_)
    rw [Finset.mem_erase, FileTree.mem_support, get_subtree]
    constructor
    · rintro ⟨hp, hd⟩
      rwa [FileTree.mem_support, get_subtree, ← hsome, ← hget p hp]
    · intro hp
      refine ⟨hmem p hp, ?_⟩
      rwa [hget p (hmem p hp), hsome, ← get_subtree, ← FileTree.mem_support]
  rw [diskDigest_eq, directoryDigest_eq, hfiles]
  refine congrArg _ (List.filterMap_congr fun p hp => ?_)
  dsimp only
  rw [hget p (hmem p (mem_sorted.mp hp))]

/-- The mirror counts the files below a directory. -/
theorem countFiles_eq (hroot : t.get root = none)
    (hget : ∀ p, p ≠ [] → d.get (root' ++ p) = (onDisk env t).get (root ++ p)) :
    countFiles d root' = countRegularFiles t root := by
  have hsome : ∀ p, p ≠ [] → ((d.get (root' ++ p)).isSome ↔ (t.get (root ++ p)).isSome) := by
    intro p hp
    rw [hget p hp, onDisk, get_map, Option.isSome_map]
  rw [countFiles, filesBelow, sorted_eq_sort, Finset.length_sort, countRegularFiles]
  refine Finset.card_bij (fun p _ => root ++ p) ?_ ?_ ?_
  · intro p hp
    rw [Finset.mem_erase, FileTree.mem_support, get_subtree] at hp
    rw [Finset.mem_filter, FileTree.mem_support]
    exact ⟨(hsome p hp.1).mp hp.2, List.prefix_append root p⟩
  · intro p _ q _ h
    exact List.append_cancel_left h
  · intro p hp
    rw [Finset.mem_filter, FileTree.mem_support] at hp
    obtain ⟨hp, q, rfl⟩ := hp
    have hq : q ≠ [] := by
      rintro rfl
      rw [List.append_nil, hroot] at hp
      cases hp
    refine ⟨q, ?_, rfl⟩
    rw [Finset.mem_erase, FileTree.mem_support, get_subtree]
    exact ⟨hq, (hsome q hq).mpr hp⟩

end Digests

section Written

/-- A publication directory that was not there before is complete. -/
def NewAreComplete (env : Environment) (cfg : PlatformConfig) (generatedAt : String)
    (w w' : World) : Prop :=
  ∀ id, w.root.isDirectory (publicationPath id) = false →
    w'.root.isDirectory (publicationPath id) = true →
    ∃ sequence, ∀ q, q ≠ [] → w'.root.get (publicationPath id ++ q) =
      (publicationTree env cfg w.root sequence generatedAt).get q

theorem NewAreComplete.refl : NewAreComplete env cfg generatedAt w w := by
  intro id hold hnew
  rw [hold] at hnew
  cases hnew

theorem NewAreComplete.congr {w'' : World} (h : NewAreComplete env cfg generatedAt w w')
    (hget : ∀ id q, w''.root.get (publicationPath id ++ q) =
      w'.root.get (publicationPath id ++ q)) : NewAreComplete env cfg generatedAt w w'' := by
  intro id hold hnew
  rw [isDirectory_congr (hget id)] at hnew
  obtain ⟨sequence, hsequence⟩ := h id hold hnew
  refine ⟨sequence, fun q hq => ?_⟩
  rw [hget, hsequence q hq]

theorem Published.newAreComplete {sequence : ℕ} {manifest : PublicationManifest}
    (h : Published env cfg sequence generatedAt w w' manifest) :
    NewAreComplete env cfg generatedAt w w' := by
  intro id hold hnew
  by_cases hid : id = publicationIdFor sequence
  · subst hid
    refine ⟨sequence, fun q hq => h.publication q ?_⟩
    by_contra hsome
    obtain ⟨f, hf⟩ := Option.ne_none_iff_exists'.mp hsome
    have hdirectory := isDirectory_iff.mpr ⟨q, f, hq, hf⟩
    rw [hold] at hdirectory
    cases hdirectory
  · have hget : ∀ q, w'.root.get (publicationPath id ++ q) =
        w.root.get (publicationPath id ++ q) := by
      intro q
      refine h.changes.get ?_
      rintro (⟨r, hr⟩ | ⟨r, hr⟩)
      · simp [publicationPath] at hr
      · simp only [publicationPath, List.cons_append, List.nil_append, List.cons.injEq] at hr
        exact hid hr.2.1.symm
    rw [isDirectory_congr hget, hold] at hnew
    cases hnew

theorem newAreComplete_create {changeKind changeRef : String} : NewAreComplete env cfg generatedAt w
    (createRegistryPublication env cfg fault changeKind changeRef generatedAt w).2 := by
  have houtside : ∀ id q, ¬ ActivateScope (publicationPath id ++ q) := by
    intro id q
    simp [ActivateScope, publicationPath, configPath, distributionPointerPath]
  have hsequence : Keeps (· = w) (nextPublicationSequence fault) :=
    keeps_bind keeps_read fun _ => keeps_bind (keeps_onlyIf fun _ => keeps_failAt) fun _ =>
      keeps_bind keeps_require fun _ => keeps_pure
  refine wp.of_snd ?_
  rw [createRegistryPublication, wp_bind]
  refine wp_mono (hsequence.wp rfl) ?_ ?_
  · intro sequence w₀ hw
    subst w₀
    rw [wp_bind]
    refine wp_mono wp_buildPublication ?_ ?_
    · intro manifest w₁ h₁
      have hactivate : ∀ {w₂ : World}, OnlyChanges ActivateScope w₁ w₂ →
          NewAreComplete env cfg generatedAt w w₂ := fun h₂ =>
        h₁.newAreComplete.congr fun id q => h₂.get (houtside id q)
      rw [wp_bind]
      refine wp_mono changes_activatePublication.wp ?_ fun _ _ h₂ => hactivate h₂
      intro current w₂ h₂
      rw [wp_bind]
      refine wp_mono (storesOnly_recordPublication _) ?_ ?_
      · intro _ w₃ h₃
        exact (hactivate h₂).congr fun id q => by rw [h₃.root]
      · intro _ w₃ h₃
        exact (hactivate h₂).congr fun id q => by rw [h₃.1.root]
    · intro _ w₁ h₁
      refine NewAreComplete.refl.congr fun id q => h₁.1.get ?_
      rintro ⟨r, hr⟩
      simp [publicationPath] at hr
  · intro _ w₀ hw
    subst w₀
    exact NewAreComplete.refl

/-- A publication holds a read plane and the manifest over it. -/
structure Holds (env : Environment) (publication plane : Tree) (sequence : ℕ)
    (generatedAt : String) : Prop where
  manifest : publication.get ["publication.json"] =
    some (.json (.publication (publicationManifest env plane sequence generatedAt)))
  plane : ∀ p, p ≠ [] → p ≠ ["publication.json"] → publication.get p = plane.get p

theorem Holds.of_tree {publication : Tree} {sequence : ℕ} (h : ∀ q, q ≠ [] →
    publication.get q = (publicationTree env cfg t sequence generatedAt).get q) :
    Holds env publication (publicationPlane cfg t sequence generatedAt) sequence generatedAt where
  manifest := by
    rw [h _ (by simp), publicationTree]
    exact get_put_self
  plane p hp hmanifest := by
    rw [h p hp, publicationTree]
    exact get_put_of_ne hmanifest

theorem WrittenPublication.holds {publication : Tree} (h : WrittenPublication env publication) :
    ∃ plane sequence generatedAt, Holds env publication plane sequence generatedAt := by
  obtain ⟨cfg, fault, changeKind, changeRef, generatedAt, w, id, hold, hnew, rfl⟩ := h
  obtain ⟨sequence, hsequence⟩ := newAreComplete_create id hold hnew
  exact ⟨_, sequence, generatedAt, .of_tree hsequence⟩

end Written

/-- The read plane as the control plane lays it out: directories where it has directories, and
leaves only in the directory of leaves. -/
structure LaidOut (plane : Tree) : Prop where
  config : (plane.get configPath).isSome
  configFile : ∀ p, (plane.get ("config.json" :: p)).isSome → p = []
  rootFile : (plane.get rootPath).isSome
  artifacts : plane.get ["artifacts"] = none
  index : plane.get ["index"] = none
  trust : plane.get ["trust"] = none
  leaves : ∀ p, (plane.get ("log" :: "leaves" :: p)).isSome →
    isLeafPath ("log" :: "leaves" :: p) = true

theorem LaidOut.countLogLeaves {plane : Tree} (h : LaidOut plane)
    (hget : ∀ p, p ≠ [] →
      d.get (root ++ "log" :: "leaves" :: p) = (onDisk env plane).get ("log" :: "leaves" :: p)) :
    countLogLeaves d root = (leafSequencePaths plane).length := by
  have hroot : plane.get ["log", "leaves"] = none := by
    by_contra hsome
    have hleaf := h.leaves [] (Option.isSome_iff_ne_none.mpr hsome)
    cases hleaf
  have hleaves : ∀ p, p ≠ [] → d.get (root ++ ["log", "leaves"] ++ p) =
      (onDisk env plane).get (["log", "leaves"] ++ p) := by
    intro p hp
    rw [List.append_assoc]
    exact hget p hp
  rw [Registry.countLogLeaves, countFiles_eq hroot hleaves, countRegularFiles, leafSequencePaths,
    sorted_eq_sort, Finset.length_sort]
  congr 1
  refine Finset.filter_congr fun p hp => ?_
  constructor
  · rintro ⟨q, rfl⟩
    exact h.leaves q ((FileTree.mem_support _ _).mp hp)
  · intro hleaf
    unfold isLeafPath at hleaf
    split at hleaf
    · exact ⟨_, rfl⟩
    · cases hleaf

theorem Holds.laidOut {publication plane : Tree} {sequence : ℕ}
    (h : Holds env publication plane sequence generatedAt) (hlaid : LaidOut publication) :
    LaidOut plane where
  config := by
    rw [← h.plane _ (by decide) (by decide)]
    exact hlaid.config
  configFile p hp := by
    rw [← h.plane _ (by simp) (by simp)] at hp
    exact hlaid.configFile p hp
  rootFile := by
    rw [← h.plane _ (by decide) (by decide)]
    exact hlaid.rootFile
  artifacts := by
    rw [← h.plane _ (by decide) (by decide)]
    exact hlaid.artifacts
  index := by
    rw [← h.plane _ (by decide) (by decide)]
    exact hlaid.index
  trust := by
    rw [← h.plane _ (by decide) (by decide)]
    exact hlaid.trust
  leaves p hp := by
    rw [← h.plane _ (by simp) (by simp)] at hp
    exact hlaid.leaves p hp

/-- The mirror accepts a publication as it was written. -/
theorem Holds.verified {publication plane : Tree} {sequence : ℕ}
    (h : Holds env publication plane sequence generatedAt) (hplane : LaidOut plane)
    (hget : ∀ p, p ≠ [] → d.get (root ++ p) = (onDisk env publication).get p) :
    Verified env d root (manifestJson (publicationManifest env plane sequence generatedAt)) := by
  have hfile : ∀ p, p ≠ [] → p ≠ ["publication.json"] →
      d.get (root ++ p) = (onDisk env plane).get p := by
    intro p hp hmanifest
    rw [hget p hp, onDisk, onDisk, get_map, get_map, h.plane p hp hmanifest]
  have hbelow : ∀ name p, p ≠ [] →
      d.get (root ++ [name] ++ p) = (onDisk env plane).get ([name] ++ p) := by
    intro name p hp
    rw [List.append_assoc]
    refine hfile _ (by simp) ?_
    simp [hp]
  have hoccupied : ∀ p, p ≠ [] → p ≠ ["publication.json"] → (plane.get p).isSome →
      occupied d (root ++ p) = true := by
    intro p hp hmanifest hsome
    rw [occupied, hfile p hp hmanifest, onDisk, get_map, Option.isSome_map, hsome, Bool.true_or]
  refine ⟨hoccupied _ (by simp) (by simp) hplane.config,
    hoccupied _ (by simp) (by simp) hplane.rootFile, ?_, manifestJson_verified, ?_, ?_, ?_, ?_⟩
  · rw [occupied, hget _ (by simp), onDisk, get_map, h.manifest]
    rfl
  · rw [manifestJson_artifactCount, countFiles_eq hplane.artifacts (hbelow _)]
    rfl
  · rw [manifestJson_indexDigest, diskDigest_eq_directoryDigest hplane.index (hbelow _)]
    rfl
  · rw [manifestJson_trustDigest, diskDigest_eq_directoryDigest hplane.trust (hbelow _)]
    rfl
  · rw [manifestJson_treeSize, hplane.countLogLeaves fun p _ => hfile _ (by simp) (by simp)]
    rfl

section Promise

variable {publication : Tree} {readRecords : Bytes → List ReleaseRecord}

/-- Every record of the index names an archive that is there with the recorded digest. -/
def PromisedBy (env : Environment) (readRecords : Bytes → List ReleaseRecord)
    (index d : Disk) (root : Path) : Prop :=
  ∀ p bytes, p ≠ [] → index.get ("index" :: p) = some bytes → ∀ r ∈ readRecords bytes,
    ∃ archive, d.get (root ++ r.sourceArtifact.path) = some archive ∧
      sha256Bytes env archive = r.sourceArtifact.sha256

/-- The leaves of the log and the checkpoint are those of the other directory. -/
structure SameLog (original d : Disk) (root : Path) : Prop where
  leaves : ∀ p, d.get (root ++ "log" :: "leaves" :: p) = original.get ("log" :: "leaves" :: p)
  checkpoint : d.get (root ++ checkpointPath) = original.get checkpointPath

/-- The modification leaves what the checks do not look at: an archive with the recorded digest
for every record of the original, the leaves and the checkpoint. -/
structure KeepsUnchecked (env : Environment) (readRecords : Bytes → List ReleaseRecord)
    (original d : Disk) (root : Path) : Prop where
  artifacts : PromisedBy env readRecords original d root
  log : SameLog original d root

/-- Where the original held what its index promised, its archives must be left as they were. -/
theorem keepsUnchecked_iff {original : Disk} (hsha : Function.Injective env.sha256)
    (horiginal : PromisedBy env readRecords original original []) :
    KeepsUnchecked env readRecords original d root ↔
      (∀ p bytes, p ≠ [] → original.get ("index" :: p) = some bytes →
        ∀ r ∈ readRecords bytes,
          d.get (root ++ r.sourceArtifact.path) = original.get r.sourceArtifact.path) ∧
      SameLog original d root := by
  constructor
  · intro h
    refine ⟨fun p bytes hp hbytes r hr => ?_, h.log⟩
    obtain ⟨archive, harchive, hdigest⟩ := h.artifacts p bytes hp hbytes r hr
    obtain ⟨archive', harchive', hdigest'⟩ := horiginal p bytes hp hbytes r hr
    have hsame : archive = archive' := sha256Bytes_injective hsha (hdigest.trans hdigest'.symm)
    rw [harchive, hsame]
    exact harchive'.symm
  · rintro ⟨harchives, hlog⟩
    refine ⟨fun p bytes hp hbytes r hr => ?_, hlog⟩
    rw [harchives p bytes hp hbytes r hr]
    exact horiginal p bytes hp hbytes r hr

end Promise

/-- Neither check looks at the content of a file outside the index and the trust metadata. -/
theorem Verified.put {publication : Json} {p : Path} {b : Bytes}
    (h : Verified env d root publication) (hsome : (d.get (root ++ p)).isSome)
    (hindex : ¬ ["index"] <+: p) (htrust : ¬ ["trust"] <+: p) :
    Verified env (d.put (root ++ p) b) root publication := by
  have hsame : ∀ q, ((d.put (root ++ p) b).get q).isSome = (d.get q).isSome := by
    intro q
    by_cases hq : q = root ++ p
    · rw [hq, get_put_self, hsome]
      rfl
    · rw [get_put_of_ne hq]
  have hoccupied : ∀ q, occupied (d.put (root ++ p) b) q = occupied d q := by
    intro q
    have hdirectory : (d.put (root ++ p) b).isDirectory q = d.isDirectory q := by
      rw [Bool.eq_iff_iff]
      constructor
      · exact isDirectory_mono fun r hr => hsame r ▸ hr
      · exact isDirectory_mono fun r hr => (hsame r).symm ▸ hr
    rw [occupied, occupied, hsame, hdirectory]
  have hfiles : ∀ q, filesBelow (d.put (root ++ p) b) q = filesBelow d q := by
    intro q
    refine congrArg sorted (Finset.ext fun r => ?_)
    rw [Finset.mem_erase, Finset.mem_erase, FileTree.mem_support, FileTree.mem_support,
      get_subtree, get_subtree, hsame]
  have hdigest : ∀ name, ¬ [name] <+: p →
      diskDigest env (d.put (root ++ p) b) (root ++ [name]) =
        diskDigest env d (root ++ [name]) := by
    intro name hname
    rw [diskDigest_eq, diskDigest_eq, hfiles]
    refine congrArg _ (List.filterMap_congr fun q _ => ?_)
    dsimp only
    rw [get_put_of_ne]
    intro heq
    rw [List.append_assoc, List.append_cancel_left_eq] at heq
    exact hname ⟨q, heq⟩
  exact
    { config := by rw [hoccupied, h.config]
      rootFile := by rw [hoccupied, h.rootFile]
      manifest := by rw [hoccupied, h.manifest]
      verified := h.verified
      artifactCount := by rw [h.artifactCount, countFiles, countFiles, hfiles]
      indexDigest := by rw [h.indexDigest, hdigest _ hindex]
      trustDigest := by rw [h.trustDigest, hdigest _ htrust]
      treeSize := by
        rw [h.treeSize, countLogLeaves, countLogLeaves, countFiles, countFiles, hfiles] }

section Sample

/-- A text that determines the listing. -/
def listingCode (l : List (Path × String)) : Bytes :=
  let code (text : String) := text.toList.map Char.toNat
  List.replicate (Encodable.encode (l.map fun e => (e.1.map code, code e.2))) 0

/-- The sample environment with digests that do not collide. -/
def collisionFree : Environment :=
  { sampleEnvironment with
    sha256 := id
    canonicalJson := fun
      | .listing l => listingCode l
      | d => sampleEnvironment.canonicalJson d }

/-- The second publication of a registry with one release. -/
def samplePublication : Tree :=
  let w := serve collisionFree sampleConfig sampleHost [publishOf "a/b" "1" "one"] sampleStart
  (createRegistryPublication collisionFree sampleConfig none "publish" "a/b@1" "2026-01-03"
    w).2.root.subtree (publicationPath "pub-000002")

/-- The JSON library of the sample reads the manifest, and the records of the index file. -/
def sampleCodec : JsonCodec where
  parse _ := (samplePublication.get ["publication.json"]).bind fun f =>
    match f with
    | .json (.publication m) => some (manifestJson m)
    | _ => none
  print _ := []

theorem sampleCodec_reads : ReadsManifest collisionFree sampleCodec samplePublication := by
  intro m hm
  rw [sampleCodec, hm]
  rfl

end Sample

end StyioPlatform.Registry
