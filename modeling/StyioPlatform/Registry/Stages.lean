import StyioPlatform.Lib.Fallible
import StyioPlatform.Registry.Effects

/-! What the stages of a publish or yank leave in the tree when they are completed. -/
namespace StyioPlatform.Registry

open FileTree Prog

variable {env : Environment} {cfg : PlatformConfig} {host : Host} {fault : Option Site}
  {w w' : World} {t t' : Tree}

/-- A payload signed with the key of a role, as a file. -/
def signedFile (env : Environment) (cfg : PlatformConfig) (role : RegistryRole)
    (p : SignedPayload) : File :=
  .json (.envelope (signedRegistryPayload env (cfg.keys.key role) p))

@[simp] theorem signedVersion_signedFile {role : RegistryRole} {p : SignedPayload} :
    (signedFile env cfg role p).signedVersion = p.version := rfl

@[simp] theorem wp_writeSigned {role : RegistryRole} {path : Path} {p : SignedPayload}
    {Q : File → World → Prop} {E : Failure → World → Prop} :
    wp (writeSigned env cfg role path p) Q E w ↔
      Q (signedFile env cfg role p) (w.write path (signedFile env cfg role p)) := Iff.rfl

/-- The files of `l` that are missing are written, the others stay. -/
structure FilledIn (l : List Path) (w w' : World) : Prop where
  changes : OnlyChanges (· ∈ l) w w'
  kept : ∀ p f, w.root.get p = some f → w'.root.get p = some f
  present : ∀ p ∈ l, (w'.root.get p).isSome

namespace FilledIn

variable {l : List Path} {path : Path} {f : File}

theorem nil : FilledIn [] w w := ⟨.refl, fun _ _ h => h, by simp⟩

theorem present_of_get (h : FilledIn l w w') (hf : w'.root.get path = some f) :
    FilledIn (l ++ [path]) w w' :=
  ⟨h.changes.mono fun p hp => List.mem_append_left [path] hp, h.kept, fun p hp => by
    rcases List.mem_append.mp hp with hp | hp
    · exact h.present p hp
    · rw [List.mem_singleton.mp hp, hf]
      rfl⟩

theorem write (h : FilledIn l w w') (hnone : w'.root.get path = none) :
    FilledIn (l ++ [path]) w (w'.write path f) := by
  have hkeep : ∀ p, p ≠ path → (w'.write path f).root.get p = w'.root.get p :=
    fun p hp => get_put_of_ne hp
  refine ⟨(h.changes.mono fun p hp => List.mem_append_left [path] hp).write (by simp),
    fun p g hg => ?_, fun p hp => ?_⟩
  · have hg' := h.kept p g hg
    rw [hkeep p (by rintro rfl; simp [hnone] at hg'), hg']
  · by_cases hpath : p = path
    · rw [hpath, World.write_root, get_put_self]
      rfl
    · rw [hkeep p hpath]
      exact h.present p (by simpa [hpath] using hp)

end FilledIn

/-- Sign an initial file, after those of `l`: it is there then, or signing a missing file fails. -/
theorem wp_writeSignedIfMissing {role : RegistryRole} {path : Path} {p : SignedPayload}
    {l : List Path} {w₀ : World} (h : FilledIn l w₀ w) (hpath : path ∉ l) :
    wp (writeSignedIfMissing env cfg fault role path p)
      (fun f w' => FilledIn (l ++ [path]) w₀ w' ∧ w'.root.get path = some f ∧
        (∀ q, q ≠ path → w'.root.get q = w.root.get q) ∧
        (w₀.root.get path = none → f = signedFile env cfg role p ∧
          fault ≠ some (.signInitial role)))
      (fun e w' => w' = w ∧ e = .fault (.signInitial role) ∧ fault = some (.signInitial role) ∧
        w₀.root.get path = none) w := by
  have hget₀ : w.root.get path = w₀.root.get path := h.changes.get hpath
  rw [writeSignedIfMissing, wp_bind, wp_rootTree]
  cases hget : w.root.get path with
  | some f =>
    refine ⟨h.present_of_get hget, hget, fun _ _ => rfl, fun hn => ?_⟩
    rw [← hget₀, hget] at hn
    cases hn
  | none =>
    rw [wp_bind, wp_failAt]
    refine ⟨fun hf => ⟨rfl, rfl, hf, hget₀ ▸ hget⟩, fun hf => ?_⟩
    exact ⟨h.write hget, get_put_self, fun q hq => get_put_of_ne hq, fun _ => ⟨rfl, hf⟩⟩

def initialConfig (cfg : PlatformConfig) (host : Host) : File :=
  .json (.config (registryConfigPayload cfg host.registryTime none))

def initialCheckpoint (env : Environment) (cfg : PlatformConfig) (host : Host) : File :=
  signedFile env cfg .log
    { version := 1
      body := .checkpoint host.registryTime 0 ((transparencyRootHash env []).getD "") }

def initialSnapshot (env : Environment) (cfg : PlatformConfig) (host : Host) (checkpoint : File) :
    File :=
  signedFile env cfg .snapshot
    { version := 1
      body := .snapshot (host.expires snapshotPath) [] (signedFileMeta env checkpoint 1) }

def initialTimestamp (env : Environment) (cfg : PlatformConfig) (host : Host) (snapshot : File) :
    File :=
  signedFile env cfg .timestamp
    { version := 1
      body := .timestamp (host.expires timestampPath) (signedFileMeta env snapshot 1) }

def initialRoot (env : Environment) (cfg : PlatformConfig) (host : Host) : File :=
  signedFile env cfg .root
    { version := 1
      body := .root (host.expires rootPath) (registryRoleKeysPayload cfg.keys)
        (registryRolesPolicyPayload cfg.keys) }

/-- The files that are in place when the initial file of a role is signed. -/
def initialFilesBefore : RegistryRole → List Path
  | .log => [configPath]
  | .snapshot => [configPath, checkpointPath]
  | .timestamp => [configPath, checkpointPath, snapshotPath]
  | .root => [configPath, checkpointPath, snapshotPath, timestampPath]
  | .targets => []

/-- The initial file of a role. -/
def initialFile : RegistryRole → Path
  | .log => checkpointPath
  | .snapshot => snapshotPath
  | .timestamp => timestampPath
  | .root => rootPath
  | .targets => []

/-- What a completed initialisation leaves. -/
structure Ensured (env : Environment) (cfg : PlatformConfig) (host : Host) (w w' : World) :
    Prop where
  changes : OnlyChanges InitScope w w'
  kept : ∀ p f, w.root.get p = some f → ¬ ["_tmp"] <+: p → w'.root.get p = some f
  present : ∀ p ∈ initPaths, (w'.root.get p).isSome
  tmp : ∀ q, w'.root.get ("_tmp" :: q) = none
  config : w.root.get configPath = none → w'.root.get configPath = some (initialConfig cfg host)
  checkpoint : w.root.get checkpointPath = none →
    w'.root.get checkpointPath = some (initialCheckpoint env cfg host)
  snapshot : w.root.get snapshotPath = none → ∃ f, w'.root.get checkpointPath = some f ∧
    w'.root.get snapshotPath = some (initialSnapshot env cfg host f)
  timestamp : w.root.get timestampPath = none → ∃ f, w'.root.get snapshotPath = some f ∧
    w'.root.get timestampPath = some (initialTimestamp env cfg host f)
  rootFile : w.root.get rootPath = none → w'.root.get rootPath = some (initialRoot env cfg host)

/-- Where an initialisation stops: before it wrote anything, or when it signs an initial file
that is missing; the files before that one are then in place. -/
inductive EnsureStopped (fault : Option Site) (w w' : World) : Prop where
  | start (hfault : fault = some .createRoot ∨ fault = some .loadKeys) (heq : w' = w)
  | sign {role : RegistryRole} (hrole : role ≠ .targets) (hfault : fault = some (.signInitial role))
      (missing : w.root.get (initialFile role) = none)
      (filledIn : FilledIn (initialFilesBefore role) w w')

/-- The initialisation does not complete. -/
def EnsureStops (fault : Option Site) (t : Tree) : Prop :=
  fault = some .createRoot ∨ fault = some .loadKeys ∨
    ∃ role, role ≠ .targets ∧ fault = some (.signInitial role) ∧ t.get (initialFile role) = none

theorem wp_writeConfigIfMissing {E : Failure → World → Prop} :
    wp (writeConfigIfMissing cfg host)
      (fun _ w' => FilledIn [configPath] w w' ∧
        (w.root.get configPath = none → w'.root.get configPath = some (initialConfig cfg host)))
      E w := by
  rw [writeConfigIfMissing, wp_bind, wp_rootTree, wp_onlyIf, wp_writeTextFile]
  refine ⟨fun hn => ⟨FilledIn.nil.write (by simpa using hn), fun _ => get_put_self⟩, fun hs => ?_⟩
  obtain ⟨f, hf⟩ : ∃ f, w.root.get configPath = some f := by
    simpa [Option.isNone_iff_eq_none, Option.ne_none_iff_exists'] using hs
  refine ⟨FilledIn.nil.present_of_get hf, fun hn => ?_⟩
  rw [hf] at hn
  cases hn

/-- A signature of an initial file fails only where the file is missing. -/
theorem wp_ensure :
    wp (ensureRegistryRootInitialized env cfg host fault)
      (fun _ w' => Ensured env cfg host w w' ∧ ¬ EnsureStops fault w.root)
      (fun _ w' => EnsureStopped fault w w') w := by
  rw [ensureRegistryRootInitialized, wp_bind, wp_failAt]
  refine ⟨fun hf => .start (Or.inl hf) rfl, fun hcreate => ?_⟩
  rw [wp_bind, wp_failAt]
  refine ⟨fun hf => .start (Or.inr hf) rfl, fun hload => ?_⟩
  rw [wp_bind]
  refine wp_mono (wp_writeConfigIfMissing (E := fun _ _ => False)) ?_ (fun _ _ h => h.elim)
  rintro - w₁ ⟨h₁, hconfig⟩
  rw [wp_bind]
  refine wp_mono (wp_writeSignedIfMissing h₁ (by decide)) ?_ ?_
  swap
  · rintro _ _ ⟨rfl, rfl, hf, hnone⟩
    exact .sign (by decide) hf hnone h₁
  rintro c w₂ ⟨h₂, hc, hsame₂, hcnew⟩
  rw [wp_bind]
  refine wp_mono (wp_writeSignedIfMissing h₂ (by decide)) ?_ ?_
  swap
  · rintro _ _ ⟨rfl, rfl, hf, hnone⟩
    exact .sign (by decide) hf hnone h₂
  rintro s w₃ ⟨h₃, hs, hsame₃, hsnew⟩
  rw [wp_bind]
  refine wp_mono (wp_writeSignedIfMissing h₃ (by decide)) ?_ ?_
  swap
  · rintro _ _ ⟨rfl, rfl, hf, hnone⟩
    exact .sign (by decide) hf hnone h₃
  rintro i w₄ ⟨h₄, hi, hsame₄, hinew⟩
  rw [wp_bind]
  refine wp_mono (wp_writeSignedIfMissing h₄ (by decide)) ?_ ?_
  swap
  · rintro _ _ ⟨rfl, rfl, hf, hnone⟩
    exact .sign (by decide) hf hnone h₄
  rintro r w₅ ⟨h₅, hr, hsame₅, hrnew⟩
  rw [wp_modifyRoot]
  have hget : ∀ p, ¬ ["_tmp"] <+: p →
      (w₅.setRoot (w₅.root.removeAll ["_tmp"])).root.get p = w₅.root.get p :=
    fun p hp => get_removeAll_of_not_below hp
  have hinit : ∀ p ∈ initPaths, ¬ ["_tmp"] <+: p := by decide
  have hc₅ : w₅.root.get checkpointPath = some c := by
    rw [hsame₅ _ (by decide), hsame₄ _ (by decide), hsame₃ _ (by decide), hc]
  have hs₅ : w₅.root.get snapshotPath = some s := by
    rw [hsame₅ _ (by decide), hsame₄ _ (by decide), hs]
  have hi₅ : w₅.root.get timestampPath = some i := by rw [hsame₅ _ (by decide), hi]
  refine ⟨?_, ?_⟩
  swap
  · rintro (h | h | ⟨role, hrole, h, hnone⟩)
    · exact hcreate h
    · exact hload h
    · cases role with
      | log => exact (hcnew hnone).2 h
      | snapshot => exact (hsnew hnone).2 h
      | timestamp => exact (hinew hnone).2 h
      | root => exact (hrnew hnone).2 h
      | targets => exact hrole rfl
  exact
    { changes := (h₅.changes.mono fun p hp => Or.inl hp).setRoot
        (AgreeOff.refl.removeAll fun _ => Or.inr)
      kept := fun p f hf hp => (hget p hp).trans (h₅.kept p f hf)
      present := fun p hp => by
        rw [hget p (hinit p hp)]
        exact h₅.present p hp
      tmp := fun q => get_removeAll_append (p := ["_tmp"])
      config := fun hn => by
        rw [hget _ (by decide), hsame₅ _ (by decide), hsame₄ _ (by decide), hsame₃ _ (by decide),
          hsame₂ _ (by decide), hconfig hn]
      checkpoint := fun hn => by rw [hget _ (by decide), hc₅, (hcnew hn).1]; rfl
      snapshot := fun hn => ⟨c, (hget _ (by decide)).trans hc₅, by
        rw [hget _ (by decide), hs₅, (hsnew hn).1]; rfl⟩
      timestamp := fun hn => ⟨s, (hget _ (by decide)).trans hs₅, by
        rw [hget _ (by decide), hi₅, (hinew hn).1]; rfl⟩
      rootFile := fun hn => by rw [hget _ (by decide), hr, (hrnew hn).1]; rfl }

theorem leafSequencePaths_congr (h : ∀ p, isLeafPath p = true → t'.get p = t.get p) :
    leafSequencePaths t' = leafSequencePaths t := by
  unfold leafSequencePaths
  congr 1
  ext p
  simp only [Finset.mem_filter, mem_support_iff]
  constructor
  · rintro ⟨⟨f, hf⟩, hp⟩
    exact ⟨⟨f, h p hp ▸ hf⟩, hp⟩
  · rintro ⟨⟨f, hf⟩, hp⟩
    exact ⟨⟨f, (h p hp).trans hf⟩, hp⟩

@[simp] theorem isLeafPath_artifactPath {sha : String} : isLeafPath (artifactPath sha) = false := rfl

@[simp] theorem isLeafPath_registryIndexPath {package : String} :
    isLeafPath (registryIndexPathForPackage package) = false := by
  simp [registryIndexPathForPackage, isLeafPath]

/-- The world with the archive at its artifact path, unless a file is there. -/
def placed (archive : File) (r : ReleaseRecord) (w : World) : World :=
  if (w.root.get r.sourceArtifact.path).isSome then w else w.write r.sourceArtifact.path archive

theorem get_placed_of_ne {archive : File} {r : ReleaseRecord} {p : Path}
    (h : p ≠ r.sourceArtifact.path) : (placed archive r w).root.get p = w.root.get p := by
  unfold placed
  split
  · rfl
  · exact get_put_of_ne h

theorem get_placed {archive : File} {r : ReleaseRecord} :
    (placed archive r w).root.get r.sourceArtifact.path =
      some ((w.root.get r.sourceArtifact.path).getD archive) := by
  unfold placed
  split
  · next h =>
    obtain ⟨f, hf⟩ := Option.isSome_iff_exists.mp h
    rw [hf]
    rfl
  · next h =>
    rw [World.write_root, get_put_self, Option.not_isSome_iff_eq_none.mp h]
    rfl

theorem changes_placed {archive : File} {r : ReleaseRecord} :
    OnlyChanges (· = r.sourceArtifact.path) w (placed archive r w) := by
  unfold placed
  split
  · exact .refl
  · exact OnlyChanges.refl.write rfl

/-- Where the placing of an artifact can stop. -/
inductive PlaceStopped (env : Environment) (r : ReleaseRecord) (w : World) :
    Failure → World → Prop where
  | conflict {f : File} (hf : w.root.get r.sourceArtifact.path = some f)
      (hne : f.sha256 env ≠ r.sourceArtifact.sha256) :
      PlaceStopped env r w
        (.error "destination artifact already exists with different content") w
  | nothing (hnone : w.root.get r.sourceArtifact.path = none) :
      PlaceStopped env r w (.fault (.placeArtifact none)) w
  | partially (bytes : Bytes) (hnone : w.root.get r.sourceArtifact.path = none) :
      PlaceStopped env r w (.fault (.placeArtifact (some bytes)))
        (w.write r.sourceArtifact.path (.blob bytes))

theorem wp_placeArtifact {archive : File} {r : ReleaseRecord} :
    wp (placeArtifact env fault archive r)
      (fun _ w' => w' = placed archive r w ∧
        (∀ f, w.root.get r.sourceArtifact.path = some f →
          f.sha256 env = r.sourceArtifact.sha256) ∧
        (w.root.get r.sourceArtifact.path = none → ∀ left, fault ≠ some (.placeArtifact left)))
      (fun e w' => PlaceStopped env r w e w' ∧ ∀ site, e = .fault site → fault = some site)
      w := by
  unfold placeArtifact
  rw [wp_bind, wp_rootTree]
  cases hget : w.root.get r.sourceArtifact.path with
  | some f =>
    rw [wp_require]
    refine ⟨fun hsha => ⟨by simp [placed, hget], by simpa using hsha, nofun⟩, fun hsha => ?_⟩
    exact ⟨.conflict hget hsha, fun _ h => by cases h⟩
  | none =>
    dsimp only
    split
    · next left =>
      rw [wp_bind]
      cases left with
      | none => exact ⟨.nothing hget, fun _ h => by cases h; rfl⟩
      | some bytes => exact ⟨.partially bytes hget, fun _ h => by cases h; rfl⟩
    · next hne =>
      refine ⟨by simp [placed, hget], nofun, fun _ left h => hne left h⟩

/-- An append stops before the index: the artifact path is taken, the copy moves nothing, or the
index file cannot be opened and the artifact was there before. -/
def StopsBeforeIndex (env : Environment) (fault : Option Site) (r : ReleaseRecord) (t : Tree) :
    Prop :=
  (∃ f, t.get r.sourceArtifact.path = some f ∧ f.sha256 env ≠ r.sourceArtifact.sha256) ∨
    (t.get r.sourceArtifact.path = none ∧ fault = some (.placeArtifact none)) ∨
    ((t.get r.sourceArtifact.path).isSome ∧ fault = some .appendIndex)

/-- What a completed append leaves. -/
structure Appended (env : Environment) (archive : File) (r : ReleaseRecord) (w w' : World) :
    Prop where
  fresh : releaseExistsOnDisk w.root r.package r.version = false
  artifact : w'.root.get r.sourceArtifact.path =
    some ((w.root.get r.sourceArtifact.path).getD archive)
  artifact_sha256 : ∀ f, w.root.get r.sourceArtifact.path = some f →
    f.sha256 env = r.sourceArtifact.sha256
  index : w'.root.get (registryIndexPathForPackage r.package) =
    some (.appendLine env r (w.root.get (registryIndexPathForPackage r.package)))
  leaf : w'.root.get (leafPath ((leafSequencePaths w.root).length + 1)) =
    some (.json (.leaf (releaseLeaf env ((leafSequencePaths w.root).length + 1) r)))
  changes : OnlyChanges (fun p => p = r.sourceArtifact.path ∨
    p = registryIndexPathForPackage r.package ∨
    p = leafPath ((leafSequencePaths w.root).length + 1)) w w'

/-- Where an append can stop. -/
inductive AppendStopped (env : Environment) (fault : Option Site) (archive : File)
    (r : ReleaseRecord) (w : World) : Failure → World → Prop where
  | placing {e : Failure} {w' : World} (h : PlaceStopped env r w e w') :
      AppendStopped env fault archive r w e w'
  | duplicate (h : releaseExistsOnDisk w.root r.package r.version = true) :
      AppendStopped env fault archive r w (.error "package version is already published")
        (placed archive r w)
  | appendIndex : AppendStopped env fault archive r w (.fault .appendIndex) (placed archive r w)
  | writeLeaf {w' : World} (hindex : w'.root.get (registryIndexPathForPackage r.package) =
        some (.appendLine env r (w.root.get (registryIndexPathForPackage r.package))))
      (hpast : ¬ StopsBeforeIndex env fault r w.root) :
      AppendStopped env fault archive r w (.fault .writeLeaf) w'

theorem artifactPath_ne_indexPath {sha package : String} :
    artifactPath sha ≠ registryIndexPathForPackage package := by
  simp [artifactPath, registryIndexPathForPackage]

theorem artifactPath_ne_leafPath {sha : String} {n : ℕ} : artifactPath sha ≠ leafPath n := by
  simp [artifactPath, leafPath]

theorem indexPath_ne_leafPath {package : String} {n : ℕ} :
    registryIndexPathForPackage package ≠ leafPath n := by
  simp [leafPath, registryIndexPathForPackage]

theorem releaseExistsOnDisk_congr {package version : String}
    (h : t'.get (registryIndexPathForPackage package) =
      t.get (registryIndexPathForPackage package)) :
    releaseExistsOnDisk t' package version = releaseExistsOnDisk t package version := by
  rw [releaseExistsOnDisk, releaseExistsOnDisk, h]

theorem wp_appendRegistryReleaseToLocal {archive : File} {r : ReleaseRecord} {sha : String}
    (hpath : r.sourceArtifact.path = artifactPath sha) :
    wp (appendRegistryReleaseToLocal env fault archive r)
      (fun _ w' => Appended env archive r w w' ∧ ¬ StopsBeforeIndex env fault r w.root)
      (fun e w' => AppendStopped env fault archive r w e w' ∧ ∀ site, e = .fault site →
        fault = some site) w := by
  have hidx : registryIndexPathForPackage r.package ≠ r.sourceArtifact.path := by
    rw [hpath]
    exact artifactPath_ne_indexPath.symm
  have hindex : (placed archive r w).root.get (registryIndexPathForPackage r.package) =
      w.root.get (registryIndexPathForPackage r.package) := get_placed_of_ne hidx
  have hdup : releaseExistsOnDisk (placed archive r w).root r.package r.version =
      releaseExistsOnDisk w.root r.package r.version := releaseExistsOnDisk_congr hindex
  rw [appendRegistryReleaseToLocal, wp_bind]
  refine wp_mono wp_placeArtifact ?_ fun e w' h => ⟨.placing h.1, h.2⟩
  rintro - w₁ ⟨rfl, hsha, hplace⟩
  rw [wp_bind, wp_rootTree, wp_bind, wp_require, hdup]
  refine ⟨fun hfresh => ?_, fun hdup => ⟨.duplicate (by simpa using hdup), fun _ h => by cases h⟩⟩
  rw [wp_bind, wp_failAt]
  refine ⟨fun hf => ⟨.appendIndex, fun _ h => by cases h; exact hf⟩, fun happend => ?_⟩
  have hpast : ¬ StopsBeforeIndex env fault r w.root := by
    rintro (⟨f, hf, hne⟩ | ⟨hnone, hf⟩ | ⟨-, hf⟩)
    · exact hne (hsha f hf)
    · exact hplace hnone none hf
    · exact happend hf
  rw [wp_bind, appendJsonLine, wp_bind, wp_rootTree, wp_writeTextFile, hindex, wp_bind,
    wp_rootTree, wp_bind, wp_failAt]
  -- Neither the artifact nor the index line is a leaf, so the leaves are counted as before.
  have hleaves : leafSequencePaths ((placed archive r w).write
      (registryIndexPathForPackage r.package)
      (.appendLine env r (w.root.get (registryIndexPathForPackage r.package)))).root =
      leafSequencePaths w.root := by
    refine leafSequencePaths_congr fun p hp => ?_
    rw [World.write_root, get_put_of_ne, get_placed_of_ne]
    · rintro rfl
      rw [hpath, isLeafPath_artifactPath] at hp
      cases hp
    · rintro rfl
      rw [isLeafPath_registryIndexPath] at hp
      cases hp
  rw [hleaves]
  refine ⟨fun hf => ⟨.writeLeaf get_put_self hpast, fun _ h => by cases h; exact hf⟩, fun _ => ?_⟩
  rw [wp_bind, wp_writeTextFile, wp_pure]
  refine ⟨?_, hpast⟩
  exact
    { fresh := hfresh
      artifact := by
        rw [World.write_root, get_put_of_ne, World.write_root, get_put_of_ne hidx.symm, get_placed]
        rw [hpath]
        exact artifactPath_ne_leafPath
      artifact_sha256 := hsha
      index := by
        rw [World.write_root, get_put_of_ne indexPath_ne_leafPath, World.write_root, get_put_self]
      leaf := get_put_self
      changes := by
        refine OnlyChanges.write (OnlyChanges.write (changes_placed.mono fun _ => Or.inl) ?_) ?_
        · exact Or.inr (Or.inl rfl)
        · exact Or.inr (Or.inr rfl) }

/-- The targets file of a namespace after a refresh of the tree. -/
def targetsFile (env : Environment) (cfg : PlatformConfig) (host : Host) (t : Tree)
    (namespaceName : String) (packages : List (String × PackageEntry)) : File :=
  let path := targetsPath namespaceName
  signedFile env cfg .targets
    { version := readSignedVersion t path + 1
      body := .targets (host.expires path) namespaceName packages }

/-- What snapshot metadata says about that file. -/
def targetsMeta (env : Environment) (cfg : PlatformConfig) (host : Host) (t : Tree)
    (namespaceName : String) (packages : List (String × PackageEntry)) : FileMeta :=
  let f := targetsFile env cfg host t namespaceName packages
  signedFileMeta env f f.signedVersion

theorem targetsPath_injective : Function.Injective targetsPath := by
  intro a b h
  have hname : a ++ ".json" = b ++ ".json" := by simpa [targetsPath] using h
  have hlist := congrArg String.toList hname
  rw [String.toList_append, String.toList_append, List.append_cancel_right_eq] at hlist
  exact String.toList_injective hlist

theorem readSignedVersion_congr {p : Path} (h : t'.get p = t.get p) :
    readSignedVersion t' p = readSignedVersion t p := by
  rw [readSignedVersion, readSignedVersion, h]

theorem targetsFile_congr {namespaceName : String} {packages : List (String × PackageEntry)}
    (h : t'.get (targetsPath namespaceName) = t.get (targetsPath namespaceName)) :
    targetsFile env cfg host t' namespaceName packages =
      targetsFile env cfg host t namespaceName packages := by
  simp only [targetsFile, readSignedVersion_congr h]

/-- What the loop over the namespaces leaves. -/
structure TargetsWritten (env : Environment) (cfg : PlatformConfig) (host : Host)
    (l : List (String × List (String × PackageEntry))) (before after : List (Path × FileMeta))
    (w w' : World) : Prop where
  targets : ∀ x ∈ l, w'.root.get (targetsPath x.1) = some (targetsFile env cfg host w.root x.1 x.2)
  changes : OnlyChanges (fun p => ∃ x ∈ l, p = targetsPath x.1) w w'
  snapshotMeta : ∀ y, y ∈ after ↔
    (∃ x ∈ l, y = (targetsPath x.1, targetsMeta env cfg host w.root x.1 x.2)) ∨
    (y ∈ before ∧ ∀ x ∈ l, y.1 ≠ targetsPath x.1)

theorem wp_writeTargets {l : List (String × List (String × PackageEntry))}
    {before : List (Path × FileMeta)} (hl : (l.map (·.1)).Nodup) :
    wp (writeTargets env cfg host fault l before)
      (fun after w' => TargetsWritten env cfg host l before after w w')
      (fun _ _ => fault ≠ none) w := by
  induction l generalizing before w with
  | nil => exact ⟨by simp, .refl, by simp⟩
  | cons x l ih =>
    obtain ⟨space, packages⟩ := x
    rw [List.map_cons, List.nodup_cons] at hl
    have hne : ∀ y ∈ l, targetsPath y.1 ≠ targetsPath space := by
      intro y hy heq
      exact hl.1 (List.mem_map.mpr ⟨y, hy, targetsPath_injective heq⟩)
    rw [writeTargets, wp_bind, wp_rootTree, wp_bind, wp_failAt]
    refine ⟨fun hf => by simp [hf], fun _ => ?_⟩
    rw [wp_bind, wp_writeSigned]
    refine wp_mono (ih hl.2) ?_ (fun _ _ h => h)
    intro after w' h
    -- The writes for the other namespaces neither see nor change this file.
    have hold : ∀ y ∈ l, ∀ packages', targetsFile env cfg host
        (w.write (targetsPath space) (targetsFile env cfg host w.root space packages)).root
          y.1 packages' = targetsFile env cfg host w.root y.1 packages' := by
      exact fun y hy _ => targetsFile_congr (get_put_of_ne (hne y hy))
    refine ⟨?_, ?_, ?_⟩
    · intro y hy
      rcases List.mem_cons.mp hy with rfl | hy
      · rw [h.changes.get]
        · exact get_put_self
        · rintro ⟨z, hz, heq⟩
          exact hne z hz heq.symm
      · rw [h.targets y hy]
        exact congrArg some (hold y hy _)
    · refine (OnlyChanges.refl.write ⟨_, List.mem_cons_self, rfl⟩).trans (h.changes.mono ?_)
      rintro p ⟨z, hz, rfl⟩
      exact ⟨z, List.mem_cons_of_mem _ hz, rfl⟩
    · intro y
      rw [h.snapshotMeta y, mem_setKey]
      have hmeta : ∀ z ∈ l, targetsMeta env cfg host (w.write (targetsPath space)
          (targetsFile env cfg host w.root space packages)).root z.1 z.2 =
          targetsMeta env cfg host w.root z.1 z.2 := by
        intro z hz
        unfold targetsMeta
        rw [hold z hz]
      constructor
      · rintro (⟨z, hz, rfl⟩ | ⟨rfl | ⟨hy, hyne⟩, hlater⟩)
        · refine Or.inl ⟨z, List.mem_cons_of_mem _ hz, ?_⟩
          rw [← hmeta z hz]
          rfl
        · exact Or.inl ⟨_, List.mem_cons_self, rfl⟩
        · refine Or.inr ⟨hy, fun z hz => ?_⟩
          rcases List.mem_cons.mp hz with rfl | hz
          · exact hyne
          · exact hlater z hz
      · rintro (⟨z, hz, rfl⟩ | ⟨hy, hlater⟩)
        · rcases List.mem_cons.mp hz with rfl | hz
          · exact Or.inr ⟨Or.inl rfl, fun z hz heq => hne z hz heq.symm⟩
          · refine Or.inl ⟨z, hz, ?_⟩
            rw [← hmeta z hz]
            rfl
        · exact Or.inr ⟨Or.inr ⟨hy, hlater _ List.mem_cons_self⟩,
            fun z hz => hlater z (List.mem_cons_of_mem _ hz)⟩

/-- The index file at `path` holds the releases of one package. -/
structure IndexFile (t : Tree) (path : Path) (package : String) (records : List ReleaseRecord) :
    Prop where
  isIndexPath : isIndexPath path = true
  get : t.get path = some (.jsonl records)
  ne_nil : records ≠ []
  package_eq : ∀ r ∈ records, r.package = package

theorem collectRecords_ok {path : Path} {package : String} {records : List ReleaseRecord}
    (hpath : isIndexPath path = true) :
    collectRecords t path = .ok (package, records) ↔ IndexFile t path package records ∧
      ∃ r, records.head? = some r ∧ r.package = package := by
  constructor
  · intro h
    unfold collectRecords at h
    split at h
    · cases h
    · cases h
    · next first rest hrecords =>
      split at h
      · next hall =>
        cases h
        obtain ⟨f, hf, hrecords⟩ := Option.bind_eq_some_iff.mp hrecords
        have hjsonl : f = .jsonl (first :: rest) := by
          cases f <;> simp_all [File.records]
        exact ⟨⟨hpath, hjsonl ▸ hf, by simp, by simpa using hall⟩, first, rfl, rfl⟩
      · cases h
  · rintro ⟨h, first, hfirst, rfl⟩
    obtain ⟨rest, rfl⟩ : ∃ rest, records = first :: rest := by
      cases records with
      | nil => cases hfirst
      | cons r rest => exact ⟨rest, by rw [show r = first by simpa using hfirst]⟩
    have hall := h.package_eq
    simp [collectRecords, h.get, File.records, List.all_eq_true] at hall ⊢
    exact hall

/-- Every entry of the package maps stems from an index file. -/
structure MapsSound (env : Environment) (t : Tree) (maps : PackageMaps) : Prop where
  nodup : (maps.namespacePackages.map (·.1)).Nodup
  packages : ∀ x ∈ maps.namespacePackages, ∀ y ∈ x.2, packageNamespace y.1 = x.1 ∧
    ∃ path records, IndexFile t path y.1 records ∧ y.2 = packageEntry env path records
  snapshotMeta : ∀ y ∈ maps.snapshotMeta, ∃ package records,
    IndexFile t y.1 package records ∧ y.2 = signedFileMeta env (.jsonl records) 1

theorem MapsSound.add {maps : PackageMaps} {path : Path} {package : String}
    {records : List ReleaseRecord} (h : MapsSound env t maps)
    (hfile : IndexFile t path package records) :
    MapsSound env t (maps.add env path package records) := by
  refine ⟨nodup_keys_setKey h.nodup, fun x hx y hy => ?_, fun y hy => ?_⟩
  · rcases mem_setKey.mp hx with rfl | ⟨hx, -⟩
    · rcases mem_setKey.mp hy with rfl | ⟨hy, -⟩
      · exact ⟨rfl, path, records, hfile, rfl⟩
      · cases hget : getKey maps.namespacePackages (packageNamespace package) with
        | none =>
          rw [hget] at hy
          cases hy
        | some packages =>
          rw [hget] at hy
          exact h.packages _ (mem_of_getKey hget) y hy
    · exact h.packages x hx y hy
  · rcases mem_setKey.mp hy with rfl | ⟨hy, -⟩
    · exact ⟨package, records, hfile, rfl⟩
    · exact h.snapshotMeta y hy

theorem mem_indexPaths {p : Path} :
    p ∈ indexPaths t ↔ (∃ f, t.get p = some f) ∧ isIndexPath p = true := by
  simp [indexPaths, mem_support_iff]

theorem collectPackageMaps_sound {maps : PackageMaps} (h : collectPackageMaps env t = .ok maps) :
    MapsSound env t maps := by
  refine foldlM_ok (I := fun _ => MapsSound env t) ⟨by simp, by simp, by simp⟩ ?_ h
  intro _ path maps maps' hpath hmaps hstep
  cases hrecords : collectRecords t path with
  | error e =>
    rw [hrecords] at hstep
    cases hstep
  | ok x =>
    obtain ⟨package, records⟩ := x
    rw [hrecords] at hstep
    cases hstep
    exact hmaps.add ((collectRecords_ok (mem_indexPaths.mp hpath).2).mp hrecords).1

theorem leafHashes_congr (h : ∀ p, isLeafPath p = true → t'.get p = t.get p) :
    leafHashes env t' = leafHashes env t := by
  rw [leafHashes, leafHashes, leafSequencePaths_congr h]
  refine mapM_congr_mem fun p hp => ?_
  have hleaf : isLeafPath p = true := by
    simp only [leafSequencePaths, mem_sorted, Finset.mem_filter] at hp
    exact hp.2
  rw [h p hleaf]

/-- The checkpoint of a refresh. -/
def checkpointFile (env : Environment) (cfg : PlatformConfig) (t : Tree) (registryTime : String)
    (treeSize : ℕ) (rootHash : String) : File :=
  signedFile env cfg .log
    { version := readSignedVersion t checkpointPath + 1
      body := .checkpoint registryTime treeSize rootHash }

/-- The snapshot of a refresh. -/
def snapshotFile (env : Environment) (cfg : PlatformConfig) (host : Host) (t : Tree)
    (snapshotMeta : List (Path × FileMeta)) (checkpoint : File) : File :=
  signedFile env cfg .snapshot
    { version := readSignedVersion t snapshotPath + 1
      body := .snapshot (host.expires snapshotPath) snapshotMeta
        (signedFileMeta env checkpoint checkpoint.signedVersion) }

/-- The timestamp of a refresh. -/
def timestampFile (env : Environment) (cfg : PlatformConfig) (host : Host) (t : Tree)
    (snapshot : File) : File :=
  signedFile env cfg .timestamp
    { version := readSignedVersion t timestampPath + 1
      body := .timestamp (host.expires timestampPath)
        (signedFileMeta env snapshot snapshot.signedVersion) }

/-- What a completed refresh leaves. -/
structure Refreshed (env : Environment) (cfg : PlatformConfig) (host : Host)
    (registryTime : String) (maps : PackageMaps) (hashes : List String) (rootHash : String)
    (snapshotMeta : List (Path × FileMeta)) (w w' : World) : Prop where
  maps_eq : collectPackageMaps env w.root = .ok maps
  hashes_eq : leafHashes env w.root = .ok hashes
  rootHash_eq : transparencyRootHash env hashes = some rootHash
  targets : ∀ x ∈ maps.namespacePackages,
    w'.root.get (targetsPath x.1) = some (targetsFile env cfg host w.root x.1 x.2)
  snapshotMeta_iff : ∀ y, y ∈ snapshotMeta ↔
    (∃ x ∈ maps.namespacePackages,
      y = (targetsPath x.1, targetsMeta env cfg host w.root x.1 x.2)) ∨
    (y ∈ maps.snapshotMeta ∧ ∀ x ∈ maps.namespacePackages, y.1 ≠ targetsPath x.1)
  checkpoint : w'.root.get checkpointPath =
    some (checkpointFile env cfg w.root registryTime hashes.length rootHash)
  snapshot : w'.root.get snapshotPath = some (snapshotFile env cfg host w.root snapshotMeta
    (checkpointFile env cfg w.root registryTime hashes.length rootHash))
  timestamp : w'.root.get timestampPath = some (timestampFile env cfg host w.root
    (snapshotFile env cfg host w.root snapshotMeta
      (checkpointFile env cfg w.root registryTime hashes.length rootHash)))
  changes : OnlyChanges (fun p => p = checkpointPath ∨ p = snapshotPath ∨ p = timestampPath ∨
    (∃ x ∈ maps.namespacePackages, p = targetsPath x.1) ∨ ["_tmp"] <+: p) w w'
  tmp : ∀ q, w'.root.get ("_tmp" :: q) = none

/-- What a refresh needs: index files of one package each, and leaves that parse. -/
def Refreshable (env : Environment) (t : Tree) : Prop :=
  ∃ maps hashes rootHash, collectPackageMaps env t = .ok maps ∧ leafHashes env t = .ok hashes ∧
    transparencyRootHash env hashes = some rootHash

theorem targetsPath_ne {space : String} : targetsPath space ≠ checkpointPath ∧
    targetsPath space ≠ snapshotPath ∧ targetsPath space ≠ timestampPath := by
  simp [targetsPath, checkpointPath, snapshotPath, timestampPath]

theorem wp_refreshSignedRegistryMetadata {registryTime : String} :
    wp (refreshSignedRegistryMetadata env cfg host fault registryTime)
      (fun _ w' => ∃ maps hashes rootHash snapshotMeta,
        Refreshed env cfg host registryTime maps hashes rootHash snapshotMeta w w')
      (fun _ _ => fault = none → ¬ Refreshable env w.root) w := by
  have hfail : ∀ {site : Site}, fault = some site → fault = none → ¬ Refreshable env w.root := by
    intro site hf hn
    rw [hf] at hn
    cases hn
  rw [refreshSignedRegistryMetadata, wp_bind, wp_failAt]
  refine ⟨hfail, fun _ => ?_⟩
  rw [wp_bind, wp_rootTree, wp_bind, wp_ofExcept]
  refine ⟨fun maps hmaps => ?_, fun e he _ => ?_⟩
  swap
  · rintro ⟨maps, _, _, hmaps, _⟩
    rw [he] at hmaps
    cases hmaps
  rw [wp_bind]
  refine wp_mono (wp_writeTargets (collectPackageMaps_sound hmaps).nodup) ?_
    (fun _ _ h hn => (h hn).elim)
  intro snapshotMeta w₁ h₁
  have hkeep : ∀ p, (∀ space, p ≠ targetsPath space) → w₁.root.get p = w.root.get p := by
    intro p hp
    refine h₁.changes.get ?_
    rintro ⟨x, _, rfl⟩
    exact hp _ rfl
  have hleaves : leafHashes env w₁.root = leafHashes env w.root := by
    refine leafHashes_congr fun p hp => hkeep p ?_
    rintro space rfl
    cases hp
  have hversion : ∀ p, (∀ space, p ≠ targetsPath space) →
      readSignedVersion w₁.root p = readSignedVersion w.root p := fun p hp =>
    readSignedVersion_congr (hkeep p hp)
  have hcheckpoint := hversion checkpointPath fun space => targetsPath_ne.1.symm
  have hsnapshot := hversion snapshotPath fun space => targetsPath_ne.2.1.symm
  have htimestamp := hversion timestampPath fun space => targetsPath_ne.2.2.symm
  rw [wp_bind, wp_rootTree, wp_bind, wp_ofExcept, hleaves]
  refine ⟨fun hashes hhashes => ?_, fun e he _ => ?_⟩
  swap
  · rintro ⟨_, hashes, _, _, hhashes, _⟩
    rw [he] at hhashes
    cases hhashes
  rw [wp_bind, wp_ofExcept]
  cases hroot : transparencyRootHash env hashes with
  | none =>
    refine ⟨fun _ h => by simp at h, fun _ _ _ => ?_⟩
    rintro ⟨_, hashes', rootHash, _, hhashes', hroot'⟩
    rw [hhashes] at hhashes'
    cases hhashes'
    rw [hroot] at hroot'
    cases hroot'
  | some rootHash =>
    refine ⟨fun rootHash' hrootHash => ?_, fun _ h => by simp at h⟩
    obtain rfl : rootHash = rootHash' := by simpa using hrootHash
    let c := checkpointFile env cfg w.root registryTime hashes.length rootHash
    let s := snapshotFile env cfg host w.root snapshotMeta c
    let i := timestampFile env cfg host w.root s
    rw [wp_bind, wp_rootTree, wp_bind, wp_failAt, hcheckpoint]
    refine ⟨hfail, fun _ => ?_⟩
    rw [wp_bind, wp_writeSigned, wp_bind, wp_rootTree, wp_bind, wp_failAt, World.write_root,
      readSignedVersion_congr (get_put_of_ne (by decide)), hsnapshot]
    refine ⟨hfail, fun _ => ?_⟩
    rw [wp_bind, wp_writeSigned, wp_bind, wp_rootTree, wp_bind, wp_failAt, World.write_root,
      World.write_root, readSignedVersion_congr (get_put_of_ne (by decide)),
      readSignedVersion_congr (get_put_of_ne (by decide)), htimestamp]
    refine ⟨hfail, fun _ => ?_⟩
    rw [wp_bind, wp_writeSigned, wp_bind, wp_modifyRoot, wp_pure]
    change ∃ maps hashes rootHash snapshotMeta, Refreshed env cfg host registryTime maps hashes
      rootHash snapshotMeta w (World.setRoot _
        ((((w₁.root.put checkpointPath c).put snapshotPath s).put timestampPath i).removeAll
          ["_tmp"]))
    have hget : ∀ p, ¬ ["_tmp"] <+: p → p ≠ checkpointPath → p ≠ snapshotPath →
        p ≠ timestampPath → ((((w₁.root.put checkpointPath c).put snapshotPath s).put
          timestampPath i).removeAll ["_tmp"]).get p = w₁.root.get p := by
      intro p htmp hc hs hi
      rw [get_removeAll_of_not_below htmp, get_put_of_ne hi, get_put_of_ne hs, get_put_of_ne hc]
    refine ⟨maps, hashes, rootHash, snapshotMeta,
      { maps_eq := hmaps
        hashes_eq := hhashes
        rootHash_eq := hroot
        targets := fun x hx => ?_
        snapshotMeta_iff := h₁.snapshotMeta
        checkpoint := ?_
        snapshot := ?_
        timestamp := ?_
        changes := ?_
        tmp := fun q => get_removeAll_append (p := ["_tmp"]) }⟩
    · rw [World.setRoot_root, hget _ (by simp [targetsPath]) targetsPath_ne.1 targetsPath_ne.2.1
        targetsPath_ne.2.2, h₁.targets x hx]
    · rw [World.setRoot_root, get_removeAll_of_not_below (by decide), get_put_of_ne (by decide),
        get_put_of_ne (by decide), get_put_self]
    · rw [World.setRoot_root, get_removeAll_of_not_below (by decide), get_put_of_ne (by decide),
        get_put_self]
    · rw [World.setRoot_root, get_removeAll_of_not_below (by decide), get_put_self]
    · refine OnlyChanges.setRoot (((OnlyChanges.write (h₁.changes.mono fun _ hp => ?_) ?_).write
        ?_).write ?_) (AgreeOff.refl.removeAll fun _ hp => ?_)
      · exact Or.inr (Or.inr (Or.inr (Or.inl hp)))
      · exact Or.inl rfl
      · exact Or.inr (Or.inl rfl)
      · exact Or.inr (Or.inr (Or.inl rfl))
      · exact Or.inr (Or.inr (Or.inr (Or.inr hp)))

end StyioPlatform.Registry
