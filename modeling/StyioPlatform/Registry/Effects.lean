import StyioPlatform.Registry.ControlPlane

/-! What each stage of a request can change, whichever step fails. -/
namespace StyioPlatform.Registry

open FileTree Prog

/-- The world changed at most in the files of `S`, and only these were written; memory, Postgres
and the bucket are as they were. -/
structure OnlyChanges (S : Path → Prop) (w w' : World) : Prop where
  root : AgreeOff S w.root w'.root
  written : ∀ x ∈ w'.written, x ∈ w.written ∨ S x.1
  bucket : w'.bucket = w.bucket
  memory : w'.memory = w.memory
  postgres : w'.postgres = w.postgres

namespace OnlyChanges

variable {S S' : Path → Prop} {w w' w'' : World} {p q : Path} {f : File}

theorem refl : OnlyChanges S w w := ⟨.refl, fun _ => Or.inl, rfl, rfl, rfl⟩

theorem trans (h : OnlyChanges S w w') (h' : OnlyChanges S w' w'') : OnlyChanges S w w'' :=
  ⟨h.root.trans h'.root, fun x hx => (h'.written x hx).elim (h.written x) Or.inr,
    h'.bucket.trans h.bucket, h'.memory.trans h.memory, h'.postgres.trans h.postgres⟩

theorem mono (h : OnlyChanges S w w') (hS : ∀ p, S p → S' p) : OnlyChanges S' w w' :=
  ⟨h.root.mono hS, fun x hx => (h.written x hx).imp_right (hS x.1), h.bucket, h.memory,
    h.postgres⟩

theorem get (h : OnlyChanges S w w') (hp : ¬ S p) : w'.root.get p = w.root.get p := h.root p hp

theorem write (h : OnlyChanges S w w') (hp : S p) : OnlyChanges S w (w'.write p f) := by
  refine ⟨h.root.put hp, fun x hx => ?_, h.bucket, h.memory, h.postgres⟩
  rcases List.mem_append.mp hx with hx | hx
  · exact h.written x hx
  · rw [List.mem_singleton.mp hx]
    exact Or.inr hp

theorem setRoot {t : Tree} (h : OnlyChanges S w w') (ht : AgreeOff S w'.root t) :
    OnlyChanges S w (w'.setRoot t) :=
  ⟨h.root.trans ht, h.written, h.bucket, h.memory, h.postgres⟩

end OnlyChanges

variable {env : Environment} {cfg : PlatformConfig} {host : Host} {fault : Option Site}
  {S : Path → Prop} {w : World}

/-- A stage changes at most the files of `S`. -/
def Changes {α : Type} (S : Path → Prop) (x : Program α) : Prop := ∀ w, OnlyChanges S w (x w).2

theorem changes_of_keeps {α : Type} {x : Program α}
    (h : ∀ w, Keeps (OnlyChanges S w) x) : Changes S x := fun w => h w w .refl

theorem Changes.keeps {α : Type} {x : Program α} (h : Changes S x) : Keeps (OnlyChanges S w) x :=
  fun w' hw' => hw'.trans (h w')

theorem Changes.mono {α : Type} {x : Program α} {S' : Path → Prop} (h : Changes S x)
    (hS : ∀ p, S p → S' p) : Changes S' x := fun w => (h w).mono hS

theorem Changes.wp {α : Type} {x : Program α} (h : Changes S x) :
    wp x (fun _ w' => OnlyChanges S w w') (fun _ w' => OnlyChanges S w w') w :=
  h.keeps.wp .refl

theorem changes_pure {α : Type} {a : α} : Changes S (pure a) := fun _ => .refl

theorem changes_fail {α : Type} {e : Failure} : Changes S (Prog.fail e : Program α) := fun _ => .refl

theorem changes_failAt {site : Site} : Changes S (failAt fault site) := fun w => by
  unfold failAt
  split <;> exact .refl

theorem changes_rootTree : Changes S rootTree := fun _ => .refl

theorem changes_ofExcept {α : Type} {v : Except Failure α} :
    Changes S (Prog.ofExcept v : Program α) := fun _ => .refl

theorem changes_writeTextFile {p : Path} {f : File} (hp : S p) : Changes S (writeTextFile p f) :=
  fun _ => OnlyChanges.refl.write hp

theorem changes_modifyRoot {f : Tree → Tree} (h : ∀ t, AgreeOff S t (f t)) :
    Changes S (modifyRoot f) := fun w => OnlyChanges.refl.setRoot (h w.root)

theorem changes_bind {α β : Type} {x : Program α} {k : α → Program β} (hx : Changes S x)
    (hk : ∀ a, Changes S (k a)) : Changes S (x >>= k) :=
  changes_of_keeps fun _ => keeps_bind hx.keeps fun a => (hk a).keeps

theorem changes_ite {α : Type} {c : Prop} [Decidable c] {x y : Program α} (hx : Changes S x)
    (hy : Changes S y) : Changes S (if c then x else y) := by
  split
  · exact hx
  · exact hy

theorem changes_require {c : Prop} [Decidable c] {detail : String} :
    Changes S (require c detail) := changes_ite changes_pure changes_fail

theorem changes_onlyIf {c : Prop} [Decidable c] {x : Program Unit} (hx : Changes S x) :
    Changes S (onlyIf c x) := changes_ite hx changes_pure

theorem changes_removeTmp (hS : ∀ p, ["_tmp"] <+: p → S p) :
    Changes S (modifyRoot (·.removeAll ["_tmp"])) :=
  changes_modifyRoot fun _ => AgreeOff.refl.removeAll hS

/-- The files of a draft. -/
def InStaging (p : Path) : Prop := p.head? = some "_staging"

theorem changes_buildPublishDraft {request : HttpRequest} {fields : String → JsonField} :
    Changes InStaging (buildPublishDraft env host fault request fields) := by
  unfold buildPublishDraft
  refine changes_bind changes_ofExcept fun identity => changes_bind changes_failAt fun _ => ?_
  cases nonEmptyString fields "archive_path" with
  | some path => exact changes_ite changes_pure changes_fail
  | none => exact changes_bind (changes_writeTextFile rfl) fun _ => changes_pure

/-- The files of an initialised root. -/
def initPaths : List Path := [configPath, checkpointPath, snapshotPath, timestampPath, rootPath]

theorem inReadPlane_initPaths {p : Path} (h : p ∈ initPaths) : inReadPlane p = true := by
  revert p
  decide

def InitScope (p : Path) : Prop := p ∈ initPaths ∨ ["_tmp"] <+: p

theorem changes_writeSigned {role : RegistryRole} {p : Path} {payload : SignedPayload} (hp : S p) :
    Changes S (writeSigned env cfg role p payload) :=
  changes_bind (changes_writeTextFile hp) fun _ => changes_pure

theorem changes_writeSignedIfMissing {role : RegistryRole} {p : Path} {payload : SignedPayload}
    (hp : S p) : Changes S (writeSignedIfMissing env cfg fault role p payload) := by
  refine changes_bind changes_rootTree fun t => ?_
  cases t.get p with
  | some f => exact changes_pure
  | none => exact changes_bind changes_failAt fun _ => changes_writeSigned hp

theorem changes_ensure : Changes InitScope (ensureRegistryRootInitialized env cfg host fault) := by
  have hinit : ∀ p ∈ initPaths, InitScope p := fun _ => Or.inl
  refine changes_bind changes_failAt fun _ => changes_bind changes_failAt fun _ =>
    changes_bind (changes_bind changes_rootTree fun _ =>
      changes_onlyIf (changes_writeTextFile (hinit _ (by decide)))) fun _ =>
    changes_bind (changes_writeSignedIfMissing (hinit _ (by decide))) fun _ =>
    changes_bind (changes_writeSignedIfMissing (hinit _ (by decide))) fun _ =>
    changes_bind (changes_writeSignedIfMissing (hinit _ (by decide))) fun _ =>
    changes_bind (changes_writeSignedIfMissing (hinit _ (by decide))) fun _ =>
    changes_removeTmp fun _ => Or.inr

/-- The files that a release adds or extends. -/
def AppendScope (r : ReleaseRecord) (p : Path) : Prop :=
  p = r.sourceArtifact.path ∨ p = registryIndexPathForPackage r.package ∨ ∃ n, p = leafPath n

theorem changes_placeArtifact {archive : File} {r : ReleaseRecord} :
    Changes (AppendScope r) (placeArtifact env fault archive r) := by
  have hwrite : ∀ f, Changes (AppendScope r) (writeTextFile r.sourceArtifact.path f) :=
    fun _ => changes_writeTextFile (Or.inl rfl)
  refine changes_bind changes_rootTree fun t => ?_
  cases t.get r.sourceArtifact.path with
  | some f => exact changes_require
  | none =>
    dsimp only
    split
    · next left =>
      refine changes_bind ?_ fun _ => changes_fail
      cases left with
      | none => exact changes_pure
      | some bytes => exact hwrite _
    · exact hwrite _

theorem changes_appendRegistryReleaseToLocal {archive : File} {r : ReleaseRecord} :
    Changes (AppendScope r) (appendRegistryReleaseToLocal env fault archive r) :=
  changes_bind changes_placeArtifact fun _ =>
  changes_bind changes_rootTree fun _ =>
  changes_bind changes_require fun _ =>
  changes_bind changes_failAt fun _ =>
  changes_bind (changes_bind changes_rootTree fun _ =>
    changes_writeTextFile (Or.inr (Or.inl rfl))) fun _ =>
  changes_bind changes_rootTree fun _ =>
  changes_bind changes_failAt fun _ =>
  changes_bind (changes_writeTextFile (Or.inr (Or.inr ⟨_, rfl⟩))) fun _ => changes_pure

/-- The signed files that a refresh writes. -/
def isRoleFile (p : Path) : Prop :=
  p = checkpointPath ∨ p = snapshotPath ∨ p = timestampPath ∨ ∃ space, p = targetsPath space

def RefreshScope (p : Path) : Prop := isRoleFile p ∨ ["_tmp"] <+: p

theorem changes_writeTargets {l : List (String × List (String × PackageEntry))}
    {snapshotMeta : List (Path × FileMeta)} (hS : ∀ space, S (targetsPath space)) :
    Changes S (writeTargets env cfg host fault l snapshotMeta) := by
  induction l generalizing snapshotMeta with
  | nil => exact changes_pure
  | cons x l ih =>
    exact changes_bind changes_rootTree fun _ => changes_bind changes_failAt fun _ =>
      changes_bind (changes_writeSigned (hS x.1)) fun _ => ih

theorem changes_refreshSignedRegistryMetadata {registryTime : String} :
    Changes RefreshScope (refreshSignedRegistryMetadata env cfg host fault registryTime) := by
  have hrole : ∀ p, isRoleFile p → RefreshScope p := fun _ => Or.inl
  unfold refreshSignedRegistryMetadata
  exact changes_bind changes_failAt fun _ => changes_bind changes_rootTree fun _ =>
    changes_bind changes_ofExcept fun _ =>
    changes_bind (changes_writeTargets fun _ => Or.inl (Or.inr (Or.inr (Or.inr ⟨_, rfl⟩)))) fun _ =>
    changes_bind changes_rootTree fun _ => changes_bind changes_ofExcept fun _ =>
    changes_bind changes_ofExcept fun _ => changes_bind changes_rootTree fun _ =>
    changes_bind changes_failAt fun _ =>
    changes_bind (changes_writeSigned (hrole _ (Or.inl rfl))) fun _ =>
    changes_bind changes_rootTree fun _ => changes_bind changes_failAt fun _ =>
    changes_bind (changes_writeSigned (hrole _ (Or.inr (Or.inl rfl)))) fun _ =>
    changes_bind changes_rootTree fun _ => changes_bind changes_failAt fun _ =>
    changes_bind (changes_writeSigned (hrole _ (Or.inr (Or.inr (Or.inl rfl))))) fun _ =>
    changes_bind (changes_removeTmp fun _ => Or.inr) fun _ => changes_pure

/-- The files that make a publication the current one. -/
def ActivateScope (p : Path) : Prop := p = configPath ∨ p = distributionPointerPath "default"

theorem changes_activatePublication {sequence : ℕ} {generatedAt : String} :
    Changes ActivateScope (activatePublication cfg fault sequence generatedAt) :=
  changes_bind changes_failAt fun _ => changes_bind (changes_writeTextFile (Or.inl rfl)) fun _ =>
    changes_bind changes_failAt fun _ => changes_bind changes_rootTree fun _ =>
    changes_bind changes_ofExcept fun _ => changes_bind changes_failAt fun _ =>
    changes_bind (changes_writeTextFile (Or.inr rfl)) fun _ => changes_pure

/-- The files of a materialised publication. -/
theorem changes_copyRegistryReadPlaneTo_root {source : Path} :
    Changes (fun p => inReadPlane p) (copyRegistryReadPlaneTo fault source []) := by
  refine changes_bind changes_rootTree fun t => ?_
  dsimp only
  have hplane : ∀ q g, ((t.subtree source).restrict inReadPlane).get q = some g →
      inReadPlane q = true := by
    intro q g hq
    rw [get_restrict] at hq
    by_contra hn
    simp [hn] at hq
  split
  · refine changes_bind (changes_modifyRoot fun u => AgreeOff.refl.graft ?_) fun _ => changes_fail
    intro q g hq
    rw [get_restrict] at hq
    split at hq
    · exact hplane q g hq
    · cases hq
  · exact changes_bind (changes_modifyRoot fun u => AgreeOff.refl.graft hplane) fun _ =>
      changes_require

theorem changes_materializePublicationToRoot {publicationId : String} :
    Changes (fun p => inReadPlane p) (materializePublicationToRoot cfg fault publicationId) := by
  refine changes_bind (changes_modifyRoot fun u => AgreeOff.refl.restrict fun q hq => by
    simpa using hq) fun _ => changes_bind changes_rootTree fun t => ?_
  cases publicationRoot cfg t publicationId with
  | none => exact changes_fail
  | some source => exact changes_copyRegistryReadPlaneTo_root

end StyioPlatform.Registry
