import StyioPlatform.Registry.System

/-! The tables of packages, releases, owners and tokens, in memory and in Postgres. A publication
is entered elsewhere: the stages of a request before its last statements leave them alone. -/
namespace StyioPlatform.Registry

open Prog

/-- The state stores without the tables that a publication is entered into. -/
def World.tables (w : World) : MemoryStateStore × Option PostgresStore :=
  ({ w.memory with repositoryVersions := [], publications := [], distributions := [] },
    w.postgres.map fun s =>
      { s with repositoryVersions := [], publications := [], distributions := [] })

variable {env : Environment} {cfg : PlatformConfig} {host : Host} {fault : Option Site}
  {t : MemoryStateStore × Option PostgresStore}

/-- The stage leaves the tables alone. -/
def KeepsTables {α : Type} (x : Program α) : Prop := ∀ t, Keeps (fun w => w.tables = t) x

/-- What depends on the tables only is kept. -/
theorem KeepsTables.keeps {α : Type} {x : Program α} {I : World → Prop} (h : KeepsTables x)
    (hI : ∀ w w' : World, w'.tables = w.tables → I w → I w') : Keeps I x := by
  intro w hw
  exact hI w _ (h _ w rfl) hw

theorem keepsTables_bind {α β : Type} {x : Program α} {k : α → Program β} (hx : KeepsTables x)
    (hk : ∀ a, KeepsTables (k a)) : KeepsTables (x >>= k) :=
  fun t => keeps_bind (hx t) fun a => hk a t

/-- A stage that changes files only leaves the tables alone. -/
theorem Changes.keepsTables {α : Type} {S : Path → Prop} {x : Program α} (h : Changes S x) :
    KeepsTables x := by
  intro t w hw
  have htables : (x w).2.tables = w.tables := by
    simp only [World.tables, (h w).memory, (h w).postgres]
  exact htables.trans hw

theorem keepsTables_modifyRoot {f : Tree → Tree} : KeepsTables (modifyRoot f) :=
  fun _ _ h => h

theorem keepsTables_writeTextFile {path : Path} {f : File} : KeepsTables (writeTextFile path f) :=
  fun _ _ h => h

theorem keepsTables_execPostgres {statement : PostgresStatement}
    {f : PostgresStore → PostgresStore}
    (hf : ∀ s : PostgresStore, ({ f s with
        repositoryVersions := [], publications := [], distributions := [] } : PostgresStore) =
      { s with repositoryVersions := [], publications := [], distributions := [] }) :
    KeepsTables (execPostgres fault statement f) := by
  intro t
  rw [keeps_iff]
  intro w hw
  apply wp_execPostgres
  · rw [← hw]
    cases h : w.postgres <;> simp [World.tables, h, hf]
  · intro _ _
    exact hw

theorem keepsTables_copyRegistryReadPlaneTo {source dest : Path} :
    KeepsTables (copyRegistryReadPlaneTo fault source dest) := by
  intro t
  refine keeps_bind keeps_rootTree fun tree => ?_
  dsimp only
  split
  · exact keeps_bind (keepsTables_modifyRoot t) fun _ => keeps_fail
  · exact keeps_bind (keepsTables_modifyRoot t) fun _ => keeps_require

theorem keepsTables_buildPublication {sequence : ℕ} {generatedAt : String} :
    KeepsTables (buildPublication env cfg fault sequence generatedAt) := fun t =>
  keeps_bind (keepsTables_modifyRoot t) fun _ =>
    keeps_bind (keepsTables_copyRegistryReadPlaneTo t) fun _ =>
    keeps_bind (keepsTables_writeTextFile t) fun _ => keeps_bind keeps_rootTree fun _ =>
    keeps_bind (keepsTables_writeTextFile t) fun _ => keeps_bind keeps_rootTree fun _ =>
    keeps_bind keeps_require fun _ => keeps_bind keeps_require fun _ =>
    keeps_bind keeps_failAt fun _ => keeps_bind (keepsTables_modifyRoot t) fun _ => keeps_pure

theorem keepsTables_recordPublication {sequence : ℕ} {changeKind changeRef generatedAt : String}
    {manifest : PublicationManifest} {current : DistributionPointer} :
    KeepsTables (recordPublication env cfg fault sequence changeKind changeRef generatedAt
      manifest current) :=
  keepsTables_bind (fun _ _ h => h) fun _ =>
    keepsTables_bind (keepsTables_execPostgres fun _ => rfl) fun _ =>
    keepsTables_bind (keepsTables_execPostgres fun _ => rfl) fun _ =>
    keepsTables_bind (keepsTables_execPostgres fun _ => rfl) fun _ =>
    keepsTables_bind (keepsTables_execPostgres fun _ => rfl) fun _ =>
    keepsTables_execPostgres fun _ => rfl

theorem keepsTables_createRegistryPublication {changeKind changeRef generatedAt : String} :
    KeepsTables (createRegistryPublication env cfg fault changeKind changeRef generatedAt) := by
  refine keepsTables_bind ?_ fun _ => keepsTables_bind keepsTables_buildPublication fun _ =>
    keepsTables_bind changes_activatePublication.keepsTables fun _ =>
    keepsTables_bind keepsTables_recordPublication fun _ _ => keeps_pure
  exact fun _ => keeps_bind keeps_read fun _ =>
    keeps_bind (keeps_onlyIf fun _ => keeps_failAt) fun _ =>
    keeps_bind keeps_require fun _ => keeps_pure

theorem keepsTables_refreshFromObjectStore : KeepsTables (refreshFromObjectStore cfg fault) := by
  intro t
  apply keeps_ite
  · refine keeps_bind keeps_failAt fun _ => keeps_bind keeps_read fun w => ?_
    apply keeps_ite
    · refine keeps_bind (keepsTables_modifyRoot t) fun _ => keeps_bind keeps_read fun w => ?_
      dsimp only
      split
      · exact keeps_bind (keepsTables_modifyRoot t) fun _ => keeps_fail
      · exact keepsTables_modifyRoot t
    · exact keepsTables_modifyRoot t
  · exact keeps_pure

theorem keepsTables_uploadRegistryTreeToS3 : KeepsTables (uploadRegistryTreeToS3 fault) := by
  intro t
  refine keeps_bind keeps_rootTree fun tree => ?_
  dsimp only
  split
  · exact keeps_bind (keeps_modify fun _ h => h) fun _ => keeps_fail
  · exact keeps_modify fun _ h => h

theorem keepsTables_installPublication {distributionId publicationId : String}
    {publication : Document} {previous : Option String} {updatedAt : String} :
    KeepsTables (installPublication cfg fault distributionId publicationId publication previous
      updatedAt) := by
  apply keepsTables_bind
  · exact fun _ => keeps_onlyIf fun _ => changes_materializePublicationToRoot.keepsTables _
  · intro _
    unfold pointDistribution
    split
    · exact fun _ => keeps_fail
    · exact keepsTables_bind (fun _ => keeps_failAt) fun _ =>
        keepsTables_bind keepsTables_writeTextFile fun _ =>
        keepsTables_bind (keepsTables_execPostgres fun _ => rfl) fun _ =>
        keepsTables_bind (fun _ _ h => h) fun _ _ => keeps_pure

end StyioPlatform.Registry
