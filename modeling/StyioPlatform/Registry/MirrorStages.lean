import StyioPlatform.Registry.Mirror

/-! The stages of a mirror synchronisation: what each needs to go on, and the files that it leaves
when it stops. -/
namespace StyioPlatform.Registry

open FileTree Prog

variable {turn : Disturbance} {env : Environment} {codec : JsonCodec} {cfg : MirrorConfig}
  {origin : OriginPublication} {d : Disk} {h : MirrorHost}

section Stages

variable (turn : Disturbance) (env : Environment) (codec : JsonCodec) (cfg : MirrorConfig)
  (origin : OriginPublication) (d : Disk)

/-- The files after a removal. -/
def remaining (site : MirrorSite) (inside : Path → Bool) : Disk :=
  d.restrict fun p => !inside p || (decide (turn.site = some site) && decide (p ∈ turn.left))

/-- No file is in the way of the directory. -/
def Free (p : Path) : Prop := ∀ q ∈ p.inits, d.get q = none

/-- The copy of the files stops before its end. -/
def FileCopyStops (site : MirrorSite) (u : Disk) (dest : Path) : Prop :=
  turn.site = some site ∨ ∃ q ∈ u.support, obstructs d dest q = true

/-- The files that a copy that stops has brought. -/
def brought (u : Disk) (dest : Path) : Disk :=
  u.restrict fun q => decide (q ∈ turn.moved) && !obstructs d dest q

/-- The origin has been read and the root of the mirror is there. -/
structure Reads : Prop where
  readOrigin : turn.site ≠ some .readOrigin
  origin : Registry.readOrigin codec cfg d = .ok origin
  createTarget : turn.site ≠ some .createTarget
  target : Free d cfg.registryRoot

/-- The temporary place has been emptied. -/
def preparedDisk : Disk :=
  remaining turn d .clearTemporary fun p => decide (temporaryPlace cfg origin.publicationId <+: p)

/-- The publication has been copied to the temporary place. -/
def fetchedDisk : Disk :=
  (preparedDisk turn cfg origin d).graft (temporaryPlace cfg origin.publicationId)
    ((preparedDisk turn cfg origin d).subtree origin.root)

/-- The publication is copied and verified, and the old one is removed next. -/
structure Fetches : Prop where
  createTemporary : turn.site ≠ some .createTemporary
  temporary : Free (preparedDisk turn cfg origin d)
    (temporaryPlace cfg origin.publicationId).dropLast
  source : (preparedDisk turn cfg origin d).isDirectory origin.root = true
  copies : ¬ FileCopyStops turn (preparedDisk turn cfg origin d) .copyPublication
    ((preparedDisk turn cfg origin d).subtree origin.root) (temporaryPlace cfg origin.publicationId)
  verify : turn.site ≠ some .verify
  verified : verifyPublicationSnapshot env (fetchedDisk turn cfg origin d)
    (temporaryPlace cfg origin.publicationId) origin.publication = .ok ()
  createPublications : turn.site ≠ some .createPublications
  publications : Free (fetchedDisk turn cfg origin d)
    (publicationPlace cfg origin.publicationId).dropLast

/-- The old publication has been removed. -/
def withdrawnDisk : Disk :=
  remaining turn (fetchedDisk turn cfg origin d) .clearPublication
    fun p => decide (publicationPlace cfg origin.publicationId <+: p)

/-- The new publication can be renamed to its place. -/
structure Activates : Prop where
  activate : turn.site ≠ some .activate
  dots : endsInDots origin.publicationId = false
  source : (withdrawnDisk turn cfg origin d).isDirectory
    (temporaryPlace cfg origin.publicationId) = true
  dest : occupied (withdrawnDisk turn cfg origin d)
    (publicationPlace cfg origin.publicationId) = false
  apart : ¬ temporaryPlace cfg origin.publicationId <+: publicationPlace cfg origin.publicationId

/-- The new publication is in its place. -/
def activatedDisk : Disk :=
  (withdrawnDisk turn cfg origin d).rename (temporaryPlace cfg origin.publicationId)
    (publicationPlace cfg origin.publicationId)

/-- The read plane has been removed. -/
def emptiedDisk : Disk :=
  remaining turn d .clearReadPlane fun p =>
    decide (cfg.registryRoot <+: p) && inReadPlane (p.drop cfg.registryRoot.length)

/-- The entries of the publication as they are copied to the root. -/
def servedEntries (publicationRoot : Path) : Disk :=
  mirrorEntries.foldl (landed d cfg.registryRoot)
    ((d.subtree publicationRoot).restrict inMirrorPlane)

/-- The copy of the read plane stops before its end. -/
def PlaneStops (publicationRoot : Path) : Prop :=
  FileCopyStops turn (emptiedDisk turn cfg d) .copyReadPlane
    (servedEntries cfg (emptiedDisk turn cfg d) publicationRoot) cfg.registryRoot

instance {site : MirrorSite} {u : Disk} {dest : Path} : Decidable (FileCopyStops turn d site u dest) :=
  inferInstanceAs (Decidable (_ ∨ _))

instance {publicationRoot : Path} : Decidable (PlaneStops turn cfg d publicationRoot) :=
  inferInstanceAs (Decidable (FileCopyStops ..))

/-- The read plane has been replaced, or a part of it. -/
def servingDisk (publicationRoot : Path) : Disk :=
  let emptied := emptiedDisk turn cfg d
  let entries := servedEntries cfg emptied publicationRoot
  emptied.graft cfg.registryRoot
    (if PlaneStops turn cfg d publicationRoot then brought turn emptied entries cfg.registryRoot
      else entries)

/-- The directory of the pointer can be made. -/
structure Points : Prop where
  createDistribution : turn.site ≠ some .createDistribution
  free : Free d (cfg.registryRoot ++ pointerFile.dropLast)

/-- The pointer has been written. -/
def pointedDisk : Disk :=
  let pointer := cfg.registryRoot ++ pointerFile
  if d.isDirectory pointer then d
  else if turn.site = some .writePointer then
    match turn.written with
    | none => d
    | some bytes => d.put pointer bytes
  else d.put pointer (codec.print origin.current)

/-- The state of the mirror is not recorded. -/
def RecordStops : Prop :=
  turn.site = some .countLeaves ∨ cfg.stateBackend = "postgres" ∧
    (turn.site = some .recordState ∨
      origin.publication.textOr "repository_version_id" "" = none ∨
      origin.current.textOr "updated_at" "" = none)

end Stages

/-- How a synchronisation ends: the exit code and the files that it leaves. -/
inductive SyncEnds (turn : Disturbance) (env : Environment) (codec : JsonCodec)
    (cfg : MirrorConfig) (d : Disk) : ℕ → Disk → Prop where
  | unread (hreads : ∀ origin, ¬ Reads turn codec cfg origin d) : SyncEnds turn env codec cfg d 1 d
  | unfetched {origin : OriginPublication} {d' : Disk} (hreads : Reads turn codec cfg origin d)
      (hfetches : ¬ Fetches turn env cfg origin d)
      (hagree : AgreeOff (temporaryPlace cfg origin.publicationId <+: ·) d d') :
      SyncEnds turn env codec cfg d 1 d'
  | withdrawn {origin : OriginPublication} (hreads : Reads turn codec cfg origin d)
      (hfetches : Fetches turn env cfg origin d) (hactivates : ¬ Activates turn cfg origin d) :
      SyncEnds turn env codec cfg d 1 (withdrawnDisk turn cfg origin d)
  | serving {origin : OriginPublication} (hreads : Reads turn codec cfg origin d)
      (hfetches : Fetches turn env cfg origin d) (hactivates : Activates turn cfg origin d)
      (hstops : PlaneStops turn cfg (activatedDisk turn cfg origin d)
          (publicationPlace cfg origin.publicationId) ∨
        ¬ Points turn cfg (servingDisk turn cfg (activatedDisk turn cfg origin d)
          (publicationPlace cfg origin.publicationId))) :
      SyncEnds turn env codec cfg d 1 (servingDisk turn cfg (activatedDisk turn cfg origin d)
        (publicationPlace cfg origin.publicationId))
  | pointed {origin : OriginPublication} {status : ℕ} (hreads : Reads turn codec cfg origin d)
      (hfetches : Fetches turn env cfg origin d) (hactivates : Activates turn cfg origin d)
      (hplane : ¬ PlaneStops turn cfg (activatedDisk turn cfg origin d)
        (publicationPlace cfg origin.publicationId))
      (hpoints : Points turn cfg (servingDisk turn cfg (activatedDisk turn cfg origin d)
        (publicationPlace cfg origin.publicationId)))
      (hstatus : status = 0 ∧ ¬ RecordStops turn cfg origin ∨
        status = 1 ∧ RecordStops turn cfg origin) :
      SyncEnds turn env codec cfg d status (pointedDisk turn codec cfg origin
        (servingDisk turn cfg (activatedDisk turn cfg origin d)
          (publicationPlace cfg origin.publicationId)))

section Rules

variable {Q : Unit → MirrorHost → Prop} {E : String → MirrorHost → Prop}

theorem wp_mayThrow {site : MirrorSite} (hok : turn.site ≠ some site → Q () h)
    (herror : turn.site = some site → E "system error" h) : wp (mayThrow turn site) Q E h := by
  unfold mayThrow
  split
  · next hsite => exact herror hsite
  · next hsite => exact hok hsite

theorem wp_files {Q : Disk → MirrorHost → Prop} (hok : Q h.disk h) : wp files Q E h := hok

theorem wp_demand {c : Prop} [Decidable c] {message : String} (hok : c → Q () h)
    (herror : ¬ c → E message h) : wp (Prog.ofExcept (demand c message)) Q E h := by
  unfold demand
  split
  · next hc => exact hok hc
  · next hc => exact herror hc

theorem wp_createDirectories {site : MirrorSite} {p : Path}
    (hok : turn.site ≠ some site → Free h.disk p → Q () h)
    (herror : ∀ e, ¬ (turn.site ≠ some site ∧ Free h.disk p) → E e h) :
    wp (createDirectories turn site p) Q E h := by
  unfold createDirectories
  rw [wp_bind]
  refine wp_mayThrow (fun hsite => ?_) fun hsite => herror _ fun hgo => hgo.1 hsite
  rw [wp_bind]
  refine wp_files ?_
  exact wp_demand (fun hfree => hok hsite hfree) fun hfree => herror _ fun hgo => hfree hgo.2

theorem wp_copyFiles {site : MirrorSite} {u : Disk} {dest : Path} {message : String}
    (hok : ¬ FileCopyStops turn h.disk site u dest → Q () { h with disk := h.disk.graft dest u })
    (herror : ∀ e, FileCopyStops turn h.disk site u dest →
      E e { h with disk := h.disk.graft dest (brought turn h.disk u dest) }) :
    wp (copyFiles turn site u dest message) Q E h := by
  unfold copyFiles
  rw [wp_bind]
  refine wp_files ?_
  rw [wp_ite]
  constructor
  · intro hstops
    rw [wp_bind]
    exact herror _ hstops
  · exact hok

theorem wp_fetchPublication (hreads : Reads turn codec cfg origin h.disk)
    (hok : Fetches turn env cfg origin h.disk → Activates turn cfg origin h.disk →
      Q () { h with disk := activatedDisk turn cfg origin h.disk })
    (hunfetched : ∀ e d', ¬ Fetches turn env cfg origin h.disk →
      AgreeOff (temporaryPlace cfg origin.publicationId <+: ·) h.disk d' →
      E e { h with disk := d' })
    (hwithdrawn : ∀ e, Fetches turn env cfg origin h.disk → ¬ Activates turn cfg origin h.disk →
      E e { h with disk := withdrawnDisk turn cfg origin h.disk }) :
    wp (fetchPublication turn env cfg origin) Q E h := by
  have hprepared : AgreeOff (temporaryPlace cfg origin.publicationId <+: ·) h.disk
      (preparedDisk turn cfg origin h.disk) := by
    refine AgreeOff.refl.restrict fun q hq => ?_
    by_contra hbelow
    simp [hbelow] at hq
  have hfetched : AgreeOff (temporaryPlace cfg origin.publicationId <+: ·) h.disk
      (fetchedDisk turn cfg origin h.disk) :=
    hprepared.graft fun q _ _ => List.prefix_append _ q
  unfold fetchPublication
  rw [wp_bind]
  refine wp_createDirectories (fun _ _ => ?_) fun e hstops =>
    (hstops ⟨hreads.createTarget, hreads.target⟩).elim
  rw [wp_bind]
  refine wp_modify.mpr ?_
  rw [wp_bind]
  refine wp_createDirectories (fun htemporary hfree => ?_) fun e hstops =>
    hunfetched e _ (fun hgo => hstops ⟨hgo.createTemporary, hgo.temporary⟩) hprepared
  rw [wp_bind]
  refine wp_files ?_
  rw [wp_bind]
  refine wp_demand (fun hsource => ?_) fun hsource =>
    hunfetched _ _ (fun hgo => hsource hgo.source) hprepared
  rw [wp_bind]
  refine wp_copyFiles (fun hcopies => ?_) fun e hcopies =>
    hunfetched e _ (fun hgo => hgo.copies hcopies)
      (hprepared.graft fun q _ _ => List.prefix_append _ q)
  rw [wp_bind]
  refine wp_mayThrow (fun hverify => ?_) fun hverify =>
    hunfetched _ _ (fun hgo => hgo.verify hverify) hfetched
  rw [wp_bind]
  refine wp_files ?_
  rw [wp_bind]
  refine wp_ofExcept.mpr ⟨fun _ hverified => ?_, fun e hverified =>
    hunfetched e _ (fun hgo => ?_) hfetched⟩
  · rw [wp_bind]
    refine wp_createDirectories (fun hpublications hfree' => ?_) fun e hstops =>
      hunfetched e _ (fun hgo => hstops ⟨hgo.createPublications, hgo.publications⟩) hfetched
    have hgo : Fetches turn env cfg origin h.disk :=
      ⟨htemporary, hfree, hsource, hcopies, hverify, hverified, hpublications, hfree'⟩
    rw [wp_bind]
    refine wp_modify.mpr ?_
    unfold activatePublicationAt
    rw [wp_bind]
    refine wp_files ?_
    rw [wp_ite]
    constructor
    · intro hstops
      refine hwithdrawn _ hgo fun hactivates => ?_
      rcases hstops with hstops | hstops | hstops | hstops | hstops
      · exact hactivates.activate hstops
      · exact Bool.false_ne_true (hactivates.dots.symm.trans hstops)
      · exact Bool.false_ne_true (hstops.symm.trans hactivates.source)
      · exact Bool.false_ne_true (hactivates.dest.symm.trans hstops)
      · exact hactivates.apart hstops
    · intro hstops
      push Not at hstops
      obtain ⟨hactivate, hdots, hdirectory, hdest, hapart⟩ := hstops
      exact hok hgo ⟨hactivate, eq_false_of_ne_true hdots, eq_true_of_ne_false hdirectory,
        eq_false_of_ne_true hdest, hapart⟩
  · have := hgo.verified
    exact nomatch hverified.symm.trans this

theorem wp_materializePublication {publicationRoot : Path}
    (hok : ¬ PlaneStops turn cfg h.disk publicationRoot →
      Q () { h with disk := servingDisk turn cfg h.disk publicationRoot })
    (herror : ∀ e, PlaneStops turn cfg h.disk publicationRoot →
      E e { h with disk := servingDisk turn cfg h.disk publicationRoot }) :
    wp (materializePublication turn publicationRoot cfg.registryRoot) Q E h := by
  unfold materializePublication
  rw [wp_bind]
  refine wp_modify.mpr ?_
  rw [wp_bind]
  refine wp_files ?_
  refine wp_copyFiles (fun hgo => ?_) fun e hstops => ?_
  · have hplane : ¬ PlaneStops turn cfg h.disk publicationRoot := hgo
    have hdone := hok hplane
    rwa [servingDisk, if_neg hplane] at hdone
  · have hplane : PlaneStops turn cfg h.disk publicationRoot := hstops
    have hdone := herror e hplane
    rwa [servingDisk, if_pos hplane] at hdone

theorem wp_writeJsonFile
    (hok : Points turn cfg h.disk → Q () { h with disk := pointedDisk turn codec cfg origin h.disk })
    (herror : ∀ e, ¬ Points turn cfg h.disk → E e h) :
    wp (writeJsonFile turn codec (cfg.registryRoot ++ pointerFile) origin.current) Q E h := by
  have hdrop : (cfg.registryRoot ++ pointerFile).dropLast =
      cfg.registryRoot ++ pointerFile.dropLast := List.dropLast_append_of_ne_nil (by decide)
  unfold writeJsonFile
  rw [wp_bind, hdrop]
  refine wp_createDirectories (fun hsite hfree => ?_) fun e hstops =>
    herror e fun hpoints => hstops ⟨hpoints.createDistribution, hpoints.free⟩
  have hdone := hok ⟨hsite, hfree⟩
  rw [wp_bind]
  refine wp_files ?_
  unfold pointedDisk at hdone
  dsimp only at hdone
  split
  · next hdirectory =>
    rwa [if_pos hdirectory] at hdone
  · next hdirectory =>
    rw [if_neg hdirectory] at hdone
    split
    · next hwrite =>
      rw [if_pos hwrite] at hdone
      split
      · next hwritten =>
        rwa [hwritten] at hdone
      · next bytes hwritten =>
        rwa [hwritten] at hdone
    · next hwrite =>
      rwa [if_neg hwrite] at hdone

theorem wp_recordMirrorState {treeSize : ℕ} (hcount : turn.site ≠ some .countLeaves)
    (hok : ∀ h', ¬ RecordStops turn cfg origin → h'.disk = h.disk → Q () h')
    (herror : ∀ e, RecordStops turn cfg origin → E e h) :
    wp (recordMirrorState turn cfg origin treeSize) Q E h := by
  unfold recordMirrorState
  rw [wp_ite]
  constructor
  · intro hpostgres
    rw [wp_bind]
    refine wp_mayThrow (fun hsite => ?_) fun hsite => herror _ (.inr ⟨hpostgres, .inl hsite⟩)
    rw [wp_bind, wp_ofExcept]
    constructor
    · intro version hversion
      rw [wp_bind, wp_ofExcept]
      constructor
      · intro syncedAt hsynced
        refine hok _ ?_ rfl
        rw [typed_eq_ok] at hversion hsynced
        rintro (hstops | ⟨-, hstops | hstops | hstops⟩)
        · exact hcount hstops
        · exact hsite hstops
        · exact nomatch hversion.symm.trans hstops
        · exact nomatch hsynced.symm.trans hstops
      · intro e hsynced
        refine herror e (.inr ⟨hpostgres, .inr (.inr ?_)⟩)
        by_contra hsome
        obtain ⟨value, hvalue⟩ := Option.ne_none_iff_exists'.mp hsome
        rw [hvalue] at hsynced
        cases hsynced
    · intro e hversion
      refine herror e (.inr ⟨hpostgres, .inr (.inl ?_)⟩)
      by_contra hsome
      obtain ⟨value, hvalue⟩ := Option.ne_none_iff_exists'.mp hsome
      rw [hvalue] at hversion
      cases hversion
  · intro hmemory
    refine hok h ?_ rfl
    rintro (hstops | ⟨hpostgres, -⟩)
    · exact hcount hstops
    · exact hmemory hpostgres

end Rules

variable (turn env codec cfg h) in
/-- A synchronisation ends in one of the stages. -/
theorem syncEnds_runMirrorSyncOnce :
    SyncEnds turn env codec cfg h.disk (runMirrorSyncOnce turn env codec cfg h).1
      (runMirrorSyncOnce turn env codec cfg h).2.disk := by
  have hwp : wp (mirrorSync turn env codec cfg)
      (fun _ h' => SyncEnds turn env codec cfg h.disk 0 h'.disk)
      (fun _ h' => SyncEnds turn env codec cfg h.disk 1 h'.disk) h := by
    unfold mirrorSync
    rw [wp_bind]
    refine wp_mayThrow (fun hread => ?_) fun hread => .unread fun _ hreads => hreads.readOrigin hread
    rw [wp_bind]
    refine wp_files ?_
    rw [wp_bind, wp_ofExcept]
    constructor
    · intro origin horigin
      by_cases hreads : Reads turn codec cfg origin h.disk
      · rw [wp_bind]
        refine wp_fetchPublication hreads (fun hfetches hactivates => ?_)
          (fun _ d' hfetches hagree => .unfetched hreads hfetches hagree)
          fun _ hfetches hactivates => .withdrawn hreads hfetches hactivates
        rw [wp_bind]
        refine wp_materializePublication (fun hplane => ?_) fun _ hplane =>
          .serving hreads hfetches hactivates (.inl hplane)
        rw [wp_bind]
        refine wp_writeJsonFile (fun hpoints => ?_) fun _ hpoints =>
          .serving hreads hfetches hactivates (.inr hpoints)
        rw [wp_bind]
        refine wp_mayThrow (fun hcount => ?_) fun hcount =>
          .pointed hreads hfetches hactivates hplane hpoints (.inr ⟨rfl, .inl hcount⟩)
        rw [wp_bind]
        refine wp_files ?_
        refine wp_recordMirrorState hcount (fun h' hrecord hdisk => ?_) fun _ hrecord =>
          .pointed hreads hfetches hactivates hplane hpoints (.inr ⟨rfl, hrecord⟩)
        rw [hdisk]
        exact .pointed hreads hfetches hactivates hplane hpoints (.inl ⟨rfl, hrecord⟩)
      · rw [wp_bind]
        unfold fetchPublication
        rw [wp_bind]
        refine wp_createDirectories (fun hcreate hfree =>
          (hreads ⟨hread, horigin, hcreate, hfree⟩).elim) fun _ hstops => .unread fun origin' hreads' =>
            hstops ⟨hreads'.createTarget, hreads'.target⟩
    · intro e horigin
      refine .unread fun origin' hreads => ?_
      exact nomatch horigin.symm.trans hreads.origin
  unfold runMirrorSyncOnce
  unfold wp at hwp
  split at hwp <;> next hrun => rwa [hrun]

end StyioPlatform.Registry
