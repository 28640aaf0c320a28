import StyioPlatform.Registry.MirrorFailures
import StyioPlatform.Registry.PublicationLayout

/-! What a mirror copies: over every run of an origin and its mirror, a synchronisation brings the
current publication of the origin, and a second one changes nothing. -/
namespace StyioPlatform.Registry

open FileTree Prog

variable {env : Environment} {codec : JsonCodec} {cfg : PlatformConfig} {mirror : MirrorConfig}
  {source : Path} {w w' : World} {d d' : Disk} {n k : ℕ} {id : String} {p q : Path}

/-- The mirror copies from the root at `source`, which is apart from its own. -/
structure MirrorsRoot (mirror : MirrorConfig) (source : Path) : Prop where
  sourceRoot : mirror.mirrorSourceRoot = some source
  names : ∀ name ∈ source, IsName name
  source_apart : ¬ source <+: mirror.registryRoot
  target_apart : ¬ mirror.registryRoot <+: source

/-- A pointer as it is parsed. -/
def pointerJson (d : DistributionPointer) : Json :=
  .ofFields ([("distribution_id", .string d.distributionId),
    ("publication_id", .string d.publicationId),
    ("repository_version_id", .string d.repositoryVersionId), ("updated_at", .string d.updatedAt)] ++
    d.previousPublicationId.toList.map fun id => ("previous_publication_id", .string id))

/-- The JSON library reads pointers and manifests as they were written, and writes a pointer as the
control plane does. -/
structure ReadsJson (env : Environment) (codec : JsonCodec) : Prop where
  pointer : ∀ d, codec.parse (env.jsonText (.pointer d)) = some (pointerJson d)
  manifest : ∀ m, codec.parse (env.jsonText (.publication m)) = some (manifestJson m)
  print : ∀ d, codec.print (pointerJson d) = env.jsonText (.pointer d)

theorem pointerJson_publicationId {d : DistributionPointer} :
    (pointerJson d).textField "publication_id" = some d.publicationId := by
  cases hprevious : d.previousPublicationId <;>
    simp [pointerJson, hprevious, Json.ofFields, Json.textField, Json.get?, Json.text?, setKey,
      getKey]

theorem pointerJson_updatedAt {d : DistributionPointer} :
    (pointerJson d).textOr "updated_at" "" = some d.updatedAt := by
  cases hprevious : d.previousPublicationId <;>
    simp [pointerJson, hprevious, Json.ofFields, Json.textOr, Json.text?, setKey, getKey]

section Ids

theorem names_of_isPlainId (hid : IsPlainId id) :
    (id.toList.splitOn '/').map String.ofList = [id] := by
  rw [List.splitOn_eq_singleton hid.2, List.map_cons, List.map_nil, String.ofList_toList]

theorem joined_of_isPlainId (hid : IsPlainId id) : joined p id = p ++ [id] := by
  have habs : ¬ id.toList.head? = some '/' := fun hhead => hid.2 (List.mem_of_mem_head? hhead)
  unfold joined
  dsimp only
  rw [if_neg habs, names_of_isPlainId hid]

/-- A plain id names its own publication on the mirror. -/
theorem namesPublication_of_isPlainId (hid : IsPlainId id) : NamesPublication mirror id id where
  temporary := by
    rw [temporaryPlace, joined_of_isPlainId hid, normal_of_isName]
    · simp
    · intro name hname
      simp only [List.mem_append, List.mem_cons, List.not_mem_nil, or_false] at hname
      rcases hname with (hname | rfl | rfl) | rfl
      · exact mirror.registryRoot_names name hname
      · decide
      · decide
      · exact hid.1
  publication := by
    rw [publicationPlace, joined_of_isPlainId hid, normal_of_isName]
    · simp
    · intro name hname
      simp only [List.mem_append, List.mem_cons, List.not_mem_nil, or_false] at hname
      rcases hname with (hname | rfl) | rfl
      · exact mirror.registryRoot_names name hname
      · decide
      · exact hid.1

theorem endsInDots_of_isPlainId (hid : IsPlainId id) : endsInDots id = false := by
  unfold endsInDots
  dsimp only
  rw [names_of_isPlainId hid]
  simp [hid.1.1, hid.1.2.1, hid.1.2.2]

theorem walk_of_isName {directory : Path → Bool} {names : List String}
    (hnames : ∀ name ∈ names, IsName name)
    (hdirectory : ∀ q, q ≠ [] → q <+: names → directory (p ++ q) = true) :
    walk directory names p = some (p ++ names) := by
  induction names generalizing p with
  | nil => rw [walk, List.append_nil]
  | cons name names ih =>
    have hname := hnames name List.mem_cons_self
    have hfirst := hdirectory [name] (by simp) (by simp)
    rw [walk, if_neg (not_or.mpr ⟨hname.1, hname.2.1⟩), if_neg hname.2.2, if_pos hfirst, ih]
    · simp
    · exact fun n hn => hnames n (List.mem_cons_of_mem _ hn)
    · intro q hq hprefix
      have hlonger := hdirectory (name :: q) (by simp) (by simpa using hprefix)
      simpa using hlonger

end Ids

/-- The files of the origin are on the disk of the mirror. -/
def Mounted (env : Environment) (source : Path) (w : World) (d : Disk) : Prop :=
  ∀ q, d.get (source ++ q) = (onDisk env w.root).get q

/-- The places where a mirror has files. -/
def MirrorPath (p : Path) : Prop :=
  inReadPlane p = true ∨ (∃ name q, q ≠ [] ∧ p = "_publications" :: name :: q) ∨ p = pointerFile

/-- The root of the mirror has only files of a mirror, and no file is in its way. -/
structure MirrorShape (mirror : MirrorConfig) (d : Disk) : Prop where
  free : Free d mirror.registryRoot
  files : ∀ p, (d.get (mirror.registryRoot ++ p)).isSome → MirrorPath p

theorem not_mirrorPath_tmp : ¬ MirrorPath ("_tmp" :: p) := by
  rintro (h | ⟨name, q, -, h⟩ | h)
  · simp [inReadPlane, readPlaneEntries] at h
  · simp at h
  · simp [pointerFile] at h

theorem not_mirrorPath_publications : ¬ MirrorPath ["_publications"] := by
  rintro (h | ⟨name, q, -, h⟩ | h)
  · exact absurd h (by decide)
  · simp at h
  · simp [pointerFile] at h

theorem not_mirrorPath_publication {name : String} : ¬ MirrorPath ["_publications", name] := by
  rintro (h | ⟨name, q, hq, h⟩ | h)
  · simp [inReadPlane, readPlaneEntries] at h
  · simp only [List.cons.injEq, true_and] at h
    exact hq h.2.symm
  · simp [pointerFile] at h

theorem not_mirrorPath_below_pointer (hq : q ≠ []) : ¬ MirrorPath (pointerFile ++ q) := by
  rintro (h | ⟨name, r, -, h⟩ | h)
  · simp [inReadPlane, readPlaneEntries, pointerFile] at h
  · simp [pointerFile] at h
  · exact hq (by simpa using h)

theorem inReadPlane_of_mirrorPath (hp : inMirrorPlane p = true) (hpath : MirrorPath p) :
    inReadPlane p = true := by
  rcases hpath with h | ⟨name, q, -, rfl⟩ | rfl
  · exact h
  · simp [inMirrorPlane, mirrorEntries] at hp
  · exact absurd hp (by decide)

theorem inMirrorPlane_append (hp : inMirrorPlane p = true) : inMirrorPlane (p ++ q) = true := by
  cases p with
  | nil => cases hp
  | cons name rest => exact hp

theorem MirrorShape.none (h : MirrorShape mirror d) (hp : ¬ MirrorPath p) :
    d.get (mirror.registryRoot ++ p) = none := by
  by_contra hsome
  exact hp (h.files p (Option.isSome_iff_ne_none.mpr hsome))

/-- The current publication of an origin in order. -/
structure CurrentPublication (env : Environment) (cfg : PlatformConfig) (w : World)
    (pointer : DistributionPointer) (k : ℕ) (plane : Tree) (generatedAt : String) : Prop where
  get : w.root.get (distributionPointerPath "default") = some (.json (.pointer pointer))
  publicationId : pointer.publicationId = publicationIdFor k
  holds : Holds env (w.root.subtree (publicationPath (publicationIdFor k))) plane k generatedAt
  laidOut : LaidOut plane
  file : w.root.get (publicationPath (publicationIdFor k)) = none

theorem InOrder.current (h : InOrder env cfg n w) (hn : 1 ≤ n) :
    ∃ pointer k plane generatedAt, CurrentPublication env cfg w pointer k plane generatedAt := by
  obtain ⟨s, hrep⟩ := h.represents
  obtain ⟨pointer, k, hget, hcurrent, hresolves, -, -⟩ := hrep.pointer hn
  have hstored := hrep.coherent k hcurrent
  rw [hrep.stored, storedPlanes] at hstored
  split at hstored
  · next hk =>
    obtain ⟨plane, generatedAt, hholds, hlaid⟩ := h.complete k hk.1 hk.2
    exact ⟨pointer, k, plane, generatedAt, hget,
      hresolves.eq_publicationIdFor (h.pointer pointer hget).publicationId, hholds, hlaid,
      hrep.numbered.file _⟩
  · cases hstored

/-- What a synchronisation reads of the current publication. -/
def originOf (env : Environment) (source : Path) (pointer : DistributionPointer) (k : ℕ)
    (plane : Tree) (generatedAt : String) : OriginPublication where
  publicationId := publicationIdFor k
  current := pointerJson pointer
  publication := manifestJson (publicationManifest env plane k generatedAt)
  root := source ++ publicationPath (publicationIdFor k)

/-- What a synchronisation of the publication `k` leaves. -/
structure Synced (env : Environment) (mirror : MirrorConfig) (w : World) (k : ℕ) (d d' : Disk) :
    Prop where
  plane : ∀ p, inMirrorPlane p = true → d'.get (mirror.registryRoot ++ p) =
    (onDisk env w.root).get (publicationPath (publicationIdFor k) ++ p)
  publication : ∀ p, d'.get (mirror.registryRoot ++ publicationPath (publicationIdFor k) ++ p) =
    (onDisk env w.root).get (publicationPath (publicationIdFor k) ++ p)
  pointer : d'.get (mirror.registryRoot ++ pointerFile) = (onDisk env w.root).get pointerFile
  rest : ∀ p, (∀ q, p = mirror.registryRoot ++ q → inMirrorPlane q = false ∧
      ¬ publicationPath (publicationIdFor k) <+: q ∧ q ≠ pointerFile) → d'.get p = d.get p

section Sync

variable {pointer : DistributionPointer} {plane : Tree} {generatedAt : String}

theorem get_remaining {site : MirrorSite} {inside : Path → Bool} :
    (remaining {} d site inside).get p = if inside p then none else d.get p := by
  rw [remaining, get_restrict]
  cases inside p <;> simp

section Origin

variable (hmirror : MirrorsRoot mirror source) (hjson : ReadsJson env codec)
  (hcurrent : CurrentPublication env cfg w pointer k plane generatedAt)
  (hmounted : Mounted env source w d)

include hcurrent hmounted

theorem get_originPointer :
    d.get (source ++ pointerFile) = some (env.jsonText (.pointer pointer)) := by
  rw [hmounted, onDisk, get_map, show pointerFile = distributionPointerPath "default" by decide,
    hcurrent.get]
  rfl

theorem get_originManifest :
    d.get (source ++ publicationPath (publicationIdFor k) ++ ["publication.json"]) =
      some (env.jsonText (.publication (publicationManifest env plane k generatedAt))) := by
  rw [List.append_assoc, hmounted, onDisk, get_map, ← get_subtree, hcurrent.holds.manifest]
  rfl

include hmirror in
theorem followed_origin : followed d (source ++ ["_publications"]) (publicationIdFor k) =
    some (source ++ publicationPath (publicationIdFor k)) := by
  have hplain : IsPlainId (publicationIdFor k) := isPlainId_publicationIdFor
  unfold followed
  rw [joined_of_isPlainId hplain, walk_of_isName]
  · simp [publicationPath]
  · intro name hname
    simp only [List.mem_append, List.mem_cons, List.not_mem_nil, or_false] at hname
    rcases hname with (hname | rfl) | rfl
    · exact hmirror.names name hname
    · decide
    · exact hplain.1
  · rintro q - ⟨rest, hrest⟩
    have hbelow := get_originManifest hcurrent hmounted
    rw [show source ++ publicationPath (publicationIdFor k) = q ++ rest by
      rw [hrest, publicationPath]; simp, List.append_assoc] at hbelow
    rw [List.nil_append, Bool.or_eq_true]
    exact .inr (isDirectory_iff.mpr ⟨rest ++ ["publication.json"], _, by simp, hbelow⟩)

include hmirror hjson in
theorem readOrigin_current : readOrigin codec mirror d =
    .ok (originOf env source pointer k plane generatedAt) := by
  have hpointer := get_originPointer hcurrent hmounted
  have hmanifest := get_originManifest hcurrent hmounted
  have hdirectory : d.isDirectory source = true :=
    isDirectory_iff.mpr ⟨pointerFile, _, by decide, hpointer⟩
  have hfound : occupied d (source ++ pointerFile) = true := by
    rw [occupied, hpointer]
    rfl
  have hfound' : occupied d
      (source ++ publicationPath (publicationIdFor k) ++ ["publication.json"]) = true := by
    rw [occupied, hmanifest]
    rfl
  have hread : readJson codec d (source ++ pointerFile) = .ok (pointerJson pointer) := by
    rw [readJson, hpointer, Option.bind_some, hjson.pointer]
  have hread' : readJson codec d
      (source ++ publicationPath (publicationIdFor k) ++ ["publication.json"]) =
        .ok (manifestJson (publicationManifest env plane k generatedAt)) := by
    rw [readJson, hmanifest, Option.bind_some, hjson.manifest]
  unfold readOrigin
  rw [hmirror.sourceRoot]
  refine bind_ok_iff.mpr ⟨(), demand_eq_ok.mpr hdirectory, ?_⟩
  refine bind_ok_iff.mpr ⟨(), demand_eq_ok.mpr hfound, ?_⟩
  refine bind_ok_iff.mpr ⟨_, hread, ?_⟩
  refine bind_ok_iff.mpr ⟨_, typed_eq_ok.mpr pointerJson_publicationId, ?_⟩
  rw [hcurrent.publicationId, followed_origin hmirror hcurrent hmounted]
  refine bind_ok_iff.mpr ⟨(), demand_eq_ok.mpr hfound', ?_⟩
  exact bind_ok_iff.mpr ⟨_, hread', rfl⟩

end Origin

section Target

variable (hmirror : MirrorsRoot mirror source)
  (hcurrent : CurrentPublication env cfg w pointer k plane generatedAt)
  (hmounted : Mounted env source w d) (hshape : MirrorShape mirror d)

theorem namesCurrent : NamesPublication mirror
    (originOf env source pointer k plane generatedAt).publicationId (publicationIdFor k) :=
  namesPublication_of_isPlainId isPlainId_publicationIdFor

include hshape

/-- There is nothing in the temporary place. -/
theorem preparedDisk_eq :
    preparedDisk {} mirror (originOf env source pointer k plane generatedAt) d = d := by
  refine FileTree.ext fun p => ?_
  rw [preparedDisk, get_remaining]
  split
  · next hbelow =>
    rw [decide_eq_true_eq, namesCurrent.temporary] at hbelow
    obtain ⟨q, rfl⟩ := hbelow
    rw [List.append_assoc]
    exact (hshape.none not_mirrorPath_tmp).symm
  · rfl

theorem free_below (hnot : ∀ q, q <+: p → q ≠ [] → ¬ MirrorPath q) :
    Free d (mirror.registryRoot ++ p) := by
  intro q hq
  rw [List.mem_inits] at hq
  rcases List.prefix_or_prefix_of_prefix hq (List.prefix_append mirror.registryRoot p) with
    hq' | ⟨r, rfl⟩
  · exact hshape.free q ((List.mem_inits _ _).mpr hq')
  · rw [List.prefix_append_right_inj] at hq
    by_cases hr : r = []
    · rw [hr]
      exact hshape.free _ ((List.mem_inits _ _).mpr (by simp))
    · exact hshape.none (hnot r hq hr)

include hmounted

/-- The copy in the temporary place is the publication of the origin. -/
theorem get_fetchedDisk :
    (fetchedDisk {} mirror (originOf env source pointer k plane generatedAt) d).get
        (mirror.registryRoot ++ ["_tmp", "mirror", publicationIdFor k] ++ p) =
      (onDisk env w.root).get (publicationPath (publicationIdFor k) ++ p) := by
  have hnone : d.get (mirror.registryRoot ++ (["_tmp", "mirror", publicationIdFor k] ++ p)) =
      none := hshape.none not_mirrorPath_tmp
  rw [fetchedDisk, preparedDisk_eq hshape, ← namesCurrent.temporary, get_graft_append,
    namesCurrent.temporary, List.append_assoc, hnone, Option.or_none, get_subtree, originOf,
    List.append_assoc, hmounted]

include hcurrent

omit hshape in
theorem isDirectory_originRoot :
    d.isDirectory (originOf env source pointer k plane generatedAt).root = true :=
  isDirectory_iff.mpr ⟨["publication.json"], _, by simp, get_originManifest hcurrent hmounted⟩

theorem fetches_current :
    Fetches {} env mirror (originOf env source pointer k plane generatedAt) d where
  createTemporary := by simp
  temporary := by
    rw [preparedDisk_eq hshape, namesCurrent.temporary]
    rw [List.dropLast_append_of_ne_nil (by simp)]
    refine free_below hshape fun q hq hne => ?_
    obtain ⟨r, hr⟩ := hq
    cases q with
    | nil => exact (hne rfl).elim
    | cons first rest =>
      have hfirst : first = "_tmp" := by
        simp only [List.dropLast, List.cons_append, List.cons.injEq] at hr
        exact hr.1
      rw [hfirst]
      exact not_mirrorPath_tmp
  source := by
    rw [preparedDisk_eq hshape]
    exact isDirectory_originRoot hcurrent hmounted
  copies := by
    rw [preparedDisk_eq hshape, namesCurrent.temporary]
    have hbelow : ∀ p, d.get (mirror.registryRoot ++ ["_tmp", "mirror", publicationIdFor k] ++ p) =
        none := fun p => by
      rw [List.append_assoc]
      exact hshape.none not_mirrorPath_tmp
    rintro (h | ⟨q, hq, hobstructs⟩)
    · cases h
    · rw [obstructs, Bool.or_eq_true] at hobstructs
      rcases hobstructs with h | h
      · obtain ⟨r, b, -, hb⟩ := isDirectory_iff.mp h
        rw [List.append_assoc, hbelow] at hb
        cases hb
      · obtain ⟨r, -, hr⟩ := List.any_eq_true.mp h
        rw [hbelow] at hr
        cases hr
  verify := by simp
  verified := by
    refine verifyPublicationSnapshot_eq_ok.mpr
      (hcurrent.holds.verified hcurrent.laidOut fun p _ => ?_)
    rw [namesCurrent.temporary, get_fetchedDisk hmounted hshape, onDisk, onDisk, get_map,
      get_map, get_subtree]
  createPublications := by simp
  publications := by
    rw [namesCurrent.publication, List.dropLast_append_of_ne_nil (by simp)]
    intro q hq
    have hfree : Free d (mirror.registryRoot ++ ["_publications", publicationIdFor k].dropLast) := by
      refine free_below hshape fun q hq hne => ?_
      obtain ⟨r, hr⟩ := hq
      cases q with
      | nil => exact (hne rfl).elim
      | cons first rest =>
        simp only [List.dropLast, List.cons_append, List.cons.injEq, List.append_eq_nil_iff] at hr
        rw [hr.1, hr.2.1]
        exact not_mirrorPath_publications
    rw [agreeOff_fetchedDisk]
    · exact hfree q hq
    · dsimp only
      rw [namesCurrent.temporary]
      intro hbelow
      have hle := hbelow.length_le
      have hle' := ((List.mem_inits _ _).mp hq).length_le
      simp at hle hle'
      omega

theorem activates_current :
    Activates {} mirror (originOf env source pointer k plane generatedAt) d where
  activate := by simp
  dots := endsInDots_of_isPlainId isPlainId_publicationIdFor
  source := by
    refine isDirectory_iff.mpr ⟨["publication.json"],
      env.jsonText (.publication (publicationManifest env plane k generatedAt)), by simp, ?_⟩
    rw [withdrawnDisk, get_remaining, namesCurrent.temporary, namesCurrent.publication,
      if_neg (by simp), get_fetchedDisk hmounted hshape, onDisk, get_map,
      ← get_subtree, hcurrent.holds.manifest]
    rfl
  dest := by
    have hnone : ∀ p, (withdrawnDisk {} mirror (originOf env source pointer k plane generatedAt)
        d).get (publicationPlace mirror
          (originOf env source pointer k plane generatedAt).publicationId ++ p) = none := by
      intro p
      rw [withdrawnDisk, get_remaining, if_pos (by simp)]
    rw [occupied, Bool.or_eq_false_iff]
    refine ⟨?_, ?_⟩
    · have hfile := hnone []
      rw [List.append_nil] at hfile
      rw [hfile]
      rfl
    · by_contra hdirectory
      obtain ⟨q, b, -, hb⟩ := isDirectory_iff.mp (eq_true_of_ne_false hdirectory)
      rw [hnone] at hb
      cases hb
  apart := by
    rw [namesCurrent.temporary, namesCurrent.publication, List.prefix_append_right_inj]
    simp

omit hcurrent hmounted in
/-- The removal of the read plane leaves nothing of it. -/
theorem get_emptiedDisk_plane (hp : inMirrorPlane p = true) :
    (emptiedDisk {} mirror d).get (mirror.registryRoot ++ p) = none := by
  rw [emptiedDisk, get_remaining]
  split
  · rfl
  · next hinside =>
    refine hshape.none fun hpath => hinside ?_
    rw [List.drop_left, inReadPlane_of_mirrorPath hp hpath]
    simp

omit hcurrent hmounted in
theorem get_emptied_activated (hp : inMirrorPlane p = true) :
    (emptiedDisk {} mirror (activatedDisk {} mirror
      (originOf env source pointer k plane generatedAt) d)).get (mirror.registryRoot ++ p) = none := by
  rw [get_emptiedDisk_congr (agreeOff_activatedDisk _ (not_touched_of_plane namesCurrent hp)),
    get_emptiedDisk_plane hshape hp]

omit hcurrent hmounted in
/-- No entry is copied into a directory. -/
theorem servedEntries_activated :
    servedEntries mirror (emptiedDisk {} mirror (activatedDisk {} mirror
        (originOf env source pointer k plane generatedAt) d))
      (publicationPlace mirror (originOf env source pointer k plane generatedAt).publicationId) =
    ((emptiedDisk {} mirror (activatedDisk {} mirror
        (originOf env source pointer k plane generatedAt) d)).subtree
      (publicationPlace mirror
        (originOf env source pointer k plane generatedAt).publicationId)).restrict inMirrorPlane := by
  have hlanded : ∀ name ∈ mirrorEntries, ∀ u, landed (emptiedDisk {} mirror (activatedDisk {} mirror
      (originOf env source pointer k plane generatedAt) d)) mirror.registryRoot u name = u := by
    intro name hname u
    have hdirectory : (emptiedDisk {} mirror (activatedDisk {} mirror
        (originOf env source pointer k plane generatedAt) d)).isDirectory
          (mirror.registryRoot ++ [name]) = false := by
      by_contra hdirectory
      obtain ⟨q, b, -, hb⟩ := isDirectory_iff.mp (eq_true_of_ne_false hdirectory)
      have hplane : inMirrorPlane ([name] ++ q) = true := by simpa [inMirrorPlane] using hname
      rw [List.append_assoc, get_emptied_activated hshape hplane] at hb
      cases hb
    unfold landed
    split
    · rfl
    · rw [if_neg (by simp [hdirectory])]
  have hfold : ∀ names : List String, (∀ name ∈ names, name ∈ mirrorEntries) → ∀ u,
      names.foldl (landed (emptiedDisk {} mirror (activatedDisk {} mirror
        (originOf env source pointer k plane generatedAt) d)) mirror.registryRoot) u = u := by
    intro names
    induction names with
    | nil => exact fun _ _ => rfl
    | cons name names ih =>
      intro hnames u
      rw [List.foldl_cons, hlanded name (hnames name List.mem_cons_self),
        ih fun n hn => hnames n (List.mem_cons_of_mem _ hn)]
  exact hfold mirrorEntries (fun _ h => h) _

omit hcurrent hmounted in
variable (env source k pointer plane generatedAt) in
theorem not_planeStops_current :
    ¬ PlaneStops {} mirror (activatedDisk {} mirror
        (originOf env source pointer k plane generatedAt) d)
      (publicationPlace mirror (originOf env source pointer k plane generatedAt).publicationId) := by
  rintro (h | ⟨q, hq, hobstructs⟩)
  · cases h
  · obtain ⟨b, hb⟩ := mem_support_iff.mp hq
    have hplane := inMirrorPlane_of_servedEntries hb
    rw [obstructs, Bool.or_eq_true] at hobstructs
    rcases hobstructs with h | h
    · obtain ⟨r, c, -, hc⟩ := isDirectory_iff.mp h
      rw [List.append_assoc, get_emptied_activated hshape (inMirrorPlane_append hplane)] at hc
      cases hc
    · obtain ⟨r, hr, hsome⟩ := List.any_eq_true.mp h
      obtain ⟨s, rfl⟩ := (List.mem_inits _ _).mp (List.mem_of_mem_dropLast hr)
      cases r with
      | nil =>
        have hroot : Free d mirror.registryRoot := hshape.free
        have hagree : AgreeOff (Touched mirror (originOf env source pointer k plane generatedAt)) d
            (activatedDisk {} mirror (originOf env source pointer k plane generatedAt) d) :=
          agreeOff_activatedDisk
        have hget := hagree mirror.registryRoot
          (not_touched_above namesCurrent (List.prefix_refl _))
        rw [List.append_nil, get_emptiedDisk_congr hget, emptiedDisk, get_remaining] at hsome
        split at hsome
        · cases hsome
        · rw [hroot _ ((List.mem_inits _ _).mpr (List.prefix_refl _))] at hsome
          cases hsome
      | cons name rest =>
        rw [get_emptied_activated hshape (p := name :: rest) hplane] at hsome
        cases hsome

omit hcurrent hmounted in
theorem points_current : Points {} mirror d where
  createDistribution := by simp
  free := by
    refine free_below hshape fun q hq hne hpath => ?_
    have hcases : q = ["_distributions"] ∨ q = ["_distributions", "default"] := by
      have hmem := (List.mem_inits _ _).mpr hq
      simpa [pointerFile, hne] using hmem
    rcases hcases with rfl | rfl
    · rcases hpath with h | ⟨name, r, -, h⟩ | h
      · exact absurd h (by decide)
      · simp at h
      · simp [pointerFile] at h
    · rcases hpath with h | ⟨name, r, -, h⟩ | h
      · exact absurd h (by decide)
      · simp at h
      · simp [pointerFile] at h

omit hcurrent hmounted hshape in
theorem not_recordStops_current :
    ¬ RecordStops {} mirror (originOf env source pointer k plane generatedAt) := by
  rintro (h | ⟨-, h | h | h⟩)
  · cases h
  · cases h
  · rw [originOf, manifestJson_repositoryVersionId] at h
    cases h
  · rw [originOf, pointerJson_updatedAt] at h
    cases h

/-- The files that a synchronisation without errors leaves. -/
def syncedDisk (codec : JsonCodec) (mirror : MirrorConfig) (origin : OriginPublication) (d : Disk) :
    Disk :=
  pointedDisk {} codec mirror origin (servingDisk {} mirror (activatedDisk {} mirror origin d)
    (publicationPlace mirror origin.publicationId))

/-- A synchronisation without errors goes through. -/
theorem runMirrorSyncOnce_current (hmirror : MirrorsRoot mirror source)
    (hjson : ReadsJson env codec) {h : MirrorHost} (hd : h.disk = d) :
    (runMirrorSyncOnce {} env codec mirror h).1 = 0 ∧
      (runMirrorSyncOnce {} env codec mirror h).2.disk = syncedDisk codec mirror
        (originOf env source pointer k plane generatedAt) d := by
  subst hd
  have hreads : Reads {} codec mirror (originOf env source pointer k plane generatedAt) h.disk :=
    ⟨by simp, readOrigin_current hmirror hjson hcurrent hmounted, by simp, hshape.free⟩
  have hsame : ∀ {origin}, Reads {} codec mirror origin h.disk →
      origin = originOf env source pointer k plane generatedAt := fun hreads' =>
    Except.ok.inj (hreads'.origin.symm.trans hreads.origin)
  have hfetches := fetches_current hcurrent hmounted hshape
  have hactivates := activates_current hcurrent hmounted hshape
  have hplane := not_planeStops_current env source k pointer plane generatedAt hshape
  have hends := syncEnds_runMirrorSyncOnce {} env codec mirror h
  generalize (runMirrorSyncOnce {} env codec mirror h).1 = status at hends ⊢
  generalize (runMirrorSyncOnce {} env codec mirror h).2.disk = d' at hends ⊢
  cases hends with
  | unread hnone => exact (hnone _ hreads).elim
  | unfetched hreads' hstops _ =>
    obtain rfl := hsame hreads'
    exact (hstops hfetches).elim
  | withdrawn hreads' _ hstops =>
    obtain rfl := hsame hreads'
    exact (hstops hactivates).elim
  | serving hreads' _ _ hstops =>
    obtain rfl := hsame hreads'
    rcases hstops with hstops | hstops
    · exact (hplane hstops).elim
    · exact (hstops ((points_serving namesCurrent).mpr (points_current hshape))).elim
  | pointed hreads' _ _ _ _ hstatus =>
    obtain rfl := hsame hreads'
    rcases hstatus with ⟨rfl, -⟩ | ⟨-, hstops⟩
    · exact ⟨rfl, rfl⟩
    · exact (not_recordStops_current hstops).elim

/-- What the synchronisation brings, and that it leaves everything else. -/
theorem synced_syncedDisk (hjson : ReadsJson env codec) : Synced env mirror w k d
    (syncedDisk codec mirror (originOf env source pointer k plane generatedAt) d) := by
  have hactivates := activates_current hcurrent hmounted hshape
  have hplane := not_planeStops_current env source k pointer plane generatedAt hshape
  have hpublication : ∀ p, (activatedDisk {} mirror
      (originOf env source pointer k plane generatedAt) d).get
        (mirror.registryRoot ++ publicationPath (publicationIdFor k) ++ p) =
      (onDisk env w.root).get (publicationPath (publicationIdFor k) ++ p) := by
    intro p
    have hget := get_activatedDisk namesCurrent hactivates (p := p)
    rw [get_fetchedDisk hmounted hshape] at hget
    rw [← hget, publicationPath, List.append_assoc]
    rfl
  constructor
  · intro p hp
    have hne : mirror.registryRoot ++ p ≠ mirror.registryRoot ++ pointerFile := by
      intro heq
      rw [List.append_cancel_left_eq] at heq
      subst heq
      exact absurd hp (by decide)
    have hnot : inReadPlane (publicationPath (publicationIdFor k) ++ p) = false := by
      simp [publicationPath, inReadPlane, readPlaneEntries]
    rw [syncedDisk, get_pointedDisk_of_ne hne, get_serving_plane namesCurrent hp,
      get_emptiedDisk_plane hshape hp, Option.or_none, broughtEntries, if_neg hplane,
      servedEntries_activated hshape, get_restrict, if_pos hp, get_subtree, emptiedDisk,
      get_remaining, namesCurrent.publication]
    rw [if_neg, ← hpublication p]
    · rfl
    · rw [List.append_assoc, List.drop_left]
      exact fun h => Bool.false_ne_true (hnot.symm.trans (Bool.and_eq_true_iff.mp h).2)
  · intro p
    have hne : mirror.registryRoot ++ publicationPath (publicationIdFor k) ++ p ≠
        mirror.registryRoot ++ pointerFile := by
      intro heq
      rw [List.append_assoc, List.append_cancel_left_eq] at heq
      simp [publicationPath, pointerFile] at heq
    rw [syncedDisk, get_pointedDisk_of_ne hne, ← hpublication p, List.append_assoc]
    exact get_serving_publications
  · have hdirectory : d.isDirectory (mirror.registryRoot ++ pointerFile) = false := by
      by_contra h
      obtain ⟨q, b, hq, hb⟩ := isDirectory_iff.mp (eq_true_of_ne_false h)
      rw [List.append_assoc, hshape.none (not_mirrorPath_below_pointer hq)] at hb
      cases hb
    rw [syncedDisk, get_pointedDisk_pointer namesCurrent, writtenPointer, hdirectory, onDisk, get_map,
      show pointerFile = distributionPointerPath "default" by decide, hcurrent.get]
    exact congrArg some (hjson.print pointer)
  · intro p hrest
    have hne : p ≠ mirror.registryRoot ++ pointerFile := fun heq => (hrest _ heq).2.2 rfl
    rw [syncedDisk, get_pointedDisk_of_ne hne, agreeOff_servingDisk]
    · by_cases htouched : Touched mirror (originOf env source pointer k plane generatedAt) p
      · rcases htouched with hbelow | hbelow
        · rw [namesCurrent.temporary] at hbelow
          obtain ⟨q, rfl⟩ := hbelow
          have hnone := hshape.none (not_mirrorPath_tmp (p := ["mirror", publicationIdFor k] ++ q))
          rw [activatedDisk, namesCurrent.temporary, get_rename_source, List.append_assoc]
          · exact hnone.symm
          · rw [namesCurrent.publication, List.append_assoc, List.prefix_append_right_inj]
            simp
        · rw [namesCurrent.publication] at hbelow
          obtain ⟨q, rfl⟩ := hbelow
          exact ((hrest _ (List.append_assoc ..)).2.1 (List.prefix_append _ _)).elim
      · exact agreeOff_activatedDisk _ htouched
    · rintro ⟨q, hq, hplane⟩
      rw [(hrest q hq).1] at hplane
      cases hplane

end Target

theorem CurrentPublication.inReadPlane
    (hcurrent : CurrentPublication env cfg w pointer k plane generatedAt)
    (hp : inMirrorPlane p = true)
    (hsome : ((onDisk env w.root).get (publicationPath (publicationIdFor k) ++ p)).isSome) :
    inReadPlane p = true := by
  cases p with
  | nil => cases hp
  | cons name rest =>
    have hentry : name ∈ mirrorEntries := by simpa [inMirrorPlane] using hp
    have hmanifest : name :: rest ≠ ["publication.json"] := by
      intro heq
      rw [heq] at hp
      exact absurd hp (by decide)
    rw [onDisk, get_map, Option.isSome_map, ← get_subtree,
      hcurrent.holds.plane _ (by simp) hmanifest] at hsome
    simp only [mirrorEntries, List.mem_cons, List.not_mem_nil, or_false] at hentry
    rcases hentry with rfl | rfl | rfl | rfl | rfl
    · rw [hcurrent.laidOut.configFile rest hsome]
      rfl
    · rfl
    · rfl
    · rfl
    · rfl

/-- The mirror keeps its shape. -/
theorem Synced.mirrorShape (hcurrent : CurrentPublication env cfg w pointer k plane generatedAt)
    (h : Synced env mirror w k d d') (hshape : MirrorShape mirror d) : MirrorShape mirror d' where
  free q hq := by
    rw [h.rest q, hshape.free q hq]
    rintro r rfl
    have hr : r = [] := by
      have hlength := ((List.mem_inits _ _).mp hq).length_le
      rw [List.length_append] at hlength
      exact List.eq_nil_of_length_eq_zero (by omega)
    rw [hr]
    refine ⟨rfl, ?_, by decide⟩
    simp [publicationPath]
  files p hp := by
    by_cases hplane : inMirrorPlane p = true
    · rw [h.plane p hplane] at hp
      exact .inl (hcurrent.inReadPlane hplane hp)
    · by_cases hpublication : publicationPath (publicationIdFor k) <+: p
      · obtain ⟨q, rfl⟩ := hpublication
        refine .inr (.inl ⟨publicationIdFor k, q, ?_, rfl⟩)
        rintro rfl
        rw [← List.append_assoc, h.publication, List.append_nil, onDisk, get_map,
          hcurrent.file] at hp
        cases hp
      · by_cases hpointer : p = pointerFile
        · exact .inr (.inr hpointer)
        · rw [h.rest] at hp
          · exact hshape.files p hp
          · intro q hq
            rw [List.append_cancel_left_eq] at hq
            subst hq
            exact ⟨eq_false_of_ne_true hplane, hpublication, hpointer⟩

theorem Synced.mounted (h : Synced env mirror w k d d') (hmirror : MirrorsRoot mirror source)
    (hmounted : Mounted env source w d) : Mounted env source w d' := by
  intro q
  rw [h.rest, hmounted q]
  intro r hr
  have hbelow : mirror.registryRoot <+: source ++ q := hr ▸ List.prefix_append _ _
  rcases List.prefix_or_prefix_of_prefix hbelow (List.prefix_append source q) with h | h
  · exact (hmirror.target_apart h).elim
  · exact (hmirror.source_apart h).elim

/-- A second synchronisation brings what is there. -/
theorem Synced.again {d'' : Disk} (h : Synced env mirror w k d d')
    (h' : Synced env mirror w k d' d'') : d'' = d' := by
  refine FileTree.ext fun p => ?_
  by_cases hroot : mirror.registryRoot <+: p
  · obtain ⟨q, rfl⟩ := hroot
    by_cases hplane : inMirrorPlane q = true
    · rw [h'.plane q hplane, h.plane q hplane]
    · by_cases hpublication : publicationPath (publicationIdFor k) <+: q
      · obtain ⟨r, rfl⟩ := hpublication
        rw [← List.append_assoc, h'.publication, h.publication]
      · by_cases hpointer : q = pointerFile
        · rw [hpointer, h'.pointer, h.pointer]
        · refine h'.rest _ fun r hr => ?_
          rw [List.append_cancel_left_eq] at hr
          subst hr
          exact ⟨eq_false_of_ne_true hplane, hpublication, hpointer⟩
  · exact h'.rest p fun q hq => (hroot (hq ▸ List.prefix_append _ _)).elim

end Sync

section System

/-- The disk of the mirror with the files of the origin as they are now. -/
def mount (env : Environment) (source : Path) (w : World) (d : Disk) : Disk :=
  (d.removeAll source).graft source (onDisk env w.root)

theorem mounted_mount : Mounted env source w (mount env source w d) := by
  intro q
  rw [mount, get_graft_append, get_removeAll_append, Option.or_none]

theorem get_mount_of_not_below (hp : ¬ source <+: p) : (mount env source w d).get p = d.get p := by
  rw [mount, get_graft_of_not_below hp, get_removeAll_of_not_below hp]

/-- One step of an origin and its mirror: a request of the kind that was answered with 200, or a
synchronisation. -/
inductive SystemStep (env : Environment) (codec : JsonCodec) (cfg : PlatformConfig)
    (mirror : MirrorConfig) (source : Path) (allowed : Request → Prop) :
    World × MirrorHost → World × MirrorHost → Prop where
  | request {w w' : World} {h : MirrorHost} {host : Host} {request : Request}
      (hallowed : allowed request) (hs : Succeeds env cfg host request w w') :
      SystemStep env codec cfg mirror source allowed (w, h)
        (w', { h with disk := mount env source w' h.disk })
  | sync {w : World} {h : MirrorHost} :
      SystemStep env codec cfg mirror source allowed (w, h)
        (w, (runMirrorSyncOnce {} env codec mirror h).2)

/-- A new registry and a mirror root without files. -/
structure MirrorStart (env : Environment) (mirror : MirrorConfig) (source : Path) (w : World)
    (h : MirrorHost) : Prop where
  initial : Initial w
  mounted : Mounted env source w h.disk
  free : Free h.disk mirror.registryRoot
  empty : ∀ p, h.disk.get (mirror.registryRoot ++ p) = none

/-- The state of an origin and its mirror. -/
structure SystemInOrder (env : Environment) (cfg : PlatformConfig) (mirror : MirrorConfig)
    (source : Path) (w : World) (h : MirrorHost) : Prop where
  inOrder : ∃ n, InOrder env cfg n w
  mounted : Mounted env source w h.disk
  shape : MirrorShape mirror h.disk

variable {h h' : MirrorHost}

theorem MirrorStart.inOrder (hstart : MirrorStart env mirror source w h) :
    SystemInOrder env cfg mirror source w h where
  inOrder := ⟨0, .of_initial hstart.initial⟩
  mounted := hstart.mounted
  shape := ⟨hstart.free, fun p hp => by
    rw [hstart.empty] at hp
    cases hp⟩

theorem MirrorShape.mount (hshape : MirrorShape mirror d) (hmirror : MirrorsRoot mirror source) :
    MirrorShape mirror (mount env source w d) where
  free q hq := by
    rw [get_mount_of_not_below, hshape.free q hq]
    exact fun h => hmirror.source_apart (h.trans ((List.mem_inits _ _).mp hq))
  files p hp := by
    refine hshape.files p ?_
    rwa [get_mount_of_not_below] at hp
    intro h
    rcases List.prefix_or_prefix_of_prefix h (List.prefix_append mirror.registryRoot p) with h | h
    · exact hmirror.source_apart h
    · exact hmirror.target_apart h

/-- While nothing is published there is no origin to read. -/
theorem not_reads_of_empty (hmirror : MirrorsRoot mirror source) (hempty : w.root = .empty)
    (hmounted : Mounted env source w d) (origin : OriginPublication) :
    ¬ Reads {} codec mirror origin d := by
  intro hreads
  have hread := hreads.origin
  rw [readOrigin, hmirror.sourceRoot] at hread
  obtain ⟨_, hdirectory, -⟩ := bind_ok_iff.mp hread
  obtain ⟨q, b, -, hb⟩ := isDirectory_iff.mp (demand_eq_ok.mp hdirectory)
  rw [hmounted, hempty] at hb
  cases hb

theorem disk_of_not_reads (hnone : ∀ origin, ¬ Reads {} codec mirror origin h.disk) :
    (runMirrorSyncOnce {} env codec mirror h).2.disk = h.disk := by
  have hends := syncEnds_runMirrorSyncOnce {} env codec mirror h
  generalize (runMirrorSyncOnce {} env codec mirror h).1 = status at hends
  generalize (runMirrorSyncOnce {} env codec mirror h).2.disk = d' at hends ⊢
  cases hends with
  | unread _ => rfl
  | unfetched hreads => exact (hnone _ hreads).elim
  | withdrawn hreads => exact (hnone _ hreads).elim
  | serving hreads => exact (hnone _ hreads).elim
  | pointed hreads => exact (hnone _ hreads).elim

/-- Every step keeps origin and mirror in order. -/
theorem SystemInOrder.step {w' : World} (hlocal : cfg.usesS3ObjectStore = false)
    (hmirror : MirrorsRoot mirror source) (hjson : ReadsJson env codec)
    (hsystem : SystemInOrder env cfg mirror source w h)
    (hstep : SystemStep env codec cfg mirror source NamesPlainly (w, h) (w', h')) :
    SystemInOrder env cfg mirror source w' h' := by
  obtain ⟨n, hn⟩ := hsystem.inOrder
  cases hstep with
  | request hplain hs =>
    obtain ⟨n', -, hn'⟩ := hn.succeeds hlocal hplain hs
    exact ⟨⟨n', hn'⟩, mounted_mount, hsystem.shape.mount hmirror⟩
  | sync =>
    refine ⟨⟨n, hn⟩, ?_, ?_⟩
    · rcases Nat.eq_zero_or_pos n with rfl | hpos
      · obtain ⟨s, hrep⟩ := hn.represents
        rw [disk_of_not_reads (not_reads_of_empty hmirror (hrep.empty rfl) hsystem.mounted)]
        exact hsystem.mounted
      · obtain ⟨pointer, k, plane, generatedAt, hcurrent⟩ := hn.current hpos
        rw [(runMirrorSyncOnce_current hcurrent hsystem.mounted hsystem.shape hmirror hjson rfl).2]
        exact (synced_syncedDisk hcurrent hsystem.mounted hsystem.shape hjson).mounted hmirror
          hsystem.mounted
    · rcases Nat.eq_zero_or_pos n with rfl | hpos
      · obtain ⟨s, hrep⟩ := hn.represents
        rw [disk_of_not_reads (not_reads_of_empty hmirror (hrep.empty rfl) hsystem.mounted)]
        exact hsystem.shape
      · obtain ⟨pointer, k, plane, generatedAt, hcurrent⟩ := hn.current hpos
        rw [(runMirrorSyncOnce_current hcurrent hsystem.mounted hsystem.shape hmirror hjson rfl).2]
        exact (synced_syncedDisk hcurrent hsystem.mounted hsystem.shape hjson).mirrorShape hcurrent
          hsystem.shape

theorem SystemInOrder.run {w₀ : World} {h₀ : MirrorHost} (hlocal : cfg.usesS3ObjectStore = false)
    (hmirror : MirrorsRoot mirror source) (hjson : ReadsJson env codec)
    (hstart : SystemInOrder env cfg mirror source w₀ h₀)
    (hrun : Relation.ReflTransGen (SystemStep env codec cfg mirror source NamesPlainly)
      (w₀, h₀) (w, h)) : SystemInOrder env cfg mirror source w h := by
  have hall : ∀ x, Relation.ReflTransGen (SystemStep env codec cfg mirror source NamesPlainly)
      (w₀, h₀) x → SystemInOrder env cfg mirror source x.1 x.2 := by
    intro x hx
    induction hx with
    | refl => exact hstart
    | tail _ hstep ih => exact ih.step hlocal hmirror hjson hstep
  exact hall _ hrun

/-- A synchronisation succeeds, the mirror then serves the current publication of the origin, keeps
it and points to it, and a second synchronisation changes no file. -/
structure CopiesCurrent (env : Environment) (codec : JsonCodec) (cfg : PlatformConfig)
    (mirror : MirrorConfig) (w : World) (h : MirrorHost) : Prop where
  status : (runMirrorSyncOnce {} env codec mirror h).1 = 0
  publication : ∃ pointer root,
    w.root.get (distributionPointerPath "default") = some (.json (.pointer pointer)) ∧
    publicationRoot cfg w.root pointer.publicationId = some root ∧
    let d' := (runMirrorSyncOnce {} env codec mirror h).2.disk
    (∀ p, inMirrorPlane p = true →
      d'.get (mirror.registryRoot ++ p) = (onDisk env w.root).get (root ++ p)) ∧
    (∀ p, d'.get (publicationPlace mirror pointer.publicationId ++ p) =
      (onDisk env w.root).get (root ++ p)) ∧
    d'.get (mirror.registryRoot ++ pointerFile) =
      (onDisk env w.root).get (distributionPointerPath "default")
  again : (runMirrorSyncOnce {} env codec mirror (runMirrorSyncOnce {} env codec mirror h).2).1 = 0
  same : (runMirrorSyncOnce {} env codec mirror (runMirrorSyncOnce {} env codec mirror h).2).2.disk =
    (runMirrorSyncOnce {} env codec mirror h).2.disk

/-- In every run in which promotes name publications by plain ids, a mirror of an origin that has
published copies the current publication exactly. -/
theorem mirror_copies_current {w₀ : World} {h₀ : MirrorHost}
    (hlocal : cfg.usesS3ObjectStore = false) (hmirror : MirrorsRoot mirror source)
    (hjson : ReadsJson env codec) (hstart : MirrorStart env mirror source w₀ h₀)
    (hrun : Relation.ReflTransGen (SystemStep env codec cfg mirror source NamesPlainly)
      (w₀, h₀) (w, h))
    (hpublished : (w.root.get (distributionPointerPath "default")).isSome) :
    CopiesCurrent env codec cfg mirror w h := by
  have hinitial : SystemInOrder env cfg mirror source w₀ h₀ := hstart.inOrder
  have hsystem := SystemInOrder.run hlocal hmirror hjson hinitial hrun
  obtain ⟨n, hn⟩ := hsystem.inOrder
  have hpos : 1 ≤ n := by
    rcases Nat.eq_zero_or_pos n with rfl | hpos
    · obtain ⟨s, hrep⟩ := hn.represents
      rw [hrep.empty rfl] at hpublished
      cases hpublished
    · exact hpos
  obtain ⟨pointer, k, plane, generatedAt, hcurrent⟩ := hn.current hpos
  obtain ⟨hstatus, hdisk⟩ :=
    runMirrorSyncOnce_current hcurrent hsystem.mounted hsystem.shape hmirror hjson rfl
  have hsynced := synced_syncedDisk hcurrent hsystem.mounted hsystem.shape hjson
  rw [← hdisk] at hsynced
  obtain ⟨hstatus', hdisk'⟩ := runMirrorSyncOnce_current hcurrent
    (hsynced.mounted hmirror hsystem.mounted) (hsynced.mirrorShape hcurrent hsystem.shape) hmirror
    hjson rfl
  have hsynced' := synced_syncedDisk hcurrent (hsynced.mounted hmirror hsystem.mounted)
    (hsynced.mirrorShape hcurrent hsystem.shape) hjson
  rw [← hdisk'] at hsynced'
  have hdirectory : w.root.isDirectory (publicationPath (publicationIdFor k)) = true :=
    isDirectory_iff.mpr ⟨["publication.json"], _, by simp, hcurrent.holds.manifest⟩
  refine ⟨hstatus, ⟨pointer, publicationPath (publicationIdFor k), hcurrent.get, ?_, hsynced.plane,
    fun p => ?_, ?_⟩, hstatus', hsynced.again hsynced'⟩
  · rw [hcurrent.publicationId]
    exact publicationRoot_publicationIdFor hdirectory
  · rw [hcurrent.publicationId,
      (namesPublication_of_isPlainId isPlainId_publicationIdFor).publication]
    exact hsynced.publication p
  · rw [show distributionPointerPath "default" = pointerFile by decide]
    exact hsynced.pointer

/-- The temporary place is that of the publication of the origin: it is removed before the copy. -/
theorem sync_fails_on_origin_place (hplace : ∀ origin, Reads {} codec mirror origin h.disk →
    temporaryPlace mirror origin.publicationId <+: origin.root) :
    (runMirrorSyncOnce {} env codec mirror h).1 = 1 := by
  have hends := syncEnds_runMirrorSyncOnce {} env codec mirror h
  have hnot : ∀ {origin}, Reads {} codec mirror origin h.disk →
      ¬ Fetches {} env mirror origin h.disk := by
    intro origin hreads hfetches
    obtain ⟨q, b, -, hb⟩ := isDirectory_iff.mp hfetches.source
    have hbelow := (hplace origin hreads).trans (List.prefix_append _ q)
    rw [preparedDisk, get_remaining, if_pos (by simpa using hbelow)] at hb
    cases hb
  generalize (runMirrorSyncOnce {} env codec mirror h).1 = status at hends ⊢
  generalize (runMirrorSyncOnce {} env codec mirror h).2.disk = d' at hends
  cases hends with
  | unread _ => rfl
  | unfetched _ => rfl
  | withdrawn hreads hfetches => exact (hnot hreads hfetches).elim
  | serving hreads hfetches => exact (hnot hreads hfetches).elim
  | pointed hreads hfetches => exact (hnot hreads hfetches).elim

end System

section Sample

def codes (s : String) : List ℕ := s.toList.map Char.toNat

def ofCodes (l : List ℕ) : String := String.ofList (l.map Char.ofNat)

/-- A value without members of its own, as numbers. -/
def leafCodes : Json → List ℕ
  | .string s => 0 :: codes s
  | .int n => [1, Encodable.encode n]
  | .bool b => [2, b.toNat]
  | _ => []

def leafOfCodes : List ℕ → Json
  | 0 :: l => .string (ofCodes l)
  | [1, n] => .int ((Encodable.decode n).getD 0)
  | [2, b] => .bool (b == 1)
  | _ => .null

def IsLeaf : Json → Prop
  | .string _ => True
  | .int _ => True
  | .bool _ => True
  | _ => False

/-- Each number is written in ones, between them a zero. -/
def ones (l : List ℕ) : Bytes := [0].intercalate ([] :: l.map fun n => List.replicate n 1)

def ofOnes (bytes : Bytes) : List ℕ := (bytes.splitOn 0).tail.map List.length

/-- Between two lists stands a zero. -/
def zeroBetween (pieces : List (List ℕ)) : List ℕ :=
  [0].intercalate ([] :: pieces.map fun l => l.map (· + 1))

def ofZeroBetween (l : List ℕ) : List (List ℕ) := (l.splitOn 0).tail.map fun l => l.map (· - 1)

def fieldsOf : List (List ℕ) → List (String × Json)
  | name :: value :: rest => (ofCodes name, leafOfCodes value) :: fieldsOf rest
  | _ => []

/-- A JSON library for objects without objects in them. -/
@[irreducible] def flatCodec : JsonCodec where
  print
    | .object fields => ones (zeroBetween (fields.flatMap fun x => [codes x.1, leafCodes x.2]))
    | _ => []
  parse bytes := some (.object (fieldsOf (ofZeroBetween (ofOnes bytes))))

theorem ofCodes_codes (s : String) : ofCodes (codes s) = s := by
  have hchars : (s.toList.map Char.toNat).map Char.ofNat = s.toList := by
    rw [List.map_map]
    exact List.map_id'' (fun c => Char.ofNat_toNat c) _
  rw [ofCodes, codes, hchars, String.ofList_toList]

theorem leafOfCodes_leafCodes {j : Json} (h : IsLeaf j) : leafOfCodes (leafCodes j) = j := by
  cases j with
  | string s => exact congrArg Json.string (ofCodes_codes s)
  | int n => exact congrArg (fun n => Json.int (Option.getD n 0)) (Encodable.encodek n)
  | bool b => cases b <;> rfl
  | null => cases h
  | float x => cases h
  | array l => cases h
  | object fields => cases h

theorem ofOnes_ones (l : List ℕ) : ofOnes (ones l) = l := by
  rw [ofOnes, ones, List.splitOn_intercalate]
  · simp [Function.comp_def]
  · intro piece hpiece
    rcases List.mem_cons.mp hpiece with rfl | hpiece
    · simp
    · obtain ⟨n, -, rfl⟩ := List.mem_map.mp hpiece
      simp [List.mem_replicate]
  · simp

theorem ofZeroBetween_zeroBetween (pieces : List (List ℕ)) : ofZeroBetween (zeroBetween pieces) = pieces := by
  rw [ofZeroBetween, zeroBetween, List.splitOn_intercalate]
  · simp [Function.comp_def]
  · intro piece hpiece
    rcases List.mem_cons.mp hpiece with rfl | hpiece
    · simp
    · obtain ⟨l, -, rfl⟩ := List.mem_map.mp hpiece
      simp
  · simp

theorem fieldsOf_codes {fields : List (String × Json)} (h : ∀ x ∈ fields, IsLeaf x.2) :
    fieldsOf (fields.flatMap fun x => [codes x.1, leafCodes x.2]) = fields := by
  induction fields with
  | nil => rfl
  | cons x fields ih =>
    have hleaf := leafOfCodes_leafCodes (h x List.mem_cons_self)
    have htail := ih fun y hy => h y (List.mem_cons_of_mem _ hy)
    simp only [List.flatMap_cons, List.cons_append, List.nil_append, fieldsOf, ofCodes_codes, hleaf,
      htail]

theorem parse_print_ofFields {fields : List (String × Json)} (h : ∀ x ∈ fields, IsLeaf x.2) :
    flatCodec.parse (flatCodec.print (.ofFields fields)) = some (.ofFields fields) := by
  have hleaves : ∀ (l : List (String × Json)) (acc : List (String × Json)),
      (∀ x ∈ l, IsLeaf x.2) → (∀ x ∈ acc, IsLeaf x.2) →
      ∀ x ∈ l.foldl (fun acc x => setKey acc x.1 x.2) acc, IsLeaf x.2 := by
    intro l
    induction l with
    | nil => exact fun acc _ hacc => hacc
    | cons y l ih =>
      intro acc hl hacc
      refine ih _ (fun x hx => hl x (List.mem_cons_of_mem _ hx)) fun x hx => ?_
      rcases mem_setKey.mp hx with rfl | ⟨hx, -⟩
      · exact hl y List.mem_cons_self
      · exact hacc x hx
  have hall := hleaves fields [] h (by simp)
  simp only [Json.ofFields, flatCodec, ofOnes_ones, ofZeroBetween_zeroBetween, fieldsOf_codes hall]

theorem parse_print_pointerJson (d : DistributionPointer) :
    flatCodec.parse (flatCodec.print (pointerJson d)) = some (pointerJson d) := by
  rw [pointerJson]
  refine parse_print_ofFields fun x hx => ?_
  simp only [List.mem_append, List.mem_cons, List.not_mem_nil, or_false, List.mem_map] at hx
  rcases hx with (rfl | rfl | rfl | rfl) | ⟨id, -, rfl⟩ <;> trivial

theorem parse_print_manifestJson (m : PublicationManifest) :
    flatCodec.parse (flatCodec.print (manifestJson m)) = some (manifestJson m) := by
  rw [manifestJson]
  refine parse_print_ofFields fun x hx => ?_
  simp only [List.mem_cons, List.not_mem_nil, or_false] at hx
  rcases hx with rfl | rfl | rfl | rfl | rfl | rfl | rfl | rfl | rfl | rfl <;> trivial

/-- Texts of pointers and manifests that can be read again. -/
def readableText : Document → Bytes
  | .pointer d => flatCodec.print (pointerJson d)
  | .publication m => flatCodec.print (manifestJson m)
  | _ => []

theorem readableText_pointer (d : DistributionPointer) :
    readableText (.pointer d) = flatCodec.print (pointerJson d) := by
  rw [readableText]

theorem readableText_publication (m : PublicationManifest) :
    readableText (.publication m) = flatCodec.print (manifestJson m) := by
  rw [readableText]

/-- The sample environment with these texts. -/
def readableEnvironment : Environment :=
  { sampleEnvironment with jsonText := readableText }

theorem readableEnvironment_readsJson : ReadsJson readableEnvironment flatCodec where
  pointer d := (congrArg flatCodec.parse (readableText_pointer d)).trans (parse_print_pointerJson d)
  manifest m :=
    (congrArg flatCodec.parse (readableText_publication m)).trans (parse_print_manifestJson m)
  print d := (readableText_pointer d).symm

/-- A mirror of the sample registry. -/
def sampleMirror : MirrorConfig where
  mirrorSourceRoot := some ["srv", "registry"]
  registryRoot := ["srv", "mirror"]
  mirrorId := "mirror-1"
  region := "region"
  mirrorOrigin := "origin"

theorem sampleMirror_mirrorsRoot : MirrorsRoot sampleMirror ["srv", "registry"] := by
  constructor <;> decide

/-- The sample registry after the requests, and the files its mirror sees. -/
def systemAfter : List Request → World × MirrorHost → World × MirrorHost
  | [], x => x
  | r :: rest, x =>
    let w := (handleRequest readableEnvironment sampleConfig sampleHost none r x.1).2
    systemAfter rest
      (w, { x.2 with disk := mount readableEnvironment ["srv", "registry"] w x.2.disk })

theorem systemRun_of_accepts {allowed : Request → Prop} {requests : List Request}
    {x : World × MirrorHost} (hallowed : ∀ r ∈ requests, allowed r)
    (h : accepts readableEnvironment sampleConfig sampleHost requests x.1 = true) :
    Relation.ReflTransGen (SystemStep readableEnvironment flatCodec sampleConfig sampleMirror
      ["srv", "registry"] allowed) x (systemAfter requests x) := by
  induction requests generalizing x with
  | nil => exact .refl
  | cons r rest ih =>
    rw [accepts, Bool.and_eq_true, beq_iff_eq] at h
    exact .head (.request (hallowed r List.mem_cons_self) (succeeds_of_answerStatus h.1))
      (ih (fun r hr => hallowed r (List.mem_cons_of_mem _ hr)) h.2)

theorem sampleStart_mirrorStart :
    MirrorStart readableEnvironment sampleMirror ["srv", "registry"] sampleStart
      { disk := .empty } where
  initial := sampleStart_initial
  mounted _ := rfl
  free _ _ := rfl
  empty _ := rfl

/-- One release has been published. -/
def published : World × MirrorHost :=
  systemAfter [publishOf "a/b" "1" "one"] (sampleStart, { disk := .empty })

/-- The publication of that release has then been promoted by its place on the host. -/
def promotedByPlace : World × MirrorHost :=
  systemAfter [publishOf "a/b" "1" "one", promoteOf "/srv/registry/_publications/pub-000001"]
    (sampleStart, { disk := .empty })

theorem published_current : CopiesCurrent readableEnvironment flatCodec sampleConfig sampleMirror
    published.1 published.2 := by
  have hrun : Relation.ReflTransGen (SystemStep readableEnvironment flatCodec sampleConfig
      sampleMirror ["srv", "registry"] NamesPlainly) (sampleStart, { disk := .empty }) published :=
    systemRun_of_accepts (by simp [publishOf, NamesPlainly]) (by decide +kernel)
  exact mirror_copies_current rfl sampleMirror_mirrorsRoot readableEnvironment_readsJson
    sampleStart_mirrorStart hrun (by decide +kernel)

/-- The temporary place of an absolute id is the place of the publication: the synchronisation
removes what it is about to copy. -/
theorem place_promoted_not_copied :
    Relation.ReflTransGen (SystemStep readableEnvironment flatCodec sampleConfig sampleMirror
      ["srv", "registry"] fun _ => True) (sampleStart, { disk := .empty }) promotedByPlace ∧
    (promotedByPlace.1.root.get (distributionPointerPath "default")).isSome = true ∧
    ¬ CopiesCurrent readableEnvironment flatCodec sampleConfig sampleMirror promotedByPlace.1
      promotedByPlace.2 := by
  refine ⟨systemRun_of_accepts (fun _ _ => trivial) (by decide +kernel), by decide +kernel,
    fun hcurrent => ?_⟩
  have hread : (readOrigin flatCodec sampleMirror promotedByPlace.2.disk).map
      (fun o => (o.publicationId, o.root)) = .ok ("/srv/registry/_publications/pub-000001",
        ["srv", "registry", "_publications", "pub-000001"]) := by decide +kernel
  have hfails : (runMirrorSyncOnce {} readableEnvironment flatCodec sampleMirror
      promotedByPlace.2).1 = 1 := by
    refine sync_fails_on_origin_place fun origin hreads => ?_
    rw [hreads.origin] at hread
    obtain ⟨hid, hroot⟩ := Prod.mk.inj (Except.ok.inj hread)
    rw [hid, hroot]
    decide +kernel
  have hstatus := hcurrent.status
  rw [hfails] at hstatus
  cases hstatus

end Sample

end StyioPlatform.Registry
