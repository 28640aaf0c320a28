import StyioPlatform.Registry.MirrorStages
import StyioPlatform.Registry.System

/-! A mirror synchronisation that returns 1: the old publication and the read plane are removed
before the new ones are in their place, so the mirror serves what it served only where the
synchronisation stops before, or brings back what was there. -/
namespace StyioPlatform.Registry

open FileTree Prog

variable {turn : Disturbance} {env : Environment} {codec : JsonCodec} {cfg : MirrorConfig}
  {origin : OriginPublication} {d d' : Disk} {h : MirrorHost} {name : String} {p q : Path}

/-- The read plane of the mirror, its publications and its pointer are the same. -/
structure SameServed (cfg : MirrorConfig) (d d' : Disk) : Prop where
  plane : ∀ p, inMirrorPlane p = true →
    d'.get (cfg.registryRoot ++ p) = d.get (cfg.registryRoot ++ p)
  publications : ∀ name, d.isDirectory (cfg.registryRoot ++ ["_publications", name]) = true →
    ∀ p, d'.get (cfg.registryRoot ++ "_publications" :: name :: p) =
      d.get (cfg.registryRoot ++ "_publications" :: name :: p)
  pointer : d'.get (cfg.registryRoot ++ pointerFile) = d.get (cfg.registryRoot ++ pointerFile)

theorem SameServed.refl : SameServed cfg d d := ⟨fun _ _ => rfl, fun _ _ _ => rfl, rfl⟩

/-- The id names a publication of the mirror by one name, however it is spelled. -/
structure NamesPublication (cfg : MirrorConfig) (publicationId name : String) : Prop where
  temporary : temporaryPlace cfg publicationId = cfg.registryRoot ++ ["_tmp", "mirror", name]
  publication : publicationPlace cfg publicationId = cfg.registryRoot ++ ["_publications", name]

/-- The entries that are copied to the root, as far as the copy gets. -/
def broughtEntries (turn : Disturbance) (cfg : MirrorConfig) (d : Disk) (publicationRoot : Path) :
    Disk :=
  let emptied := emptiedDisk turn cfg d
  let entries := servedEntries cfg emptied publicationRoot
  if PlaneStops turn cfg d publicationRoot then brought turn emptied entries cfg.registryRoot
  else entries

/-- The content of the pointer after it was written. -/
def writtenPointer (turn : Disturbance) (codec : JsonCodec) (cfg : MirrorConfig)
    (origin : OriginPublication) (d : Disk) : Option Bytes :=
  let old := d.get (cfg.registryRoot ++ pointerFile)
  if d.isDirectory (cfg.registryRoot ++ pointerFile) then old
  else if turn.site = some .writePointer then turn.written.or old
  else some (codec.print origin.current)

section Regions

/-- The files that a synchronisation may touch before it writes the pointer. -/
def Touched (cfg : MirrorConfig) (origin : OriginPublication) (p : Path) : Prop :=
  temporaryPlace cfg origin.publicationId <+: p ∨ publicationPlace cfg origin.publicationId <+: p

theorem agreeOff_preparedDisk :
    AgreeOff (temporaryPlace cfg origin.publicationId <+: ·) d
      (preparedDisk turn cfg origin d) := by
  refine AgreeOff.refl.restrict fun q hq => ?_
  by_contra hbelow
  simp [hbelow] at hq

theorem agreeOff_fetchedDisk :
    AgreeOff (temporaryPlace cfg origin.publicationId <+: ·) d
      (fetchedDisk turn cfg origin d) :=
  agreeOff_preparedDisk.graft fun q _ _ => List.prefix_append _ q

theorem agreeOff_withdrawnDisk : AgreeOff (Touched cfg origin) d
    (withdrawnDisk turn cfg origin d) := by
  refine (agreeOff_fetchedDisk.mono fun p hp => Or.inl hp).restrict fun q hq => ?_
  by_contra hbelow
  have hnot : ¬ publicationPlace cfg origin.publicationId <+: q := fun hq => hbelow (Or.inr hq)
  simp [hnot] at hq

theorem agreeOff_activatedDisk : AgreeOff (Touched cfg origin) d
    (activatedDisk turn cfg origin d) :=
  agreeOff_withdrawnDisk.rename (fun _ hq => Or.inl hq) fun _ hq => Or.inr hq

theorem inMirrorPlane_of_inReadPlane (hp : inReadPlane p = true) : inMirrorPlane p = true := by
  cases p with
  | nil => cases hp
  | cons name rest =>
    simp only [inReadPlane, readPlaneEntries, Bool.or_eq_true, decide_eq_true_eq,
      Bool.and_eq_true, beq_iff_eq, List.mem_cons, List.not_mem_nil, or_false] at hp
    simp only [inMirrorPlane, List.head?_cons, Option.any_some, decide_eq_true_eq, mirrorEntries,
      List.mem_cons, List.not_mem_nil, or_false]
    tauto

/-- Only served entries are copied to the root. -/
theorem inMirrorPlane_of_servedEntries {publicationRoot : Path} {b : Bytes}
    (hget : (servedEntries cfg d publicationRoot).get p = some b) : inMirrorPlane p = true := by
  have hfold : ∀ names : List String, (∀ name ∈ names, name ∈ mirrorEntries) → ∀ u : Disk,
      (∀ q c, u.get q = some c → inMirrorPlane q = true) →
      ∀ q c, (names.foldl (landed d cfg.registryRoot) u).get q = some c →
        inMirrorPlane q = true := by
    intro names
    induction names with
    | nil => exact fun _ u hu => hu
    | cons name names ih =>
      intro hnames u hu
      refine ih (fun n hn => hnames n (List.mem_cons_of_mem _ hn)) _ ?_
      intro q c hq
      unfold landed at hq
      split at hq
      · exact hu q c hq
      · split at hq
        · rw [get_put] at hq
          split at hq
          · next heq =>
            subst heq
            simpa [inMirrorPlane] using hnames name List.mem_cons_self
          · rw [get_removeAll] at hq
            split at hq
            · cases hq
            · exact hu q c hq
        · exact hu q c hq
  refine hfold mirrorEntries (fun _ h => h) _ ?_ p b hget
  intro q c hq
  rw [get_restrict] at hq
  split at hq
  · next hplane => exact hplane
  · cases hq

theorem inMirrorPlane_of_broughtEntries {publicationRoot : Path} {b : Bytes}
    (hget : (broughtEntries turn cfg d publicationRoot).get p = some b) :
    inMirrorPlane p = true := by
  unfold broughtEntries at hget
  dsimp only at hget
  split at hget
  · rw [brought, get_restrict] at hget
    split at hget
    · exact inMirrorPlane_of_servedEntries hget
    · cases hget
  · exact inMirrorPlane_of_servedEntries hget

theorem servingDisk_eq {publicationRoot : Path} : servingDisk turn cfg d publicationRoot =
    (emptiedDisk turn cfg d).graft cfg.registryRoot
      (broughtEntries turn cfg d publicationRoot) := rfl

/-- The read plane after the copy. -/
theorem get_servingDisk {publicationRoot : Path} :
    (servingDisk turn cfg d publicationRoot).get (cfg.registryRoot ++ p) =
      ((broughtEntries turn cfg d publicationRoot).get p).or
        ((emptiedDisk turn cfg d).get (cfg.registryRoot ++ p)) := by
  rw [servingDisk_eq, get_graft_append]

theorem get_emptiedDisk_congr {q : Path} (hget : d'.get q = d.get q) :
    (emptiedDisk turn cfg d').get q = (emptiedDisk turn cfg d).get q := by
  rw [emptiedDisk, emptiedDisk, remaining, remaining, get_restrict, get_restrict, hget]

/-- Outside the read plane nothing is removed or copied. -/
theorem agreeOff_servingDisk {publicationRoot : Path} :
    AgreeOff (fun q => ∃ p, q = cfg.registryRoot ++ p ∧ inMirrorPlane p = true) d
      (servingDisk turn cfg d publicationRoot) := by
  refine AgreeOff.graft (AgreeOff.refl.restrict fun q hq => ?_) fun p b hget =>
    ⟨p, rfl, inMirrorPlane_of_broughtEntries hget⟩
  by_cases hroot : cfg.registryRoot <+: q
  · obtain ⟨p, rfl⟩ := hroot
    dsimp only at hq
    rw [List.drop_left] at hq
    refine ⟨p, rfl, inMirrorPlane_of_inReadPlane ?_⟩
    by_contra hplane
    simp [hplane] at hq
  · simp [hroot] at hq

end Regions

section Named

variable (hname : NamesPublication cfg origin.publicationId name)

include hname

theorem temporary_below_iff {p : Path} : temporaryPlace cfg origin.publicationId <+:
    cfg.registryRoot ++ p ↔ ["_tmp", "mirror", name] <+: p := by
  rw [hname.temporary, List.prefix_append_right_inj]

theorem publication_below_iff {p : Path} : publicationPlace cfg origin.publicationId <+:
    cfg.registryRoot ++ p ↔ ["_publications", name] <+: p := by
  rw [hname.publication, List.prefix_append_right_inj]

theorem not_touched_of_plane (hp : inMirrorPlane p = true) :
    ¬ Touched cfg origin (cfg.registryRoot ++ p) := by
  rw [Touched, temporary_below_iff hname, publication_below_iff hname]
  rintro (⟨q, rfl⟩ | ⟨q, rfl⟩)
  · simp [inMirrorPlane, mirrorEntries] at hp
  · simp [inMirrorPlane, mirrorEntries] at hp

theorem not_touched_of_distributions :
    ¬ Touched cfg origin (cfg.registryRoot ++ "_distributions" :: p) := by
  rw [Touched, temporary_below_iff hname, publication_below_iff hname]
  rintro (⟨q, hq⟩ | ⟨q, hq⟩)
  · simp at hq
  · simp at hq

theorem not_touched_above (hp : p <+: cfg.registryRoot) : ¬ Touched cfg origin p := by
  rw [Touched, hname.temporary, hname.publication]
  have hlength := hp.length_le
  rintro (hq | hq)
  · have := hq.length_le
    simp at this
    omega
  · have := hq.length_le
    simp at this
    omega

/-- The new publication in its place. -/
theorem get_activatedDisk (hactivates : Activates turn cfg origin d) :
    (activatedDisk turn cfg origin d).get
        (cfg.registryRoot ++ "_publications" :: name :: p) =
      (fetchedDisk turn cfg origin d).get
        (cfg.registryRoot ++ ["_tmp", "mirror", name] ++ p) := by
  have hplace : cfg.registryRoot ++ "_publications" :: name :: p =
      publicationPlace cfg origin.publicationId ++ p := by
    rw [hname.publication]
    simp
  have hapart : ¬ publicationPlace cfg origin.publicationId <+:
      temporaryPlace cfg origin.publicationId := by
    rw [hname.temporary, publication_below_iff hname]
    simp
  have hnone : (withdrawnDisk turn cfg origin d).get
      (publicationPlace cfg origin.publicationId ++ p) = none := by
    have hfree := hactivates.dest
    rw [occupied, Bool.or_eq_false_iff] at hfree
    by_contra hsome
    obtain ⟨b, hb⟩ := Option.ne_none_iff_exists'.mp hsome
    cases p with
    | nil =>
      rw [List.append_nil] at hb
      rw [hb] at hfree
      exact absurd hfree.1 (by simp)
    | cons first rest =>
      exact absurd (isDirectory_iff.mpr ⟨first :: rest, b, by simp, hb⟩) (by simp [hfree.2])
  have hstaged : (withdrawnDisk turn cfg origin d).get
      (temporaryPlace cfg origin.publicationId ++ p) =
        (fetchedDisk turn cfg origin d).get (temporaryPlace cfg origin.publicationId ++ p) := by
    have hnot : ¬ publicationPlace cfg origin.publicationId <+:
        temporaryPlace cfg origin.publicationId ++ p := by
      rw [hname.temporary, List.append_assoc, publication_below_iff hname]
      simp
    rw [withdrawnDisk, remaining, get_restrict]
    simp [hnot]
  rw [hplace, activatedDisk, get_rename_append hactivates.apart hapart, hnone, hstaged,
    Option.or_none, hname.temporary]

omit hname in
/-- The files after the read plane was replaced. -/
theorem get_serving_of_not_plane (hp : ∀ q, p = cfg.registryRoot ++ q → inMirrorPlane q = false)
    (htouched : ¬ Touched cfg origin p) :
    (servingDisk turn cfg (activatedDisk turn cfg origin d)
      (publicationPlace cfg origin.publicationId)).get p = d.get p := by
  rw [agreeOff_servingDisk, agreeOff_activatedDisk _ htouched]
  rintro ⟨q, hq, hplane⟩
  rw [hp q hq] at hplane
  cases hplane

theorem get_serving_distributions :
    (servingDisk turn cfg (activatedDisk turn cfg origin d)
      (publicationPlace cfg origin.publicationId)).get
        (cfg.registryRoot ++ "_distributions" :: p) =
      d.get (cfg.registryRoot ++ "_distributions" :: p) := by
  refine get_serving_of_not_plane (fun q hq => ?_) (not_touched_of_distributions hname)
  rw [List.append_cancel_left_eq] at hq
  rw [← hq]
  simp [inMirrorPlane, mirrorEntries]

omit hname in
theorem get_serving_publications {other : String} :
    (servingDisk turn cfg (activatedDisk turn cfg origin d)
      (publicationPlace cfg origin.publicationId)).get
        (cfg.registryRoot ++ "_publications" :: other :: p) =
      (activatedDisk turn cfg origin d).get
        (cfg.registryRoot ++ "_publications" :: other :: p) := by
  refine agreeOff_servingDisk _ ?_
  rintro ⟨q, hq, hplane⟩
  rw [List.append_cancel_left_eq] at hq
  rw [← hq] at hplane
  exact absurd hplane (by simp [inMirrorPlane, mirrorEntries])

theorem get_serving_plane (hp : inMirrorPlane p = true) :
    (servingDisk turn cfg (activatedDisk turn cfg origin d)
      (publicationPlace cfg origin.publicationId)).get (cfg.registryRoot ++ p) =
    ((broughtEntries turn cfg (activatedDisk turn cfg origin d)
      (publicationPlace cfg origin.publicationId)).get p).or
        ((emptiedDisk turn cfg d).get (cfg.registryRoot ++ p)) := by
  rw [get_servingDisk,
    get_emptiedDisk_congr (agreeOff_activatedDisk _ (not_touched_of_plane hname hp))]

/-- Nothing is put in the way of the pointer. -/
theorem points_serving : Points turn cfg (servingDisk turn cfg (activatedDisk turn cfg origin d)
    (publicationPlace cfg origin.publicationId)) ↔ Points turn cfg d := by
  have hget : ∀ q ∈ (cfg.registryRoot ++ pointerFile.dropLast).inits,
      (servingDisk turn cfg (activatedDisk turn cfg origin d)
        (publicationPlace cfg origin.publicationId)).get q = d.get q := by
    intro q hq
    rw [List.mem_inits] at hq
    rcases List.prefix_or_prefix_of_prefix hq
      (List.prefix_append cfg.registryRoot pointerFile.dropLast) with hq' | ⟨r, rfl⟩
    · refine get_serving_of_not_plane (fun r hr => ?_) (not_touched_above hname hq')
      subst hr
      have hr : r = [] := by
        have hlength := hq'.length_le
        rw [List.length_append] at hlength
        exact List.eq_nil_of_length_eq_zero (by omega)
      rw [hr]
      rfl
    · rw [List.prefix_append_right_inj] at hq
      cases r with
      | nil =>
        refine get_serving_of_not_plane (fun r hr => ?_) (not_touched_above hname (by simp))
        rw [List.append_cancel_left_eq] at hr
        rw [← hr]
        rfl
      | cons first rest =>
        have hfirst : first = "_distributions" := by
          obtain ⟨s, hs⟩ := hq
          simp only [pointerFile, List.dropLast, List.cons_append, List.cons.injEq] at hs
          exact hs.1
        rw [hfirst]
        exact get_serving_distributions hname
  constructor
  · intro h
    exact ⟨h.createDistribution, fun q hq => (hget q hq).symm.trans (h.free q hq)⟩
  · intro h
    exact ⟨h.createDistribution, fun q hq => (hget q hq).trans (h.free q hq)⟩

theorem isDirectory_serving_pointer :
    (servingDisk turn cfg (activatedDisk turn cfg origin d)
      (publicationPlace cfg origin.publicationId)).isDirectory (cfg.registryRoot ++ pointerFile) =
      d.isDirectory (cfg.registryRoot ++ pointerFile) := by
  have hget : ∀ q, (servingDisk turn cfg (activatedDisk turn cfg origin d)
      (publicationPlace cfg origin.publicationId)).get (cfg.registryRoot ++ pointerFile ++ q) =
        d.get (cfg.registryRoot ++ pointerFile ++ q) := by
    intro q
    rw [List.append_assoc]
    exact get_serving_distributions hname
  rw [Bool.eq_iff_iff, isDirectory_iff, isDirectory_iff]
  simp only [hget]

omit hname in
theorem get_pointedDisk_of_ne (hp : p ≠ cfg.registryRoot ++ pointerFile) :
    (pointedDisk turn codec cfg origin d).get p = d.get p := by
  unfold pointedDisk
  dsimp only
  split
  · rfl
  · split
    · split
      · rfl
      · exact get_put_of_ne hp
    · exact get_put_of_ne hp

theorem get_pointedDisk_pointer :
    (pointedDisk turn codec cfg origin (servingDisk turn cfg (activatedDisk turn cfg origin d)
      (publicationPlace cfg origin.publicationId))).get (cfg.registryRoot ++ pointerFile) =
    writtenPointer turn codec cfg origin d := by
  unfold pointedDisk writtenPointer
  dsimp only
  rw [isDirectory_serving_pointer hname]
  split
  · exact get_serving_distributions hname
  · split
    · split
      · next hwritten =>
        rw [hwritten, Option.none_or]
        exact get_serving_distributions hname
      · next bytes hwritten =>
        rw [hwritten, get_put_self]
        rfl
    · exact get_put_self

end Named

section Sample

end Sample

end StyioPlatform.Registry
