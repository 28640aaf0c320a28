import StyioPlatform.Registry.Commit

/-! A promote or rollback: the read plane is removed and replaced by that of a publication, and
the distribution points to it. -/
namespace StyioPlatform.Registry

open FileTree Prog

variable {env : Environment} {cfg : PlatformConfig} {host : Host} {fault : Option Site}
  {w w' : World} {t : Tree}

/-- The tree without its read plane. -/
def cleared (t : Tree) : Tree := t.restrict fun p => !inReadPlane p

theorem get_cleared {p : Path} :
    (cleared t).get p = if inReadPlane p then none else t.get p := by
  rw [cleared, get_restrict]
  cases inReadPlane p <;> rfl

/-- The tree with the read plane of the publication at `source`. -/
def materialized (t : Tree) (source : Path) : Tree :=
  (cleared t).graft [] (readPlane ((cleared t).subtree source))

theorem get_graft_nil {u : Tree} {p : Path} : (t.graft [] u).get p = (u.get p).or (t.get p) := by
  simpa using get_graft_append (t := t) (u := u) (p := []) (q := p)

theorem get_materialized {source p : Path} : (materialized t source).get p =
    if inReadPlane p then (cleared t).get (source ++ p) else t.get p := by
  rw [materialized, get_graft_nil, get_readPlane, get_subtree, get_cleared (p := p)]
  split
  · exact Option.or_none
  · rfl

/-- The part of a publication's read plane that the copy to the root moves. -/
def copiedPlane (cfg : PlatformConfig) (fault : Option Site) (t : Tree) (publicationId : String) :
    Tree :=
  match publicationRoot cfg (cleared t) publicationId with
  | none => .empty
  | some source =>
    let plane := readPlane ((cleared t).subtree source)
    match fault with
    | some (.copyReadPlane copied) => plane.restrict (· ∈ copied)
    | _ => plane

/-- The tree with its read plane replaced by what the copy moves. -/
def replaced (cfg : PlatformConfig) (fault : Option Site) (t : Tree) (publicationId : String) :
    Tree := (cleared t).graft [] (copiedPlane cfg fault t publicationId)

/-- The copy of a publication to the root does not complete. -/
def CopyStops (cfg : PlatformConfig) (fault : Option Site) (t : Tree) (publicationId : String) :
    Prop :=
  (∃ copied, fault = some (.copyReadPlane copied)) ∨
    (copiedPlane cfg fault t publicationId).get configPath = none

theorem copiedPlane_of_none {publicationId : String}
    (h : publicationRoot cfg (cleared t) publicationId = none) :
    copiedPlane cfg fault t publicationId = .empty := by rw [copiedPlane, h]

theorem copiedPlane_of_some {publicationId : String} {source : Path}
    (h : publicationRoot cfg (cleared t) publicationId = some source)
    (hfault : ∀ copied, fault ≠ some (.copyReadPlane copied)) :
    copiedPlane cfg fault t publicationId = readPlane ((cleared t).subtree source) := by
  unfold copiedPlane
  rw [h]
  dsimp only
  split
  · next copied => exact (hfault copied rfl).elim
  · rfl

theorem graft_nil_empty : t.graft [] .empty = t := by
  ext p
  rw [get_graft_nil]
  rfl

/-- The read plane is removed and the copy put in its place, whether it completes or not. -/
theorem wp_materializePublicationToRoot {publicationId : String} :
    wp (materializePublicationToRoot cfg fault publicationId)
      (fun _ w' => w' = w.setRoot (replaced cfg fault w.root publicationId) ∧
        ¬ CopyStops cfg fault w.root publicationId)
      (fun _ w' => w' = w.setRoot (replaced cfg fault w.root publicationId) ∧
        CopyStops cfg fault w.root publicationId) w := by
  rw [materializePublicationToRoot, wp_bind, wp_modifyRoot, wp_bind, wp_rootTree]
  change wp (match publicationRoot cfg (cleared w.root) publicationId with
    | none => _ | some source => _) _ _ _
  cases hroot : publicationRoot cfg (cleared w.root) publicationId with
  | none =>
    refine ⟨?_, Or.inr ?_⟩
    · rw [replaced, copiedPlane_of_none hroot, graft_nil_empty]
      rfl
    · rw [copiedPlane_of_none hroot]
      rfl
  | some source =>
    have hget : (readPlane ((cleared w.root).subtree source)).get configPath =
        (cleared w.root).get (source ++ configPath) := rfl
    refine wp_copyRegistryReadPlaneTo (fun hn hc => ⟨?_, ?_⟩) (fun copied hf => ⟨?_, ?_⟩)
      (fun hn hc => ⟨?_, Or.inr ?_⟩)
    · rw [replaced, copiedPlane_of_some hroot hn]
      rfl
    · rintro (⟨copied, hf⟩ | hnone)
      · exact hn copied hf
      · rw [copiedPlane_of_some hroot hn, hget] at hnone
        rw [World.setRoot_root] at hc
        rw [show w.root.restrict _ = cleared w.root from rfl, hnone] at hc
        cases hc
    · rw [replaced, copiedPlane, hroot, hf]
      rfl
    · exact Or.inl ⟨copied, hf⟩
    · rw [replaced, copiedPlane_of_some hroot hn]
      rfl
    · rw [copiedPlane_of_some hroot hn]
      exact hc

/-- A completed copy materialised the publication. -/
theorem replaced_of_completed {publicationId : String}
    (h : ¬ CopyStops cfg fault t publicationId) :
    ∃ source, publicationRoot cfg (cleared t) publicationId = some source ∧
      ((cleared t).get (source ++ configPath)).isSome ∧
      replaced cfg fault t publicationId = materialized t source := by
  rw [CopyStops, not_or, not_exists] at h
  cases hroot : publicationRoot cfg (cleared t) publicationId with
  | none =>
    rw [copiedPlane_of_none hroot] at h
    exact (h.2 rfl).elim
  | some source =>
    rw [copiedPlane_of_some hroot h.1] at h
    refine ⟨source, rfl, Option.isSome_iff_ne_none.mpr h.2, ?_⟩
    rw [replaced, copiedPlane_of_some hroot h.1]
    rfl

/-- The pointer of a promote or rollback. -/
def installedPointer (distributionId publicationId repositoryVersionId updatedAt : String)
    (previousPublicationId : Option String) : File :=
  .json (.pointer { distributionId, publicationId, repositoryVersionId, updatedAt,
                    previousPublicationId })

/-- The tree before the pointer is written: only the default distribution is materialised. -/
inductive Prepared (cfg : PlatformConfig) (distributionId publicationId : String) (t : Tree) :
    Tree → Prop where
  | default {source : Path} (hid : distributionId = "default")
      (h : publicationRoot cfg (cleared t) publicationId = some source)
      (hconfig : ((cleared t).get (source ++ configPath)).isSome) :
      Prepared cfg distributionId publicationId t (materialized t source)
  | other (hid : distributionId ≠ "default") : Prepared cfg distributionId publicationId t t

/-- The tree before the pointer is written, also after a copy that did not complete. -/
def beforePointer (cfg : PlatformConfig) (fault : Option Site)
    (distributionId publicationId : String) (t : Tree) : Tree :=
  if distributionId = "default" then replaced cfg fault t publicationId else t

/-- A promote or rollback stops before it writes the pointer. -/
def StopsBeforePointer (cfg : PlatformConfig) (fault : Option Site)
    (distributionId publicationId : String) (publication : Document) (t : Tree) : Prop :=
  (distributionId = "default" ∧ CopyStops cfg fault t publicationId) ∨
    publication.repositoryVersionId = none ∨ fault = some .writePointer

/-- The tree after the pointer was written. -/
def Pointed (cfg : PlatformConfig) (fault : Option Site) (distributionId publicationId : String)
    (publication : Document) (updatedAt : String) (previous : Option String) (w w' : World) : Prop :=
  ∃ repositoryVersionId, publication.repositoryVersionId = some repositoryVersionId ∧
    w'.root = (beforePointer cfg fault distributionId publicationId w.root).put
      (distributionPointerPath distributionId)
      (installedPointer distributionId publicationId repositoryVersionId updatedAt previous) ∧
    w'.written = w.written ++ [(distributionPointerPath distributionId,
      installedPointer distributionId publicationId repositoryVersionId updatedAt previous)]

/-- A completed promote or rollback. -/
structure Installed (cfg : PlatformConfig) (distributionId publicationId : String)
    (publication : Document) (updatedAt : String) (previous : Option String) (w w' : World) :
    Prop where
  exists_root : ∃ t repositoryVersionId, Prepared cfg distributionId publicationId w.root t ∧
    publication.repositoryVersionId = some repositoryVersionId ∧
    w'.root = t.put (distributionPointerPath distributionId)
      (installedPointer distributionId publicationId repositoryVersionId updatedAt previous) ∧
    w'.written = w.written ++ [(distributionPointerPath distributionId,
      installedPointer distributionId publicationId repositoryVersionId updatedAt previous)]

theorem wp_pointDistribution {distributionId publicationId updatedAt : String}
    {publication : Document} {previous : Option String}
    (hcopy : ¬ (distributionId = "default" ∧ CopyStops cfg fault w.root publicationId)) :
    wp (pointDistribution cfg fault distributionId publicationId publication previous updatedAt)
      (fun _ w' =>
        ¬ StopsBeforePointer cfg fault distributionId publicationId publication w.root ∧
        Pointed cfg fault distributionId publicationId publication updatedAt previous w w')
      (fun _ w' =>
        StopsBeforePointer cfg fault distributionId publicationId publication w.root ∧
          w' = w.setRoot (beforePointer cfg fault distributionId publicationId w.root) ∨
        ¬ StopsBeforePointer cfg fault distributionId publicationId publication w.root ∧
          Pointed cfg fault distributionId publicationId publication updatedAt previous w w')
      (w.setRoot (beforePointer cfg fault distributionId publicationId w.root)) := by
  unfold pointDistribution
  cases hversion : publication.repositoryVersionId with
  | none => exact Or.inl ⟨Or.inr (Or.inl hversion), rfl⟩
  | some repositoryVersionId =>
    rw [wp_bind, wp_failAt]
    refine ⟨fun hf => Or.inl ⟨Or.inr (Or.inr hf), rfl⟩, fun hf => ?_⟩
    have hgo : ¬ StopsBeforePointer cfg fault distributionId publicationId publication w.root := by
      rintro (h | h | h)
      · exact hcopy h
      · rw [hversion] at h
        cases h
      · exact hf h
    rw [wp_bind, wp_writeTextFile, wp_bind]
    refine wp_execPostgres ?_ fun _ _ => Or.inr ⟨hgo, repositoryVersionId, hversion, rfl, rfl⟩
    exact ⟨hgo, repositoryVersionId, hversion, rfl, rfl⟩

/-- What a promote or rollback leaves wherever it stops. -/
theorem wp_installPublication {distributionId publicationId updatedAt : String}
    {publication : Document} {previous : Option String} :
    wp (installPublication cfg fault distributionId publicationId publication previous updatedAt)
      (fun _ w' =>
        ¬ StopsBeforePointer cfg fault distributionId publicationId publication w.root ∧
        Pointed cfg fault distributionId publicationId publication updatedAt previous w w')
      (fun _ w' =>
        StopsBeforePointer cfg fault distributionId publicationId publication w.root ∧
          w' = w.setRoot (beforePointer cfg fault distributionId publicationId w.root) ∨
        ¬ StopsBeforePointer cfg fault distributionId publicationId publication w.root ∧
          Pointed cfg fault distributionId publicationId publication updatedAt previous w w')
      w := by
  rw [installPublication, wp_bind, wp_onlyIf]
  refine ⟨fun hid => ?_, fun hid => ?_⟩
  · have hbefore : beforePointer cfg fault distributionId publicationId w.root =
        replaced cfg fault w.root publicationId := if_pos hid
    refine wp_mono wp_materializePublicationToRoot ?_ ?_
    · rintro _ _ ⟨rfl, hcopy⟩
      rw [← hbefore]
      exact wp_pointDistribution fun h => hcopy h.2
    · rintro _ _ ⟨rfl, hcopy⟩
      exact Or.inl ⟨Or.inl ⟨hid, hcopy⟩, by rw [hbefore]⟩
  · have hbefore : beforePointer cfg fault distributionId publicationId w.root = w.root :=
      if_neg hid
    have h := @wp_pointDistribution cfg fault w distributionId publicationId updatedAt publication
      previous fun h => hid h.1
    rw [hbefore] at h ⊢
    exact h

/-- A promote or rollback that ran to its end installed the publication. -/
theorem Pointed.installed {distributionId publicationId updatedAt : String}
    {publication : Document} {previous : Option String}
    (h : Pointed cfg fault distributionId publicationId publication updatedAt previous w w')
    (hgo : ¬ StopsBeforePointer cfg fault distributionId publicationId publication w.root) :
    Installed cfg distributionId publicationId publication updatedAt previous w w' := by
  obtain ⟨v, hv, hroot, hwritten⟩ := h
  refine ⟨_, v, ?_, hv, hroot, hwritten⟩
  rw [StopsBeforePointer, not_or, not_and] at hgo
  by_cases hid : distributionId = "default"
  · obtain ⟨source, hsource, hconfig, heq⟩ := replaced_of_completed (hgo.1 hid)
    rw [beforePointer, if_pos hid, heq]
    exact .default hid hsource hconfig
  · rw [beforePointer, if_neg hid]
    exact .other hid

end StyioPlatform.Registry
