import StyioPlatform.Registry.Requests

/-! A promote or rollback that is not answered with 200: the read plane is removed before the copy
starts, so the registry is as it was only where the copy brings back what was served. -/
namespace StyioPlatform.Registry

open FileTree Prog

variable {env : Environment} {cfg : PlatformConfig} {host : Host} {fault : Option Site}
  {w w' : World} {t t' : Tree}

/-- The read plane and the pointer of every distribution are the same. -/
structure SameService (t t' : Tree) : Prop where
  plane : readPlane t' = readPlane t
  pointers : ∀ id, t'.get (distributionPointerPath id) = t.get (distributionPointerPath id)

theorem SameService.refl : SameService t t := ⟨rfl, fun _ => rfl⟩

theorem not_inReadPlane_pointerPath {id : String} :
    inReadPlane (distributionPointerPath id) = false := by
  unfold distributionPointerPath
  split
  · rfl
  · split
    · decide
    · rfl

/-- Only files of the read plane are copied. -/
theorem readPlane_copiedPlane {publicationId : String} :
    readPlane (copiedPlane cfg fault t publicationId) = copiedPlane cfg fault t publicationId := by
  ext p
  rw [get_readPlane]
  split
  · rfl
  · next hp =>
    unfold copiedPlane
    split
    · rfl
    · dsimp only
      split
      · rw [get_restrict, get_readPlane, if_neg hp, ite_self]
      · rw [get_readPlane, if_neg hp]

/-- The replaced read plane is what was copied. -/
theorem readPlane_replaced {publicationId : String} :
    readPlane (replaced cfg fault t publicationId) = copiedPlane cfg fault t publicationId := by
  rw [← readPlane_copiedPlane]
  refine readPlane_ext fun p hp => ?_
  rw [replaced, get_graft_nil, get_cleared, if_pos hp, Option.or_none]

theorem get_replaced {publicationId : String} {p : Path} (hp : inReadPlane p = false) :
    (replaced cfg fault t publicationId).get p = t.get p := by
  have hcopied : (copiedPlane cfg fault t publicationId).get p = none := by
    rw [← readPlane_copiedPlane, get_readPlane, if_neg (by simp [hp])]
  rw [replaced, get_graft_nil, hcopied, get_cleared, if_neg (by simp [hp])]
  rfl

theorem get_beforePointer {distributionId publicationId : String} {p : Path}
    (hp : inReadPlane p = false) :
    (beforePointer cfg fault distributionId publicationId t).get p = t.get p := by
  unfold beforePointer
  split
  · exact get_replaced hp
  · rfl

theorem readPlane_beforePointer {distributionId publicationId : String} :
    readPlane (beforePointer cfg fault distributionId publicationId t) = readPlane t ↔
      (distributionId = "default" → copiedPlane cfg fault t publicationId = readPlane t) := by
  by_cases hid : distributionId = "default"
  · simp [beforePointer, hid, readPlane_replaced]
  · simp [beforePointer, hid]

/-- A stop before the pointer is written is seen on the read plane alone. -/
theorem sameService_beforePointer {distributionId publicationId : String} :
    SameService t (beforePointer cfg fault distributionId publicationId t) ↔
      (distributionId = "default" → copiedPlane cfg fault t publicationId = readPlane t) := by
  rw [← readPlane_beforePointer]
  exact ⟨SameService.plane, fun h => ⟨h, fun _ => get_beforePointer not_inReadPlane_pointerPath⟩⟩

theorem readPlane_put_pointer {id : String} {f : File} :
    readPlane (t.put (distributionPointerPath id) f) = readPlane t := by
  refine readPlane_ext fun p hp => get_put_of_ne ?_
  rintro rfl
  rw [not_inReadPlane_pointerPath] at hp
  cases hp

/-- A stop after the pointer was written is also seen on the pointer. -/
theorem sameService_pointed {distributionId publicationId : String} {f : File} :
    SameService t ((beforePointer cfg fault distributionId publicationId t).put
        (distributionPointerPath distributionId) f) ↔
      (distributionId = "default" → copiedPlane cfg fault t publicationId = readPlane t) ∧
        t.get (distributionPointerPath distributionId) = some f := by
  rw [← readPlane_beforePointer]
  constructor
  · intro h
    refine ⟨readPlane_put_pointer.symm.trans h.plane, ?_⟩
    rw [← h.pointers, get_put_self]
  · rintro ⟨hplane, hpointer⟩
    refine ⟨readPlane_put_pointer.trans hplane, fun id => ?_⟩
    rw [get_put]
    split
    · next heq => rw [heq, hpointer]
    · exact get_beforePointer not_inReadPlane_pointerPath

/-- The copy brings what is served, and the pointer is not written or already there. -/
structure InstallHarmless (cfg : PlatformConfig) (fault : Option Site) (target : InstallTarget)
    (updatedAt : String) (t : Tree) : Prop where
  plane : target.distributionId = "default" →
    copiedPlane cfg fault t target.publicationId = readPlane t
  pointer : StopsBeforePointer cfg fault target.distributionId target.publicationId
      target.publication t ∨
    ∃ version, target.publication.repositoryVersionId = some version ∧
      t.get (distributionPointerPath target.distributionId) = some (installedPointer
        target.distributionId target.publicationId version updatedAt target.previous)

theorem sameService_of_stopped {target : InstallTarget} {updatedAt : String}
    (h : StopsBeforePointer cfg fault target.distributionId target.publicationId
      target.publication w.root ∧
      w' = w.setRoot (beforePointer cfg fault target.distributionId target.publicationId w.root)) :
    SameService w.root w'.root ↔ InstallHarmless cfg fault target updatedAt w.root := by
  obtain ⟨hstops, rfl⟩ := h
  rw [World.setRoot_root, sameService_beforePointer]
  exact ⟨fun h => ⟨h, Or.inl hstops⟩, InstallHarmless.plane⟩

theorem sameService_of_pointed {target : InstallTarget} {updatedAt : String}
    (hgo : ¬ StopsBeforePointer cfg fault target.distributionId target.publicationId
      target.publication w.root)
    (h : Pointed cfg fault target.distributionId target.publicationId target.publication updatedAt
      target.previous w w') :
    SameService w.root w'.root ↔ InstallHarmless cfg fault target updatedAt w.root := by
  obtain ⟨version, hversion, hroot, -⟩ := h
  rw [hroot, sameService_pointed]
  constructor
  · exact fun h => ⟨h.1, Or.inr ⟨version, hversion, h.2⟩⟩
  · rintro ⟨hplane, hpointer⟩
    obtain ⟨version', hversion', hget⟩ := hpointer.resolve_left hgo
    obtain rfl := Option.some.inj (hversion.symm.trans hversion')
    exact ⟨hplane, hget⟩

/-- A promote or rollback that is not answered with 200 leaves read plane and pointers as they
were exactly when it stops before the read plane is removed, or the copy brings back what was
served and the pointer is not written or is the one that was there. -/
theorem failed_install_keeps_registry_iff {request : Request} (hr : request.publishes = false)
    (hfailed : answerStatus (handleRequest env cfg host fault request w).1 ≠ 200) :
    SameService w.root (handleRequest env cfg host fault request w).2.root ↔
      ∀ target, installTarget env cfg host fault w request = some target →
        InstallHarmless cfg fault target host.now w.root := by
  revert hfailed
  refine result_of_wp (P := fun answer (w' : World) => answerStatus answer ≠ 200 →
    (SameService w.root w'.root ↔ ∀ target,
      installTarget env cfg host fault w request = some target →
        InstallHarmless cfg fault target host.now w.root)) ?_
  refine wp_handleInstall hr (fun hnone => ?_) fun target htarget => ?_
  · have hsame : SameService w.root w.root ↔ ∀ target,
        installTarget env cfg host fault w request = some target →
          InstallHarmless cfg fault target host.now w.root := by
      simp [hnone, SameService.refl]
    exact ⟨fun _ _ _ => hsame, fun _ _ => hsame⟩
  · have honly : (∀ target', installTarget env cfg host fault w request = some target' →
        InstallHarmless cfg fault target' host.now w.root) ↔
        InstallHarmless cfg fault target host.now w.root := by simp [htarget]
    simp only [honly]
    refine wp_mono wp_installPublication ?_ ?_
    · rintro _ w' ⟨hgo, hpointed⟩
      have hiff := sameService_of_pointed hgo hpointed
      exact ⟨fun _ r hr hne => (hne hr).elim, fun _ _ => hiff⟩
    · rintro _ w' (hstopped | ⟨hgo, hpointed⟩)
      · have hiff : SameService w.root w'.root ↔
            InstallHarmless cfg fault target host.now w.root := sameService_of_stopped hstopped
        exact ⟨fun _ _ _ => hiff, fun _ _ => hiff⟩
      · have hiff := sameService_of_pointed hgo hpointed
        exact ⟨fun _ _ _ => hiff, fun _ _ => hiff⟩

/-- A promote of a publication that does not exist. -/
theorem failed_promote_of_missing_publication :
    SameService sampleStart.root (handleRequest sampleEnvironment sampleConfig sampleHost none
      (promoteOf "pub-000001") sampleStart).2.root := by
  refine (failed_install_keeps_registry_iff rfl (by decide +kernel)).mpr fun target htarget => ?_
  have hnone : (installTarget sampleEnvironment sampleConfig sampleHost none sampleStart
      (promoteOf "pub-000001")).isNone = true := by decide +kernel
  rw [htarget] at hnone
  cases hnone

/-- A publish, and a promote of its publication by a path through `log`: the manifest is found, but
the path is gone once the read plane is removed, and nothing is served any more. -/
theorem read_plane_lost_by_failed_promote :
    let w := sampleAfter [publishOf "a/b" "1" "one"]
    let result := handleRequest sampleEnvironment sampleConfig sampleHost none
      (promoteOf "../log/../_publications/pub-000001") w
    Relation.ReflTransGen (SuccessStep sampleEnvironment sampleConfig) sampleStart w ∧
      answerStatus result.1 = 422 ∧ ¬ SameService w.root result.2.root := by
  intro w result
  refine ⟨reflTransGen_of_accepts (by decide +kernel), by decide +kernel, fun h => ?_⟩
  have hbefore : ((readPlane w.root).get configPath).isSome = true := by decide +kernel
  have hafter : ((readPlane result.2.root).get configPath).isSome = false := by decide +kernel
  rw [h.plane, hbefore] at hafter
  cases hafter

end StyioPlatform.Registry
