import StyioPlatform.Registry.PublishFailures

/-! A publish can be repeated: a request that left no more than a staged archive and a cleaned
`_tmp` succeeds again where it would have succeeded before. -/
namespace StyioPlatform.Registry

open FileTree Prog

variable {env : Environment} {cfg : PlatformConfig} {host : Host} {fault : Option Site}
  {w w' w'' : World} {t t' : Tree} {draft : PublishDraft}

/-- The sync keeps the differences in `_tmp`. -/
theorem SameOff.synced (h : SameOff (["_tmp"] <+: ·) w w') :
    SameOff (["_tmp"] <+: ·) (w.setRoot (syncedTree cfg none w))
      (w'.setRoot (syncedTree cfg none w')) := by
  refine ⟨fun p hp => ?_, h.bucket, h.memory, h.postgres⟩
  have hcleared : (cleared w'.root).get p = (cleared w.root).get p := by
    rw [get_cleared, get_cleared, h.root p hp]
  simp only [World.setRoot_root, syncedTree, h.bucket]
  split
  · split
    · rw [get_graft_nil, get_graft_nil, hcleared]
    · exact hcleared
  · exact h.root p hp

theorem SameOff.stagedWorld (h : SameOff (["_tmp"] <+: ·) w w') :
    SameOff (["_tmp"] <+: ·) (stagedWorld draft w) (Registry.stagedWorld draft w') := by
  unfold Registry.stagedWorld
  split
  · exact h
  · refine ⟨fun p hp => ?_, h.bucket, h.memory, h.postgres⟩
    rw [World.write_root, World.write_root, get_put, get_put, h.root p hp]

end StyioPlatform.Registry
