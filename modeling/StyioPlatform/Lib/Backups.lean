import Mathlib.Logic.Relation

/-! A live value of which backups are kept under names. A backup is never replaced, and to
bring it back makes the live value what it was when the backup was taken. -/
namespace StyioPlatform

structure Backups (ι α : Type) where
  live : α
  kept : ι → Option α

namespace Backups

variable {ι α : Type} {s t u v : Backups ι α} {i : ι} {a : α}

/-- What is done to the live value, or with the backup of a name. -/
inductive Action (ι : Type) where
  | edit
  | keep (i : ι)
  | bringBack (i : ι)

inductive Step : Backups ι α → Action ι → Backups ι α → Prop where
  | edit {s : Backups ι α} {a : α} : Step s .edit ⟨a, s.kept⟩
  | keep {s : Backups ι α} {i : ι} {kept : ι → Option α} (hnew : s.kept i = none)
      (hi : kept i = some s.live) (hold : ∀ j, j ≠ i → kept j = s.kept j) :
      Step s (.keep i) ⟨s.live, kept⟩
  | bringBack {s : Backups ι α} {i : ι} {a : α} (h : s.kept i = some a) :
      Step s (.bringBack i) ⟨a, s.kept⟩

def Steps (s t : Backups ι α) : Prop := Relation.ReflTransGen (fun s t => ∃ b, Step s b t) s t

theorem Step.kept_mono {b : Action ι} (h : Step s b t) (hi : s.kept i = some a) :
    t.kept i = some a := by
  cases h with
  | edit => exact hi
  | @keep j kept hnew hj hold =>
    have hij : i ≠ j := by
      rintro rfl
      rw [hi] at hnew
      cases hnew
    exact (hold i hij).trans hi
  | bringBack _ => exact hi

theorem Steps.kept_mono (h : Steps s t) (hi : s.kept i = some a) : t.kept i = some a := by
  induction h with
  | refl => exact hi
  | tail _ hstep ih =>
    obtain ⟨b, hstep⟩ := hstep
    exact hstep.kept_mono ih

theorem Step.kept_of_keep (h : Step s (.keep i) t) : t.kept i = some s.live := by
  cases h with
  | keep hnew hi hold => exact hi

/-- What is brought back is the value of which the backup was taken. -/
theorem live_of_bringBack (hkeep : Step s (.keep i) t) (hrun : Steps t u)
    (hback : Step u (.bringBack i) v) : v.live = s.live := by
  have hkept := hrun.kept_mono hkeep.kept_of_keep
  cases hback with
  | bringBack h =>
    rw [hkept] at h
    exact (Option.some.inj h).symm

end Backups

end StyioPlatform
