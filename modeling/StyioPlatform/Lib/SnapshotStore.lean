import Mathlib.Order.Basic

/-! A store of snapshots of which one is served. An edit of the served content is kept as a new
snapshot, and every kept snapshot can be served again. -/
namespace StyioPlatform

/-- What is served, the snapshots by name, and the names of the current and the previous one. -/
structure SnapshotStore (ι α : Type) where
  served : α
  stored : ι → Option α
  current : Option ι
  previous : Option ι

namespace SnapshotStore

variable {ι α : Type} {edit : α → α → Prop} {s t u : SnapshotStore ι α} {i : ι} {a : α}

/-- Serve the snapshot `i` with the content `a`. -/
def install (s : SnapshotStore ι α) (i : ι) (a : α) : SnapshotStore ι α :=
  ⟨a, s.stored, some i, s.current⟩

/-- Commit an edit under a new name, serve a snapshot again, or do nothing. -/
inductive Step (edit : α → α → Prop) (s : SnapshotStore ι α) : SnapshotStore ι α → Prop where
  | commit {i : ι} {a : α} {stored : ι → Option α} (hedit : edit s.served a)
      (hnew : s.stored i = none) (hi : stored i = some a)
      (hold : ∀ j, j ≠ i → stored j = s.stored j) : Step edit s ⟨a, stored, some i, s.current⟩
  | install {i : ι} {a : α} (h : s.stored i = some a) : Step edit s (s.install i a)
  | idle : Step edit s s

/-- The current snapshot is what is served. -/
def Coherent (s : SnapshotStore ι α) : Prop := ∀ i, s.current = some i → s.stored i = some s.served

theorem Coherent.install (hi : s.stored i = some a) : (s.install i a).Coherent := by
  intro j hj
  cases hj
  exact hi

namespace Step

/-- Snapshots are kept. -/
theorem stored_mono (h : Step edit s t) (hi : s.stored i = some a) : t.stored i = some a := by
  cases h with
  | @commit j b stored hedit hnew hj hold =>
    have hij : i ≠ j := by
      rintro rfl
      rw [hi] at hnew
      cases hnew
    exact (hold i hij).trans hi
  | install _ => exact hi
  | idle => exact hi

theorem coherent (h : Step edit s t) (hs : s.Coherent) : t.Coherent := by
  cases h with
  | commit hedit hnew hi hold =>
    intro j hj
    cases hj
    exact hi
  | install h => exact .install h
  | idle => exact hs

/-- Snapshots satisfy what the result of every edit satisfies. -/
theorem stored_all {P : α → Prop} (h : Step edit s t) (hs : ∀ i a, s.stored i = some a → P a)
    (hedit : ∀ b, edit s.served b → P b) : ∀ i a, t.stored i = some a → P a := by
  cases h with
  | @commit i b stored he hnew hi hold =>
    intro j c hj
    change stored j = some c at hj
    by_cases hij : j = i
    · rw [hij, hi] at hj
      cases hj
      exact hedit _ he
    · exact hs j c (hold j hij ▸ hj)
  | install _ => exact hs
  | idle => exact hs

/-- While the served content goes up in an order, every snapshot stays below it. -/
theorem stored_le {R : α → α → Prop} (h : Step edit s t) (hrefl : ∀ a, R a a)
    (htrans : ∀ a b c, R a b → R b c → R a c) (hup : R s.served t.served)
    (hs : ∀ i a, s.stored i = some a → R a s.served) :
    ∀ i a, t.stored i = some a → R a t.served := by
  intro j c hj
  cases h with
  | @commit i b stored he hnew hi hold =>
    change stored j = some c at hj
    by_cases hij : j = i
    · rw [hij, hi] at hj
      cases hj
      exact hrefl _
    · exact htrans _ _ _ (hs j c (hold j hij ▸ hj)) hup
  | install h => exact htrans _ _ _ (hs j c hj) hup
  | idle => exact hs j c hj

end Step

/-- Serve the previous snapshot again. -/
def Rollback (s t : SnapshotStore ι α) : Prop :=
  ∃ i a, s.previous = some i ∧ s.stored i = some a ∧ t = s.install i a

theorem Rollback.step (h : Rollback s t) : Step edit s t := by
  obtain ⟨i, a, -, hi, rfl⟩ := h
  exact .install hi

/-- Two rollbacks serve again what was served before them. -/
theorem served_of_rollback_twice (hs : s.Coherent) (h : Rollback s t) (h' : Rollback t u) :
    u.served = s.served := by
  obtain ⟨i, a, -, -, rfl⟩ := h
  obtain ⟨j, b, hj, hb, rfl⟩ := h'
  have hserved : some s.served = some b := (hs j hj).symm.trans hb
  exact (Option.some.inj hserved).symm

end SnapshotStore

end StyioPlatform
