import Mathlib.Data.List.Infix

/-! The first occurrence of a text in another, and what a search in a concatenation finds. -/
namespace StyioPlatform

variable {α : Type} [DecidableEq α] {tag text rest piece : List α}

/-- The text before the first occurrence of the tag and the text after it. -/
def cutAt (tag : List α) : List α → Option (List α × List α)
  | [] => if tag = [] then some ([], []) else none
  | a :: text =>
    if tag <+: a :: text then some ([], (a :: text).drop tag.length)
    else (cutAt tag text).map fun cut => (a :: cut.1, cut.2)

/-- A piece in which no occurrence of the tag can start, whatever follows the piece. -/
def Inert (tag piece : List α) : Prop :=
  ∀ suffix ∈ piece.tails, suffix ≠ [] → ¬ tag <+: suffix ∧ ¬ suffix <+: tag

instance : Decidable (Inert tag piece) :=
  inferInstanceAs (Decidable (∀ suffix ∈ piece.tails, _))

omit [DecidableEq α] in
theorem not_prefix_of_neither {l m : List α} (h : ¬ l <+: m ∧ ¬ m <+: l) : ¬ l <+: m ++ rest :=
  fun hl => (List.prefix_or_prefix_of_prefix hl (List.prefix_append m rest)).elim h.1 h.2

/-- The search passes an inert piece. -/
theorem cutAt_append (h : Inert tag piece) :
    cutAt tag (piece ++ text) = (cutAt tag text).map fun cut => (piece ++ cut.1, cut.2) := by
  induction piece with
  | nil => simp
  | cons a piece ih =>
    have hnot : ¬ tag <+: a :: (piece ++ text) :=
      not_prefix_of_neither (m := a :: piece) (h (a :: piece) (by simp) (by simp))
    have hpiece : Inert tag piece := fun suffix hsuffix => h suffix (by simp [hsuffix])
    rw [List.cons_append, cutAt, if_neg hnot, ih hpiece, Option.map_map]
    rfl

theorem cutAt_self (htag : tag ≠ []) : cutAt tag (tag ++ text) = some ([], text) := by
  cases tag with
  | nil => exact absurd rfl htag
  | cons a tag => rw [List.cons_append, cutAt, if_pos ⟨text, rfl⟩]; simp

omit [DecidableEq α] in
/-- Where no letter of a piece is the first one of the tag, the piece is inert. -/
theorem inert_of_not_mem {a : α} (h : a ∉ piece) : Inert (a :: tag) piece := by
  intro suffix hsuffix hne
  obtain ⟨b, suffix, rfl⟩ := List.exists_cons_of_ne_nil hne
  have hb : b ∈ piece := ((List.mem_tails _ _).mp hsuffix).subset List.mem_cons_self
  have hab : a ≠ b := fun heq => h (heq ▸ hb)
  exact ⟨fun hp => hab (List.cons_prefix_cons.mp hp).1,
    fun hp => hab (List.cons_prefix_cons.mp hp).1.symm⟩

/-- A text without the tag. -/
theorem cutAt_of_inert (h : Inert tag piece) (htag : tag ≠ []) : cutAt tag piece = none := by
  have hcut : cutAt tag (piece ++ []) = _ := cutAt_append h
  rw [List.append_nil] at hcut
  simp [hcut, cutAt, htag]

variable {before after more : List α}

theorem eq_of_cutAt (h : cutAt tag text = some (before, after)) : text = before ++ tag ++ after := by
  induction text generalizing before with
  | nil =>
    rw [cutAt] at h
    split at h
    · next htag => simp_all
    · cases h
  | cons a text ih =>
    rw [cutAt] at h
    split at h
    · next hp =>
      obtain ⟨rest, hrest⟩ := hp
      obtain ⟨rfl, rfl⟩ := Prod.mk.inj (Option.some.inj h)
      simp [← hrest]
    · obtain ⟨cut, hcut, hpair⟩ := Option.map_eq_some_iff.mp h
      obtain ⟨rfl, rfl⟩ := Prod.mk.inj hpair
      simp [← ih hcut]

/-- A text after the one that was searched does not move the occurrence. -/
theorem cutAt_append_right (h : cutAt tag text = some (before, after)) :
    cutAt tag (text ++ more) = some (before, after ++ more) := by
  induction text generalizing before with
  | nil =>
    have htag : tag = [] := by
      rw [cutAt] at h
      split at h
      · next htag => exact htag
      · cases h
    subst htag
    obtain ⟨rfl, rfl⟩ : before = [] ∧ after = [] := by simpa [eq_comm] using eq_of_cutAt h
    cases more <;> simp [cutAt]
  | cons a text ih =>
    rw [cutAt] at h
    rw [List.cons_append, cutAt]
    split at h
    · next hp =>
      obtain ⟨rfl, rfl⟩ := Prod.mk.inj (Option.some.inj h)
      have hlong : tag <+: a :: (text ++ more) := hp.trans (List.prefix_append (a :: text) more)
      rw [if_pos hlong, ← List.cons_append, List.drop_append_of_le_length hp.length_le]
    · next hp =>
      obtain ⟨cut, hcut, hpair⟩ := Option.map_eq_some_iff.mp h
      obtain ⟨rfl, rfl⟩ := Prod.mk.inj hpair
      have hnot : ¬ tag <+: a :: (text ++ more) := by
        intro hlong
        have hlength := congrArg List.length (eq_of_cutAt hcut)
        simp only [List.length_append] at hlength
        exact hp (List.prefix_of_prefix_length_le hlong (List.prefix_append (a :: text) more)
          (by rw [List.length_cons]; omega))
      rw [if_neg hnot, ih hcut]
      rfl

/-- The occurrence depends on the text up to its end only. -/
theorem cutAt_of_cutAt (htag : tag ≠ []) (h : cutAt tag (before ++ tag ++ after) = some (before, after)) :
    cutAt tag (before ++ tag ++ more) = some (before, more) := by
  have hshort : cutAt tag (before ++ tag) = some (before, []) := by
    induction before with
    | nil => simpa using @cutAt_self _ _ tag [] htag
    | cons a before ih =>
      rw [List.cons_append, List.cons_append, cutAt] at h
      split at h
      · cases h
      · next hp =>
        have hnot : ¬ tag <+: a :: (before ++ tag) := fun hshort =>
          hp (hshort.trans (by rw [← List.cons_append]; exact List.prefix_append _ _))
        obtain ⟨cut, hcut, hpair⟩ := Option.map_eq_some_iff.mp h
        obtain ⟨hbefore, hafter⟩ := Prod.mk.inj hpair
        obtain rfl : cut = (before, after) := Prod.ext (List.cons.inj hbefore).2 hafter
        rw [List.cons_append, cutAt, if_neg hnot, ih hcut]
        rfl
  have hlong : cutAt tag (before ++ tag ++ more) = some (before, [] ++ more) :=
    cutAt_append_right hshort
  simpa using hlong

end StyioPlatform
