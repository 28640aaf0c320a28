import Mathlib.Data.List.Forall2
import Mathlib.Data.List.Sort
import Mathlib.Data.Option.Basic

/-! Lists whose elements are related one by one. -/
namespace StyioPlatform

variable {α β : Type} {R : α → β → Prop} {xs : List α} {ys : List β}

/-- Both are there and related, or both are missing. -/
theorem optionRel_cases {x : Option α} {y : Option β} (h : Option.Rel R x y) :
    (∃ a b, x = some a ∧ y = some b ∧ R a b) ∨ (x = none ∧ y = none) := by
  cases h with
  | some hab => exact .inl ⟨_, _, rfl, rfl, hab⟩
  | none => exact .inr ⟨rfl, rfl⟩

instance decidableOptionRel [∀ a b, Decidable (R a b)] :
    ∀ (x : Option α) (y : Option β), Decidable (Option.Rel R x y)
  | some a, some b =>
    decidable_of_iff (R a b) ⟨.some, fun h => by cases h; assumption⟩
  | none, none => .isTrue .none
  | some _, none => .isFalse nofun
  | none, some _ => .isFalse nofun

/-- Sorting keeps lists related whose elements are ordered alike. -/
theorem forall₂_insertionSort {r : α → α → Prop} {r' : β → β → Prop} [DecidableRel r]
    [DecidableRel r'] (horder : ∀ a a' b b', R a a' → R b b' → (r a b ↔ r' a' b'))
    (h : List.Forall₂ R xs ys) : List.Forall₂ R (xs.insertionSort r) (ys.insertionSort r') := by
  have hinsert : ∀ {a a' xs ys}, R a a' → List.Forall₂ R xs ys →
      List.Forall₂ R (xs.orderedInsert r a) (ys.orderedInsert r' a') := by
    intro a a' xs ys ha hxs
    induction hxs with
    | nil => exact .cons ha .nil
    | @cons b b' xs ys hb hxs ih =>
      rw [List.orderedInsert_cons, List.orderedInsert_cons]
      by_cases hle : r a b
      · rw [if_pos hle, if_pos ((horder a a' b b' ha hb).mp hle)]
        exact .cons ha (.cons hb hxs)
      · rw [if_neg hle, if_neg (mt (horder a a' b b' ha hb).mpr hle)]
        exact .cons hb ih
  induction h with
  | nil => exact .nil
  | cons ha _ ih =>
    rw [List.insertionSort_cons, List.insertionSort_cons]
    exact hinsert ha ih

theorem forall₂_getElem? (h : List.Forall₂ R xs ys) (i : ℕ) : Option.Rel R xs[i]? ys[i]? := by
  induction h generalizing i with
  | nil => exact .none
  | cons ha _ ih =>
    cases i with
    | zero => exact .some ha
    | succ i => exact ih i

theorem forall₂_modify {f : α → α} {f' : β → β} (hf : ∀ a b, R a b → R (f a) (f' b)) (h : List.Forall₂ R xs ys) (i : ℕ) :
    List.Forall₂ R (xs.modify i f) (ys.modify i f') := by
  induction h generalizing i with
  | nil => simp
  | cons ha hrest ih =>
    cases i with
    | zero => exact .cons (hf _ _ ha) hrest
    | succ i => exact .cons ha (ih i)

/-- The elements of related lists, each with where it is from. -/
theorem forall₂_mem (h : List.Forall₂ R xs ys) :
    List.Forall₂ (fun a b => R a b ∧ a ∈ xs ∧ b ∈ ys) xs ys := by
  rw [List.forall₂_iff_zip] at h ⊢
  exact ⟨h.1, fun hab => ⟨h.2 hab, List.of_mem_zip hab⟩⟩

end StyioPlatform
