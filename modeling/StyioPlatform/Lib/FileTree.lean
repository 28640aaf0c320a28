import Mathlib.Data.Finset.Image
import Mathlib.Data.Finset.Union
import Mathlib.Data.List.Infix

/-! Finite trees of files, addressed by the list of names from the root. A directory exists
exactly when some file lies below it. -/
namespace StyioPlatform

/-- A finite map from paths to file contents; `support` lists the paths that hold a file. -/
structure FileTree (σ β : Type) [DecidableEq σ] where
  get : List σ → Option β
  support : Finset (List σ)
  mem_support : ∀ p, p ∈ support ↔ (get p).isSome

namespace FileTree

variable {σ β : Type} [DecidableEq σ] {t u : FileTree σ β} {p q r : List σ} {f g : β}

@[ext] theorem ext (h : ∀ p, t.get p = u.get p) : t = u := by
  have hget : t.get = u.get := funext h
  have hsupport : t.support = u.support := by
    ext p
    rw [t.mem_support, u.mem_support, h]
  cases t
  cases u
  simp_all

theorem mem_support_iff : p ∈ t.support ↔ ∃ f, t.get p = some f := by
  rw [t.mem_support, Option.isSome_iff_exists]

/-- The tree without files. -/
def empty : FileTree σ β where
  get _ := none
  support := ∅
  mem_support := by simp

instance : Inhabited (FileTree σ β) := ⟨empty⟩

/-- Write one file, replacing what the path held. -/
def put (t : FileTree σ β) (p : List σ) (f : β) : FileTree σ β where
  get q := if q = p then some f else t.get q
  support := insert p t.support
  mem_support q := by
    by_cases h : q = p <;> simp [h, t.mem_support]

/-- Keep the files whose path satisfies `keep`. -/
def restrict (t : FileTree σ β) (keep : List σ → Bool) : FileTree σ β where
  get q := if keep q then t.get q else none
  support := t.support.filter (fun q => keep q)
  mem_support q := by
    by_cases h : keep q <;> simp [h, t.mem_support]

/-- Remove a file, or a directory with everything below it. -/
def removeAll (t : FileTree σ β) (pre : List σ) : FileTree σ β :=
  t.restrict (fun q => !decide (pre <+: q))

/-- The files below a directory, addressed from that directory. -/
def subtree (t : FileTree σ β) (pre : List σ) : FileTree σ β where
  get q := t.get (pre ++ q)
  support := (t.support.filter (pre <+: ·)).image (·.drop pre.length)
  mem_support q := by
    simp only [Finset.mem_image, Finset.mem_filter, t.mem_support]
    constructor
    · rintro ⟨_, ⟨hs, r, rfl⟩, rfl⟩
      simpa using hs
    · intro hs
      exact ⟨pre ++ q, ⟨hs, List.prefix_append _ _⟩, by simp⟩

/-- Copy the files of `u` below the directory `pre`, overwriting files that exist there. -/
def graft (t : FileTree σ β) (pre : List σ) (u : FileTree σ β) : FileTree σ β where
  get q := if pre <+: q then (u.get (q.drop pre.length)).or (t.get q) else t.get q
  support := t.support ∪ u.support.image (pre ++ ·)
  mem_support q := by
    simp only [Finset.mem_union, Finset.mem_image, t.mem_support, u.mem_support]
    by_cases h : pre <+: q
    · obtain ⟨r, rfl⟩ := h
      simp [or_comm]
    · have hne : ∀ r, pre ++ r ≠ q := by
        rintro r rfl
        exact h (List.prefix_append _ _)
      simp [h, hne]

/-- Move a directory onto a path. -/
def rename (t : FileTree σ β) (src dst : List σ) : FileTree σ β :=
  (t.removeAll src).graft dst (t.subtree src)

/-- The tree with every file replaced. -/
def map {γ : Type} (f : β → γ) (t : FileTree σ β) : FileTree σ γ where
  get p := (t.get p).map f
  support := t.support
  mem_support p := by simp [t.mem_support]

/-- Some file lies strictly below the path. -/
def isDirectory (t : FileTree σ β) (p : List σ) : Bool :=
  decide (∃ q ∈ t.support, p <+: q ∧ q ≠ p)

/-- Nothing, neither a file nor a directory, is at the path. -/
def absent (t : FileTree σ β) (p : List σ) : Prop := ∀ q, t.get (p ++ q) = none

@[simp] theorem get_empty : (empty : FileTree σ β).get p = none := rfl

theorem get_put : (t.put p f).get q = if q = p then some f else t.get q := rfl

@[simp] theorem get_put_self : (t.put p f).get p = some f := by simp [get_put]

theorem get_put_of_ne (h : q ≠ p) : (t.put p f).get q = t.get q := by simp [get_put, h]

theorem get_restrict {keep : List σ → Bool} :
    (t.restrict keep).get q = if keep q then t.get q else none := rfl

theorem get_removeAll : (t.removeAll p).get q = if p <+: q then none else t.get q := by
  by_cases h : p <+: q <;> simp [removeAll, get_restrict, h]

theorem get_removeAll_of_not_below (h : ¬ p <+: q) : (t.removeAll p).get q = t.get q := by
  simp [get_removeAll, h]

@[simp] theorem get_removeAll_append : (t.removeAll p).get (p ++ q) = none := by
  simp [get_removeAll]

@[simp] theorem get_subtree : (t.subtree p).get q = t.get (p ++ q) := rfl

@[simp] theorem get_map {γ : Type} {f : β → γ} : (t.map f).get p = (t.get p).map f := rfl

@[simp] theorem support_map {γ : Type} {f : β → γ} : (t.map f).support = t.support := rfl

@[simp] theorem subtree_nil : t.subtree [] = t := by
  ext q
  simp

@[simp] theorem get_graft_append :
    (t.graft p u).get (p ++ q) = (u.get q).or (t.get (p ++ q)) := by
  simp [graft]

theorem get_graft_of_not_below (h : ¬ p <+: q) : (t.graft p u).get q = t.get q := by
  simp [graft, h]

/-- The two cases of a path looked up after a copy. -/
theorem get_graft_cases : (t.graft p u).get q = t.get q ∨
    ∃ r f, q = p ++ r ∧ u.get r = some f ∧ (t.graft p u).get q = some f := by
  by_cases h : p <+: q
  · obtain ⟨r, rfl⟩ := h
    cases hr : u.get r with
    | none => exact Or.inl (by simp [hr])
    | some f => exact Or.inr ⟨r, f, rfl, hr, by simp [hr]⟩
  · exact Or.inl (get_graft_of_not_below h)

theorem get_rename_append (h : ¬ p <+: r) (hsub : ¬ r <+: p) :
    (t.rename p r).get (r ++ q) = (t.get (p ++ q)).or (t.get (r ++ q)) := by
  rw [rename, get_graft_append, get_subtree, get_removeAll]
  have hpre : ¬ p <+: r ++ q := by
    intro hp
    rcases List.prefix_or_prefix_of_prefix hp (List.prefix_append r q) with h' | h'
    · exact h h'
    · exact hsub h'
  simp [hpre]

theorem get_rename_of_not_below (hsrc : ¬ p <+: q) (hdst : ¬ r <+: q) :
    (t.rename p r).get q = t.get q := by
  rw [rename, get_graft_of_not_below hdst, get_removeAll_of_not_below hsrc]

theorem get_rename_source (h : ¬ r <+: p ++ q) : (t.rename p r).get (p ++ q) = none := by
  rw [rename, get_graft_of_not_below h, get_removeAll_append]

theorem isDirectory_iff :
    t.isDirectory p ↔ ∃ q f, q ≠ [] ∧ t.get (p ++ q) = some f := by
  simp only [isDirectory, decide_eq_true_eq, mem_support_iff]
  constructor
  · rintro ⟨_, ⟨f, hf⟩, ⟨q, rfl⟩, hne⟩
    exact ⟨q, f, by simpa using hne, hf⟩
  · rintro ⟨q, f, hne, hf⟩
    exact ⟨p ++ q, ⟨f, hf⟩, List.prefix_append _ _, by simpa using hne⟩

theorem isDirectory_mono (h : ∀ q, (t.get q).isSome → (u.get q).isSome)
    (hp : t.isDirectory p = true) : u.isDirectory p = true := by
  obtain ⟨q, f, hq, hf⟩ := isDirectory_iff.mp hp
  obtain ⟨g, hg⟩ := Option.isSome_iff_exists.mp (h (p ++ q) (Option.isSome_of_eq_some hf))
  exact isDirectory_iff.mpr ⟨q, g, hq, hg⟩

/-- The two trees hold the same files outside `S`. -/
def AgreeOff (S : List σ → Prop) (t u : FileTree σ β) : Prop := ∀ p, ¬ S p → u.get p = t.get p

namespace AgreeOff

variable {S S' : List σ → Prop} {v : FileTree σ β}

theorem refl : AgreeOff S t t := fun _ _ => rfl

theorem trans (h : AgreeOff S t u) (h' : AgreeOff S u v) : AgreeOff S t v := fun p hp =>
  (h' p hp).trans (h p hp)

theorem symm (h : AgreeOff S t u) : AgreeOff S u t := fun p hp => (h p hp).symm

theorem mono (h : AgreeOff S t u) (hS : ∀ p, S p → S' p) : AgreeOff S' t u := fun p hp =>
  h p fun hs => hp (hS p hs)

theorem put (h : AgreeOff S t u) (hp : S p) : AgreeOff S t (u.put p f) := by
  intro q hq
  rw [get_put_of_ne (by rintro rfl; exact hq hp), h q hq]

theorem restrict {keep : List σ → Bool} (h : AgreeOff S t u) (hS : ∀ q, keep q = false → S q) :
    AgreeOff S t (u.restrict keep) := by
  intro q hq
  rw [get_restrict, h q hq]
  cases hk : keep q with
  | true => rfl
  | false => exact (hq (hS q hk)).elim

theorem removeAll (h : AgreeOff S t u) (hS : ∀ q, p <+: q → S q) :
    AgreeOff S t (u.removeAll p) := by
  intro q hq
  rw [get_removeAll_of_not_below (fun hp => hq (hS q hp)), h q hq]

theorem graft (h : AgreeOff S t u) (hS : ∀ q g, v.get q = some g → S (p ++ q)) :
    AgreeOff S t (u.graft p v) := by
  intro q hq
  rcases get_graft_cases (t := u) (u := v) (p := p) (q := q) with hg | ⟨r, g, rfl, hr, _⟩
  · rw [hg, h q hq]
  · exact (hq (hS r g hr)).elim

theorem rename (h : AgreeOff S t u) (hsrc : ∀ q, p <+: q → S q) (hdst : ∀ q, r <+: q → S q) :
    AgreeOff S t (u.rename p r) := by
  intro q hq
  rw [get_rename_of_not_below (fun hp => hq (hsrc q hp)) (fun hr => hq (hdst q hr)), h q hq]

end AgreeOff

end FileTree

end StyioPlatform
