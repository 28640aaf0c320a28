import Mathlib.Data.List.Sort
import StyioPlatform.Lib.KeyedList

/-! Finite maps that list their entries in the order of the keys. -/
namespace StyioPlatform

/-- A finite map; the keys increase along the list of entries. -/
structure OrderedMap (κ ν : Type) [LinearOrder κ] where
  entries : List (κ × ν)
  increasing : entries.Pairwise (fun x y => x.1 < y.1)

namespace OrderedMap

variable {κ ν : Type} [LinearOrder κ] {m n : OrderedMap κ ν} {k j : κ} {v w : ν}

def empty : OrderedMap κ ν := ⟨[], .nil⟩

instance : Inhabited (OrderedMap κ ν) := ⟨empty⟩

def get (m : OrderedMap κ ν) (k : κ) : Option ν := getKey m.entries k

theorem nodup_keys (m : OrderedMap κ ν) : (m.entries.map (·.1)).Nodup := by
  rw [List.Nodup, List.pairwise_map]
  exact m.increasing.imp ne_of_lt

theorem increasing_setKey (m : OrderedMap κ ν) (k : κ) (v : ν) :
    (setKey m.entries k v).Pairwise (fun x y => x.1 < y.1) := by
  have : Std.Total (fun x y : κ × ν => x.1 ≤ y.1) := ⟨fun x y => le_total x.1 y.1⟩
  have : IsTrans (κ × ν) (fun x y => x.1 ≤ y.1) := ⟨fun _ _ _ => le_trans⟩
  have hle : (setKey m.entries k v).Pairwise (fun x y => x.1 ≤ y.1) := by
    apply List.Pairwise.orderedInsert
    exact (m.increasing.imp le_of_lt).sublist List.filter_sublist
  have hne := nodup_keys_setKey (k := k) (v := v) m.nodup_keys
  rw [List.Nodup, List.pairwise_map] at hne
  exact hle.imp₂ (fun _ _ h h' => lt_of_le_of_ne h h') hne

/-- Assign a value to a key, replacing the one it had. -/
def set (m : OrderedMap κ ν) (k : κ) (v : ν) : OrderedMap κ ν :=
  ⟨setKey m.entries k v, m.increasing_setKey k v⟩

/-- Keep the entries that satisfy `keep`. -/
def filter (m : OrderedMap κ ν) (keep : ν → Bool) : OrderedMap κ ν :=
  ⟨m.entries.filter (fun x => keep x.2), m.increasing.sublist List.filter_sublist⟩

def erase (m : OrderedMap κ ν) (k : κ) : OrderedMap κ ν :=
  ⟨m.entries.filter (fun x => x.1 ≠ k), m.increasing.sublist List.filter_sublist⟩

/-- The first entry, in the order of the keys, whose value satisfies `p`. -/
def first (m : OrderedMap κ ν) (p : ν → Bool) : Option (κ × ν) :=
  m.entries.find? (fun x => p x.2)

theorem mem_entries : (k, v) ∈ m.entries ↔ m.get k = some v := by
  constructor
  · intro h
    have hnodup := m.nodup_keys
    obtain ⟨w, hw⟩ : ∃ w, m.get k = some w := by
      rw [← Option.isSome_iff_exists, get, getKey, Option.isSome_map, List.find?_isSome]
      exact ⟨(k, v), h, by simp⟩
    have := List.inj_on_of_nodup_map hnodup h (mem_of_getKey hw) rfl
    simp_all
  · exact mem_of_getKey

@[simp] theorem get_empty : (empty : OrderedMap κ ν).get k = none := rfl

theorem get_set : (m.set k v).get j = if j = k then some v else m.get j := by
  apply Option.ext
  intro w
  rw [← mem_entries, set, mem_setKey, mem_entries]
  split
  · simp_all [eq_comm]
  · simp_all

@[simp] theorem get_set_self : (m.set k v).get k = some v := by simp [get_set]

theorem get_set_of_ne (h : j ≠ k) : (m.set k v).get j = m.get j := by simp [get_set, h]

theorem get_erase : (m.erase k).get j = if j = k then none else m.get j := by
  apply Option.ext
  intro w
  rw [← mem_entries, erase, List.mem_filter, mem_entries]
  split <;> simp_all

theorem first_eq_some {p : ν → Bool} {x : κ × ν} (h : m.first p = some x) :
    m.get x.1 = some x.2 ∧ p x.2 = true :=
  ⟨mem_entries.mp (List.mem_of_find?_eq_some h), by simpa using List.find?_some h⟩

/-- No entry that satisfies `p` comes before the first one. -/
theorem first_le {p : ν → Bool} {x : κ × ν} (h : m.first p = some x) (hget : m.get k = some v) (hp : p v = true) :
    x.1 ≤ k := by
  obtain ⟨-, before, after, hentries, hbefore⟩ := List.find?_eq_some_iff_append.mp h
  have hmem := mem_entries.mpr hget
  have hincreasing := m.increasing
  rw [hentries] at hmem hincreasing
  rcases List.mem_append.mp hmem with hin | hin
  · simp [hp] at hbefore
    exact absurd hp (by simpa using hbefore _ _ hin)
  · rcases List.mem_cons.mp hin with rfl | hin
    · exact le_refl _
    · have hpairs := (List.pairwise_cons.mp (List.pairwise_append.mp hincreasing).2.1).1
      exact le_of_lt (hpairs _ hin)

theorem first_eq_none_iff {p : ν → Bool} : m.first p = none ↔ ∀ k v, m.get k = some v → p v = false := by
  rw [first, List.find?_eq_none]
  constructor
  · intro h k v hget
    simpa using h (k, v) (mem_entries.mpr hget)
  · intro h x hx
    simpa using h x.1 x.2 (mem_entries.mp hx)

end OrderedMap

end StyioPlatform
