import Mathlib.Data.Finset.Sort
import Mathlib.Data.List.TakeWhile

/-! Lists in order: the elements of a finite set, and keyed entries such as objects of JSON. -/
namespace StyioPlatform

/-- The elements of a finite set in increasing order, by insertion so that it can be evaluated. -/
def sorted {α : Type} [LinearOrder α] (s : Finset α) : List α :=
  Quot.liftOn s.val (·.insertionSort (· ≤ ·)) fun l m h =>
    (((List.perm_insertionSort _ l).trans h).trans
      (List.perm_insertionSort _ m).symm).eq_of_pairwise'
        (List.pairwise_insertionSort _ l) (List.pairwise_insertionSort _ m)

theorem sorted_eq_sort {α : Type} [LinearOrder α] (s : Finset α) : sorted s = s.sort (· ≤ ·) := by
  obtain ⟨⟨l⟩, h⟩ := s
  exact (List.mergeSort_eq_insertionSort (· ≤ ·) l).symm

@[simp] theorem mem_sorted {α : Type} [LinearOrder α] {s : Finset α} {a : α} :
    a ∈ sorted s ↔ a ∈ s := by
  rw [sorted_eq_sort, Finset.mem_sort]

theorem pairwise_sorted {α : Type} [LinearOrder α] {s : Finset α} :
    (sorted s).Pairwise (· < ·) := by
  rw [sorted_eq_sort]
  exact s.sortedLT_sort.pairwise

/-- An increasing list is what its elements are sorted to. -/
theorem sorted_eq_of_pairwise {α : Type} [LinearOrder α] {s : Finset α} {l : List α}
    (hl : l.Pairwise (· < ·)) (hmem : ∀ a, a ∈ s ↔ a ∈ l) : sorted s = l := by
  have hs : s = l.toFinset := by
    ext a
    rw [hmem, List.mem_toFinset]
  have hnodup : l.Nodup := hl.imp ne_of_lt
  rw [hs, sorted_eq_sort, (List.toFinset_sort (· ≤ ·) hnodup).mpr (hl.imp le_of_lt)]

variable {κ ν : Type} [LinearOrder κ] {l : List (κ × ν)} {k : κ} {v : ν} {x : κ × ν}

/-- Assign `v` to the key `k`, replacing the entry that the key had. -/
def setKey (l : List (κ × ν)) (k : κ) (v : ν) : List (κ × ν) :=
  (l.filter (fun x => x.1 ≠ k)).orderedInsert (fun x y => x.1 ≤ y.1) (k, v)

def hasKey (l : List (κ × ν)) (k : κ) : Bool := l.any (fun x => x.1 = k)

def eraseKey (l : List (κ × ν)) (k : κ) : List (κ × ν) := l.filter (fun x => x.1 ≠ k)

/-- The value of the key. -/
def getKey (l : List (κ × ν)) (k : κ) : Option ν := (l.find? (fun x => x.1 = k)).map (·.2)

@[simp] theorem mem_setKey : x ∈ setKey l k v ↔ x = (k, v) ∨ x ∈ l ∧ x.1 ≠ k := by
  simp [setKey, List.mem_orderedInsert]

theorem hasKey_iff : hasKey l k = true ↔ ∃ v, (k, v) ∈ l := by
  simp [hasKey]

theorem hasKey_setKey {j : κ} : hasKey (setKey l k v) j = true ↔ j = k ∨ hasKey l j = true := by
  simp only [hasKey_iff, mem_setKey, Prod.mk.injEq, ne_eq]
  by_cases h : j = k <;> simp [h]

theorem hasKey_eraseKey {j : κ} : hasKey (eraseKey l k) j = true ↔ j ≠ k ∧ hasKey l j = true := by
  simp only [hasKey_iff, eraseKey, List.mem_filter, decide_eq_true_eq]
  exact ⟨fun ⟨v, h, hne⟩ => ⟨hne, v, h⟩, fun ⟨hne, v, h⟩ => ⟨v, h, hne⟩⟩

theorem mem_of_getKey {v : ν} (h : getKey l k = some v) : (k, v) ∈ l := by
  simp only [getKey, Option.map_eq_some_iff] at h
  obtain ⟨x, hx, rfl⟩ := h
  have hk := List.find?_some hx
  have hmem := List.mem_of_find?_eq_some hx
  rw [decide_eq_true_eq] at hk
  rwa [← hk]

/-- A search for another element does not see the inserted one. -/
theorem find?_orderedInsert {α : Type} {r : α → α → Prop} [DecidableRel r] {p : α → Bool} {a : α}
    {l : List α} (ha : p a = false) : (l.orderedInsert r a).find? p = l.find? p := by
  induction l with
  | nil => simp [ha]
  | cons b l ih =>
    rw [List.orderedInsert]
    split
    · rw [List.find?_cons, ha]
    · rw [List.find?_cons, List.find?_cons, ih]

theorem getKey_setKey {j : κ} : getKey (setKey l k v) j = if j = k then some v else getKey l j := by
  simp only [getKey, setKey]
  split
  · rename_i h
    subst h
    have hmem : (j, v) ∈ setKey l j v := by simp
    have hunique : ∀ x ∈ setKey l j v, x.1 = j → x = (j, v) := by
      intro x hx hj
      rcases mem_setKey.mp hx with hx | ⟨-, hne⟩
      · exact hx
      · exact absurd hj hne
    cases hfind : (setKey l j v).find? (fun x => x.1 = j) with
    | none => simpa using List.find?_eq_none.mp hfind _ hmem
    | some y =>
      have hy := hunique y (List.mem_of_find?_eq_some hfind) (by simpa using List.find?_some hfind)
      rw [setKey] at hfind
      rw [hfind, hy]
      rfl
  · rename_i h
    rw [find?_orderedInsert (by simpa using Ne.symm h), List.find?_filter]
    congr 2
    funext x
    by_cases hx : x.1 = j <;> simp [hx, h]

/-- A key after all others is put at the end. -/
theorem setKey_of_forall_lt (h : ∀ x ∈ l, x.1 < k) : setKey l k v = l ++ [(k, v)] := by
  have hfilter : l.filter (fun x => x.1 ≠ k) = l := by
    rw [List.filter_eq_self]
    intro x hx
    rw [decide_eq_true_eq]
    exact (h x hx).ne
  have hbefore : ∀ x ∈ l, decide (¬ k ≤ x.1) = true := by
    intro x hx
    rw [decide_eq_true_eq]
    exact (h x hx).not_ge
  rw [setKey, hfilter, List.orderedInsert_eq_take_drop]
  simp only [List.takeWhile_eq_self_iff.mpr hbefore, List.dropWhile_eq_nil_iff.mpr hbefore]

theorem keys_setKey_perm :
    ((setKey l k v).map (·.1)).Perm (k :: (l.filter (fun x => x.1 ≠ k)).map (·.1)) := by
  simpa [setKey] using (List.perm_orderedInsert (fun x y => x.1 ≤ y.1) (k, v)
    (l.filter (fun x => x.1 ≠ k))).map (·.1)

theorem nodup_keys_setKey (h : (l.map (·.1)).Nodup) : ((setKey l k v).map (·.1)).Nodup := by
  rw [keys_setKey_perm.nodup_iff, List.nodup_cons]
  refine ⟨by simp, h.sublist ?_⟩
  exact List.Sublist.map _ List.filter_sublist

section Loop

variable {α : Type} {key : α → κ} {value : α → ν} {items : List α}

/-- What a key has after a loop comes from one of the entries that were set. -/
theorem exists_of_getKey_foldl
    (h : getKey (items.foldl (fun l x => setKey l (key x) (value x)) l) k = some v) :
    (∃ x ∈ items, key x = k ∧ value x = v) ∨ getKey l k = some v := by
  induction items generalizing l with
  | nil => exact .inr h
  | cons x items ih =>
    rcases ih h with ⟨y, hy, hkey, hvalue⟩ | hl
    · exact .inl ⟨y, List.mem_cons_of_mem _ hy, hkey, hvalue⟩
    · rw [getKey_setKey] at hl
      split at hl
      · next hk => exact .inl ⟨x, by simp, hk.symm, Option.some.inj hl⟩
      · exact .inr hl

/-- The key of every entry that was set has a value after the loop. -/
theorem getKey_foldl_isSome (h : (∃ x ∈ items, key x = k) ∨ (getKey l k).isSome) :
    (getKey (items.foldl (fun l x => setKey l (key x) (value x)) l) k).isSome := by
  induction items generalizing l with
  | nil =>
    rcases h with ⟨x, hx, -⟩ | h
    · cases hx
    · exact h
  | cons x items ih =>
    refine ih ?_
    rw [getKey_setKey]
    by_cases hk : k = key x
    · exact .inr (by simp [hk])
    · rcases h with ⟨y, hy, hkey⟩ | h
      · rcases List.mem_cons.mp hy with rfl | hy
        · exact (hk hkey.symm).elim
        · exact .inl ⟨y, hy, hkey⟩
      · exact .inr (by rwa [if_neg hk])

end Loop

end StyioPlatform
