import StyioPlatform.Storage.ObjectStore

/-! Object keys for the writer (`ObjectStore.cpp`) and for the reader (`validator.py`): both accept
the same keys, and what they make of a key names a file below any root. -/
namespace StyioPlatform.Storage

/-- `RootReader._normalize_relative`; `none` where it raises. -/
def normalizeRelative (relativePath : Text) : Option Text :=
  let normalized := relativePath.dropWhile (· = '/')
  if normalized = [] ∨ normalized.getLast? = some '/' then none
  else
    let parts := normalized.splitOn '/'
    if (parts.any fun part => part = [] ∨ part = ".".toList ∨ part = "..".toList) ∨
        '\\' ∈ normalized then none
    else some normalized

/-- The names along a path. -/
def pathNames (path : Text) : List String := (path.splitOn '/').map String.ofList

/-- A key means the same to the writer and to the reader, and leads below every root. -/
structure KeyAgreement (key : Text) : Prop where
  same : ∀ r, normalizeObjectKey key = some r ↔ normalizeRelative key = some r
  fixed : ∀ r, normalizeObjectKey key = some r →
    normalizeObjectKey r = some r ∧ normalizeRelative r = some r
  canonical : ∀ r, normalizeObjectKey key = some r → ∀ part ∈ r.splitOn '/',
    part ≠ [] ∧ part ≠ ".".toList ∧ part ≠ "..".toList
  inside : ∀ r, normalizeObjectKey key = some r → ∀ root,
    normal (pathNames (root ++ '/' :: r)) = normal (pathNames root) ++ pathNames r

/-- What both make of a key: a path of names, without a backslash. -/
structure IsObjectKey (value : Text) : Prop where
  noBackslash : '\\' ∉ value
  canonical : ∀ part ∈ value.splitOn '/', part ≠ [] ∧ part ≠ ".".toList ∧ part ≠ "..".toList

variable {key value part r root : Text}

theorem isCanonicalPart_iff :
    isCanonicalPart part = true ↔ part ≠ [] ∧ part ≠ ".".toList ∧ part ≠ "..".toList := by
  rw [isCanonicalPart, decide_eq_true_iff]

namespace IsObjectKey

theorem ne_nil (h : IsObjectKey value) : value ≠ [] := by
  rintro rfl
  exact (h.canonical [] (by simp)).1 rfl

theorem getLast?_ne (h : IsObjectKey value) : value.getLast? ≠ some '/' := by
  intro hlast
  obtain ⟨initial, rfl⟩ := List.getLast?_eq_some_iff.mp hlast
  refine (h.canonical [] ?_).1 rfl
  rw [List.splitOn_append_cons_self]
  simp

theorem head?_ne (h : IsObjectKey value) : value.head? ≠ some '/' := by
  intro hhead
  obtain ⟨rest, rfl⟩ := List.head?_eq_some_iff.mp hhead
  refine (h.canonical [] ?_).1 rfl
  rw [List.splitOn_cons_eq_if_modifyHead]
  simp

theorem dropWhile_eq (h : IsObjectKey value) : value.dropWhile (· = '/') = value := by
  cases value with
  | nil => rfl
  | cons c value =>
    have hc : c ≠ '/' := by
      rintro rfl
      exact h.head?_ne rfl
    simp [hc]

end IsObjectKey

/-- A piece is lost only after a separator at the end. -/
theorem lines_eq (hne : value ≠ []) (hlast : value.getLast? ≠ some '/') :
    lines value = value.splitOn '/' := by
  have hpiece : (value.splitOn '/').getLastD [] ≠ [] := by
    intro hempty
    have hpieces : (value.splitOn '/').getLast? = some [] := by
      rw [List.getLast?_eq_some_getLast (List.splitOn_ne_nil _ _)]
      rw [List.getLastD_eq_getLast?, List.getLast?_eq_some_getLast (List.splitOn_ne_nil _ _)] at hempty
      exact congrArg some hempty
    rcases eq_nil_or_getLast?_of_splitOn hpieces with hnil | hsep
    · exact hne hnil
    · exact hlast hsep
  unfold lines
  rw [if_neg hpiece]

theorem normalizeObjectKey_eq_some :
    normalizeObjectKey key = some r ↔ key.dropWhile (· = '/') = r ∧ IsObjectKey r := by
  unfold normalizeObjectKey
  dsimp only
  split
  · next hrefused =>
    constructor
    · intro h
      cases h
    · rintro ⟨rfl, h⟩
      rcases hrefused with hnil | hlast | hback
      · exact absurd hnil h.ne_nil
      · exact absurd hlast h.getLast?_ne
      · exact absurd hback h.noBackslash
  · next haccepted =>
    push Not at haccepted
    obtain ⟨hne, hlast, hback⟩ := haccepted
    rw [lines_eq hne hlast]
    split
    · next hall =>
      rw [Option.some.injEq]
      constructor
      · rintro rfl
        exact ⟨rfl, hback, fun part hpart => isCanonicalPart_iff.mp (List.all_eq_true.mp hall part hpart)⟩
      · exact fun h => h.1
    · next hall =>
      constructor
      · intro h
        cases h
      · rintro ⟨rfl, h⟩
        exact absurd (List.all_eq_true.mpr fun part hpart =>
          isCanonicalPart_iff.mpr (h.canonical part hpart)) hall

theorem normalizeRelative_eq_some :
    normalizeRelative key = some r ↔ key.dropWhile (· = '/') = r ∧ IsObjectKey r := by
  unfold normalizeRelative
  dsimp only
  split
  · next hrefused =>
    constructor
    · intro h
      cases h
    · rintro ⟨rfl, h⟩
      rcases hrefused with hnil | hlast
      · exact absurd hnil h.ne_nil
      · exact absurd hlast h.getLast?_ne
  · split
    · next hrefused =>
      constructor
      · intro h
        cases h
      · rintro ⟨rfl, h⟩
        rcases hrefused with hany | hback
        · obtain ⟨part, hpart, hbad⟩ := List.any_eq_true.mp hany
          have hcanonical := h.canonical part hpart
          rcases of_decide_eq_true hbad with hnil | hdot | hdots
          · exact absurd hnil hcanonical.1
          · exact absurd hdot hcanonical.2.1
          · exact absurd hdots hcanonical.2.2
        · exact absurd hback h.noBackslash
    · next haccepted =>
      push Not at haccepted
      obtain ⟨hall, hback⟩ := haccepted
      rw [Option.some.injEq]
      constructor
      · rintro rfl
        refine ⟨rfl, hback, fun part hpart => ?_⟩
        simpa using fun hbad => hall (List.any_eq_true.mpr ⟨part, hpart, decide_eq_true hbad⟩)
      · exact fun h => h.1

theorem pathNames_append : pathNames (root ++ '/' :: r) = pathNames root ++ pathNames r := by
  rw [pathNames, List.splitOn_append_cons_self, List.map_append]
  rfl

theorem IsObjectKey.isName (h : IsObjectKey r) : ∀ name ∈ pathNames r, IsName name := by
  intro name hname
  obtain ⟨part, hpart, rfl⟩ := List.mem_map.mp hname
  obtain ⟨hnil, hdot, hdots⟩ := h.canonical part hpart
  have hne : ∀ text : String, part ≠ text.toList → String.ofList part ≠ text := by
    rintro text hpiece rfl
    exact hpiece String.toList_ofList.symm
  exact ⟨hne "" hnil, hne "." hdot, hne ".." hdots⟩

/-- The names of a key are entered one after another. -/
theorem IsObjectKey.normal_append (h : IsObjectKey r) (root : Text) :
    normal (pathNames (root ++ '/' :: r)) = normal (pathNames root) ++ pathNames r := by
  rw [pathNames_append, normal, List.foldl_append, foldl_enter_of_isName h.isName]
  rfl

theorem object_keys_agree (key : Text) : KeyAgreement key where
  same r := normalizeObjectKey_eq_some.trans normalizeRelative_eq_some.symm
  fixed r h := by
    obtain ⟨-, hkey⟩ := normalizeObjectKey_eq_some.mp h
    exact ⟨normalizeObjectKey_eq_some.mpr ⟨hkey.dropWhile_eq, hkey⟩,
      normalizeRelative_eq_some.mpr ⟨hkey.dropWhile_eq, hkey⟩⟩
  canonical r h := (normalizeObjectKey_eq_some.mp h).2.canonical
  inside r h root := (normalizeObjectKey_eq_some.mp h).2.normal_append root

end StyioPlatform.Storage
