import Mathlib.Data.List.SplitOn
import Mathlib.Data.List.TakeWhile
import Mathlib.Data.String.Basic

/-! Texts cut at a separator, and paths as the lists of their names. -/
namespace StyioPlatform

section Segments

variable {α : Type} [DecidableEq α] {sep : α} {l l' : List α}

/-- The non-empty pieces between separators. -/
def segments (sep : α) (l : List α) : List (List α) := (l.splitOn sep).filter (· ≠ [])

theorem segments_append_cons : segments sep (l ++ sep :: l') = segments sep l ++ segments sep l' := by
  simp [segments, List.splitOn_append_cons_self]

theorem segments_of_not_mem (h : sep ∉ l) (hne : l ≠ []) : segments sep l = [l] := by
  simp [segments, List.splitOn_eq_singleton h, hne]

/-- Pieces have no separator in them. -/
theorem not_mem_of_mem_splitOn {piece : List α} (h : piece ∈ l.splitOn sep) : sep ∉ piece := by
  induction l generalizing piece with
  | nil => simp_all
  | cons x l ih =>
    rw [List.splitOn_cons_eq_if_modifyHead] at h
    split at h
    · rcases List.mem_cons.mp h with rfl | h
      · simp
      · exact ih h
    · rename_i hx
      cases hsplit : l.splitOn sep with
      | nil => simp [hsplit] at h
      | cons first rest =>
        rw [hsplit, List.modifyHead_cons] at h
        rcases List.mem_cons.mp h with rfl | h
        · have hfirst : sep ∉ first := ih (by simp [hsplit])
          have hne : sep ≠ x := fun he => hx (by simp [he])
          simp [hfirst, hne]
        · exact ih (by simp [hsplit, h])

theorem not_mem_of_mem_segments {piece : List α} (h : piece ∈ segments sep l) : sep ∉ piece :=
  not_mem_of_mem_splitOn (List.mem_filter.mp h).1

/-- Only an empty list and one that ends with a separator have an empty last piece. -/
theorem eq_nil_or_getLast?_of_splitOn (h : (l.splitOn sep).getLast? = some []) :
    l = [] ∨ l.getLast? = some sep := by
  have hends : ∀ initial : List (List α), initial ≠ [] →
      ([sep].intercalate (initial ++ [[]])).getLast? = some sep := by
    intro initial hne
    induction initial with
    | nil => exact absurd rfl hne
    | cons piece initial ih =>
      rw [List.cons_append, List.intercalate_cons_of_ne_nil (by simp)]
      rcases eq_or_ne initial [] with rfl | hinitial
      · simp
      · rw [List.getLast?_append, ih hinitial]
        rfl
  obtain ⟨initial, hpieces⟩ := List.getLast?_eq_some_iff.mp h
  have hl : [sep].intercalate (l.splitOn sep) = l := List.intercalate_splitOn sep
  rw [hpieces] at hl
  rcases eq_or_ne initial [] with rfl | hinitial
  · exact Or.inl hl.symm
  · exact Or.inr (hl ▸ hends initial hinitial)

theorem eq_or_mem_of_mem_intercalate {x : α} {parts : List (List α)}
    (h : x ∈ [sep].intercalate parts) : x = sep ∨ ∃ part ∈ parts, x ∈ part := by
  induction parts with
  | nil => cases h
  | cons part parts ih =>
    rcases eq_or_ne parts [] with rfl | hne
    · rw [List.intercalate_singleton] at h
      exact Or.inr ⟨part, List.mem_singleton_self _, h⟩
    · rw [List.intercalate_cons_of_ne_nil hne, List.mem_append, List.mem_append] at h
      rcases h with (h | h) | h
      · exact Or.inr ⟨part, List.mem_cons_self, h⟩
      · exact Or.inl (List.mem_singleton.mp h)
      · rcases ih h with hsep | ⟨other, hother, hx⟩
        · exact Or.inl hsep
        · exact Or.inr ⟨other, List.mem_cons_of_mem _ hother, hx⟩

/-- What is written at the end without a separator becomes part of the last piece. -/
theorem splitOn_append (hl' : sep ∉ l') : ∃ initial last,
    l.splitOn sep = initial ++ [last] ∧ (l ++ l').splitOn sep = initial ++ [last ++ l'] := by
  obtain ⟨initial, last, hpieces⟩ : ∃ initial last, l.splitOn sep = initial ++ [last] := by
    rcases List.eq_nil_or_concat (l.splitOn sep) with hnil | ⟨initial, last, hconcat⟩
    · exact absurd hnil (List.splitOn_ne_nil _ _)
    · exact ⟨initial, last, by simpa using hconcat⟩
  refine ⟨initial, last, hpieces, ?_⟩
  have hjoin : ∀ initial : List (List α), [sep].intercalate (initial ++ [last ++ l']) =
      [sep].intercalate (initial ++ [last]) ++ l' := by
    intro initial
    induction initial with
    | nil => simp
    | cons piece initial ih =>
      rw [List.cons_append, List.cons_append, List.intercalate_cons_of_ne_nil (by simp),
        List.intercalate_cons_of_ne_nil (by simp), ih]
      simp
  have hl : [sep].intercalate (l.splitOn sep) = l := List.intercalate_splitOn sep
  rw [hpieces] at hl
  rw [← hl, ← hjoin]
  refine List.splitOn_intercalate sep ?_ (by simp)
  have hbefore : ∀ piece ∈ initial ++ [last], sep ∉ piece := by
    rw [← hpieces]
    exact fun piece h => not_mem_of_mem_splitOn h
  intro piece hpiece
  rcases List.mem_append.mp hpiece with hpiece | hpiece
  · exact hbefore piece (List.mem_append_left _ hpiece)
  · rw [List.mem_singleton.mp hpiece, List.mem_append, not_or]
    exact ⟨hbefore last (by simp), hl'⟩

end Segments

section Names

variable {dir names : List String} {name : String}

/-- Enter the entry of a directory: `.` is the directory itself and `..` the one above it, which
is the root at the root. -/
def enter (dir : List String) (name : String) : List String :=
  if name = "" ∨ name = "." then dir
  else if name = ".." then dir.dropLast
  else dir ++ [name]

/-- The names from the root, without `.` and `..`. -/
def normal (names : List String) : List String := names.foldl enter []

/-- A name that is entered downwards. -/
def IsName (name : String) : Prop := name ≠ "" ∧ name ≠ "." ∧ name ≠ ".."

instance : DecidablePred IsName := fun _ => inferInstanceAs (Decidable (_ ∧ _ ∧ _))

theorem enter_of_isName (h : IsName name) : enter dir name = dir ++ [name] := by
  simp [enter, h.1, h.2.1, h.2.2]

theorem normal_concat (h : IsName name) : normal (names ++ [name]) = normal names ++ [name] := by
  simp [normal, enter_of_isName h]

theorem isName_of_mem_normal (h : name ∈ normal names) : IsName name := by
  have hfold : ∀ dir : List String, (∀ n ∈ dir, IsName n) → name ∈ names.foldl enter dir →
      IsName name := by
    clear h
    induction names with
    | nil => exact fun dir hdir hmem => hdir name hmem
    | cons first names ih =>
      intro dir hdir hmem
      refine ih (enter dir first) (fun n hn => ?_) hmem
      unfold enter at hn
      split at hn
      · exact hdir n hn
      · next hdot =>
        split at hn
        · exact hdir n (List.dropLast_subset _ hn)
        · next hup =>
          rcases List.mem_append.mp hn with hn | hn
          · exact hdir n hn
          · rw [List.mem_singleton.mp hn]
            push Not at hdot
            exact ⟨hdot.1, hdot.2, hup⟩
  exact hfold [] (by simp) h

theorem foldl_enter_of_isName (h : ∀ name ∈ names, IsName name) :
    names.foldl enter dir = dir ++ names := by
  induction names generalizing dir with
  | nil => simp
  | cons name names ih =>
    rw [List.foldl_cons, enter_of_isName (h name List.mem_cons_self),
      ih fun n hn => h n (List.mem_cons_of_mem _ hn)]
    simp

/-- Names without `.` and `..` are their own normal form. -/
theorem normal_of_isName (h : ∀ name ∈ names, IsName name) : normal names = names :=
  foldl_enter_of_isName h

theorem normal_normal : normal (normal names) = normal names :=
  normal_of_isName fun _ h => isName_of_mem_normal h

/-- One name more at the end of a relative path. -/
def settle (done : List String) (name : String) : List String :=
  if name = "" ∨ name = "." then done
  else if name = ".." then
    if done.getLast?.all fun last => decide (last = "..") then done ++ [".."] else done.dropLast
  else done ++ [name]

/-- The names of a relative path without `.`, and with `..` only at the start. -/
def relativeNormal (names : List String) : List String := names.foldl settle []

/-- `..` stands at the start only. -/
def Settled (names : List String) : Prop :=
  ∃ ups downs, names = ups ++ downs ∧ (∀ n ∈ ups, n = "..") ∧ ∀ n ∈ downs, IsName n

theorem settled_settle (h : Settled names) : Settled (settle names name) := by
  obtain ⟨ups, downs, rfl, hups, hdowns⟩ := h
  unfold settle
  split
  · exact ⟨ups, downs, rfl, hups, hdowns⟩
  next hdot =>
  push Not at hdot
  split
  · rcases List.eq_nil_or_concat downs with rfl | ⟨initial, last, hconcat⟩
    · -- only `..` so far, and one more
      have hall : ((ups ++ []).getLast?.all fun last => decide (last = "..")) = true := by
        rw [List.append_nil]
        cases hlast : ups.getLast? with
        | none => rfl
        | some last => exact decide_eq_true (hups last (List.mem_of_getLast? hlast))
      rw [if_pos hall]
      refine ⟨ups ++ [".."], [], by simp, fun n hn => ?_, nofun⟩
      rcases List.mem_append.mp hn with hn | hn
      · exact hups n hn
      · exact List.mem_singleton.mp hn
    · have hdowns' : downs = initial ++ [last] := by simpa using hconcat
      subst hdowns'
      have hlast : IsName last := hdowns last (by simp)
      rw [if_neg (by simpa using hlast.2.2)]
      refine ⟨ups, initial, ?_, hups, fun n hn => hdowns n (List.mem_append_left _ hn)⟩
      rw [← List.append_assoc, List.dropLast_concat]
  · next hup =>
    refine ⟨ups, downs ++ [name], by simp, hups, fun n hn => ?_⟩
    rcases List.mem_append.mp hn with hn | hn
    · exact hdowns n hn
    · rw [List.mem_singleton.mp hn]
      exact ⟨hdot.1, hdot.2, hup⟩

theorem settled_relativeNormal : Settled (relativeNormal names) := by
  have hfold : ∀ done : List String, Settled done → Settled (names.foldl settle done) := by
    induction names with
    | nil => exact fun done hdone => hdone
    | cons name names ih => exact fun done hdone => ih _ (settled_settle hdone)
  exact hfold [] ⟨[], [], rfl, nofun, nofun⟩

/-- A normal form that does not start with `..` leads downwards only. -/
theorem isName_of_mem_relativeNormal (h : (relativeNormal names).head? ≠ some "..") :
    ∀ n ∈ relativeNormal names, IsName n := by
  obtain ⟨ups, downs, heq, hups, hdowns⟩ := @settled_relativeNormal names
  rw [heq] at h ⊢
  cases ups with
  | nil => exact fun n hn => hdowns n hn
  | cons up ups =>
    rw [hups up List.mem_cons_self] at h
    exact absurd rfl h

/-- Names other than `..` do not lead out of the directory. -/
theorem prefix_foldl_enter (h : ∀ n ∈ names, n ≠ "..") : dir <+: names.foldl enter dir := by
  induction names generalizing dir with
  | nil => exact List.prefix_rfl
  | cons name names ih =>
    have hname := h name List.mem_cons_self
    have hrest : enter dir name <+: (name :: names).foldl enter dir :=
      ih fun n hn => h n (List.mem_cons_of_mem _ hn)
    refine List.IsPrefix.trans ?_ hrest
    by_cases hdot : name = "" ∨ name = "."
    · have hstays : enter dir name = dir := if_pos hdot
      exact ⟨[], (List.append_nil dir).trans hstays.symm⟩
    · rw [enter, if_neg hdot, if_neg hname]
      exact List.prefix_append _ _

/-- A relative path and its normal form lead to the same place. -/
theorem foldl_enter_relativeNormal :
    (relativeNormal names).foldl enter dir = names.foldl enter dir := by
  have hsettle : ∀ (done : List String) (name : String), (∀ n ∈ done, n ≠ "" ∧ n ≠ ".") →
      (settle done name).foldl enter dir = enter (done.foldl enter dir) name ∧
      ∀ n ∈ settle done name, n ≠ "" ∧ n ≠ "." := by
    intro done name hdone
    unfold settle
    split
    · next hdot => exact ⟨by simp [enter, hdot], hdone⟩
    · next hdot =>
      push Not at hdot
      split
      · next hup =>
        subst hup
        split
        · refine ⟨by simp, fun n hn => ?_⟩
          rcases List.mem_append.mp hn with hn | hn
          · exact hdone n hn
          · rw [List.mem_singleton.mp hn]
            decide
        · next hlast =>
          -- the last name is entered and left again
          obtain ⟨initial, last, rfl⟩ : ∃ initial last, done = initial ++ [last] := by
            rcases List.eq_nil_or_concat done with rfl | ⟨initial, last, rfl⟩
            · simp at hlast
            · exact ⟨initial, last, by simp⟩
          have hname : IsName last := by
            refine ⟨(hdone last (by simp)).1, (hdone last (by simp)).2, ?_⟩
            simpa using hlast
          refine ⟨?_, fun n hn => hdone n (List.dropLast_subset _ hn)⟩
          rw [List.dropLast_concat, List.foldl_append, List.foldl_cons, List.foldl_nil,
            enter_of_isName hname]
          simp [enter]
      · refine ⟨by simp, fun n hn => ?_⟩
        rcases List.mem_append.mp hn with hn | hn
        · exact hdone n hn
        · rw [List.mem_singleton.mp hn]
          exact hdot
  have hfold : ∀ done : List String, (∀ n ∈ done, n ≠ "" ∧ n ≠ ".") →
      (names.foldl settle done).foldl enter dir = names.foldl enter (done.foldl enter dir) := by
    induction names with
    | nil => exact fun _ _ => rfl
    | cons name names ih =>
      intro done hdone
      obtain ⟨henter, hsettled⟩ := hsettle done name hdone
      rw [List.foldl_cons, List.foldl_cons, ih (settle done name) hsettled, henter]
  exact hfold [] nofun

theorem normal_append_relativeNormal : normal (dir ++ relativeNormal names) = normal (dir ++ names) := by
  rw [normal, normal, List.foldl_append, List.foldl_append, foldl_enter_relativeNormal]

/-- The way from a directory to a path, up to the part that they share and down again; `.` where
there is nothing to go. -/
def lexicallyRelative : (path base : List String) → List String
  | name :: path, name' :: base =>
    if name = name' then lexicallyRelative path base
    else (name' :: base).map (fun _ => "..") ++ name :: path
  | [], name' :: base => (name' :: base).map fun _ => ".."
  | path, [] => if path = [] then ["."] else path

theorem lexicallyRelative_nil {path : List String} :
    lexicallyRelative path [] = if path = [] then ["."] else path := by
  cases path <;> rfl

theorem lexicallyRelative_ne_nil {path base : List String} : lexicallyRelative path base ≠ [] := by
  induction base generalizing path with
  | nil =>
    rw [lexicallyRelative_nil]
    split
    · simp
    · next hne => exact hne
  | cons name' base ih =>
    cases path with
    | nil => simp [lexicallyRelative]
    | cons name path =>
      unfold lexicallyRelative
      split
      · exact ih
      · simp

/-- The way does not start upwards exactly for paths below the directory. -/
theorem head?_lexicallyRelative {path base : List String} (h : ∀ name ∈ path, IsName name) :
    (lexicallyRelative path base).head? ≠ some ".." ↔ base <+: path := by
  induction base generalizing path with
  | nil =>
    rw [lexicallyRelative_nil]
    cases path with
    | nil => simp
    | cons name path =>
      have hname : name ≠ ".." := (h name List.mem_cons_self).2.2
      simp [hname]
  | cons name' base ih =>
    cases path with
    | nil => simp [lexicallyRelative]
    | cons name path =>
      unfold lexicallyRelative
      split
      · next heq =>
        subst heq
        rw [ih fun n hn => h n (List.mem_cons_of_mem _ hn), List.prefix_cons_inj]
      · next hne =>
        have hnot : ¬ name' :: base <+: name :: path := fun hp =>
          hne (List.cons_prefix_cons.mp hp).1.symm
        simp [hnot]

end Names

section Joined

variable {names names' : List String}

theorem toList_intercalate : ("/".intercalate names).toList =
    ['/'].intercalate (names.map String.toList) := by
  induction names with
  | nil => rfl
  | cons name names ih =>
    cases names with
    | nil => simp
    | cons name' names =>
      simp [String.intercalate_cons_cons, String.toList_append, ih, List.intercalate]

/-- Names joined by the separator can be told apart. -/
theorem intercalate_injective (h : ∀ name ∈ names, name ≠ "" ∧ '/' ∉ name.toList)
    (h' : ∀ name ∈ names', name ≠ "" ∧ '/' ∉ name.toList)
    (heq : "/".intercalate names = "/".intercalate names') : names = names' := by
  have hsplit : ∀ {l : List String}, (∀ name ∈ l, name ≠ "" ∧ '/' ∉ name.toList) → l ≠ [] →
      (['/'].intercalate (l.map String.toList)).splitOn '/' = l.map String.toList := by
    intro l hl hne
    refine List.splitOn_intercalate _ ?_ (by simpa using hne)
    intro piece hpiece
    obtain ⟨name, hname, rfl⟩ := List.mem_map.mp hpiece
    exact (hl name hname).2
  have hempty : ∀ {l : List String}, (∀ name ∈ l, name ≠ "" ∧ '/' ∉ name.toList) → l ≠ [] →
      ['/'].intercalate (l.map String.toList) ≠ [] := by
    intro l hl hne hnil
    have hpieces := hsplit hl hne
    rw [hnil] at hpieces
    cases l with
    | nil => exact hne rfl
    | cons name l =>
      have hname : name.toList = [] := by simpa using (List.cons.inj hpieces).1.symm
      exact (hl name (by simp)).1 (String.toList_eq_nil_iff.mp hname)
  have htext := congrArg String.toList heq
  rw [toList_intercalate, toList_intercalate] at htext
  rcases eq_or_ne names [] with rfl | hne
  · rcases eq_or_ne names' [] with rfl | hne'
    · rfl
    · exact (hempty h' hne' htext.symm).elim
  · rcases eq_or_ne names' [] with rfl | hne'
    · exact (hempty h hne htext).elim
    · have hpieces := hsplit h hne
      rw [htext, hsplit h' hne'] at hpieces
      exact ((List.map_injective_iff.mpr fun _ _ => String.toList_inj.mp) hpieces).symm

end Joined

end StyioPlatform
