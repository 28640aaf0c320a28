import StyioPlatform.Lib.Paths
import StyioPlatform.Protocols.CompilePlan

/-! What the digest of the sources tells about them: a NUL in a content can stand for the separators
between files. -/
namespace StyioPlatform.CompilePlan

open Resolve Manifest

/-- An absolute path whose text has no NUL. -/
structure IsAbsolutePath (path : Path) : Prop where
  names : ∀ name ∈ path, name ≠ "" ∧ '/' ∉ name.toList
  noNul : 0 ∉ textBytes (pathText path)

/-- Files in the order of their paths, each path once. -/
structure SourceList where
  files : List (Path × Bytes)
  sorted : (files.map (·.1)).Pairwise (· < ·)
  absolute : ∀ file ∈ files, IsAbsolutePath file.1

/-- No other list has the same digest input. -/
def Identifies (a : SourceList) : Prop :=
  ∀ b : SourceList, digestInput b.files = digestInput a.files → b.files = a.files

/-- A part of the content between two NULs is an absolute path after that of the file. -/
def HidesPath (path : Path) (content : Bytes) : Prop :=
  ∃ before hidden after, content = before ++ 0 :: (textBytes (pathText hidden) ++ 0 :: after) ∧
    IsAbsolutePath hidden ∧ path < hidden

variable {path path' : Path} {content : Bytes} {rest : List (Path × Bytes)}

theorem textBytes_injective {s t : String} (h : textBytes s = textBytes t) : s = t := by
  rw [textBytes, textBytes] at h
  exact String.toByteArray_inj.mp (ByteArray.ext (Array.toList_inj.mp h))

theorem pathText_injective (h : IsAbsolutePath path) (h' : IsAbsolutePath path')
    (heq : pathText path = pathText path') : path = path' := by
  refine intercalate_injective h.names h'.names ?_
  have htext := congrArg String.toList heq
  rw [pathText, pathText, String.toList_append, String.toList_append, List.append_cancel_left_eq,
    String.toList_inj] at htext
  exact htext

/-- The part before the first separator and the part after it. -/
theorem append_cons_inj {sep : UInt8} {a b x y : Bytes} (ha : sep ∉ a) (hb : sep ∉ b)
    (h : a ++ sep :: x = b ++ sep :: y) : a = b ∧ x = y := by
  have hsplit := congrArg (List.splitOn sep) h
  rw [List.splitOn_append_cons_self_of_not_mem ha, List.splitOn_append_cons_self_of_not_mem hb,
    List.cons.injEq] at hsplit
  refine ⟨hsplit.1, ?_⟩
  have hx : [sep].intercalate (x.splitOn sep) = x := List.intercalate_splitOn sep
  rw [← hx, hsplit.2, List.intercalate_splitOn]

theorem digestInput_cons : digestInput ((path, content) :: rest) =
    textBytes (pathText path) ++ 0 :: (content ++ 0 :: digestInput rest) := by
  simp [digestInput]

theorem digestInput_ne_nil : digestInput ((path, content) :: rest) ≠ [] := by
  simp [digestInput_cons]

/-- The digest input of files ends with a NUL. -/
theorem exists_digestInput_eq : ∃ before, digestInput ((path, content) :: rest) =
    textBytes (pathText path) ++ 0 :: (before ++ [0]) := by
  induction rest generalizing path content with
  | nil => exact ⟨content, by simp [digestInput]⟩
  | cons file rest ih =>
    obtain ⟨before, hbefore⟩ := @ih file.1 file.2
    refine ⟨content ++ 0 :: (textBytes (pathText file.1) ++ 0 :: before), ?_⟩
    rw [digestInput_cons, hbefore]
    simp

/-- Without NULs in the contents, the digest input can be cut in one way only. -/
theorem digestInput_injective {a b : List (Path × Bytes)}
    (ha : ∀ file ∈ a, IsAbsolutePath file.1 ∧ 0 ∉ file.2)
    (hb : ∀ file ∈ b, IsAbsolutePath file.1 ∧ 0 ∉ file.2)
    (h : digestInput a = digestInput b) : a = b := by
  induction a generalizing b with
  | nil =>
    cases b with
    | nil => rfl
    | cons file b => exact (digestInput_ne_nil h.symm).elim
  | cons file a ih =>
    cases b with
    | nil => exact (digestInput_ne_nil h).elim
    | cons file' b =>
      obtain ⟨hpath, hcontent⟩ := ha file (by simp)
      obtain ⟨hpath', hcontent'⟩ := hb file' (by simp)
      rw [digestInput_cons, digestInput_cons] at h
      obtain ⟨htext, hrest⟩ := append_cons_inj hpath.noNul hpath'.noNul h
      obtain ⟨hcontents, htail⟩ := append_cons_inj hcontent hcontent' hrest
      have hfile : file = file' :=
        Prod.ext (pathText_injective hpath hpath' (textBytes_injective htext)) hcontents
      have hfiles := ih (fun f hf => ha f (List.mem_cons_of_mem _ hf))
        (fun f hf => hb f (List.mem_cons_of_mem _ hf)) htail
      rw [hfile, hfiles]

/-- The second file can be hidden in the content of the first one. -/
theorem not_identifies_of_two {a : SourceList} (h : 1 < a.files.length) : ¬ Identifies a := by
  obtain ⟨files, hsorted, habsolute⟩ := a
  match files, hsorted, habsolute, h with
  | first :: second :: rest, hsorted, habsolute, _ =>
    intro hidentifies
    rw [List.map_cons, List.map_cons, List.pairwise_cons, List.pairwise_cons] at hsorted
    have hmerged := hidentifies
      ⟨(first.1, first.2 ++ 0 :: (textBytes (pathText second.1) ++ 0 :: second.2)) :: rest,
        by
          rw [List.map_cons, List.pairwise_cons]
          exact ⟨fun p hp => hsorted.1 p (List.mem_cons_of_mem _ hp), hsorted.2.2⟩,
        by
          intro file hfile
          rcases List.mem_cons.mp hfile with rfl | hfile
          · exact habsolute first (by simp)
          · exact habsolute file (by simp [hfile])⟩
      (by simp [digestInput])
    have hlength := congrArg List.length hmerged
    simp at hlength

/-- A path hidden in the content makes two files of one. -/
theorem not_identifies_of_hidesPath {a : SourceList} (hfiles : a.files = [(path, content)])
    (h : HidesPath path content) : ¬ Identifies a := by
  obtain ⟨before, hidden, after, rfl, habsolute, hlt⟩ := h
  intro hidentifies
  have hpath : IsAbsolutePath path := by
    have hall := a.absolute
    rw [hfiles] at hall
    exact hall _ (List.mem_singleton_self _)
  have hsplit := hidentifies
    ⟨[(path, before), (hidden, after)], by simpa using hlt,
      by
        intro file hfile
        simp only [List.mem_cons, List.not_mem_nil, or_false] at hfile
        rcases hfile with rfl | rfl
        · exact hpath
        · exact habsolute⟩
    (by simp [hfiles, digestInput])
  have hlength := congrArg List.length hsplit
  simp [hfiles] at hlength

/-- A list without files is the only one with an empty digest input. -/
theorem identifies_of_nil {a : SourceList} (hfiles : a.files = []) : Identifies a := by
  intro b hb
  rw [hfiles] at hb ⊢
  cases hb' : b.files with
  | nil => rfl
  | cons file rest =>
    rw [hb'] at hb
    exact (digestInput_ne_nil hb).elim

theorem identifies_of_single {a : SourceList} (hfiles : a.files = [(path, content)])
    (hhides : ¬ HidesPath path content) : Identifies a := by
  intro b hb
  have hpath : IsAbsolutePath path := a.absolute (path, content) (by simp [hfiles])
  rw [hfiles] at hb ⊢
  obtain ⟨files, hsorted, habsolute⟩ := b
  match files, hsorted, habsolute, hb with
  | [], _, _, hb => exact (digestInput_ne_nil hb.symm).elim
  | first :: rest, hsorted, habsolute, hb =>
    have hfirst := habsolute first (by simp)
    have hstart : textBytes (pathText first.1) ++ 0 :: (first.2 ++ 0 :: digestInput rest) =
        textBytes (pathText path) ++ 0 :: (content ++ 0 :: digestInput []) := by
      rw [← digestInput_cons, ← digestInput_cons]
      exact hb
    obtain ⟨htext, hcontent⟩ := append_cons_inj hfirst.noNul hpath.noNul hstart
    have hfirstPath := pathText_injective hfirst hpath (textBytes_injective htext)
    cases rest with
    | nil =>
      have hcontents : first.2 = content := by simpa [digestInput] using hcontent
      exact congrArg (fun file => [file]) (Prod.ext hfirstPath hcontents)
    | cons second rest =>
      -- the second path and what follows it lie in the content
      obtain ⟨after, hafter⟩ := @exists_digestInput_eq second.1 second.2 rest
      rw [hafter] at hcontent
      have hhidden : content = first.2 ++ 0 :: (textBytes (pathText second.1) ++ 0 :: after) := by
        have hall : (first.2 ++ 0 :: (textBytes (pathText second.1) ++ 0 :: after)) ++ [0] =
            content ++ [0] := by
          simpa [digestInput] using hcontent
        exact (List.append_inj_left' hall rfl).symm
      refine (hhides ⟨first.2, second.1, after, hhidden, habsolute second (by simp), ?_⟩).elim
      rw [List.map_cons, List.map_cons, List.pairwise_cons] at hsorted
      exact hfirstPath ▸ hsorted.1 second.1 (by simp)

/-- Which lists the digest input identifies, and that it is injective on contents without NUL. -/
theorem digestInput_identifies_iff (a : SourceList) :
    (Identifies a ↔ a.files.length ≤ 1 ∧ ∀ file ∈ a.files, ¬ HidesPath file.1 file.2) ∧
    ∀ b : SourceList, (∀ file ∈ a.files, 0 ∉ file.2) → (∀ file ∈ b.files, 0 ∉ file.2) →
      digestInput a.files = digestInput b.files → a.files = b.files := by
  constructor
  · rcases hfiles : a.files with _ | ⟨first, _ | ⟨second, rest⟩⟩
    · simpa using identifies_of_nil hfiles
    · constructor
      · intro hidentifies
        refine ⟨le_rfl, fun file hfile hhides => ?_⟩
        rw [List.mem_singleton] at hfile
        subst hfile
        exact not_identifies_of_hidesPath hfiles hhides hidentifies
      · intro h
        exact identifies_of_single hfiles (h.2 first (by simp))
    · constructor
      · intro hidentifies
        exact (not_identifies_of_two (by simp [hfiles]) hidentifies).elim
      · intro h
        have hlength := h.1
        simp at hlength
  · intro b ha hb h
    exact digestInput_injective (fun file hfile => ⟨a.absolute file hfile, ha file hfile⟩)
      (fun file hfile => ⟨b.absolute file hfile, hb file hfile⟩) h

section Files

/-- One file, whose content names another one. -/
def hidingFile : SourceList where
  files := [(["w", "a"], 120 :: 0 :: (textBytes "/w/b" ++ [0, 121]))]
  sorted := by simp
  absolute := by
    intro file hfile
    rw [List.mem_singleton] at hfile
    subst hfile
    exact ⟨by decide, by decide +kernel⟩

/-- The two files that it hides. -/
def hiddenFiles : SourceList where
  files := [(["w", "a"], [120]), (["w", "b"], [121])]
  sorted := by decide +kernel
  absolute := by
    intro file hfile
    simp only [List.mem_cons, List.not_mem_nil, or_false] at hfile
    rcases hfile with rfl | rfl
    · exact ⟨by decide, by decide +kernel⟩
    · exact ⟨by decide, by decide +kernel⟩

theorem hidingFile_not_identified :
    digestInput hidingFile.files = digestInput hiddenFiles.files ∧
      hidingFile.files ≠ hiddenFiles.files := by
  refine ⟨by decide +kernel, fun h => ?_⟩
  have hlength := congrArg List.length h
  exact absurd hlength (by decide)

variable {sources sources' : Sources} {graph graph' : ResolvedGraphResult} {input : Bytes}

theorem readSourceFile_eq_ok {file : Path × Bytes} :
    readSourceFile sources path = .ok file ↔
      file.1 = path ∧ lookup sources path = .regular file.2 := by
  obtain ⟨path', content⟩ := file
  simp only [readSourceFile, requireExistingSourceFile, readFile]
  cases hlookup : lookup sources path with
  | missing => simp [fail, bind, Except.bind]
  | directory => simp [fail, bind, Except.bind]
  | unreadable => simp [fail, bind, Except.bind]
  | regular content' => simp [bind, Except.bind, pure, Except.pure, eq_comm]

/-- The files that a digest input is made of. -/
theorem exists_sourceList (h : sourceDigestInput sources graph = .ok input)
    (habsolute : ∀ path ∈ sourceFiles graph, IsAbsolutePath path) :
    ∃ a : SourceList, a.files.map (·.1) = sourceFiles graph ∧
      (∀ file ∈ a.files, lookup sources file.1 = .regular file.2) ∧
      input = digestInput a.files := by
  rw [sourceDigestInput] at h
  obtain ⟨files, hfiles, hinput⟩ := bind_ok_iff.mp h
  cases hinput
  have hpaths : files.map (·.1) = sourceFiles graph := by
    have hmap := (mapM_eq_ok.mp hfiles).imp fun path file hfile =>
      (readSourceFile_eq_ok.mp hfile).1.symm
    have heq := List.forall₂_map_right_iff.mpr hmap
    rw [List.forall₂_eq_eq_eq] at heq
    exact heq.symm
  have hlookup : ∀ file ∈ files, lookup sources file.1 = .regular file.2 := by
    intro file hfile
    obtain ⟨path, -, hread⟩ := exists_of_mem_mapM hfiles hfile
    obtain ⟨rfl, hcontent⟩ := readSourceFile_eq_ok.mp hread
    exact hcontent
  refine ⟨⟨files, ?_, ?_⟩, hpaths, hlookup, rfl⟩
  · rw [hpaths]
    exact pairwise_sorted
  · intro file hfile
    exact habsolute file.1 (hpaths ▸ List.mem_map_of_mem hfile)

/-- Trees without NULs that have the same digest input are the same. -/
theorem sources_eq_of_digestInput (h : sourceDigestInput sources graph = .ok input)
    (h' : sourceDigestInput sources' graph' = .ok input)
    (habsolute : ∀ path ∈ sourceFiles graph, IsAbsolutePath path)
    (habsolute' : ∀ path ∈ sourceFiles graph', IsAbsolutePath path)
    (hnul : ∀ path ∈ sourceFiles graph, ∀ content, lookup sources path = .regular content →
      0 ∉ content)
    (hnul' : ∀ path ∈ sourceFiles graph', ∀ content, lookup sources' path = .regular content →
      0 ∉ content) :
    sourceFiles graph = sourceFiles graph' ∧
      ∀ path ∈ sourceFiles graph, lookup sources path = lookup sources' path := by
  obtain ⟨a, ha, hread, hinput⟩ := exists_sourceList h habsolute
  obtain ⟨a', ha', hread', hinput'⟩ := exists_sourceList h' habsolute'
  have hfree : ∀ file ∈ a.files, 0 ∉ file.2 := fun file hfile =>
    hnul file.1 (ha ▸ List.mem_map_of_mem hfile) file.2 (hread file hfile)
  have hfree' : ∀ file ∈ a'.files, 0 ∉ file.2 := fun file hfile =>
    hnul' file.1 (ha' ▸ List.mem_map_of_mem hfile) file.2 (hread' file hfile)
  have hfiles : a.files = a'.files := digestInput_injective
    (fun file hfile => ⟨a.absolute file hfile, hfree file hfile⟩)
    (fun file hfile => ⟨a'.absolute file hfile, hfree' file hfile⟩) (hinput.symm.trans hinput')
  refine ⟨by rw [← ha, ← ha', hfiles], fun path hpath => ?_⟩
  rw [← ha] at hpath
  obtain ⟨file, hfile, rfl⟩ := List.mem_map.mp hpath
  rw [hread file hfile, hread' file (hfiles ▸ hfile)]

end Files

end StyioPlatform.CompilePlan
