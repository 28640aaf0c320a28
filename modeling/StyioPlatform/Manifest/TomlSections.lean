import StyioPlatform.Manifest.TomlWriting

/-! Sections of a written document, and the tables that a parser makes of them. -/
namespace StyioPlatform.Manifest

/-- A section of a document: a table, or the next element of an array of tables. -/
structure Section where
  name : String
  repeated : Bool
  pairs : List (String × Written)

namespace Section

def header (s : Section) : Line := if s.repeated then .element s.name else .table s.name

def lines (s : Section) : List Line := s.header :: s.pairs.map fun p => .pair p.1 p.2

def table (s : Section) : Table := s.pairs.foldl (fun t p => setKey t p.1 p.2.toml) []

/-- The document with the section. -/
def fill (root : Table) (s : Section) : Table :=
  setKey root s.name (if s.repeated then
    .array ((((getKey root s.name).bind Toml.asArray).getD []) ++ [.table s.table])
  else .table s.table)

end Section

section Sections

variable {r : Reading} {s : Section} {sections : List Section} {root : Table} {name : String}
  {pairs : List (String × Written)}

theorem filterMap_pairs : (pairs.map fun p => Line.pair p.1 p.2).filterMap Line.statement =
    pairs.map fun p => Statement.keyValue p.1 p.2.toml := by
  induction pairs with
  | nil => rfl
  | cons p pairs ih => simpa [Line.statement] using ih

/-- The pairs of a section go to the place that is being filled. -/
theorem foldlM_pairs (hnodup : (pairs.map (·.1)).Nodup)
    (hnew : ∀ p ∈ pairs, hasKey r.entries p.1 = false) :
    (pairs.map fun p => Statement.keyValue p.1 p.2.toml).foldlM Reading.step r =
      some { r with entries := pairs.foldl (fun t p => setKey t p.1 p.2.toml) r.entries } := by
  induction pairs generalizing r with
  | nil => rfl
  | cons p pairs ih =>
    rw [List.map_cons, List.nodup_cons] at hnodup
    have hnext : ∀ q ∈ pairs, hasKey (setKey r.entries p.1 p.2.toml) q.1 = false := by
      intro q hq
      rw [Bool.eq_false_iff, ne_eq, hasKey_setKey, not_or]
      refine ⟨fun heq => hnodup.1 (heq ▸ List.mem_map_of_mem hq), ?_⟩
      rw [hnew q (List.mem_cons_of_mem p hq)]
      exact Bool.false_ne_true
    have hfirst : r.step (.keyValue p.1 p.2.toml) =
        some { r with entries := setKey r.entries p.1 p.2.toml } := by
      rw [Reading.step, hnew p List.mem_cons_self]
      rfl
    rw [List.map_cons, List.foldlM_cons, hfirst]
    exact ih hnodup.2 hnext

/-- The reading of a document after a section. -/
theorem foldlM_section (hnodup : (s.pairs.map (·.1)).Nodup)
    (hfree : hasKey r.close s.name = true → s.repeated = true ∧ s.name ∈ r.elements) :
    ∃ r', (s.lines.filterMap Line.statement).foldlM Reading.step r = some r' ∧
      r'.close = s.fill r.close ∧
      r'.elements = if s.repeated then s.name :: r.elements else r.elements := by
  have hpairs : (s.pairs.map fun p => Line.pair p.1 p.2).filterMap Line.statement =
      s.pairs.map fun p => Statement.keyValue p.1 p.2.toml := filterMap_pairs
  obtain ⟨name, repeated, pairs⟩ := s
  cases repeated with
  | true =>
    have hstep : r.step (.element name) = some ⟨r.close, name :: r.elements, .element name, []⟩ := by
      rw [Reading.step, if_neg]
      exact fun h => h.2 (hfree h.1).2
    refine ⟨⟨r.close, name :: r.elements, .element name, (Section.mk name true pairs).table⟩,
      ?_, rfl, rfl⟩
    rw [Section.lines, List.filterMap_cons, hpairs]
    exact (congrArg (· >>= _) hstep).trans (foldlM_pairs hnodup fun _ _ => rfl)
  | false =>
    have hstep : r.step (.table name) = some ⟨r.close, r.elements, .table name, []⟩ := by
      rw [Reading.step, if_neg]
      intro h
      cases (hfree h).1
    refine ⟨⟨r.close, r.elements, .table name, (Section.mk name false pairs).table⟩, ?_, rfl, rfl⟩
    rw [Section.lines, List.filterMap_cons, hpairs]
    exact (congrArg (· >>= _) hstep).trans (foldlM_pairs hnodup fun _ _ => rfl)

/-- Sections of one name are elements of one array, and no key comes twice in a section. -/
structure Arranged (sections : List Section) : Prop where
  distinct : sections.Pairwise fun s t => s.name = t.name → s.repeated = true ∧ t.repeated = true
  nodup : ∀ s ∈ sections, (s.pairs.map (·.1)).Nodup

/-- Arranged sections whose names are among some. -/
structure ArrangedIn (names : List String) (sections : List Section) : Prop where
  arranged : Arranged sections
  names : ∀ s ∈ sections, s.name ∈ names

theorem ArrangedIn.append {more : List Section} {names names' : List String}
    (h : ArrangedIn names sections) (h' : ArrangedIn names' more)
    (hdisjoint : ∀ name ∈ names, name ∉ names') :
    ArrangedIn (names ++ names') (sections ++ more) where
  arranged := by
    refine ⟨?_, fun s hs => (List.mem_append.mp hs).elim (h.arranged.nodup s) (h'.arranged.nodup s)⟩
    rw [List.pairwise_append]
    refine ⟨h.arranged.distinct, h'.arranged.distinct, fun s hs t ht heq => ?_⟩
    exact absurd (heq ▸ h'.names t ht) (hdisjoint s.name (h.names s hs))
  names := by
    intro s hs
    rcases List.mem_append.mp hs with hs | hs
    · exact List.mem_append_left _ (h.names s hs)
    · exact List.mem_append_right _ (h'.names s hs)

theorem ArrangedIn.of_repeated (h : ∀ s ∈ sections, s.name = name ∧ s.repeated = true ∧
    (s.pairs.map (·.1)).Nodup) : ArrangedIn [name] sections where
  arranged := by
    refine ⟨?_, fun s hs => (h s hs).2.2⟩
    rw [List.pairwise_iff_forall_sublist]
    intro s t hst _
    exact ⟨(h s (hst.subset (by simp))).2.1, (h t (hst.subset (by simp))).2.1⟩
  names s hs := List.mem_singleton.mpr (h s hs).1

theorem ArrangedIn.singleton (hname : s.name = name) (h : (s.pairs.map (·.1)).Nodup) :
    ArrangedIn [name] [s] where
  arranged := ⟨List.pairwise_singleton _ _, fun t ht => by rwa [List.mem_singleton.mp ht]⟩
  names t ht := by rw [List.mem_singleton.mp ht, List.mem_singleton, hname]

theorem ArrangedIn.nil {names : List String} : ArrangedIn names [] :=
  ⟨⟨List.Pairwise.nil, nofun⟩, nofun⟩

theorem foldlM_sections (harranged : Arranged sections)
    (hfree : ∀ s ∈ sections, hasKey r.close s.name = true →
      s.repeated = true ∧ s.name ∈ r.elements) :
    ∃ r', ((sections.flatMap Section.lines).filterMap Line.statement).foldlM Reading.step r =
      some r' ∧ r'.close = sections.foldl Section.fill r.close := by
  induction sections generalizing r with
  | nil => exact ⟨r, rfl, rfl⟩
  | cons s sections ih =>
    obtain ⟨hdistinct, hmore⟩ := List.pairwise_cons.mp harranged.distinct
    obtain ⟨r₁, hr₁, hclose, helements⟩ := foldlM_section (harranged.nodup s List.mem_cons_self)
      (hfree s List.mem_cons_self)
    have hnext : ∀ t ∈ sections, hasKey r₁.close t.name = true →
        t.repeated = true ∧ t.name ∈ r₁.elements := by
      intro t ht hkey
      rw [hclose, Section.fill, hasKey_setKey] at hkey
      rw [helements]
      rcases hkey with heq | hkey
      · obtain ⟨hs, ht'⟩ := hdistinct t ht heq.symm
        rw [if_pos hs, heq]
        exact ⟨ht', List.mem_cons_self⟩
      · obtain ⟨ht', hmem⟩ := hfree t (List.mem_cons_of_mem s ht) hkey
        refine ⟨ht', ?_⟩
        split
        · exact List.mem_cons_of_mem _ hmem
        · exact hmem
    obtain ⟨r', hr', hclose'⟩ := ih ⟨hmore, fun t ht => harranged.nodup t (List.mem_cons_of_mem s ht)⟩
      hnext
    refine ⟨r', ?_, ?_⟩
    · rw [List.flatMap_cons, List.filterMap_append, List.foldlM_append, hr₁]
      exact hr'
    · rw [hclose', hclose]
      rfl

theorem hasKey_foldl_setKey {t : Table} :
    hasKey (pairs.foldl (fun t p => setKey t p.1 p.2.toml) t) name = true ↔
      (∃ p ∈ pairs, p.1 = name) ∨ hasKey t name = true := by
  induction pairs generalizing t with
  | nil => simp
  | cons p pairs ih =>
    rw [List.foldl_cons, ih, hasKey_setKey, eq_comm (a := name)]
    simp only [List.mem_cons, exists_eq_or_imp]
    rw [or_left_comm, or_assoc]

/-- The document of some pairs and sections. -/
theorem assemble_sections (pairs : List (String × Written)) (hpairs : (pairs.map (·.1)).Nodup)
    (harranged : Arranged sections) (hfree : ∀ s ∈ sections, ∀ p ∈ pairs, p.1 ≠ s.name) :
    assemble ((pairs.map (fun p => Line.pair p.1 p.2) ++ sections.flatMap Section.lines).filterMap
      Line.statement) = some (sections.foldl Section.fill
        (pairs.foldl (fun t p => setKey t p.1 p.2.toml) [])) := by
  have hroot : (pairs.map fun p => Line.pair p.1 p.2).filterMap Line.statement =
      pairs.map fun p => Statement.keyValue p.1 p.2.toml := filterMap_pairs
  have hstart := foldlM_pairs (r := Reading.start) hpairs fun _ _ => rfl
  have hnew : ∀ s ∈ sections, hasKey (pairs.foldl (fun t p => setKey t p.1 p.2.toml) []) s.name =
      true → s.repeated = true ∧ s.name ∈ Reading.start.elements := by
    intro s hs hkey
    rcases hasKey_foldl_setKey.mp hkey with ⟨p, hp, heq⟩ | hkey
    · exact absurd heq (hfree s hs p hp)
    · cases hkey
  obtain ⟨r', hr', hclose⟩ := foldlM_sections harranged hnew (r := { Reading.start with
    entries := pairs.foldl (fun t p => setKey t p.1 p.2.toml) [] })
  rw [assemble, List.filterMap_append, hroot, List.foldlM_append, hstart]
  exact (congrArg (Option.map Reading.close) hr').trans (congrArg some hclose)

/-- Blank lines are no statements. -/
theorem filterMap_blank : (sections.flatMap fun s => .blank :: s.lines).filterMap Line.statement =
    (sections.flatMap Section.lines).filterMap Line.statement := by
  induction sections with
  | nil => rfl
  | cons s sections ih =>
    rw [List.flatMap_cons, List.flatMap_cons, List.filterMap_append, List.filterMap_append, ih]
    rfl

theorem fits_lines (hname : isBareKey s.name) (hpairs : ∀ p ∈ s.pairs, p.2.Fits) :
    ∀ line ∈ s.lines, line.Fits := by
  intro line hline
  rcases List.mem_cons.mp hline with rfl | hline
  · rw [Section.header]
    split
    · exact hname
    · exact hname
  · obtain ⟨p, hp, rfl⟩ := List.mem_map.mp hline
    exact hpairs p hp

theorem clean_lines : (∀ line ∈ s.lines, line.Clean) ↔
    ∀ p ∈ s.pairs, IsClean p.1.toList ∧ p.2.Clean := by
  have hheader : s.header.Clean := by
    rw [Section.header]
    split
    · exact trivial
    · exact trivial
  constructor
  · intro h p hp
    exact h (.pair p.1 p.2) (List.mem_cons_of_mem _ (List.mem_map_of_mem hp))
  · intro h line hline
    rcases List.mem_cons.mp hline with rfl | hline
    · exact hheader
    · obtain ⟨p, hp, rfl⟩ := List.mem_map.mp hline
      exact h p hp

/-- Sections of other names are not seen. -/
theorem getKey_foldl_fill_of_ne (h : ∀ s ∈ sections, s.name ≠ name) :
    getKey (sections.foldl Section.fill root) name = getKey root name := by
  induction sections generalizing root with
  | nil => rfl
  | cons s sections ih =>
    rw [List.foldl_cons, ih fun t ht => h t (List.mem_cons_of_mem s ht), Section.fill,
      getKey_setKey,
      if_neg (h s List.mem_cons_self).symm]

/-- Only the sections of a name decide what it stands for. -/
theorem getKey_foldl_fill_filter {root' : Table} (hroot : getKey root name = getKey root' name) :
    getKey (sections.foldl Section.fill root) name =
      getKey ((sections.filter (·.name = name)).foldl Section.fill root') name := by
  induction sections generalizing root root' with
  | nil => exact hroot
  | cons s sections ih =>
    rw [List.foldl_cons, List.filter_cons]
    split
    · next h =>
      have hs : s.name = name := of_decide_eq_true h
      subst hs
      refine ih ?_
      rw [Section.fill, Section.fill, hroot, getKey_setKey, getKey_setKey, if_pos rfl, if_pos rfl]
    · next h =>
      refine ih ?_
      rw [Section.fill, getKey_setKey, if_neg fun heq => h (decide_eq_true heq.symm)]
      exact hroot

/-- The array of the sections of one name. -/
theorem getKey_foldl_fill_repeated (h : ∀ s ∈ sections, s.name = name ∧ s.repeated = true)
    (hne : sections ≠ []) : getKey (sections.foldl Section.fill root) name =
      some (.array (((getKey root name).bind Toml.asArray).getD [] ++
        sections.map fun s => .table s.table)) := by
  induction sections generalizing root with
  | nil => exact absurd rfl hne
  | cons s sections ih =>
    obtain ⟨rfl, hs⟩ := h s List.mem_cons_self
    have hfirst : getKey (s.fill root) s.name = some (.array
        (((getKey root s.name).bind Toml.asArray).getD [] ++ [.table s.table])) := by
      rw [Section.fill, getKey_setKey, if_pos rfl, if_pos hs]
    cases sections with
    | nil => exact hfirst
    | cons t sections =>
      rw [List.foldl_cons, ih (fun u hu => h u (List.mem_cons_of_mem s hu)) (by simp), hfirst]
      simp [Toml.asArray]

theorem lookup_eq_getKey {t : Table} : t.lookup name = getKey t name := by
  induction t with
  | nil => rfl
  | cons x t ih =>
    rw [List.lookup_cons, getKey, List.find?_cons]
    by_cases h : x.1 = name
    · simp [h]
    · have hne : (name == x.1) = false := beq_false_of_ne (Ne.symm h)
      simpa [h, hne, getKey] using ih

theorem getKey_foldl_setKey {t : Table} (hnodup : (pairs.map (·.1)).Nodup) :
    getKey (pairs.foldl (fun t p => setKey t p.1 p.2.toml) t) name =
      ((pairs.lookup name).map Written.toml).or (getKey t name) := by
  induction pairs generalizing t with
  | nil => rfl
  | cons p pairs ih =>
    rw [List.map_cons, List.nodup_cons] at hnodup
    rw [List.foldl_cons, ih hnodup.2, getKey_setKey, List.lookup_cons]
    by_cases h : name = p.1
    · have hnone : pairs.lookup name = none := by
        rw [List.lookup_eq_none_iff]
        intro q hq
        rw [bne_iff_ne]
        rintro heq
        exact hnodup.1 (h ▸ heq ▸ List.mem_map_of_mem hq)
      rw [hnone, if_pos h, beq_iff_eq.mpr h]
      rfl
    · rw [if_neg h, beq_false_of_ne h]

/-- Pairs in the order of their keys are a table. -/
theorem foldl_setKey_of_pairwise {t : Table} (hpairs : pairs.Pairwise fun p q => p.1 < q.1)
    (hafter : ∀ x ∈ t, ∀ p ∈ pairs, x.1 < p.1) :
    pairs.foldl (fun t p => setKey t p.1 p.2.toml) t = t ++ pairs.map fun p => (p.1, p.2.toml) := by
  induction pairs generalizing t with
  | nil => simp
  | cons p pairs ih =>
    obtain ⟨hp, hpairs⟩ := List.pairwise_cons.mp hpairs
    have hset := setKey_of_forall_lt (v := p.2.toml)
      fun x hx => hafter x hx p List.mem_cons_self
    rw [List.foldl_cons, hset, ih hpairs]
    · simp
    · intro x hx q hq
      rcases List.mem_append.mp hx with hx | hx
      · exact hafter x hx q (List.mem_cons_of_mem p hq)
      · rw [List.mem_singleton.mp hx]
        exact hp q hq

/-- What a section has for a key is what is written for it. -/
theorem lookup_table (hnodup : (s.pairs.map (·.1)).Nodup) :
    s.table.lookup name = (s.pairs.lookup name).map Written.toml := by
  rw [lookup_eq_getKey, Section.table, getKey_foldl_setKey hnodup]
  cases s.pairs.lookup name <;> rfl

end Sections

end StyioPlatform.Manifest
