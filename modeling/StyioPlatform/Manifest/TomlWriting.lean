import StyioPlatform.Manifest.TomlText

/-! Written TOML: the values and the lines that the canonical writers put out, and what a parser
makes of them. -/
namespace StyioPlatform.Manifest

section Strings

variable {s : List Char} {rest : List Char}

/-- A text without the characters that TOML has only as escapes. -/
def IsClean (s : List Char) : Prop := ∀ c ∈ s, isControl c = false

instance : Decidable (IsClean s) :=
  decidable_of_iff (s.all fun c => !isControl c) (by simp [IsClean])

theorem readBasic_of_plain {c : Char} (hc : ¬ (c = '"' ∨ c = '\\')) :
    readBasic (c :: rest) = if isControl c then none else push (some c) (readBasic rest) := by
  obtain ⟨hquote, hbackslash⟩ := not_or.mp hc
  rw [readBasic.eq_def]
  simp only [hquote, hbackslash, if_false]

theorem readBasic_escaped_cons {c : Char} (hc : isControl c = false) :
    readBasic (escaped c ++ rest) = push (some c) (readBasic rest) := by
  by_cases hspecial : c = '"' ∨ c = '\\'
  · rcases hspecial with rfl | rfl <;> simp [escaped, readBasic.eq_def ('\\' :: _)] <;> rfl
  · rw [escaped, if_neg hspecial, List.singleton_append, readBasic_of_plain hspecial, hc]
    rfl

theorem readBasic_escaped (h : IsClean s) :
    readBasic (s.flatMap escaped ++ '"' :: rest) = some (s, rest) := by
  induction s with
  | nil =>
    rw [List.flatMap_nil, List.nil_append, readBasic.eq_def]
    exact if_pos rfl
  | cons c s ih =>
    rw [List.flatMap_cons, List.append_assoc, readBasic_escaped_cons (h c List.mem_cons_self),
      ih fun d hd => h d (List.mem_cons_of_mem c hd)]
    rfl

/-- A string that is cut, or goes on with a control character, does not close. -/
theorem readBasic_cut (h : IsClean s) (hrest : ∀ c ∈ rest.head?, isControl c = true) :
    readBasic (s.flatMap escaped ++ rest) = none := by
  induction s with
  | nil =>
    cases rest with
    | nil => rfl
    | cons c rest =>
      have hc : isControl c = true := hrest c rfl
      have hplain : ¬ (c = '"' ∨ c = '\\') := by
        rintro (rfl | rfl) <;> exact absurd hc (by decide)
      rw [List.flatMap_nil, List.nil_append, readBasic_of_plain hplain, if_pos hc]
  | cons c s ih =>
    rw [List.flatMap_cons, List.append_assoc, readBasic_escaped_cons (h c List.mem_cons_self),
      ih fun d hd => h d (List.mem_cons_of_mem c hd)]
    rfl

def quoted (s : List Char) : List Char := '"' :: s.flatMap escaped ++ ['"']

theorem toList_quoteTomlString {value : String} :
    (quoteTomlString value).toList = quoted value.toList := by
  simp [quoteTomlString, quoted]

/-- An escaped text does not start with a quote. -/
theorem take_two_ne (hrest : rest.head? ≠ some '"') :
    (s.flatMap escaped ++ '"' :: rest).take 2 ≠ ['"', '"'] := by
  cases s with
  | nil =>
    cases rest with
    | nil => simp
    | cons c rest => simpa using hrest
  | cons c s =>
    by_cases hspecial : c = '"' ∨ c = '\\'
    · simp [escaped, hspecial]
    · have hquote : c ≠ '"' := fun h => hspecial (Or.inl h)
      rw [List.flatMap_cons, escaped, if_neg hspecial]
      simp [hquote]

theorem quoted_append : quoted s ++ rest = '"' :: (s.flatMap escaped ++ '"' :: rest) := by
  simp [quoted]

theorem readScalar_quoted (h : IsClean s) (hrest : rest.head? ≠ some '"') :
    readScalar (quoted s ++ rest) = some (.string (String.ofList s), rest) := by
  rw [quoted_append, readScalar, if_pos rfl, if_neg (take_two_ne hrest), readBasic_escaped h]
  rfl

end Strings

section Open

variable {s front rest : List Char} {items : List (List Char × List Char)}

/-- The text up to the end of its line. -/
def firstLine (text : List Char) : List Char := text.takeWhile (· ≠ '\n')

/-- A character that can be skipped before a string. -/
def isPlain (c : Char) : Bool := c ≠ '"' ∧ c ≠ '#' ∧ c ≠ '\'' ∧ c ≠ '\n'

theorem firstLine_append (h : '\n' ∉ front) : firstLine (front ++ rest) = front ++ firstLine rest := by
  apply List.takeWhile_append_of_pos
  intro c hc
  rw [decide_eq_true_eq]
  rintro rfl
  exact h hc

theorem unclosed_append (front : List Char) (hfront : front.all isPlain)
    (h : Unclosed (firstLine rest)) : Unclosed (firstLine (front ++ rest)) := by
  induction front with
  | nil => exact h
  | cons c front ih =>
    simp only [List.all_cons, Bool.and_eq_true, isPlain, decide_eq_true_eq] at hfront
    obtain ⟨⟨hquote, hhash, hliteral, hline⟩, hfront⟩ := hfront
    have hcons : firstLine (c :: (front ++ rest)) = c :: firstLine (front ++ rest) := by
      simp [firstLine, hline]
    rw [List.cons_append, hcons]
    exact .skipped hquote hhash hliteral (ih hfront)

theorem not_mem_flatMap_escaped (h : IsClean s) : '\n' ∉ s.flatMap escaped := by
  intro hmem
  obtain ⟨c, hc, hline⟩ := List.mem_flatMap.mp hmem
  have hcontrol : c ≠ '\n' := by
    rintro rfl
    exact absurd (h _ hc) (by decide)
  rw [escaped] at hline
  split at hline
  · simp [hcontrol.symm] at hline
  · simp [hcontrol.symm] at hline

theorem unclosed_quoted_append (hs : IsClean s) (hrest : rest.head? ≠ some '"')
    (h : Unclosed (firstLine rest)) : Unclosed (firstLine (quoted s ++ rest)) := by
  have hhead : (firstLine rest).head? ≠ some '"' := by
    cases rest with
    | nil => exact hrest
    | cons c rest =>
      by_cases hc : c = '\n' <;> simp_all [firstLine]
  have hline : '\n' ∉ '"' :: (s.flatMap escaped ++ ['"']) := by
    simp [not_mem_flatMap_escaped hs]
  have hfirst : firstLine (quoted s ++ rest) =
      '"' :: (s.flatMap escaped ++ '"' :: firstLine rest) := by
    rw [quoted, List.cons_append, firstLine_append hline]
    simp
  rw [hfirst]
  exact .closed (take_two_ne hhead) (readBasic_escaped hs) h

/-- A text that is not clean, cut at its first control character. -/
theorem exists_control (h : ¬ IsClean s) :
    ∃ before c after, s = before ++ c :: after ∧ IsClean before ∧ isControl c = true := by
  obtain ⟨c, hfind⟩ : ∃ c, s.find? isControl = some c := by
    rw [← Option.isSome_iff_exists, List.find?_isSome]
    simpa [IsClean] using h
  obtain ⟨hc, before, after, rfl, hbefore⟩ := List.find?_eq_some_iff_append.mp hfind
  exact ⟨before, c, after, rfl, fun d hd => by simpa using hbefore d hd, hc⟩

/-- A text that starts with a quote is a string that is closed at once. -/
theorem take_two_ne_of_none (h : readBasic s = none) : s.take 2 ≠ ['"', '"'] := by
  intro htake
  cases s with
  | nil => cases htake
  | cons d s =>
    have hd : d = '"' := (List.cons.inj htake).1
    rw [hd, readBasic.eq_def] at h
    cases h

theorem unclosed_quoted (hs : ¬ IsClean s) : Unclosed (firstLine (quoted s ++ rest)) := by
  obtain ⟨before, c, after, rfl, hbefore, hc⟩ := exists_control hs
  obtain ⟨more, hmore⟩ : ∃ more, quoted (before ++ c :: after) ++ rest =
      '"' :: before.flatMap escaped ++ c :: more := by
    have hplain : ¬ (c = '"' ∨ c = '\\') := by
      rintro (rfl | rfl) <;> exact absurd hc (by decide)
    refine ⟨after.flatMap escaped ++ '"' :: rest, ?_⟩
    simp [quoted, escaped.eq_def c, hplain]
  have hline : '\n' ∉ '"' :: before.flatMap escaped := by
    simp [not_mem_flatMap_escaped hbefore]
  have hnone : readBasic (before.flatMap escaped ++ firstLine (c :: more)) = none := by
    refine readBasic_cut hbefore fun d hd => ?_
    by_cases hbreak : c = '\n'
    · simp [firstLine, hbreak] at hd
    · simp only [firstLine, List.takeWhile_cons, hbreak, ne_eq, not_false_eq_true, decide_true,
        if_true, List.head?_cons, Option.mem_def, Option.some.injEq] at hd
      exact hd ▸ hc
  rw [hmore, firstLine_append hline]
  exact .opened (take_two_ne_of_none hnone) hnone

/-- The items of an array or of an inline table: a label and a string each. -/
def listed (items : List (List Char × List Char)) : List Char :=
  [',', ' '].intercalate (items.map fun i => i.1 ++ quoted i.2)

theorem listed_singleton (i : List Char × List Char) (rest : List Char) :
    listed [i] ++ rest = i.1 ++ (quoted i.2 ++ rest) := by
  simp [listed]

theorem listed_cons_cons (i j : List Char × List Char) (items : List (List Char × List Char))
    (rest : List Char) : listed (i :: j :: items) ++ rest =
      i.1 ++ (quoted i.2 ++ (',' :: ' ' :: (listed (j :: items) ++ rest))) := by
  simp [listed, List.intercalate_cons_cons]

theorem listed_cons (i : List Char × List Char) (items : List (List Char × List Char))
    (rest : List Char) :
    ∃ more, listed (i :: items) ++ rest = i.1 ++ (quoted i.2 ++ more) := by
  cases items with
  | nil => exact ⟨rest, listed_singleton i rest⟩
  | cons j items => exact ⟨_, listed_cons_cons i j items rest⟩

theorem unclosed_listed (hlabels : ∀ i ∈ items, i.1.all isPlain)
    (hs : ¬ ∀ i ∈ items, IsClean i.2) : Unclosed (firstLine (listed items ++ rest)) := by
  induction items with
  | nil => exact absurd nofun hs
  | cons i items ih =>
    have hfirst : ¬ IsClean i.2 ∨ IsClean i.2 ∧ ¬ ∀ i ∈ items, IsClean i.2 := by
      by_cases hi : IsClean i.2
      · refine .inr ⟨hi, fun hitems => hs ?_⟩
        intro j hj
        rcases List.mem_cons.mp hj with rfl | hj
        · exact hi
        · exact hitems j hj
      · exact .inl hi
    have hlabel := hlabels i List.mem_cons_self
    cases items with
    | nil =>
      have hi : ¬ IsClean i.2 := hfirst.resolve_right fun h => h.2 nofun
      rw [listed_singleton]
      exact unclosed_append _ hlabel (unclosed_quoted hi)
    | cons j items =>
      rw [listed_cons_cons]
      apply unclosed_append _ hlabel
      rcases hfirst with hi | ⟨hi, hitems⟩
      · exact unclosed_quoted hi
      · have hopen := ih (fun k hk => hlabels k (List.mem_cons_of_mem i hk)) hitems
        refine unclosed_quoted_append hi (by simp) ?_
        exact unclosed_append [',', ' '] (by decide) hopen

end Open

/-- `[A-Za-z0-9_-]+`. -/
def isBareKey (key : String) : Bool := key ≠ "" ∧ key.toList.all isBare

/-- What the canonical writers put after a key. -/
inductive Written where
  | text (value : String)
  | texts (values : List String)
  | flag (value : Bool)
  | one
  | fields (pairs : List (String × String))

namespace Written

def items : Written → List (List Char × List Char)
  | texts values => values.map fun value => ([], value.toList)
  | fields pairs => pairs.map fun pair => (pair.1.toList ++ [' ', '=', ' '], pair.2.toList)
  | _ => []

def render : Written → List Char
  | text value => quoted value.toList
  | texts values => '[' :: (listed (texts values).items ++ [']'])
  | flag value => (if value then "true" else "false").toList
  | one => ['1']
  | fields pairs => '{' :: ' ' :: (listed (fields pairs).items ++ [' ', '}'])

def toml : Written → Toml
  | text value => .string value
  | texts values => .array (values.map .string)
  | flag value => .boolean value
  | one => .integer 1
  | fields pairs => .table ((pairs.map fun pair => (pair.1, Toml.string pair.2)).foldl
      (fun t p => setKey t p.1 p.2) [])

/-- Inline tables have bare keys, each once, and are not empty. -/
def Fits : Written → Prop
  | fields pairs => (∀ pair ∈ pairs, isBareKey pair.1) ∧ (pairs.map (·.1)).Nodup ∧ pairs ≠ []
  | _ => True

def strings : Written → List String
  | text value => [value]
  | texts values => values
  | fields pairs => pairs.map (·.2)
  | _ => []

/-- No string that is written has a control character. -/
def Clean (v : Written) : Prop := ∀ value ∈ v.strings, IsClean value.toList

theorem clean_text {value : String} : (text value).Clean ↔ IsClean value.toList := by
  simp [Clean, strings]

end Written

section Values

variable {n : ℕ} {rest : List Char} {key value : String}

theorem skipSpace_cons {c : Char} (h : isBlank c = false) : skipSpace (c :: rest) = c :: rest := by
  simp [skipSpace, h]

theorem not_isBlank_of_isBare {c : Char} (h : isBare c = true) : isBlank c = false := by
  by_cases hspace : c = ' '
  · subst hspace
    exact absurd h (by decide)
  · by_cases htab : c = '\t'
    · subst htab
      exact absurd h (by decide)
    · simp [isBlank, hspace, htab]

theorem exists_cons_of_isBareKey (hkey : isBareKey key) :
    ∃ c chars, key.toList = c :: chars ∧ isBare c = true := by
  obtain ⟨hne, hall⟩ := of_decide_eq_true hkey
  cases hchars : key.toList with
  | nil => exact absurd (String.toList_eq_nil_iff.mp hchars) hne
  | cons c chars =>
    rw [hchars, List.all_cons, Bool.and_eq_true] at hall
    exact ⟨c, chars, rfl, hall.1⟩

theorem readKey_bare (hkey : isBareKey key) (hrest : ∀ c ∈ rest.head?, isBare c = false) :
    readKey (key.toList ++ rest) = some (key, rest) := by
  have hbare : ∀ c ∈ key.toList, isBare c = true :=
    List.all_eq_true.mp (of_decide_eq_true hkey).2
  have htake : (key.toList ++ rest).takeWhile isBare = key.toList := by
    rw [List.takeWhile_append_of_pos hbare]
    cases rest with
    | nil => simp
    | cons c rest => simp [hrest c rfl]
  have hdrop : (key.toList ++ rest).dropWhile isBare = rest := by
    rw [List.dropWhile_append_of_pos hbare]
    cases rest with
    | nil => rfl
    | cons c rest => simp [hrest c rfl]
  obtain ⟨c, chars, hchars, hc⟩ := exists_cons_of_isBareKey hkey
  have hquote : c ≠ '"' := by
    rintro rfl
    exact absurd hc (by decide)
  rw [hchars, List.cons_append] at htake hdrop
  rw [hchars, List.cons_append, readKey, if_neg hquote, if_pos hc, htake, hdrop, ← hchars,
    String.ofList_toList]

theorem readKey_quoted (hkey : IsClean key.toList) :
    readKey (quoted key.toList ++ rest) = some (key, rest) := by
  rw [quoted_append, readKey, if_pos rfl, readBasic_escaped hkey]
  simp

theorem toList_quoteTomlKey : (quoteTomlKey key).toList =
    if isBareKey key then key.toList else quoted key.toList := by
  rw [quoteTomlKey, isBareKey]
  split
  · next h => rw [if_pos (by simpa using h)]
  · next h => rw [if_neg (by simpa using h), toList_quoteTomlString]

theorem readKey_quoteTomlKey (hkey : IsClean key.toList) (hrest : ∀ c ∈ rest.head?, isBare c = false) :
    readKey ((quoteTomlKey key).toList ++ rest) = some (key, rest) := by
  rw [toList_quoteTomlKey]
  split
  · next h => exact readKey_bare h hrest
  · exact readKey_quoted hkey

theorem readElements_blank : readElements n (' ' :: rest) = readElements n rest := by
  cases n <;> rfl

theorem readElements_listed {values : List String} (hclean : ∀ s ∈ values, IsClean s.toList)
    (hn : values.length < n) :
    readElements n (listed (Written.texts values).items ++ ']' :: rest) =
      some (values.map .string, rest) := by
  induction values generalizing n with
  | nil =>
    cases n with
    | zero => cases hn
    | succ n => rfl
  | cons s values ih =>
    cases n with
    | zero => cases hn
    | succ n =>
      have hs := hclean s List.mem_cons_self
      have hvalues : ∀ s ∈ values, IsClean s.toList :=
        fun t ht => hclean t (List.mem_cons_of_mem s ht)
      have hlength : values.length < n := by
        rw [List.length_cons] at hn
        omega
      have hstart : ∀ after : List Char, skipSpace (quoted s.toList ++ after) =
          quoted s.toList ++ after := by
        intro after
        rw [quoted_append]
        rfl
      have hopen : ∀ after : List Char, (quoted s.toList ++ after).head? ≠ some ']' := by
        intro after
        rw [quoted_append]
        simp
      cases values with
      | nil =>
        change readElements (n + 1) (listed [([], s.toList)] ++ ']' :: rest) = _
        rw [listed_singleton, List.nil_append, readElements, hstart, if_neg (hopen _),
          readScalar_quoted hs (by simp)]
        simp [skipSpace, isBlank]
      | cons t values =>
        change readElements (n + 1) (listed (([], s.toList) :: ([], t.toList) :: _) ++ ']' :: rest) = _
        rw [listed_cons_cons, List.nil_append, readElements, hstart, if_neg (hopen _),
          readScalar_quoted hs (by simp)]
        have hmore := ih hvalues hlength
        have hmore' : readElements n (' ' :: (listed (Written.texts (t :: values)).items ++
            ']' :: rest)) = some ((t :: values).map .string, rest) := by
          rw [readElements_blank, hmore]
        simp only [Option.bind_some, skipSpace_cons (show isBlank ',' = false from rfl), if_true]
        refine (congrArg _ hmore').trans ?_
        simp

theorem readPairs_blank : readPairs n (' ' :: rest) = readPairs n rest := by
  cases n <;> rfl

/-- A field of an inline table, before a text that does not go on with a quote. -/
theorem readPair_field (hkey : isBareKey key) (hvalue : IsClean value.toList)
    (hrest : rest.head? ≠ some '"') :
    readPair readScalar (key.toList ++ ' ' :: '=' :: ' ' :: (quoted value.toList ++ rest)) =
      some ((key, .string value), rest) := by
  have hskip : skipSpace (' ' :: (quoted value.toList ++ rest)) = quoted value.toList ++ rest := by
    rw [quoted_append]
    rfl
  rw [readPair, readKey_bare hkey (by simp [isBare])]
  change ((readScalar (skipSpace (' ' :: (quoted value.toList ++ rest)))).map _) = _
  rw [hskip, readScalar_quoted hvalue hrest]
  simp

theorem skipSpace_bare (hkey : isBareKey key) :
    skipSpace (key.toList ++ rest) = key.toList ++ rest := by
  obtain ⟨c, chars, hchars, hc⟩ := exists_cons_of_isBareKey hkey
  rw [hchars]
  exact skipSpace_cons (not_isBlank_of_isBare hc)

theorem head?_bare {c : Char} (hkey : isBareKey key) (hc : isBare c = false) :
    (key.toList ++ rest).head? ≠ some c := by
  obtain ⟨d, chars, hchars, hd⟩ := exists_cons_of_isBareKey hkey
  rw [hchars, List.cons_append, List.head?_cons, ne_eq, Option.some.injEq]
  rintro rfl
  rw [hc] at hd
  cases hd

theorem readPairs_listed {pairs : List (String × String)} (hkeys : ∀ p ∈ pairs, isBareKey p.1)
    (hclean : ∀ p ∈ pairs, IsClean p.2.toList) (hne : pairs ≠ []) (hn : pairs.length ≤ n) :
    readPairs n (listed (Written.fields pairs).items ++ ' ' :: '}' :: rest) =
      some (pairs.map fun p => (p.1, .string p.2), rest) := by
  induction pairs generalizing n with
  | nil => exact absurd rfl hne
  | cons p pairs ih =>
    cases n with
    | zero => cases hn
    | succ n =>
      have hkey := hkeys p List.mem_cons_self
      have hp := hclean p List.mem_cons_self
      have hlength : pairs.length ≤ n := by
        rw [List.length_cons] at hn
        omega
      cases pairs with
      | nil =>
        change readPairs (n + 1) (listed [(p.1.toList ++ [' ', '=', ' '], p.2.toList)] ++
          ' ' :: '}' :: rest) = _
        rw [listed_singleton, List.append_assoc, readPairs, skipSpace_bare hkey]
        simp only [List.cons_append, List.nil_append]
        rw [readPair_field hkey hp (by simp)]
        simp [skipSpace, isBlank]
      | cons q pairs =>
        have hmore : readPairs n (' ' :: (listed (Written.fields (q :: pairs)).items ++
            ' ' :: '}' :: rest)) = some ((q :: pairs).map fun p => (p.1, .string p.2), rest) := by
          rw [readPairs_blank]
          exact ih (fun p' h => hkeys p' (List.mem_cons_of_mem p h))
            (fun p' h => hclean p' (List.mem_cons_of_mem p h)) (by simp) hlength
        change readPairs (n + 1) (listed ((p.1.toList ++ [' ', '=', ' '], p.2.toList) ::
          (q.1.toList ++ [' ', '=', ' '], q.2.toList) :: _) ++ ' ' :: '}' :: rest) = _
        rw [listed_cons_cons, List.append_assoc, readPairs, skipSpace_bare hkey]
        simp only [List.cons_append, List.nil_append]
        rw [readPair_field hkey hp (by simp)]
        simp only [Option.bind_some, skipSpace_cons (show isBlank ',' = false from rfl), if_true]
        refine (congrArg _ hmore).trans ?_
        simp

theorem length_le_listed (items : List (List Char × List Char)) :
    items.length ≤ (listed items).length := by
  induction items with
  | nil => exact Nat.zero_le _
  | cons i items ih =>
    cases items with
    | nil =>
      have hlisted := congrArg List.length (listed_singleton i [])
      simp only [List.append_nil, List.length_append, quoted, List.length_cons,
        List.length_nil] at hlisted ⊢
      omega
    | cons j items =>
      have hlisted := congrArg List.length (listed_cons_cons i j items [])
      simp only [List.append_nil, List.length_append, List.length_cons] at hlisted ih ⊢
      omega

theorem readValue_render {v : Written} (hfits : v.Fits) (hclean : v.Clean) :
    readValue v.render = some (v.toml, []) := by
  cases v with
  | text value =>
    have hscalar : readScalar (quoted value.toList ++ []) = _ :=
      readScalar_quoted (hclean value (by simp [Written.strings])) (by simp)
    rw [List.append_nil, String.ofList_toList] at hscalar
    change readScalar (quoted value.toList) = _
    exact hscalar
  | texts values =>
    have hlength : values.length < (listed (Written.texts values).items ++ [']']).length + 1 := by
      have := length_le_listed (Written.texts values).items
      simp only [Written.items, List.length_map, List.length_append] at this ⊢
      omega
    change (readElements _ (listed (Written.texts values).items ++ [']'])).map _ = _
    have hread : readElements _ (listed (Written.texts values).items ++ [']']) =
        some (values.map .string, []) := readElements_listed hclean hlength
    rw [hread]
    rfl
  | flag value => cases value <;> rfl
  | one => rfl
  | fields pairs =>
    obtain ⟨hkeys, hnodup, hne⟩ := hfits
    obtain ⟨p, pairs', rfl⟩ := List.exists_cons_of_ne_nil hne
    have hopen : (skipSpace (' ' :: (listed (Written.fields (p :: pairs')).items ++
        [' ', '}']))).head? ≠ some '}' := by
      have hkey := hkeys p List.mem_cons_self
      obtain ⟨more, hmore⟩ := listed_cons (p.1.toList ++ [' ', '=', ' '], p.2.toList)
        (Written.fields pairs').items [' ', '}']
      change (skipSpace (listed (_ :: (Written.fields pairs').items) ++ [' ', '}'])).head? ≠ _
      rw [hmore, List.append_assoc, skipSpace_bare hkey]
      exact head?_bare hkey (by decide)
    have hlength : (p :: pairs').length ≤
        (' ' :: (listed (Written.fields (p :: pairs')).items ++ [' ', '}'])).length + 1 := by
      have := length_le_listed (Written.fields (p :: pairs')).items
      simp only [Written.items, List.length_map, List.length_append, List.length_cons] at this ⊢
      omega
    have hread : readPairs _ (listed (Written.fields (p :: pairs')).items ++ [' ', '}']) = _ :=
      readPairs_listed hkeys (fun p' h => hclean p'.2 (List.mem_map_of_mem h)) hne hlength
    change (if _ then _ else (readPairs _ (' ' :: (listed (Written.fields (p :: pairs')).items ++
      [' ', '}']))).bind _) = _
    rw [if_neg hopen, readPairs_blank, hread]
    have hkeys' : ((p :: pairs').map fun p => (p.1, Toml.string p.2)).map (·.1) =
        (p :: pairs').map (·.1) := by
      simp
    rw [Option.bind_some, tableOf, hkeys', if_pos hnodup]
    rfl

end Values

/-- A line of a written document. -/
inductive Line where
  | blank
  | pair (key : String) (value : Written)
  | table (name : String)
  | element (name : String)

namespace Line

def render : Line → List Char
  | blank => []
  | pair key value => (quoteTomlKey key).toList ++ ' ' :: '=' :: ' ' :: value.render
  | table name => '[' :: (name.toList ++ [']'])
  | element name => '[' :: '[' :: (name.toList ++ [']', ']'])

def statement : Line → Option Statement
  | blank => none
  | pair key value => some (.keyValue key value.toml)
  | table name => some (.table name)
  | element name => some (.element name)

/-- The names of sections are bare. -/
def Fits : Line → Prop
  | blank => True
  | pair _ value => value.Fits
  | table name => isBareKey name
  | element name => isBareKey name

def Clean : Line → Prop
  | pair key value => IsClean key.toList ∧ value.Clean
  | _ => True

end Line

section Lines

variable {line : Line} {lines : List Line} {rest : List Char} {key name : String} {value : Written}

theorem exists_cons_quoteTomlKey (key : String) :
    ∃ c chars, (quoteTomlKey key).toList = c :: chars ∧ (c = '"' ∨ isBare c = true) := by
  rw [toList_quoteTomlKey]
  split
  · next h =>
    obtain ⟨c, chars, hchars, hc⟩ := exists_cons_of_isBareKey h
    exact ⟨c, chars, hchars, .inr hc⟩
  · exact ⟨'"', _, rfl, .inl rfl⟩

/-- A text that starts with a written key starts with none of these characters. -/
theorem head?_quoteTomlKey {c : Char} (hquote : c ≠ '"') (hbare : isBare c = false) :
    ((quoteTomlKey key).toList ++ rest).head? ≠ some c := by
  obtain ⟨d, chars, hchars, hd⟩ := exists_cons_quoteTomlKey key
  rw [hchars, List.cons_append, List.head?_cons, ne_eq, Option.some.injEq]
  rintro rfl
  rcases hd with hd | hd
  · exact hquote hd
  · rw [hbare] at hd
    cases hd

theorem skipSpace_render_value : skipSpace (' ' :: value.render) = value.render := by
  cases value with
  | flag value => cases value <;> rfl
  | _ => rfl

theorem readPair_render (hkey : IsClean key.toList) (hfits : value.Fits) (hclean : value.Clean) :
    readPair readValue (Line.pair key value).render = some ((key, value.toml), []) := by
  rw [Line.render, readPair, readKey_quoteTomlKey hkey (by simp [isBare])]
  change ((readValue (skipSpace (' ' :: value.render))).map _) = _
  rw [skipSpace_render_value, readValue_render hfits hclean]
  rfl

theorem not_prefix_of_head? {c : Char} {front text : List Char} (h : text.head? ≠ some c) :
    ¬ c :: front <+: text := by
  rintro ⟨rest, rfl⟩
  exact h rfl

theorem readStatement_pair (hkey : IsClean key.toList) (hfits : value.Fits) (hclean : value.Clean) :
    readStatement (Line.pair key value).render = some (.keyValue key value.toml) := by
  have hopen : (Line.pair key value).render.head? ≠ some '[' :=
    head?_quoteTomlKey (by decide) (by decide)
  rw [readStatement, if_neg (not_prefix_of_head? hopen), if_neg (not_prefix_of_head? hopen),
    readPair_render hkey hfits hclean]
  rfl

theorem readHeader_render {close : List Char} (hname : isBareKey name)
    (hclose : ∀ c ∈ close.head?, isBare c = false ∧ isBlank c = false) :
    readHeader close (name.toList ++ close) = some name := by
  have hskip : skipSpace close = close := by
    cases close with
    | nil => rfl
    | cons c close => exact skipSpace_cons (hclose c rfl).2
  rw [readHeader, skipSpace_bare hname, readKey_bare hname fun c hc => (hclose c hc).1,
    Option.bind_some, hskip, List.drop_length, if_pos ⟨List.prefix_rfl, rfl⟩]

theorem readStatement_table (hname : isBareKey name) :
    readStatement (Line.table name).render = some (.table name) := by
  have hhead : (name.toList ++ [']']).head? ≠ some '[' := head?_bare hname (by decide)
  have hsecond : ¬ ['[', '['] <+: '[' :: (name.toList ++ [']']) := by
    rw [List.cons_prefix_cons, not_and]
    exact fun _ => not_prefix_of_head? hhead
  rw [Line.render, readStatement, if_neg hsecond, if_pos ⟨_, rfl⟩]
  simp only [List.drop_succ_cons, List.drop_zero]
  rw [readHeader_render hname (by simp [isBare, isBlank])]
  rfl

theorem readStatement_element (hname : isBareKey name) :
    readStatement (Line.element name).render = some (.element name) := by
  rw [Line.render, readStatement, if_pos ⟨_, rfl⟩]
  simp only [List.drop_succ_cons, List.drop_zero]
  rw [readHeader_render hname (by simp [isBare, isBlank])]
  rfl

theorem render_text {v : String} (hkey : isBareKey key) :
    (Line.pair key (.text v)).render ++ ['\n'] =
      key.toList ++ ' ' :: '=' :: ' ' :: ((quoteTomlString v).toList ++ ['\n']) := by
  rw [Line.render, toList_quoteTomlKey, if_pos hkey, Written.render, toList_quoteTomlString]
  simp

theorem render_texts {values : List String} (hkey : isBareKey key) :
    (Line.pair key (.texts values)).render ++ ['\n'] = key.toList ++ ' ' :: '=' :: ' ' :: '[' ::
      ((", ".intercalate (values.map quoteTomlString)).toList ++ "]\n".toList) := by
  rw [Line.render, toList_quoteTomlKey, if_pos hkey, Written.render, String.toList_intercalate,
    listed, Written.items, List.map_map, List.map_map]
  simp [Function.comp_def, toList_quoteTomlString]

/-- A line is none that has no statement when it starts with something else. -/
theorem readLine_cons {c : Char} {text : List Char} {s : Statement} (hblank : isBlank c = false)
    (hhash : c ≠ '#') (hread : readStatement (c :: text) = some s) :
    readLine (c :: text) = some (some s) := by
  have hends : endsLine (c :: text) = false := by
    rw [endsLine, skipSpace_cons hblank]
    simp [hhash]
  rw [readLine, hends, skipSpace_cons hblank, hread]
  rfl

theorem readLine_render (hfits : line.Fits) (hclean : line.Clean) :
    readLine line.render = some line.statement := by
  cases line with
  | blank => rfl
  | pair key value =>
    have hread := readStatement_pair hclean.1 hfits hclean.2
    obtain ⟨c, chars, hchars, hc⟩ := exists_cons_quoteTomlKey key
    rw [Line.render, hchars, List.cons_append] at hread ⊢
    rcases hc with rfl | hc
    · exact readLine_cons (by decide) (by decide) hread
    · refine readLine_cons (not_isBlank_of_isBare hc) ?_ hread
      rintro rfl
      exact absurd hc (by decide)
  | table name => exact readLine_cons (by decide) (by decide) (readStatement_table hfits)
  | element name => exact readLine_cons (by decide) (by decide) (readStatement_element hfits)

end Lines

section Documents

variable {line : Line} {lines : List Line} {s t : List Char} {key name : String} {value : Written}
  {c : Char} {items : List (List Char × List Char)}

theorem isClean_append : IsClean (s ++ t) ↔ IsClean s ∧ IsClean t := by
  simp only [IsClean, List.mem_append]
  exact ⟨fun h => ⟨fun c hc => h c (.inl hc), fun c hc => h c (.inr hc)⟩,
    fun h c hc => hc.elim (h.1 c) (h.2 c)⟩

theorem isClean_cons : IsClean (c :: s) ↔ isControl c = false ∧ IsClean s := by
  simp [IsClean]

theorem isClean_quoted (h : IsClean s) : IsClean (quoted s) := by
  have hescaped : IsClean (s.flatMap escaped) := by
    intro c hc
    obtain ⟨d, hd, hcd⟩ := List.mem_flatMap.mp hc
    have hdc := h d hd
    rw [escaped] at hcd
    split at hcd
    · rcases List.mem_pair.mp hcd with rfl | rfl
      · decide
      · exact hdc
    · rw [List.mem_singleton.mp hcd]
      exact hdc
  rw [quoted, List.cons_append, isClean_cons, isClean_append]
  exact ⟨by decide, hescaped, by decide⟩

theorem isClean_listed (hlabels : ∀ i ∈ items, IsClean i.1) (hs : ∀ i ∈ items, IsClean i.2) :
    IsClean (listed items) := by
  induction items with
  | nil => exact nofun
  | cons i items ih =>
    have hfirst : IsClean (i.1 ++ quoted i.2) :=
      isClean_append.mpr ⟨hlabels i List.mem_cons_self, isClean_quoted (hs i List.mem_cons_self)⟩
    have hmore := ih (fun j hj => hlabels j (List.mem_cons_of_mem i hj))
      fun j hj => hs j (List.mem_cons_of_mem i hj)
    cases items with
    | nil =>
      have hlisted := listed_singleton i []
      rw [List.append_nil, List.append_nil] at hlisted
      rw [hlisted]
      exact hfirst
    | cons j items =>
      have hlisted := listed_cons_cons i j items []
      rw [List.append_nil, List.append_nil, ← List.append_assoc] at hlisted
      rw [hlisted, isClean_append, isClean_cons, isClean_cons]
      exact ⟨hfirst, by decide, by decide, hmore⟩

theorem toNat_of_isBare (h : isBare c = true) : 0x20 < c.toNat ∧ c.toNat < 0x7f := by
  have halpha : c.isAlpha = (decide ('A'.val ≤ c.val ∧ c.val ≤ 'Z'.val) ||
      ('a'.val ≤ c.val && c.val ≤ 'z'.val)) := rfl
  simp only [isBare, Char.isAlphanum, halpha, Char.isDigit, Bool.or_eq_true, Bool.and_eq_true,
    decide_eq_true_eq, ge_iff_le, UInt32.le_iff_toNat_le] at h
  rcases h with ((((h | h) | h) | rfl) | rfl)
  · change 65 ≤ c.toNat ∧ c.toNat ≤ 90 at h
    omega
  · change 97 ≤ c.toNat ∧ c.toNat ≤ 122 at h
    omega
  · change 48 ≤ c.toNat ∧ c.toNat ≤ 57 at h
    omega
  · decide
  · decide

theorem not_isControl_of_isBare (h : isBare c = true) : isControl c = false := by
  have hrange := toNat_of_isBare h
  simp only [isControl, Bool.or_eq_false_iff, Bool.and_eq_false_iff, decide_eq_false_iff_not]
  omega

theorem isPlain_of_isBare (h : isBare c = true) : isPlain c = true := by
  rw [isPlain, decide_eq_true_eq]
  refine ⟨?_, ?_, ?_, ?_⟩ <;> rintro rfl <;> exact absurd h (by decide)

theorem isBare_of_mem (hkey : isBareKey key) : ∀ c ∈ key.toList, isBare c = true :=
  List.all_eq_true.mp (of_decide_eq_true hkey).2

theorem isClean_of_isBareKey (hkey : isBareKey key) : IsClean key.toList :=
  fun c hc => not_isControl_of_isBare (isBare_of_mem hkey c hc)

theorem isClean_render_value (hfits : value.Fits) (hclean : value.Clean) :
    IsClean value.render := by
  cases value with
  | text value => exact isClean_quoted (hclean value (by simp [Written.strings]))
  | texts values =>
    have hlisted : IsClean (listed (Written.texts values).items) := by
      refine isClean_listed ?_ ?_
      · intro i hi
        obtain ⟨v, hv, rfl⟩ := List.mem_map.mp hi
        exact nofun
      · intro i hi
        obtain ⟨v, hv, rfl⟩ := List.mem_map.mp hi
        exact hclean v hv
    rw [Written.render, isClean_cons, isClean_append]
    exact ⟨by decide, hlisted, by decide⟩
  | flag value => cases value <;> decide
  | one => decide
  | fields pairs =>
    have hlisted : IsClean (listed (Written.fields pairs).items) := by
      refine isClean_listed ?_ ?_
      · intro i hi
        obtain ⟨p, hp, rfl⟩ := List.mem_map.mp hi
        exact isClean_append.mpr ⟨isClean_of_isBareKey (hfits.1 p hp), by decide⟩
      · intro i hi
        obtain ⟨p, hp, rfl⟩ := List.mem_map.mp hi
        exact hclean p.2 (List.mem_map_of_mem hp)
    rw [Written.render, isClean_cons, isClean_cons, isClean_append]
    exact ⟨by decide, by decide, hlisted, by decide⟩

theorem isClean_quoteTomlKey (hkey : IsClean key.toList) : IsClean (quoteTomlKey key).toList := by
  rw [toList_quoteTomlKey]
  split
  · exact hkey
  · exact isClean_quoted hkey

theorem not_mem_render (hfits : line.Fits) (hclean : line.Clean) : '\n' ∉ line.render := by
  have hrender : IsClean line.render := by
    cases line with
    | blank => exact nofun
    | pair key value =>
      rw [Line.render, isClean_append, isClean_cons, isClean_cons, isClean_cons]
      exact ⟨isClean_quoteTomlKey hclean.1, by decide, by decide, by decide,
        isClean_render_value hfits hclean.2⟩
    | table name =>
      rw [Line.render, isClean_cons, isClean_append]
      exact ⟨by decide, isClean_of_isBareKey hfits, by decide⟩
    | element name =>
      rw [Line.render, isClean_cons, isClean_cons, isClean_append]
      exact ⟨by decide, by decide, isClean_of_isBareKey hfits, by decide⟩
  intro hmem
  exact absurd (hrender _ hmem) (by decide)

theorem unclosed_render_value (hfits : value.Fits) (hclean : ¬ value.Clean) :
    Unclosed (firstLine (value.render ++ t)) := by
  cases value with
  | text value =>
    refine unclosed_quoted fun h => hclean ?_
    intro v hv
    rw [List.mem_singleton.mp hv]
    exact h
  | texts values =>
    rw [Written.render, List.cons_append, List.append_assoc]
    refine unclosed_append ['['] (by decide) (unclosed_listed ?_ ?_)
    · intro i hi
      obtain ⟨v, hv, rfl⟩ := List.mem_map.mp hi
      rfl
    · exact fun h => hclean fun v hv => h _ (List.mem_map_of_mem hv)
  | flag value => exact absurd nofun hclean
  | one => exact absurd nofun hclean
  | fields pairs =>
    rw [Written.render, List.cons_append, List.cons_append, List.append_assoc]
    refine unclosed_append ['{', ' '] (by decide) (unclosed_listed ?_ ?_)
    · intro i hi
      obtain ⟨p, hp, rfl⟩ := List.mem_map.mp hi
      rw [List.all_append, Bool.and_eq_true]
      refine ⟨List.all_eq_true.mpr fun c hc => ?_, by decide⟩
      exact isPlain_of_isBare (isBare_of_mem (hfits.1 p hp) c hc)
    · intro h
      refine hclean fun v hv => ?_
      obtain ⟨p, hp, rfl⟩ := List.mem_map.mp hv
      exact h _ (List.mem_map_of_mem hp)

theorem unclosed_render (hfits : line.Fits) (hclean : ¬ line.Clean) :
    Unclosed (firstLine (line.render ++ t)) := by
  cases line with
  | pair key value =>
    rw [Line.render, List.append_assoc, toList_quoteTomlKey]
    by_cases hkey : IsClean key.toList
    · have hvalue : ¬ value.Clean := fun h => hclean ⟨hkey, h⟩
      have hopen : Unclosed (firstLine (' ' :: '=' :: ' ' :: (value.render ++ t))) :=
        unclosed_append [' ', '=', ' '] (by decide) (unclosed_render_value hfits hvalue)
      split
      · next hbare =>
        refine unclosed_append _ (List.all_eq_true.mpr fun c hc => ?_) hopen
        exact isPlain_of_isBare (isBare_of_mem hbare c hc)
      · exact unclosed_quoted_append hkey (by simp) hopen
    · rw [if_neg fun hbare => hkey (isClean_of_isBareKey hbare)]
      exact unclosed_quoted hkey
  | _ => exact absurd trivial hclean

/-- A document of lines, each ended by a newline. -/
def documentText (lines : List Line) : String :=
  String.ofList (lines.flatMap fun line => line.render ++ ['\n'])

theorem splitOn_documentText_append (hfits : ∀ line ∈ lines, line.Fits)
    (hclean : ∀ line ∈ lines, line.Clean) :
    ((lines.flatMap fun line => line.render ++ ['\n']) ++ t).splitOn '\n' =
      lines.map Line.render ++ t.splitOn '\n' := by
  induction lines with
  | nil => rfl
  | cons line lines ih =>
    have hmem := not_mem_render (hfits line List.mem_cons_self) (hclean line List.mem_cons_self)
    rw [List.flatMap_cons, List.append_assoc, List.append_assoc, List.singleton_append,
      List.splitOn_append_cons_self_of_not_mem hmem,
      ih (fun l hl => hfits l (List.mem_cons_of_mem line hl))
        fun l hl => hclean l (List.mem_cons_of_mem line hl)]
    rfl

theorem readToml_documentText (hfits : ∀ line ∈ lines, line.Fits)
    (hclean : ∀ line ∈ lines, line.Clean) :
    readToml (documentText lines) = assemble (lines.filterMap Line.statement) := by
  have hlines : (lines.map Line.render).mapM readLine = some (lines.map Line.statement) := by
    rw [List.mapM_map]
    exact mapM_eq_pure fun line h => readLine_render (hfits line h) (hclean line h)
  have hsplit := splitOn_documentText_append (t := []) hfits hclean
  rw [List.append_nil] at hsplit
  rw [readToml, documentText, String.toList_ofList, hsplit, List.mapM_append, hlines]
  simp [readLine, endsLine, skipSpace, List.filterMap_map]

theorem exists_splitOn_firstLine : ∃ after, t.splitOn '\n' = firstLine t :: after := by
  have hfirst : '\n' ∉ firstLine t := by
    intro h
    simpa using List.mem_takeWhile_imp h
  have hparts : firstLine t ++ t.dropWhile (· ≠ '\n') = t := List.takeWhile_append_dropWhile
  cases hdrop : t.dropWhile (· ≠ '\n') with
  | nil =>
    rw [hdrop, List.append_nil] at hparts
    rw [hparts] at hfirst ⊢
    exact ⟨[], List.splitOn_eq_singleton hfirst⟩
  | cons c after =>
    have hc : c = '\n' := by
      have hhead := List.head?_dropWhile_not (· ≠ '\n') t
      rw [hdrop] at hhead
      simpa using hhead
    rw [hdrop, hc] at hparts
    refine ⟨after.splitOn '\n', ?_⟩
    rw [← List.splitOn_append_cons_self_of_not_mem hfirst, hparts]

/-- The first line with a string that is not clean stays open. -/
theorem rejects_documentText {parse : String → Option Table} (hparse : ImplementsToml parse)
    (hfits : ∀ line ∈ lines, line.Fits) (hclean : ¬ ∀ line ∈ lines, line.Clean) :
    parse (documentText lines) = none := by
  classical
  obtain ⟨line, hfind⟩ : ∃ line, lines.find? (fun l => ¬ l.Clean) = some line := by
    rw [← Option.isSome_iff_exists, List.find?_isSome]
    push Not at hclean
    simpa using hclean
  obtain ⟨hline, before, after, rfl, hbefore⟩ := List.find?_eq_some_iff_append.mp hfind
  have hline : ¬ line.Clean := of_decide_eq_true hline
  have hbefore : ∀ l ∈ before, l.Clean := by
    intro l hl
    simpa using hbefore l hl
  have hfits' : ∀ l ∈ before, l.Fits := fun l hl => hfits l (List.mem_append_left _ hl)
  have hopen := unclosed_render (hfits line (by simp)) hline
    (t := '\n' :: after.flatMap fun l => l.render ++ ['\n'])
  obtain ⟨rest, hrest⟩ := exists_splitOn_firstLine
    (t := line.render ++ '\n' :: after.flatMap fun l => l.render ++ ['\n'])
  refine hparse.rejects _ (before.map Line.render) _ rest ?_ ?_ hopen
  · rw [documentText, String.toList_ofList, List.flatMap_append, List.flatMap_cons,
      splitOn_documentText_append hfits' hbefore, ← hrest]
    simp
  · intro text htext
    obtain ⟨l, hl, rfl⟩ := List.mem_map.mp htext
    rw [readLine_render (hfits' l hl) (hbefore l hl)]
    rfl

end Documents

end StyioPlatform.Manifest
