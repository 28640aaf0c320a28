import StyioPlatform.Lib.KeyedList
import StyioPlatform.Manifest.Document

/-! TOML text: a reader for the part of TOML 1.0 that the canonical writers use, and the quoting of
strings. A statement is one line; keys are bare or quoted; values are basic strings, booleans and
decimal integers, and arrays and inline tables of these. Other texts are not read. -/
namespace StyioPlatform.Manifest

section Reader

/-- TOML has these characters only as escapes. -/
def isControl (c : Char) : Bool := (c.toNat < 0x20 && c ≠ '\t') || c.toNat = 0x7f

def hexDigit (c : Char) : Option ℕ :=
  if c.isDigit then some (c.toNat - '0'.toNat)
  else if 'a' ≤ c ∧ c ≤ 'f' then some (c.toNat - 'a'.toNat + 10)
  else if 'A' ≤ c ∧ c ≤ 'F' then some (c.toNat - 'A'.toNat + 10)
  else none

/-- The character of `\uXXXX` or `\UXXXXXXXX`. -/
def unicodeEscape (digits : List Char) : Option Char :=
  (digits.mapM hexDigit).bind fun values =>
    let code := values.foldl (fun n d => 16 * n + d) 0
    if code.isValidChar then some (Char.ofNat code) else none

def simpleEscape (c : Char) : Option Char :=
  [('b', '\x08'), ('t', '\t'), ('n', '\n'), ('f', '\x0c'), ('r', '\r'), ('"', '"'),
    ('\\', '\\')].lookup c

/-- Put a character before what is read after it. -/
def push (c : Option Char) (read : Option (List Char × List Char)) :
    Option (List Char × List Char) :=
  c.bind fun c => read.map fun p => (c :: p.1, p.2)

/-- A basic string after its opening quote: the characters, and what follows the closing one. -/
def readBasic : List Char → Option (List Char × List Char)
  | [] => none
  | c :: rest =>
    if c = '"' then some ([], rest)
    else if c = '\\' then
      match rest with
      | [] => none
      | e :: rest =>
        if e = 'u' then
          match rest with
          | a :: b :: c :: d :: rest => push (unicodeEscape [a, b, c, d]) (readBasic rest)
          | _ => none
        else if e = 'U' then
          match rest with
          | a :: b :: c :: d :: e :: f :: g :: h :: rest =>
            push (unicodeEscape [a, b, c, d, e, f, g, h]) (readBasic rest)
          | _ => none
        else push (simpleEscape e) (readBasic rest)
    else if isControl c then none
    else push (some c) (readBasic rest)

def isBlank (c : Char) : Bool := c = ' ' || c = '\t'

def skipSpace (text : List Char) : List Char := text.dropWhile isBlank

/-- `[A-Za-z0-9_-]`. -/
def isBare (c : Char) : Bool := c.isAlphanum || c = '_' || c = '-'

/-- What may follow a statement on its line. -/
def endsLine (text : List Char) : Bool :=
  match skipSpace text with
  | [] => true
  | c :: rest => c = '#' && rest.all fun c => !isControl c

def readKey : List Char → Option (String × List Char)
  | [] => none
  | c :: rest =>
    if c = '"' then (readBasic rest).map fun p => (String.ofList p.1, p.2)
    else if isBare c then
      some (String.ofList ((c :: rest).takeWhile isBare), (c :: rest).dropWhile isBare)
    else none

def readDecimal (digits : List Char) : Option ℕ :=
  if digits ≠ [] ∧ digits.all Char.isDigit ∧ (digits.head? ≠ some '0' ∨ digits.length = 1) then
    some (digits.foldl (fun n c => 10 * n + (c.toNat - '0'.toNat)) 0)
  else none

/-- The value of a word: a boolean or an integer of 64 bits. -/
def wordValue (word : List Char) : Option Toml :=
  if word = "true".toList then some (.boolean true)
  else if word = "false".toList then some (.boolean false)
  else
    let negative := word.head? = some '-'
    let digits := if negative ∨ word.head? = some '+' then word.tail else word
    (readDecimal digits).bind fun n =>
      if negative then if n ≤ 2 ^ 63 then some (.integer (-n)) else none
      else if n < 2 ^ 63 then some (.integer n) else none

def isWordChar (c : Char) : Bool := isBare c || c = '+' || c = '.' || c = ':'

/-- A string, boolean or integer. Three quotes would open a string of several lines. -/
def readScalar : List Char → Option (Toml × List Char)
  | [] => none
  | c :: rest =>
    if c = '"' then
      if rest.take 2 = ['"', '"'] then none
      else (readBasic rest).map fun p => (.string (String.ofList p.1), p.2)
    else (wordValue ((c :: rest).takeWhile isWordChar)).map fun v =>
      (v, (c :: rest).dropWhile isWordChar)

/-- The elements of an array after `[`; the first argument bounds their number. -/
def readElements : ℕ → List Char → Option (List Toml × List Char)
  | 0, _ => none
  | n + 1, text =>
    if (skipSpace text).head? = some ']' then some ([], (skipSpace text).tail)
    else (readScalar (skipSpace text)).bind fun p =>
      match skipSpace p.2 with
      | [] => none
      | c :: rest =>
        if c = ',' then (readElements n rest).map fun q => (p.1 :: q.1, q.2)
        else if c = ']' then some ([p.1], rest)
        else none

/-- `key = value`, and what follows. -/
def readPair (value : List Char → Option (Toml × List Char)) (text : List Char) :
    Option ((String × Toml) × List Char) :=
  (readKey text).bind fun p =>
    match skipSpace p.2 with
    | [] => none
    | c :: rest =>
      if c = '=' then (value (skipSpace rest)).map fun q => ((p.1, q.1), q.2) else none

/-- The pairs of an inline table after `{`; the first argument bounds their number. -/
def readPairs : ℕ → List Char → Option (List (String × Toml) × List Char)
  | 0, _ => none
  | n + 1, text =>
    (readPair readScalar (skipSpace text)).bind fun p =>
      match skipSpace p.2 with
      | [] => none
      | c :: rest =>
        if c = ',' then (readPairs n rest).map fun q => (p.1 :: q.1, q.2)
        else if c = '}' then some ([p.1], rest)
        else none

/-- The table of the pairs; no key may come twice. -/
def tableOf (pairs : List (String × Toml)) : Option Table :=
  if (pairs.map (·.1)).Nodup then some (pairs.foldl (fun t p => setKey t p.1 p.2) []) else none

def readValue : List Char → Option (Toml × List Char)
  | [] => none
  | c :: rest =>
    if c = '[' then (readElements (rest.length + 1) rest).map fun p => (.array p.1, p.2)
    else if c = '{' then
      if (skipSpace rest).head? = some '}' then some (.table [], (skipSpace rest).tail)
      else (readPairs (rest.length + 1) rest).bind fun p =>
        (tableOf p.1).map fun t => (.table t, p.2)
    else readScalar (c :: rest)

inductive Statement where
  | keyValue (key : String) (value : Toml)
  | table (name : String)
  | element (name : String)

/-- A name between brackets, with nothing else on the line. -/
def readHeader (close text : List Char) : Option String :=
  (readKey (skipSpace text)).bind fun p =>
    if close <+: skipSpace p.2 ∧ endsLine ((skipSpace p.2).drop close.length) then some p.1 else none

/-- The statement of a line that has one. -/
def readStatement (text : List Char) : Option Statement :=
  if ['[', '['] <+: text then (readHeader [']', ']'] (text.drop 2)).map .element
  else if ['['] <+: text then (readHeader [']'] (text.drop 1)).map .table
  else (readPair readValue text).bind fun p =>
    if endsLine p.2 then some (.keyValue p.1.1 p.1.2) else none

def readLine (line : List Char) : Option (Option Statement) :=
  if endsLine line then some none else (readStatement (skipSpace line)).map some

/-- Where the pairs that come next belong. -/
inductive Place where
  | root
  | table (name : String)
  | element (name : String)

/-- A document while it is read: the root without the place that is being filled, the names of the
arrays of tables, and that place with its entries. -/
structure Reading where
  root : Table
  elements : List String
  place : Place
  entries : Table

namespace Reading

def start : Reading := ⟨[], [], .root, []⟩

/-- The root with the place that was being filled. -/
def close (r : Reading) : Table :=
  match r.place with
  | .root => r.entries
  | .table name => setKey r.root name (.table r.entries)
  | .element name =>
    setKey r.root name
      (.array ((((getKey r.root name).bind Toml.asArray).getD []) ++ [.table r.entries]))

def step (r : Reading) : Statement → Option Reading
  | .keyValue key value =>
    if hasKey r.entries key then none else some { r with entries := setKey r.entries key value }
  | .table name =>
    if hasKey r.close name then none else some ⟨r.close, r.elements, .table name, []⟩
  | .element name =>
    if hasKey r.close name ∧ name ∉ r.elements then none
    else some ⟨r.close, name :: r.elements, .element name, []⟩

end Reading

/-- The document of the statements. -/
def assemble (statements : List Statement) : Option Table :=
  (statements.foldlM Reading.step Reading.start).map Reading.close

def readToml (text : String) : Option Table :=
  ((text.toList.splitOn '\n').mapM readLine).bind fun statements =>
    assemble (statements.filterMap id)

end Reader

/-- A line that opens a basic string and does not close it. What stands outside of strings is
skipped; a comment or a literal string would hide a quote, three quotes open other strings. -/
inductive Unclosed : List Char → Prop where
  | opened {rest : List Char} : rest.take 2 ≠ ['"', '"'] → readBasic rest = none →
      Unclosed ('"' :: rest)
  | closed {rest value after : List Char} : rest.take 2 ≠ ['"', '"'] →
      readBasic rest = some (value, after) → Unclosed after → Unclosed ('"' :: rest)
  | skipped {c : Char} {rest : List Char} : c ≠ '"' → c ≠ '#' → c ≠ '\'' → Unclosed rest →
      Unclosed (c :: rest)

/-- A parser of TOML 1.0, as far as the canonical writers need one: it reads the documents of the
reader above as that does, and it reads no text in which a line that follows complete statements
leaves a basic string open. -/
structure ImplementsToml (parse : String → Option Table) : Prop where
  reads : ∀ text table, readToml text = some table → parse text = some table
  rejects : ∀ text before line after, text.toList.splitOn '\n' = before ++ line :: after →
    (∀ l ∈ before, (readLine l).isSome) → Unclosed line → parse text = none

section Unclosed

variable {c : Char} {text rest : List Char} {α : Type}

theorem Unclosed.tail (h : Unclosed (c :: rest)) (hc : c ≠ '"') : Unclosed rest := by
  cases h with
  | opened => exact absurd rfl hc
  | closed => exact absurd rfl hc
  | skipped _ _ _ h => exact h

theorem Unclosed.after {value after : List Char} (h : Unclosed ('"' :: rest))
    (hread : readBasic rest = some (value, after)) : Unclosed after := by
  cases h with
  | opened _ hnone =>
    rw [hread] at hnone
    cases hnone
  | closed _ hclosed h =>
    rw [hread] at hclosed
    cases hclosed
    exact h
  | skipped hc => exact absurd rfl hc

theorem Unclosed.dropWhile {p : Char → Bool} (hp : p '"' = false) (h : Unclosed text) :
    Unclosed (text.dropWhile p) := by
  induction text with
  | nil => exact h
  | cons c rest ih =>
    rw [List.dropWhile_cons]
    split
    · next hc =>
      refine ih (h.tail ?_)
      rintro rfl
      rw [hp] at hc
      cases hc
    · exact h

theorem Unclosed.skipSpace (h : Unclosed text) : Unclosed (skipSpace text) := h.dropWhile rfl

/-- What is read leaves the open string behind. -/
def Passes (read : List Char → Option (α × List Char)) : Prop :=
  ∀ {text a rest}, read text = some (a, rest) → Unclosed text → Unclosed rest

theorem passes_readKey : Passes readKey := by
  intro text key rest hread h
  cases text with
  | nil => cases hread
  | cons c text =>
    rw [readKey] at hread
    split at hread
    · next hc =>
      subst hc
      obtain ⟨p, hp, heq⟩ := Option.map_eq_some_iff.mp hread
      cases heq
      exact h.after hp
    · split at hread
      · cases hread
        exact h.dropWhile (by decide)
      · cases hread

theorem passes_readScalar : Passes readScalar := by
  intro text scalar rest hread h
  cases text with
  | nil => cases hread
  | cons c text =>
    rw [readScalar] at hread
    split at hread
    · next hc =>
      subst hc
      split at hread
      · cases hread
      · obtain ⟨p, hp, heq⟩ := Option.map_eq_some_iff.mp hread
        cases heq
        exact h.after hp
    · obtain ⟨v, -, heq⟩ := Option.map_eq_some_iff.mp hread
      cases heq
      exact h.dropWhile (by decide)

theorem passes_readElements {n : ℕ} : Passes (readElements n) := by
  intro text elements rest hread h
  induction n generalizing text elements rest with
  | zero => cases hread
  | succ n ih =>
    rw [readElements] at hread
    split at hread
    · next hclose =>
      cases hread
      obtain ⟨more, hmore⟩ := List.head?_eq_some_iff.mp hclose
      have hrest := h.skipSpace
      rw [hmore] at hrest ⊢
      exact hrest.tail (by decide)
    · obtain ⟨p, hp, hread⟩ := Option.bind_eq_some_iff.mp hread
      have hafter := (passes_readScalar hp h.skipSpace).skipSpace
      split at hread
      · cases hread
      · next c more hmore =>
        rw [hmore] at hafter
        split at hread
        · next hc =>
          subst hc
          obtain ⟨q, hq, heq⟩ := Option.map_eq_some_iff.mp hread
          cases heq
          exact ih hq (hafter.tail (by decide))
        · split at hread
          · next hc =>
            subst hc
            cases hread
            exact hafter.tail (by decide)
          · cases hread

theorem Passes.readPair {read : List Char → Option (Toml × List Char)} (hvalue : Passes read) :
    Passes (readPair read) := by
  intro text pair rest hread h
  rw [Manifest.readPair] at hread
  obtain ⟨p, hp, hread⟩ := Option.bind_eq_some_iff.mp hread
  have hafter := (passes_readKey hp h).skipSpace
  split at hread
  · cases hread
  · next c more hmore =>
    rw [hmore] at hafter
    split at hread
    · next hc =>
      subst hc
      obtain ⟨q, hq, heq⟩ := Option.map_eq_some_iff.mp hread
      cases heq
      exact hvalue hq (hafter.tail (by decide)).skipSpace
    · cases hread

theorem passes_readPairs {n : ℕ} : Passes (readPairs n) := by
  intro text pairs rest hread h
  induction n generalizing text pairs rest with
  | zero => cases hread
  | succ n ih =>
    rw [readPairs] at hread
    obtain ⟨p, hp, hread⟩ := Option.bind_eq_some_iff.mp hread
    have hafter := (passes_readScalar.readPair hp h.skipSpace).skipSpace
    split at hread
    · cases hread
    · next c more hmore =>
      rw [hmore] at hafter
      split at hread
      · next hc =>
        subst hc
        obtain ⟨q, hq, heq⟩ := Option.map_eq_some_iff.mp hread
        cases heq
        exact ih hq (hafter.tail (by decide))
      · split at hread
        · next hc =>
          subst hc
          cases hread
          exact hafter.tail (by decide)
        · cases hread

theorem passes_readValue : Passes readValue := by
  intro text value rest hread h
  cases text with
  | nil => cases hread
  | cons c text =>
    rw [readValue] at hread
    split at hread
    · next hc =>
      subst hc
      obtain ⟨p, hp, heq⟩ := Option.map_eq_some_iff.mp hread
      cases heq
      exact passes_readElements hp (h.tail (by decide))
    · split at hread
      · next hc =>
        subst hc
        have htext := h.tail (by decide)
        split at hread
        · next hclose =>
          cases hread
          obtain ⟨more, hmore⟩ := List.head?_eq_some_iff.mp hclose
          have hrest := htext.skipSpace
          rw [hmore] at hrest ⊢
          exact hrest.tail (by decide)
        · obtain ⟨p, hp, hread⟩ := Option.bind_eq_some_iff.mp hread
          obtain ⟨t, -, heq⟩ := Option.map_eq_some_iff.mp hread
          cases heq
          exact passes_readPairs hp htext
      · exact passes_readScalar hread h

theorem not_unclosed_of_endsLine (h : endsLine text = true) : ¬ Unclosed text := by
  intro hopen
  have hrest := hopen.skipSpace
  rw [endsLine] at h
  split at h
  · next hnil =>
    rw [hnil] at hrest
    cases hrest
  · next c rest hcons =>
    rw [hcons] at hrest
    have hc : c = '#' := by
      rw [Bool.and_eq_true, decide_eq_true_eq] at h
      exact h.1
    subst hc
    cases hrest with
    | skipped _ hhash => exact hhash rfl

/-- A text without quotes can be passed over. -/
theorem Unclosed.drop {front : List Char} (h : Unclosed text) (hfront : front <+: text)
    (hfree : '"' ∉ front) : Unclosed (text.drop front.length) := by
  obtain ⟨rest, rfl⟩ := hfront
  rw [List.drop_left]
  induction front with
  | nil => exact h
  | cons c front ih =>
    rw [List.mem_cons, not_or] at hfree
    exact ih hfree.2 (h.tail (Ne.symm hfree.1))

theorem not_unclosed_of_readHeader {close : List Char} {name : String} (hclose : '"' ∉ close)
    (hread : readHeader close text = some name) : ¬ Unclosed text := by
  intro h
  rw [readHeader] at hread
  obtain ⟨p, hp, hread⟩ := Option.bind_eq_some_iff.mp hread
  have hafter := (passes_readKey hp h.skipSpace).skipSpace
  split at hread
  · next hends =>
    exact not_unclosed_of_endsLine hends.2 (hafter.drop hends.1 hclose)
  · cases hread

theorem not_unclosed_of_readStatement {statement : Statement}
    (hread : readStatement text = some statement) : ¬ Unclosed text := by
  intro h
  rw [readStatement] at hread
  split at hread
  · next hopen =>
    obtain ⟨name, hname, -⟩ := Option.map_eq_some_iff.mp hread
    exact not_unclosed_of_readHeader (by decide) hname (h.drop hopen (by decide))
  · split at hread
    · next hopen =>
      obtain ⟨name, hname, -⟩ := Option.map_eq_some_iff.mp hread
      exact not_unclosed_of_readHeader (by decide) hname (h.drop hopen (by decide))
    · obtain ⟨p, hp, hread⟩ := Option.bind_eq_some_iff.mp hread
      split at hread
      · next hends => exact not_unclosed_of_endsLine hends (passes_readValue.readPair hp h)
      · cases hread

theorem readLine_eq_none (h : Unclosed text) : readLine text = none := by
  cases hread : readLine text with
  | none => rfl
  | some statement =>
    rw [readLine] at hread
    split at hread
    · next hends => exact absurd h (not_unclosed_of_endsLine hends)
    · obtain ⟨s, hs, -⟩ := Option.map_eq_some_iff.mp hread
      exact absurd h.skipSpace (not_unclosed_of_readStatement hs)

theorem implementsToml_readToml : ImplementsToml readToml where
  reads _ _ h := h
  rejects text before line after hlines _ hopen := by
    have hline : readLine line = none := readLine_eq_none hopen
    have hmapM : ∀ l : List (List Char), (l ++ line :: after).mapM readLine = none := by
      intro l
      simp [List.mapM_append, hline]
    rw [readToml, hlines, hmapM]
    rfl

end Unclosed

/-- `std::quoted` escapes the quote and the backslash only. -/
def escaped (c : Char) : List Char := if c = '"' ∨ c = '\\' then ['\\', c] else [c]

/-- `QuoteTomlString`. -/
def quoteTomlString (value : String) : String :=
  String.ofList ('"' :: value.toList.flatMap escaped ++ ['"'])

/-- `QuoteTomlKey`. -/
def quoteTomlKey (value : String) : String :=
  if value ≠ "" ∧ value.toList.all isBare then value else quoteTomlString value

end StyioPlatform.Manifest
