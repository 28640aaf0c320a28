import StyioPlatform.Lib.FileTree
import StyioPlatform.Lib.KeyedList
import StyioPlatform.Lib.Paths
import StyioPlatform.Lib.TextSearch

/-! The S3 client (`ObjectStore.cpp`), which runs `curl` for every request and keeps what it
captures of its output (`Process.cpp`). A text is the list of its bytes. -/
namespace StyioPlatform.Storage

abbrev Bytes := List UInt8

abbrev Text := List Char

/-- A finite map from keys, or from paths below a root, to contents. -/
abbrev Objects := FileTree Char Bytes

/-- `AppendOutputChunk`, on the captured output and its `truncated` flag. -/
def appendOutputChunk {α : Type} (limit : ℕ) (target : List α × Bool) (chunk : List α) :
    List α × Bool :=
  if limit = 0 then (target.1, target.2 || !chunk.isEmpty)
  else if limit ≤ target.1.length then (target.1, target.2 || !chunk.isEmpty)
  else
    let toCopy := min (limit - target.1.length) chunk.length
    (target.1 ++ chunk.take toCopy, if toCopy < chunk.length then true else target.2)

/-- The output that `RunProcess` returns, which it reads in chunks. -/
def captured {α : Type} (limit : ℕ) (chunks : List (List α)) : List α × Bool :=
  chunks.foldl (appendOutputChunk limit) ([], false)

/-- `max_stdout_bytes` of `RunCurl`. -/
def maxStdoutBytes : ℕ := 16 * 2 ^ 20

/-- What becomes of a request: `curl` fails, the service answers with an error status, or it does
what it is asked. -/
inductive Outcome where
  | refused
  | errorStatus
  | served
  deriving DecidableEq

/-- How the service writes its documents, and how their bytes arrive. -/
structure Service where
  /-- The start of a listing, with `IsTruncated`. -/
  opening : Bool → Text
  beforeKey : Text → Text
  afterKey : Text → Text
  closing : Text
  errorDocument : Text
  /-- A character as XML shows it. -/
  reference : Char → Text
  deliver : {α : Type} → List α → List (List α)

def openKey : Text := "<Key>".toList

def closeKey : Text := "</Key>".toList

/-- A key as it stands in a listing. -/
def Service.escape (s : Service) (key : Text) : Text := key.flatMap s.reference

/-- One entry of a listing. -/
def Service.entry (s : Service) (key : Text) : Text :=
  s.beforeKey key ++ (openKey ++ (s.escape key ++ (closeKey ++ s.afterKey key)))

/-- The answer to `ListObjectsV2`. -/
def Service.listing (s : Service) (keys : List Text) (truncated : Bool) : Text :=
  s.opening truncated ++ (keys.flatMap s.entry ++ s.closing)

/-- What is documented of the service: nothing but the keys is in `<Key>` elements, characters are
shown as themselves or as longer references, and a page of keys stays far below the limit. -/
structure Documented (s : Service) : Prop where
  opening : ∀ truncated, Inert openKey (s.opening truncated)
  beforeKey : ∀ key, Inert openKey (s.beforeKey key)
  afterKey : ∀ key, Inert openKey (s.afterKey key)
  closing : Inert openKey s.closing
  errorDocument : Inert openKey s.errorDocument
  reference : ∀ c, s.reference c = [c] ∨ 2 ≤ (s.reference c).length
  plain : ∀ c, c.isAlphanum ∨ c = '/' ∨ c = '_' ∨ c = '-' ∨ c = '.' → s.reference c = [c]
  noMarkup : ∀ c, '<' ∉ s.reference c
  deliver : ∀ {α : Type} (l : List α), (s.deliver l).flatten = l
  fits : ∀ keys truncated, keys.length ≤ 1000 → (∀ key ∈ keys, key.length ≤ 1024) →
    (s.listing keys truncated).length ≤ maxStdoutBytes
  errorFits : s.errorDocument.length ≤ maxStdoutBytes

/-- `RunCurl`: the body of the answer, `none` where it throws. Without `-f` the document of an
error status is taken for the answer. -/
def runCurl {α : Type} (s : Service) (failOnError : Bool) (body errorBody : List α) :
    Outcome → Option (List α)
  | .refused => none
  | .errorStatus =>
    if failOnError then none else some (captured maxStdoutBytes (s.deliver errorBody)).1
  | .served => some (captured maxStdoutBytes (s.deliver body)).1

/-- The pieces that `std::getline(stream, part, '/')` yields. -/
def lines (value : Text) : List Text :=
  let parts := value.splitOn '/'
  if parts.getLastD [] = [] then parts.dropLast else parts

def isCanonicalPart (part : Text) : Bool := part ≠ [] ∧ part ≠ ".".toList ∧ part ≠ "..".toList

/-- `NormalizeObjectKey`; `none` where it throws. -/
def normalizeObjectKey (key : Text) : Option Text :=
  let value := key.dropWhile (· = '/')
  if value = [] ∨ value.getLast? = some '/' ∨ '\\' ∈ value then none
  else if (lines value).all isCanonicalPart then some value
  else none

def trimSlashes (value : Text) : Text :=
  ((value.dropWhile (· = '/')).reverse.dropWhile (· = '/')).reverse

/-- `ApplyPrefix`, with the configured prefix. -/
def applyPrefix (storePrefix key : Text) : Text :=
  if trimSlashes storePrefix = [] then key else trimSlashes storePrefix ++ '/' :: key

def stripPrefix (storePrefix key : Text) : Text :=
  let trimmed := trimSlashes storePrefix
  if trimmed = [] then key
  else if key = trimmed then []
  else if (trimmed ++ ['/']) <+: key then key.drop (trimmed.length + 1)
  else key

/-- `NormalizeObjectPrefix`; `none` where it throws. -/
def normalizeObjectPrefix (objectPrefix : Text) : Option Text :=
  let value := objectPrefix.dropWhile (· = '/')
  if value = [] then some value
  else if '\\' ∈ value then none
  else if (lines value).all isCanonicalPart then some value
  else none

/-- The loop of `ExtractXmlKeys`; the first argument bounds the number of rounds. -/
def extractXmlKeysWithin : ℕ → Text → List Text
  | 0, _ => []
  | rounds + 1, xml =>
    match cutAt openKey xml with
    | none => []
    | some (_, rest) =>
      match cutAt closeKey rest with
      | none => []
      | some (key, rest) => key :: extractXmlKeysWithin rounds rest

def extractXmlKeys (xml : Text) : List Text := extractXmlKeysWithin (xml.length + 1) xml

/-- The outcome of every request. -/
structure Outcomes where
  get : Text → Outcome
  list : Text → Outcome
  put : Text → Outcome

variable (s : Service) (outcomes : Outcomes) (storePrefix : Text) (bucket : Objects)

/-- `GetObjectText`; the outer `none` where the key is refused, the inner one where the request
fails. An object that is missing has an error status. -/
def getObjectText (key : Text) : Option (Option Bytes) :=
  (normalizeObjectKey key).map fun value =>
    let objectKey := applyPrefix storePrefix value
    match bucket.get objectKey with
    | none => none
    | some content => runCurl s true content [] (outcomes.get objectKey)

/-- A page holds at most this many keys. -/
def maxKeys : ℕ := 1000

/-- The keys of the bucket that start with a text, in order. -/
def keysUnder (objectPrefix : Text) : List Text :=
  sorted (bucket.support.filter (objectPrefix <+: ·))

/-- `ListObjectKeys`; `none` where it throws. -/
def listObjectKeys (objectPrefix : Text) : Option (List Text) :=
  (normalizeObjectPrefix objectPrefix).bind fun normalized =>
    let normalizedPrefix :=
      if normalized = [] then trimSlashes storePrefix else applyPrefix storePrefix normalized
    let keys := keysUnder bucket normalizedPrefix
    let xml := s.listing (keys.take maxKeys) (decide (maxKeys < keys.length))
    (runCurl s false xml s.errorDocument (outcomes.list normalizedPrefix)).map fun text =>
      ((extractXmlKeys text).map (stripPrefix storePrefix)).filter (· ≠ [])

/-- `PutObjectFile`: the bucket after the request, `none` where it throws. -/
def putObjectFile (key : Text) (content : Bytes) : Option Objects :=
  (normalizeObjectKey key).bind fun value =>
    let objectKey := applyPrefix storePrefix value
    (runCurl s false ([] : Bytes) [] (outcomes.put objectKey)).map fun _ =>
      if outcomes.put objectKey = .served then bucket.put objectKey content else bucket

section capture

variable {α : Type} {limit : ℕ}

theorem appendOutputChunk_fst {target : List α × Bool} {chunk : List α}
    (h : target.1.length ≤ limit) :
    (appendOutputChunk limit target chunk).1 = (target.1 ++ chunk).take limit := by
  unfold appendOutputChunk
  split
  · next hzero =>
    have : target.1 = [] := List.length_eq_zero_iff.mp (by omega)
    simp [hzero, this]
  · split
    · next hfull =>
      rw [List.take_append_of_le_length hfull, List.take_of_length_le h]
    · rw [List.take_append, List.take_of_length_le h]
      change target.1 ++ chunk.take (min (limit - target.1.length) chunk.length) = _
      rcases le_total (limit - target.1.length) chunk.length with hle | hle
      · rw [min_eq_left hle]
      · rw [min_eq_right hle, List.take_length, List.take_of_length_le hle]

theorem take_take_append {l m : List α} : (l.take limit ++ m).take limit = (l ++ m).take limit := by
  rw [List.take_append, List.take_append, List.take_take, min_self, List.length_take]
  congr 2
  omega

/-- Whatever the chunks are, the output is cut at the limit. -/
theorem captured_fst {chunks : List (List α)} :
    (captured limit chunks).1 = chunks.flatten.take limit := by
  have hfold : ∀ target : List α × Bool, target.1.length ≤ limit →
      (chunks.foldl (appendOutputChunk limit) target).1 =
        (target.1 ++ chunks.flatten).take limit := by
    induction chunks with
    | nil =>
      intro target h
      simp [List.take_of_length_le h]
    | cons chunk chunks ih =>
      intro target h
      have hfst : (appendOutputChunk limit target chunk).1 = (target.1 ++ chunk).take limit :=
        appendOutputChunk_fst h
      rw [List.foldl_cons, ih _ (by rw [hfst]; exact List.length_take_le ..), hfst,
        List.flatten_cons, ← List.append_assoc, take_take_append]
  exact hfold ([], false) (Nat.zero_le _)

end capture

section listings

variable {s : Service} {outcomes : Outcomes} {bucket : Objects} {storePrefix : Text}
  {keys : List Text} {key : Text}

theorem runCurl_served {α : Type} {failOnError : Bool} {body errorBody : List α}
    (hs : Documented s) :
    runCurl s failOnError body errorBody .served = some (body.take maxStdoutBytes) := by
  rw [runCurl, captured_fst, hs.deliver]

theorem runCurl_errorStatus {α : Type} {body errorBody : List α} (hs : Documented s) :
    runCurl s false body errorBody .errorStatus = some (errorBody.take maxStdoutBytes) := by
  simp only [runCurl, Bool.false_eq_true, if_false]
  rw [captured_fst, hs.deliver]

theorem not_mem_escape (hs : Documented s) : '<' ∉ s.escape key := by
  intro h
  obtain ⟨c, -, hc⟩ := List.mem_flatMap.mp h
  exact hs.noMarkup c hc

/-- The keys of a listing are read as they stand there. -/
theorem extractXmlKeysWithin_listing (hs : Documented s) {rounds : ℕ} {opening : Text}
    (hopening : Inert openKey opening) (hrounds : keys.length < rounds) :
    extractXmlKeysWithin rounds (opening ++ (keys.flatMap s.entry ++ s.closing)) =
      keys.map s.escape := by
  induction keys generalizing rounds opening with
  | nil =>
    obtain ⟨rounds, rfl⟩ : ∃ n, rounds = n + 1 := ⟨rounds - 1, by omega⟩
    rw [extractXmlKeysWithin, List.flatMap_nil, List.nil_append, cutAt_append hopening,
      cutAt_of_inert hs.closing (by decide)]
    rfl
  | cons key keys ih =>
    obtain ⟨rounds, rfl⟩ : ∃ n, rounds = n + 1 := ⟨rounds - 1, by omega⟩
    have hrest : Inert openKey (s.afterKey key) := hs.afterKey key
    have hclose : Inert closeKey (s.escape key) := inert_of_not_mem (not_mem_escape hs)
    rw [extractXmlKeysWithin, List.flatMap_cons, Service.entry]
    simp only [List.append_assoc]
    rw [cutAt_append hopening, cutAt_append (hs.beforeKey key), cutAt_self (by decide)]
    simp only [Option.map_some]
    rw [cutAt_append hclose, cutAt_self (by decide)]
    simp only [Option.map_some, List.append_nil, List.map_cons, List.cons.injEq, true_and]
    exact ih hrest (by simpa using hrounds)

theorem length_le_listing {truncated : Bool} :
    keys.length < (s.listing keys truncated).length + 1 := by
  have hentry : ∀ key, 1 ≤ (s.entry key).length := by
    intro key
    simp only [Service.entry, List.length_append, show openKey.length = 5 from rfl]
    omega
  have hentries : keys.length ≤ (keys.flatMap s.entry).length := by
    induction keys with
    | nil => simp
    | cons key keys ih =>
      have := hentry key
      simp only [List.length_cons, List.flatMap_cons, List.length_append]
      omega
  simp only [Service.listing, List.length_append]
  omega

theorem extractXmlKeys_listing (hs : Documented s) {truncated : Bool} :
    extractXmlKeys (s.listing keys truncated) = keys.map s.escape :=
  extractXmlKeysWithin_listing hs (hs.opening truncated) length_le_listing

theorem extractXmlKeys_errorDocument (hs : Documented s) : extractXmlKeys s.errorDocument = [] := by
  rw [extractXmlKeys, extractXmlKeysWithin, cutAt_of_inert hs.errorDocument (by decide)]

/-- The keys of one page, without the prefix and as they stand in the listing. -/
def pageKeys (s : Service) (bucket : Objects) (storePrefix objectPrefix : Text) : List Text :=
  (((keysUnder bucket (applyPrefix storePrefix objectPrefix)).take maxKeys).map fun key =>
    stripPrefix storePrefix (s.escape key)).filter (· ≠ [])

/-- A listing yields one page, nothing, or an error. -/
theorem listObjectKeys_eq (hs : Documented s) {objectPrefix : Text}
    (hshort : ∀ key ∈ bucket.support, key.length ≤ 1024)
    (hnormal : normalizeObjectPrefix objectPrefix = some objectPrefix) (hne : objectPrefix ≠ []) :
    listObjectKeys s outcomes storePrefix bucket objectPrefix =
      match outcomes.list (applyPrefix storePrefix objectPrefix) with
      | .refused => none
      | .errorStatus => some []
      | .served => some (pageKeys s bucket storePrefix objectPrefix) := by
  rw [listObjectKeys, hnormal, Option.bind_some]
  simp only [hne, if_false]
  have hfits : ∀ truncated, (s.listing ((keysUnder bucket (applyPrefix storePrefix
      objectPrefix)).take maxKeys) truncated).length ≤ maxStdoutBytes := by
    intro truncated
    apply hs.fits
    · exact List.length_take_le ..
    · intro key hkey
      have hmem := List.mem_of_mem_take hkey
      rw [keysUnder, mem_sorted, Finset.mem_filter] at hmem
      exact hshort key hmem.1
  cases outcomes.list (applyPrefix storePrefix objectPrefix) with
  | refused => rfl
  | errorStatus =>
    rw [runCurl_errorStatus hs, List.take_of_length_le hs.errorFits, Option.map_some,
      extractXmlKeys_errorDocument hs]
    rfl
  | served =>
    rw [runCurl_served hs, List.take_of_length_le (hfits _), Option.map_some,
      extractXmlKeys_listing hs, List.map_map]
    rfl

end listings

section prefixes

variable {s : Service} {bucket : Objects} {storePrefix key rest : Text}

theorem applyPrefix_append {tail : Text} :
    applyPrefix storePrefix (key ++ tail) = applyPrefix storePrefix key ++ tail := by
  unfold applyPrefix
  split
  · rfl
  · simp

/-- The prefix comes off as it went on. -/
theorem stripPrefix_applyPrefix : stripPrefix storePrefix (applyPrefix storePrefix key) = key := by
  unfold stripPrefix applyPrefix
  by_cases h : trimSlashes storePrefix = []
  · simp [h]
  · have hstart : (trimSlashes storePrefix ++ ['/']) <+: trimSlashes storePrefix ++ '/' :: key :=
      ⟨key, by simp⟩
    simp only [h, if_false, hstart, if_true]
    rw [if_neg (by simp)]
    simp [List.drop_append]

theorem escape_append {tail : Text} : s.escape (key ++ tail) = s.escape key ++ s.escape tail :=
  List.flatMap_append

/-- Names of letters, `_` and `/` are shown as they are. -/
theorem escape_of_plain (hs : Documented s)
    (h : ∀ c ∈ key, c.isAlphanum ∨ c = '/' ∨ c = '_' ∨ c = '-' ∨ c = '.') : s.escape key = key := by
  induction key with
  | nil => rfl
  | cons c key ih =>
    have hc : s.reference c = [c] := hs.plain c (h c List.mem_cons_self)
    have hkey : s.escape key = key := ih fun c hc => h c (List.mem_cons_of_mem _ hc)
    change s.reference c ++ s.escape key = c :: key
    rw [hc, hkey]
    rfl

/-- A key is shown as it is, or longer. -/
theorem escape_eq_or_lt (hs : Documented s) :
    s.escape key = key ∨ key.length < (s.escape key).length := by
  induction key with
  | nil => exact Or.inl rfl
  | cons c key ih =>
    have hcons : s.escape (c :: key) = s.reference c ++ s.escape key := rfl
    rw [hcons]
    rcases hs.reference c with hc | hc
    · rcases ih with hkey | hkey
      · exact Or.inl (by rw [hc, hkey]; rfl)
      · exact Or.inr (by rw [hc]; simpa using hkey)
    · refine Or.inr ?_
      have : key.length ≤ (s.escape key).length := by
        rcases ih with hkey | hkey
        · rw [hkey]
        · omega
      simp only [List.length_cons, List.length_append]
      omega

theorem escape_applyPrefix (hs : Documented s)
    (hplain : s.escape (trimSlashes storePrefix) = trimSlashes storePrefix) :
    s.escape (applyPrefix storePrefix key) = applyPrefix storePrefix (s.escape key) := by
  have hslash : s.escape ['/'] = ['/'] := escape_of_plain hs (by simp)
  unfold applyPrefix
  split
  · rfl
  · rw [escape_append, hplain, ← List.singleton_append, escape_append, hslash]
    rfl

theorem mem_keysUnder {objectPrefix : Text} :
    key ∈ keysUnder bucket objectPrefix ↔ key ∈ bucket.support ∧ objectPrefix <+: key := by
  rw [keysUnder, mem_sorted, Finset.mem_filter]

/-- A key that starts with a name has a normal form only as it stands. -/
theorem normalizeObjectKey_eq {value : Text} (hhead : key.head? ≠ some '/')
    (h : normalizeObjectKey key = some value) : value = key := by
  have hkey : key.dropWhile (· = '/') = key := by
    cases key with
    | nil => rfl
    | cons c key =>
      have : c ≠ '/' := by
        rintro rfl
        exact hhead rfl
      simp [this]
  unfold normalizeObjectKey at h
  rw [hkey] at h
  dsimp only at h
  split at h
  · cases h
  · split at h
    · exact (Option.some.inj h).symm
    · cases h

end prefixes

end StyioPlatform.Storage
