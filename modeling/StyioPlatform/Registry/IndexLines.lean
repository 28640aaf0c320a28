import StyioPlatform.Lib.Fallible
import StyioPlatform.Lib.Json
import StyioPlatform.Lib.Lines
import StyioPlatform.Registry.Documents

/-! The text of a package index, line by line: how the control plane writes it and how the control
plane, the client and the Python verifier and publisher read it. The readers agree on what a line
is unless a text of a record holds a line boundary of Unicode, which JSON leaves as it is and
`str.splitlines` breaks at. -/
namespace StyioPlatform

namespace Json

mutual

/-- The strings of a value and the names of its members. -/
def texts : Json → List String
  | string s => [s]
  | array l => elementTexts l
  | object fields => fieldTexts fields
  | _ => []

def elementTexts : List Json → List String
  | [] => []
  | j :: l => texts j ++ elementTexts l

def fieldTexts : List (String × Json) → List String
  | [] => []
  | x :: l => x.1 :: texts x.2 ++ fieldTexts l

end

end Json

namespace Registry

def stringArray (l : List String) : Json := .array (l.map Json.string)

/-- The members of the artifact, in the order of their names. -/
def SourceArtifact.toJson (a : SourceArtifact) : Json := .object
  [("archive_format", .string a.archiveFormat), ("compression", .string a.compression),
    ("path", .string ("/".intercalate a.path)), ("sha256", .string a.sha256),
    ("size_bytes", .int a.sizeBytes)]

/-- The members of a record, in the order of their names; a yank adds the last ones. -/
def ReleaseRecord.toJson (r : ReleaseRecord) : Json := .object
  ([("binary_artifacts", stringArray r.binaryArtifacts),
    ("dependencies", stringArray r.dependencies),
    ("deprecated_message", .string r.deprecatedMessage),
    ("dev_dependencies", stringArray r.devDependencies),
    ("features", .object
      [("default", stringArray r.features.1), ("optional", stringArray r.features.2)]),
    ("manifest_digest", .string r.manifestDigest), ("metadata_digest", .string r.metadataDigest),
    ("package", .string r.package), ("published_at", .string r.publishedAt),
    ("publisher_id", .string r.publisherId), ("release_revision", .int r.releaseRevision),
    ("schema_version", .int r.schemaVersion), ("source_artifact", r.sourceArtifact.toJson),
    ("version", .string r.version), ("yanked", .bool r.yanked)] ++
    (r.yankedAt.map fun t => ("yanked_at", Json.string t)).toList ++
    (r.yankedReason.map fun t => ("yanked_reason", Json.string t)).toList)

section formats

-- `dump` of the library that writes, and `parse` of those that read
variable (dump : Json → List Char) (parse loads : List Char → Option Json)

/-- `WritePackageIndexRecords` -/
def writePackageIndexText (records : List ReleaseRecord) : List Char :=
  records.flatMap fun r => dump r.toJson ++ ['\n']

/-- `AppendJsonLine` -/
def appendJsonLineText (text : List Char) (r : ReleaseRecord) : List Char :=
  text ++ dump r.toJson ++ ['\n']

/-- The texts of an index with the given records, written at once or line by line. -/
inductive IndexText : List Char → List ReleaseRecord → Prop where
  | write (records : List ReleaseRecord) : IndexText (writePackageIndexText dump records) records
  | append {text : List Char} {records : List ReleaseRecord} (r : ReleaseRecord)
      (h : IndexText text records) : IndexText (appendJsonLineText dump text r) (records ++ [r])

/-- `ReadPackageIndexRecords`; `none` where it throws. -/
def readPackageIndexText (text : List Char) : Option (List Json) :=
  ((newlineLines text).filter fun line => line ≠ []).mapM parse

/-- `line.find_first_not_of(" \t\r\n") == npos` -/
def isBlankLine (line : List Char) : Bool := line.all fun c => c ∈ [' ', '\t', '\r', '\n']

/-- `ParseJsonObject` -/
def parseJsonObject (line : List Char) : Option Json := (parse line).filter Json.isObject

/-- The loop of `LoadEntry` over the lines: the first entry of the release, if there is one; `none`
where it throws before. -/
def findEntry (package version : String) : List (List Char) → Option (Option Json)
  | [] => some none
  | line :: lines =>
    if isBlankLine line then findEntry package version lines
    else do
      let entry ← parseJsonObject parse line
      let entryPackage ← entry.textOr "package" ""
      if entryPackage = package then
        let entryVersion ← entry.textOr "version" ""
        if entryVersion = version then some (some entry) else findEntry package version lines
      else findEntry package version lines

def loadEntry (package version : String) (text : List Char) : Option (Option Json) :=
  findEntry parse package version (newlineLines text)

/-- The white space of `str.strip`. -/
def isPythonSpace (c : Char) : Bool :=
  c ∈ ['\t', '\n', '\x0b', '\x0c', '\r', '\x1c', '\x1d', '\x1e', '\x1f', ' ', '\u0085', '\u00a0',
    '\u1680', '\u2028', '\u2029', '\u202f', '\u205f', '\u3000'] ||
    ('\u2000' ≤ c && c ≤ '\u200a')

/-- `[line for line in text.splitlines() if line.strip()]` -/
def indexLines (text : List Char) : List (List Char) :=
  (splitlines text).filter fun line => !line.all isPythonSpace

/-- The records on the lines: `json.loads` and `require_object` for each. -/
def pythonRecords (text : List Char) : Option (List Json) :=
  (indexLines text).mapM fun line => parseJsonObject loads line

/-- `verify_registry_root` refuses an index without lines. -/
def verifierRecords (text : List Char) : Option (List Json) :=
  if indexLines text = [] then none else pythonRecords loads text

/-- The records that `_append_release_record` finds. -/
def existingRecords (text : List Char) : Option (List Json) :=
  pythonRecords loads (universalNewlines text)

/-- `_collect_package_maps` refuses an index without lines. -/
def collectedRecords (text : List Char) : Option (List Json) :=
  verifierRecords loads (universalNewlines text)

/-- Every reader finds the records in the text of their index. -/
structure ReadAlike (records : List ReleaseRecord) : Prop where
  controlPlane : ∀ text, IndexText dump text records →
    readPackageIndexText parse text = some (records.map (·.toJson))
  client : ∀ text, IndexText dump text records → ∀ package version,
    loadEntry parse package version text =
      some ((records.find? fun r => r.package = package ∧ r.version = version).map (·.toJson))
  verifier : ∀ text, IndexText dump text records →
    pythonRecords loads text = some (records.map (·.toJson))
  publisher : ∀ text, IndexText dump text records →
    existingRecords loads text = some (records.map (·.toJson))

/-- The text of an object as RFC 8259 has it: it opens with a brace, control characters are
escaped, and other characters than those of ASCII stand for themselves. -/
structure WritesObject (j : Json) : Prop where
  opens : (dump j).head? = some '{'
  escapes : ∀ c ∈ dump j, ' ' ≤ c
  unescaped : ∀ c, '\u0080' ≤ c → (c ∈ dump j ↔ ∃ text ∈ j.texts, c ∈ text.toList)

/-- A reader of such texts: it reads back what was written, and no beginning of the text of an
object is a JSON text itself. -/
structure ReadsObject (j : Json) : Prop where
  reads : parse (dump j) = some j
  cut : ∀ p, p <+: dump j → p ≠ dump j → parse p = none

end formats

/-- The line boundaries that JSON leaves as they are. -/
def breaksLine (c : Char) : Bool := c ∈ ['\u0085', '\u2028', '\u2029']

/-- No text of the record has a line boundary that JSON leaves as it is. -/
def Unbroken (r : ReleaseRecord) : Prop :=
  ∀ text ∈ r.toJson.texts, ∀ c ∈ text.toList, breaksLine c = false

theorem wide_of_breaksLine {c : Char} (h : breaksLine c = true) : '\u0080' ≤ c := by
  simp only [breaksLine, decide_eq_true_eq, List.mem_cons, List.not_mem_nil, or_false] at h
  rcases h with rfl | rfl | rfl <;> decide

variable {dump : Json → List Char} {parse loads : List Char → Option Json}
  {records : List ReleaseRecord} {r : ReleaseRecord} {j : Json} {text : List Char}

theorem IndexText.eq (h : IndexText dump text records) :
    text = writePackageIndexText dump records := by
  induction h with
  | write records => rfl
  | append r _ ih => simp [appendJsonLineText, writePackageIndexText, ih]

namespace WritesObject

theorem ne_nil (h : WritesObject dump j) : dump j ≠ [] := by
  intro hnil
  have hopens := h.opens
  rw [hnil] at hopens
  cases hopens

theorem open_mem (h : WritesObject dump j) : '{' ∈ dump j := List.mem_of_mem_head? h.opens

/-- Characters below the space do not occur. -/
theorem not_mem (h : WritesObject dump j) {c : Char} (hc : c < ' ') : c ∉ dump j :=
  fun hmem => (h.escapes c hmem).not_gt hc

/-- A line boundary in the text of an object is one that JSON leaves as it is. -/
theorem isLineBoundary_eq (h : WritesObject dump j) {c : Char} (hc : c ∈ dump j) :
    isLineBoundary c = breaksLine c := by
  have hcontrols : ∀ d ∈ ['\n', '\r', '\x0b', '\x0c', '\x1c', '\x1d', '\x1e'], d < ' ' := by
    intro d hd
    simp only [List.mem_cons, List.not_mem_nil, or_false] at hd
    rcases hd with rfl | rfl | rfl | rfl | rfl | rfl | rfl <;> decide
  rw [Bool.eq_iff_iff, isLineBoundary, breaksLine, decide_eq_true_eq, decide_eq_true_eq]
  change c ∈ ['\n', '\r', '\x0b', '\x0c', '\x1c', '\x1d', '\x1e'] ++ _ ↔ _
  rw [List.mem_append]
  exact or_iff_right fun hmem => h.not_mem (hcontrols c hmem) hc

theorem isBlankLine_eq (h : WritesObject dump j) : isBlankLine (dump j) = false := by
  rw [isBlankLine, List.all_eq_false]
  exact ⟨'{', h.open_mem, by decide⟩

/-- The text of an object has no boundary of `str.splitlines` if its strings have none. -/
theorem isLineBoundary_false (h : WritesObject dump r.toJson) (hr : Unbroken r) {c : Char}
    (hc : c ∈ dump r.toJson) : isLineBoundary c = false := by
  rw [h.isLineBoundary_eq hc, Bool.eq_false_iff]
  intro hbreak
  obtain ⟨text, htext, hmem⟩ := (h.unescaped c (wide_of_breaksLine hbreak)).mp hc
  rw [hr text htext c hmem] at hbreak
  cases hbreak

end WritesObject

section lines

theorem linesBy_write {isBreak : Char → Bool} (hbreak : isBreak '\n' = true)
    (h : ∀ r ∈ records, ∀ c ∈ dump r.toJson, isBreak c = false) :
    linesBy isBreak (writePackageIndexText dump records) =
      records.map fun r => dump r.toJson := by
  induction records with
  | nil => rfl
  | cons r records ih =>
    have hrest := ih fun r' hr' => h r' (List.mem_cons_of_mem r hr')
    rw [writePackageIndexText] at hrest ⊢
    rw [List.flatMap_cons, List.append_assoc, List.singleton_append,
      linesBy_append_break (h r List.mem_cons_self) hbreak, hrest, List.map_cons]

theorem mapM_texts {f : List Char → Option Json}
    (h : ∀ r ∈ records, f (dump r.toJson) = some r.toJson) :
    (records.map fun r => dump r.toJson).mapM f = some (records.map (·.toJson)) := by
  rw [List.mapM_map]
  exact mapM_eq_pure h

theorem parseJsonObject_eq (hparse : ReadsObject dump parse r.toJson) :
    parseJsonObject parse (dump r.toJson) = some r.toJson := by
  rw [parseJsonObject, hparse.reads]
  rfl

variable (hwrites : ∀ r ∈ records, WritesObject dump r.toJson)
include hwrites

theorem newlineLines_write :
    newlineLines (writePackageIndexText dump records) = records.map fun r => dump r.toJson := by
  apply linesBy_write rfl
  intro r hr c hc
  rw [beq_eq_false_iff_ne]
  rintro rfl
  exact (hwrites r hr).not_mem (by decide) hc

theorem return_not_mem : '\r' ∉ writePackageIndexText dump records := by
  intro hmem
  obtain ⟨r, hr, hline⟩ := List.mem_flatMap.mp hmem
  rcases List.mem_append.mp hline with hc | hc
  · exact (hwrites r hr).not_mem (by decide) hc
  · revert hc
    decide

theorem universalNewlines_write :
    universalNewlines (writePackageIndexText dump records) = writePackageIndexText dump records :=
  universalNewlines_eq (return_not_mem hwrites)

theorem splitlines_write : splitlines (writePackageIndexText dump records) =
    linesBy isLineBoundary (writePackageIndexText dump records) :=
  splitlines_eq_linesBy (return_not_mem hwrites)

theorem indexLines_write (h : ∀ r ∈ records, Unbroken r) :
    indexLines (writePackageIndexText dump records) = records.map fun r => dump r.toJson := by
  rw [indexLines, splitlines_write hwrites, linesBy_write rfl fun r hr c hc =>
    (hwrites r hr).isLineBoundary_false (h r hr) hc]
  rw [List.filter_eq_self]
  intro line hline
  obtain ⟨r, hr, rfl⟩ := List.mem_map.mp hline
  rw [Bool.not_eq_true', List.all_eq_false]
  exact ⟨'{', (hwrites r hr).open_mem, by decide⟩

theorem readPackageIndexText_write (hparse : ∀ r ∈ records, ReadsObject dump parse r.toJson) :
    readPackageIndexText parse (writePackageIndexText dump records) =
      some (records.map (·.toJson)) := by
  have hkept : (records.map fun r => dump r.toJson).filter (fun line => line ≠ []) =
      records.map fun r => dump r.toJson := by
    rw [List.filter_eq_self]
    intro line hline
    obtain ⟨r, hr, rfl⟩ := List.mem_map.mp hline
    rw [decide_eq_true_eq]
    exact (hwrites r hr).ne_nil
  rw [readPackageIndexText, newlineLines_write hwrites, hkept]
  exact mapM_texts fun r hr => (hparse r hr).reads

theorem findEntry_texts (hparse : ∀ r ∈ records, ReadsObject dump parse r.toJson)
    (package version : String) :
    findEntry parse package version (records.map fun r => dump r.toJson) =
      some ((records.find? fun r => r.package = package ∧ r.version = version).map
        (·.toJson)) := by
  induction records with
  | nil => rfl
  | cons r records ih =>
    have hrest := ih (fun r' hr' => hwrites r' (List.mem_cons_of_mem r hr'))
      fun r' hr' => hparse r' (List.mem_cons_of_mem r hr')
    have hpackage : r.toJson.textOr "package" "" = some r.package := rfl
    have hversion : r.toJson.textOr "version" "" = some r.version := rfl
    rw [List.map_cons, findEntry, (hwrites r List.mem_cons_self).isBlankLine_eq,
      parseJsonObject_eq (hparse r List.mem_cons_self), List.find?_cons]
    simp only [Bool.false_eq_true, if_false, Option.bind_eq_bind, Option.bind_some, hpackage,
      hversion]
    by_cases hp : r.package = package <;> by_cases hv : r.version = version <;> simp [hp, hv, hrest]

/-- Objects of which no text has such a line boundary are read alike. -/
theorem readAlike_of_unbroken (hparse : ∀ r ∈ records, ReadsObject dump parse r.toJson)
    (hloads : ∀ r ∈ records, ReadsObject dump loads r.toJson) (h : ∀ r ∈ records, Unbroken r) :
    ReadAlike dump parse loads records := by
  have hread : pythonRecords loads (writePackageIndexText dump records) =
      some (records.map (·.toJson)) := by
    rw [pythonRecords, indexLines_write hwrites h]
    exact mapM_texts fun r hr => parseJsonObject_eq (hloads r hr)
  constructor
  · intro text htext
    rw [htext.eq, readPackageIndexText_write hwrites hparse]
  · intro text htext package version
    rw [htext.eq, loadEntry, newlineLines_write hwrites, findEntry_texts hwrites hparse]
  · intro text htext
    rw [htext.eq, hread]
  · intro text htext
    rw [htext.eq, existingRecords, universalNewlines_write hwrites, hread]

end lines

/-- The line that `str.splitlines` ends inside an object is no JSON text. -/
theorem exists_cut (hwrites : WritesObject dump j) (hreads : ReadsObject dump loads j) {c : Char}
    (hc : c ∈ dump j) (hbreak : isLineBoundary c = true) (rest : List Char) :
    ∃ line ∈ linesBy isLineBoundary (dump j ++ '\n' :: rest),
      line.all isPythonSpace = false ∧ loads line = none := by
  obtain ⟨d, hfirst⟩ : ∃ d, (dump j).find? isLineBoundary = some d := by
    rw [← Option.isSome_iff_exists, List.find?_isSome]
    exact ⟨c, hc, hbreak⟩
  obtain ⟨hd, line, more, hsplit, hline⟩ := List.find?_eq_some_iff_append.mp hfirst
  have hplain : ∀ e ∈ line, isLineBoundary e = false := by
    intro e he
    simpa using hline e he
  have hopen : '{' ∈ line := by
    have hopens := hwrites.opens
    rw [hsplit] at hopens
    cases line with
    | nil =>
      obtain rfl : d = '{' := by simpa using hopens
      revert hd
      decide
    | cons e line =>
      obtain rfl : e = '{' := by simpa using hopens
      exact List.mem_cons_self
  refine ⟨line, ?_, List.all_eq_false.mpr ⟨'{', hopen, by decide⟩, ?_⟩
  · rw [hsplit, List.append_assoc, List.cons_append, linesBy_append_break hplain hd]
    exact List.mem_cons_self
  · apply hreads.cut
    · exact ⟨d :: more, hsplit.symm⟩
    · rw [hsplit]
      simp

theorem mapM_eq_none {f : List Char → Option Json} {l : List (List Char)} {line : List Char}
    (hline : line ∈ l) (h : f line = none) : l.mapM f = none := by
  induction l with
  | nil => cases hline
  | cons a l ih =>
    rw [List.mapM_cons]
    rcases List.mem_cons.mp hline with rfl | hmem
    · rw [h]
      rfl
    · rw [ih hmem]
      cases f a <;> rfl

/-- What is among the lines of a record is among those of the index. -/
theorem exists_mem_linesBy_write {isBreak : Char → Bool} {P : List Char → Prop}
    (hbreak : isBreak '\n' = true) (hr : r ∈ records)
    (h : ∀ rest, ∃ line ∈ linesBy isBreak (dump r.toJson ++ '\n' :: rest), P line) :
    ∃ line ∈ linesBy isBreak (writePackageIndexText dump records), P line := by
  induction records with
  | nil => cases hr
  | cons r' records ih =>
    have htext : writePackageIndexText dump (r' :: records) =
        dump r'.toJson ++ '\n' :: writePackageIndexText dump records := by
      simp [writePackageIndexText]
    rw [htext]
    rcases List.mem_cons.mp hr with rfl | hmem
    · exact h _
    · obtain ⟨line, hline, hP⟩ := ih hmem
      obtain ⟨first, more, hlines⟩ := @exists_linesBy_append isBreak (dump r'.toJson)
        (writePackageIndexText dump records) '\n' hbreak
      rw [hlines]
      exact ⟨line, List.mem_append_right _ hline, hP⟩

/-- Where Python reads the index, no text of a record has such a line boundary. -/
theorem unbroken_of_pythonRecords {values : List Json}
    (hwrites : ∀ r ∈ records, WritesObject dump r.toJson)
    (hloads : ∀ r ∈ records, ReadsObject dump loads r.toJson)
    (h : pythonRecords loads (writePackageIndexText dump records) = some values) :
    ∀ r ∈ records, Unbroken r := by
  intro r hr text htext c hc
  rw [Bool.eq_false_iff]
  intro hbreak
  have hmem : c ∈ dump r.toJson :=
    ((hwrites r hr).unescaped c (wide_of_breaksLine hbreak)).mpr ⟨text, htext, hc⟩
  have hboundary : isLineBoundary c = true := by
    rw [(hwrites r hr).isLineBoundary_eq hmem, hbreak]
  obtain ⟨line, hline, hspace, hnone⟩ := exists_mem_linesBy_write rfl hr
    (exists_cut (hwrites r hr) (hloads r hr) hmem hboundary)
  have hkept : line ∈ indexLines (writePackageIndexText dump records) := by
    rw [indexLines, splitlines_write hwrites, List.mem_filter]
    exact ⟨hline, by rw [hspace]; rfl⟩
  rw [pythonRecords, mapM_eq_none hkept (by rw [parseJsonObject, hnone]; rfl)] at h
  cases h

/-- The readers agree on an index just when no text of its records has a line boundary that JSON
leaves as it is. -/
theorem readAlike_iff (hwrites : ∀ r ∈ records, WritesObject dump r.toJson)
    (hparse : ∀ r ∈ records, ReadsObject dump parse r.toJson)
    (hloads : ∀ r ∈ records, ReadsObject dump loads r.toJson) :
    ReadAlike dump parse loads records ↔ ∀ r ∈ records, Unbroken r := by
  constructor
  · intro h
    exact unbroken_of_pythonRecords hwrites hloads (h.verifier _ (.write records))
  · exact readAlike_of_unbroken hwrites hparse hloads

/-- An index with records is not refused either. -/
theorem ReadAlike.accepted (h : ReadAlike dump parse loads records) (hne : records ≠ [])
    (htext : IndexText dump text records) :
    verifierRecords loads text = some (records.map (·.toJson)) ∧
      collectedRecords loads text = some (records.map (·.toJson)) := by
  have hlines : ∀ text, pythonRecords loads text = some (records.map (·.toJson)) →
      indexLines text ≠ [] := by
    intro text hread hnil
    rw [pythonRecords, hnil, List.mapM_nil] at hread
    exact hne (List.map_eq_nil_iff.mp (Option.some.inj hread).symm)
  have hverifier := h.verifier text htext
  have hpublisher := h.publisher text htext
  rw [existingRecords] at hpublisher
  constructor
  · rw [verifierRecords, if_neg (hlines _ hverifier), hverifier]
  · rw [collectedRecords, verifierRecords, if_neg (hlines _ hpublisher), hpublisher]

/-- A release that was yanked for the reason. -/
def yankedRecord (reason : String) : ReleaseRecord where
  package := "a/b"
  version := "1.0.0"
  publishedAt := "2026-01-01T00:00:00Z"
  publisherId := "node"
  yanked := true
  sourceArtifact := { sha256 := "5f", sizeBytes := 3, path := ["artifacts", "5f"] }
  manifestDigest := "6f"
  metadataDigest := "7f"
  yankedReason := some reason
  yankedAt := some "2026-01-02T00:00:00Z"

/-- Its line, for a reason in which nothing is escaped. -/
def yankedLine (reason : String) : List Char :=
  ["\x7b\"binary_artifacts\":[]", ",\"dependencies\":[]", ",\"deprecated_message\":\"\"",
    ",\"dev_dependencies\":[]", ",\"features\":\x7b\"default\":[]", ",\"optional\":[]\x7d",
    ",\"manifest_digest\":\"6f\"", ",\"metadata_digest\":\"7f\"", ",\"package\":\"a/b\"",
    ",\"published_at\":", "\"2026-01-01T00:00:00Z\"", ",\"publisher_id\":\"node\"",
    ",\"release_revision\":1", ",\"schema_version\":1", ",\"source_artifact\":",
    "\x7b\"archive_format\":\"tar\"", ",\"compression\":\"none\"", ",\"path\":\"artifacts/5f\"",
    ",\"sha256\":\"5f\"", ",\"size_bytes\":3\x7d", ",\"version\":\"1.0.0\"", ",\"yanked\":true",
    ",\"yanked_at\":", "\"2026-01-02T00:00:00Z\"", ",\"yanked_reason\":\"", reason,
    "\"\x7d"].flatMap String.toList

/-- What a writer gives for the record. -/
def writeYanked (reason : String) (_ : Json) : List Char := yankedLine reason

/-- What a reader gives for the line and its beginnings. -/
def readYanked (reason : String) (line : List Char) : Option Json :=
  if line = yankedLine reason then some (yankedRecord reason).toJson else none

theorem readsObject_readYanked (reason : String) : ReadsObject (writeYanked reason)
    (readYanked reason) (yankedRecord reason).toJson where
  reads := if_pos rfl
  cut _ _ hne := if_neg hne

theorem readAlike_broken :
    ((∀ r ∈ [yankedRecord "broken"], WritesObject (writeYanked "broken") r.toJson) ∧
      ∀ r ∈ [yankedRecord "broken"], ReadsObject (writeYanked "broken") (readYanked "broken")
        r.toJson) ∧
    ReadAlike (writeYanked "broken") (readYanked "broken") (readYanked "broken")
      [yankedRecord "broken"] := by
  have hall : ((yankedRecord "broken").toJson.texts.flatMap String.toList).all
      (fun c => decide (c < '\u0080')) = true := by decide +kernel
  have htexts : ∀ text ∈ (yankedRecord "broken").toJson.texts, ∀ c ∈ text.toList, c < '\u0080' :=
    fun text htext c hc =>
      of_decide_eq_true (List.all_eq_true.mp hall c (List.mem_flatMap.mpr ⟨text, htext, hc⟩))
  have hwritten : (yankedLine "broken").all (fun c => decide (' ' ≤ c ∧ c < '\u0080')) = true := by
    decide +kernel
  have hline : ∀ c ∈ yankedLine "broken", ' ' ≤ c ∧ c < '\u0080' := fun c hc =>
    of_decide_eq_true (List.all_eq_true.mp hwritten c hc)
  have hwrites : ∀ r ∈ [yankedRecord "broken"], WritesObject (writeYanked "broken") r.toJson := by
    intro r hr
    obtain rfl := List.mem_singleton.mp hr
    refine ⟨by decide +kernel, fun c hc => (hline c hc).1, fun c hwide => ?_⟩
    constructor
    · intro hc
      exact absurd (hline c hc).2 hwide.not_gt
    · rintro ⟨text, htext, hc⟩
      exact absurd (htexts text htext c hc) hwide.not_gt
  have hreads : ∀ r ∈ [yankedRecord "broken"], ReadsObject (writeYanked "broken")
      (readYanked "broken") r.toJson := by
    intro r hr
    obtain rfl := List.mem_singleton.mp hr
    exact readsObject_readYanked "broken"
  refine ⟨⟨hwrites, hreads⟩, (readAlike_iff hwrites hreads hreads).mpr ?_⟩
  intro r hr text htext c hc
  obtain rfl := List.mem_singleton.mp hr
  rw [Bool.eq_false_iff]
  exact fun hbreak => (htexts text htext c hc).not_ge (wide_of_breaksLine hbreak)

/-- A line separator in the reason for a yank: Python finds two lines, neither of them JSON. -/
theorem not_readAlike_of_lineSeparator :
    ¬ ReadAlike (writeYanked "a\u2028b") (readYanked "a\u2028b") (readYanked "a\u2028b")
      [yankedRecord "a\u2028b"] := by
  intro h
  have hread := h.verifier _ (.write _)
  revert hread
  decide +kernel

end Registry

end StyioPlatform
