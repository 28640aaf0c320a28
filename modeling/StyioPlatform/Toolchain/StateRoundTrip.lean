import StyioPlatform.Manifest.TomlStrings
import StyioPlatform.Toolchain.State

/-! When the toolchain state that an update returns is the one that is loaded after it. -/
namespace StyioPlatform.Toolchain

open Manifest

variable {state : ProjectToolchainState} {files : Files} {manifestPath : List String}

section Search

theorem fileExists_of_get {path : Path} {text : String} (h : files.get path = some text) :
    fileExists files path = true := by
  rw [fileExists, h]
  rfl

/-- The search stops at the directory of the manifest when there is a file. -/
theorem findProjectToolchainStatePath_eq {text : String}
    (h : files.get (projectToolchainStatePathForManifest manifestPath) = some text) :
    findProjectToolchainStatePath files manifestPath =
      some (projectToolchainStatePathForManifest manifestPath) := by
  have hexists := fileExists_of_get h
  unfold projectToolchainStatePathForManifest at h hexists ⊢
  unfold findProjectToolchainStatePath
  generalize (canonicalAbsolutePath manifestPath).dropLast = dir at h hexists ⊢
  dsimp only
  cases hlength : dir.length with
  | zero =>
    obtain rfl := List.length_eq_zero_iff.mp hlength
    exact if_pos hexists
  | succ n =>
    have hall : dir.take (n + 1) = dir := List.take_of_length_le hlength.le
    rw [searchUpwards, hall, if_pos hexists]

end Search

section Values

/-- The values that pass the checks. -/
structure Supported (state : ProjectToolchainState) : Prop where
  mode : state.mode ∈ supportedToolchainModes
  channel : state.channel ∈ supportedChannels
  buildMode : state.buildMode ∈ supportedBuildModes
  riskClass : state.riskClass ∈ supportedCloudRiskClasses
  preferredExecutionLane : state.preferredExecutionLane ∈ supportedCloudExecutionLanes
  securityProfile : state.securityProfile ∈ supportedCloudSecurityProfiles

theorem requireAllowedValue_eq_ok {value label : String} {allowed : List String} :
    requireAllowedValue value allowed label = .ok () ↔ value ∈ allowed := by
  unfold requireAllowedValue
  split
  · next h => exact ⟨fun _ => h, fun _ => rfl⟩
  · next h => exact ⟨nofun, fun hmem => absurd hmem h⟩

theorem requireAllowedValues_eq_ok : requireAllowedValues state = .ok () ↔ Supported state := by
  constructor
  · intro h
    obtain ⟨_, hmode, h⟩ := bind_ok_iff.mp h
    obtain ⟨_, hchannel, h⟩ := bind_ok_iff.mp h
    obtain ⟨_, hbuild, h⟩ := bind_ok_iff.mp h
    obtain ⟨_, hrisk, h⟩ := bind_ok_iff.mp h
    obtain ⟨_, hlane, hsecurity⟩ := bind_ok_iff.mp h
    exact ⟨requireAllowedValue_eq_ok.mp hmode, requireAllowedValue_eq_ok.mp hchannel,
      requireAllowedValue_eq_ok.mp hbuild, requireAllowedValue_eq_ok.mp hrisk,
      requireAllowedValue_eq_ok.mp hlane, requireAllowedValue_eq_ok.mp hsecurity⟩
  · intro h
    refine bind_ok_iff.mpr ⟨(), requireAllowedValue_eq_ok.mpr h.mode, ?_⟩
    refine bind_ok_iff.mpr ⟨(), requireAllowedValue_eq_ok.mpr h.channel, ?_⟩
    refine bind_ok_iff.mpr ⟨(), requireAllowedValue_eq_ok.mpr h.buildMode, ?_⟩
    refine bind_ok_iff.mpr ⟨(), requireAllowedValue_eq_ok.mpr h.riskClass, ?_⟩
    refine bind_ok_iff.mpr ⟨(), requireAllowedValue_eq_ok.mpr h.preferredExecutionLane, ?_⟩
    exact requireAllowedValue_eq_ok.mpr h.securityProfile

/-- The values of the vocabulary stand for themselves, and none is empty. -/
theorem Supported.isPlainText (h : Supported state) :
    ∀ value ∈ [state.mode, state.channel, state.buildMode, state.riskClass,
      state.preferredExecutionLane, state.securityProfile], IsPlainText value.toList ∧ value ≠ "" := by
  have hall : ∀ allowed ∈ [supportedToolchainModes, supportedChannels, supportedBuildModes,
      supportedCloudRiskClasses, supportedCloudExecutionLanes, supportedCloudSecurityProfiles],
      ∀ value ∈ allowed, IsPlainText value.toList ∧ value ≠ "" := by decide
  intro value hvalue
  simp only [List.mem_cons, List.not_mem_nil, or_false] at hvalue
  rcases hvalue with rfl | rfl | rfl | rfl | rfl | rfl
  · exact hall _ (by simp) _ h.mode
  · exact hall _ (by simp) _ h.channel
  · exact hall _ (by simp) _ h.buildMode
  · exact hall _ (by simp) _ h.riskClass
  · exact hall _ (by simp) _ h.preferredExecutionLane
  · exact hall _ (by simp) _ h.securityProfile

end Values

section Rendering

theorem flatMap_escaped_of_plain {s : List Char} (h : IsPlainText s) : s.flatMap escaped = s := by
  calc s.flatMap escaped = s.flatMap fun c => [c] := List.flatMap_congr fun c hc => by
        rw [escaped, if_neg]
        rintro (rfl | rfl)
        · exact (h _ hc).1 rfl
        · exact (h _ hc).2.1 rfl
    _ = s := List.flatMap_singleton' s

theorem isClean_of_plain {s : List Char} (h : IsPlainText s) : IsClean s := fun c hc => (h c hc).2.2

/-- A pair that is pasted together is the one that is written with escapes. -/
theorem toList_pair {key value before : String} (hkey : isBareKey key)
    (hbefore : before = key ++ " = \"") (hvalue : IsPlainText value.toList) :
    (before ++ value ++ "\"\n").toList = (Line.pair key (.text value)).render ++ ['\n'] := by
  subst hbefore
  rw [Line.render, toList_quoteTomlKey, if_pos hkey, Written.render, quoted,
    flatMap_escaped_of_plain hvalue]
  simp only [String.toList_append, List.append_assoc]
  simp

def toolchainSection (state : ProjectToolchainState) : Section :=
  ⟨"toolchain", false, [("mode", .text state.mode), ("channel", .text state.channel),
    ("build", .text state.buildMode)]⟩

def cloudSection (state : ProjectToolchainState) : Section :=
  ⟨"cloud", false, [("risk", .text state.riskClass), ("lane", .text state.preferredExecutionLane),
    ("security", .text state.securityProfile)]⟩

/-- The lines before the revision. -/
def commonLines (state : ProjectToolchainState) : List Line :=
  (toolchainSection state).lines ++ .blank :: (cloudSection state).lines

def renderLines (lines : List Line) : List Char := lines.flatMap fun line => line.render ++ ['\n']

/-- The text of the lines before the revision. -/
theorem renderLines_commonLines (h : Supported state) : renderLines (commonLines state) =
    ("[toolchain]\n" ++ ("mode = \"" ++ state.mode ++ "\"\n") ++
      ("channel = \"" ++ state.channel ++ "\"\n") ++ ("build = \"" ++ state.buildMode ++ "\"\n") ++
      "\n[cloud]\n" ++ ("risk = \"" ++ state.riskClass ++ "\"\n") ++
      ("lane = \"" ++ state.preferredExecutionLane ++ "\"\n") ++
      ("security = \"" ++ state.securityProfile ++ "\"\n")).toList := by
  have hplain := fun value hvalue => (h.isPlainText value hvalue).1
  have hmode : ("mode = \"" ++ state.mode ++ "\"\n").toList = _ :=
    toList_pair (show isBareKey "mode" by decide) (by decide) (hplain _ (by simp))
  have hchannel : ("channel = \"" ++ state.channel ++ "\"\n").toList = _ :=
    toList_pair (show isBareKey "channel" by decide) (by decide) (hplain _ (by simp))
  have hbuild : ("build = \"" ++ state.buildMode ++ "\"\n").toList = _ :=
    toList_pair (show isBareKey "build" by decide) (by decide) (hplain _ (by simp))
  have hrisk : ("risk = \"" ++ state.riskClass ++ "\"\n").toList = _ :=
    toList_pair (show isBareKey "risk" by decide) (by decide) (hplain _ (by simp))
  have hlane : ("lane = \"" ++ state.preferredExecutionLane ++ "\"\n").toList = _ :=
    toList_pair (show isBareKey "lane" by decide) (by decide) (hplain _ (by simp))
  have hsecurity : ("security = \"" ++ state.securityProfile ++ "\"\n").toList = _ :=
    toList_pair (show isBareKey "security" by decide) (by decide) (hplain _ (by simp))
  rw [String.toList_append, String.toList_append, String.toList_append, String.toList_append,
    String.toList_append, String.toList_append, String.toList_append, hmode, hchannel, hbuild, hrisk,
    hlane, hsecurity]
  simp only [commonLines, renderLines, Section.lines, Section.header, toolchainSection, cloudSection,
    List.map_cons, List.map_nil, List.flatMap_append, List.flatMap_cons, List.flatMap_nil,
    List.append_nil, List.append_assoc]
  rfl

theorem toList_renderToolchainState (h : Supported state) :
    (renderToolchainState state).toList = renderLines (commonLines state) ++
      match state.sourceRevision with
      | none => []
      | some revision => renderLines [.blank, .table "source"] ++
          opensString "revision" (revision.toList ++ ['"', '\n']) := by
  rw [renderLines_commonLines h, renderToolchainState]
  cases state.sourceRevision with
  | none => exact (List.append_nil _).symm
  | some revision =>
    dsimp only
    rw [String.append_assoc, String.toList_append]
    refine congrArg _ ?_
    rw [String.toList_append, String.toList_append, String.toList_append]
    rfl

end Rendering

section Reading

variable {parse : String → Option Table}

theorem fits_commonLines : ∀ line ∈ commonLines state, line.Fits := by
  intro line hline
  rcases List.mem_append.mp hline with hline | hline
  · exact fits_lines (show isBareKey "toolchain" by decide)
      (by simp [toolchainSection, Written.Fits]) line hline
  · rcases List.mem_cons.mp hline with rfl | hline
    · exact trivial
    · exact fits_lines (show isBareKey "cloud" by decide) (by simp [cloudSection, Written.Fits]) line hline

theorem clean_commonLines (h : Supported state) : ∀ line ∈ commonLines state, line.Clean := by
  have hclean := fun value hvalue => isClean_of_plain (h.isPlainText value hvalue).1
  have hpairs : ∀ key value : String, IsClean key.toList → IsClean value.toList →
      IsClean key.toList ∧ (Written.text value).Clean :=
    fun key value hkey hvalue => ⟨hkey, Written.clean_text.mpr hvalue⟩
  intro line hline
  rcases List.mem_append.mp hline with hline | hline
  · refine clean_lines.mpr ?_ line hline
    simp only [toolchainSection, List.forall_mem_cons, List.not_mem_nil, IsEmpty.forall_iff,
      implies_true, and_true]
    exact ⟨hpairs _ _ (by decide) (hclean _ (by simp)), hpairs _ _ (by decide) (hclean _ (by simp)),
      hpairs _ _ (by decide) (hclean _ (by simp))⟩
  · rcases List.mem_cons.mp hline with rfl | hline
    · exact trivial
    · refine clean_lines.mpr ?_ line hline
      simp only [cloudSection, List.forall_mem_cons, List.not_mem_nil, IsEmpty.forall_iff,
        implies_true, and_true]
      exact ⟨hpairs _ _ (by decide) (hclean _ (by simp)),
        hpairs _ _ (by decide) (hclean _ (by simp)), hpairs _ _ (by decide) (hclean _ (by simp))⟩

/-- The sections without the revision, as they are read. -/
def commonRoot (state : ProjectToolchainState) : Table :=
  (cloudSection state).fill ((toolchainSection state).fill [])

theorem foldlM_commonLines : ∃ r, ((commonLines state).filterMap Line.statement).foldlM Reading.step
    Reading.start = some r ∧ r.close = commonRoot state ∧ r.elements = [] := by
  obtain ⟨r₁, hr₁, hclose₁, helements₁⟩ := @foldlM_section Reading.start (toolchainSection state)
    (show ["mode", "channel", "build"].Nodup by decide) (by intro h; cases h)
  have hfree : hasKey r₁.close (cloudSection state).name = true →
      (cloudSection state).repeated = true ∧ (cloudSection state).name ∈ r₁.elements := by
    intro h
    rw [hclose₁, Section.fill, hasKey_setKey] at h
    rcases h with h | h
    · exact absurd h (show ¬ "cloud" = "toolchain" by decide)
    · cases h
  obtain ⟨r₂, hr₂, hclose₂, helements₂⟩ := @foldlM_section r₁ (cloudSection state)
    (show ["risk", "lane", "security"].Nodup by decide) hfree
  refine ⟨r₂, ?_, ?_, ?_⟩
  · rw [commonLines, List.filterMap_append, List.foldlM_append, hr₁]
    exact hr₂
  · rw [hclose₂, hclose₁]
    rfl
  · rw [helements₂, helements₁]
    rfl

/-- A text that starts with the lines before the revision. -/
theorem splitOn_renderLines {lines : List Line} {tail : List Char} (hfits : ∀ line ∈ lines, line.Fits)
    (hclean : ∀ line ∈ lines, line.Clean) : (renderLines lines ++ tail).splitOn '\n' =
      lines.map Line.render ++ tail.splitOn '\n' := splitOn_documentText_append hfits hclean

/-- The lines up to the header of the revision. -/
def linesToSource (state : ProjectToolchainState) : List Line :=
  commonLines state ++ [.blank, .table "source"]

theorem fits_linesToSource : ∀ line ∈ linesToSource state, line.Fits := by
  intro line hline
  rcases List.mem_append.mp hline with hline | hline
  · exact fits_commonLines line hline
  · simp only [List.mem_cons, List.not_mem_nil, or_false] at hline
    rcases hline with rfl | rfl
    · exact trivial
    · exact show isBareKey "source" by decide

theorem clean_linesToSource (h : Supported state) : ∀ line ∈ linesToSource state, line.Clean := by
  intro line hline
  rcases List.mem_append.mp hline with hline | hline
  · exact clean_commonLines h line hline
  · simp only [List.mem_cons, List.not_mem_nil, or_false] at hline
    rcases hline with rfl | rfl
    · exact trivial
    · exact trivial

theorem foldlM_linesToSource : ((linesToSource state).filterMap Line.statement).foldlM Reading.step
    Reading.start = some ⟨commonRoot state, [], .table "source", []⟩ := by
  obtain ⟨r, hr, hclose, helements⟩ := @foldlM_commonLines state
  have hstep : r.step (.table "source") = some ⟨r.close, r.elements, .table "source", []⟩ := by
    rw [Reading.step, if_neg]
    rw [hclose, commonRoot, Section.fill, Section.fill, hasKey_setKey, hasKey_setKey, not_or, not_or]
    exact ⟨show ¬ "source" = "cloud" by decide, show ¬ "source" = "toolchain" by decide,
      Bool.false_ne_true⟩
  rw [linesToSource, List.filterMap_append, List.foldlM_append, hr]
  change (r.step (.table "source")).bind _ = _
  rw [hstep, hclose, helements]
  rfl

/-- What a parser makes of the pasted revision. -/
theorem revision_of_parse (hparse : ReadsStrings parse) (h : Supported state) {revision : String}
    (hrevision : state.sourceRevision = some revision) {doc : Table}
    (hdoc : parse (renderToolchainState state) = some doc) :
    ∃ value after, readString (revision.toList ++ ['"', '\n']) = some (value, after) ∧
      ((getKey doc "source").bind Toml.asTable).bind (getKey · "revision") =
        some (.string (String.ofList value)) := by
  have htext := toList_renderToolchainState h
  rw [hrevision] at htext
  dsimp only at htext
  have hlines : (renderToolchainState state).toList.splitOn '\n' =
      (linesToSource state).map Line.render ++
        (opensString "revision" (revision.toList ++ ['"', '\n'])).splitOn '\n' := by
    rw [htext, ← splitOn_renderLines fits_linesToSource (clean_linesToSource h), linesToSource,
      renderLines, renderLines, renderLines, List.flatMap_append, List.append_assoc]
  have hbefore : ((linesToSource state).map Line.render).mapM readLine =
      some ((linesToSource state).map Line.statement) := by
    rw [List.mapM_map]
    exact mapM_eq_pure fun line hline =>
      readLine_render (fits_linesToSource line hline) (clean_linesToSource h line hline)
  have hrun : (((linesToSource state).map Line.statement).filterMap id).foldlM Reading.step
      Reading.start = some ⟨commonRoot state, [], .table "source", []⟩ := by
    rw [List.filterMap_map]
    exact foldlM_linesToSource
  exact hparse.strings _ _ _ _ _ _ _ _ hlines hbefore hrun rfl (List.not_mem_nil) (by decide) hdoc

/-- The revision, if there is one, is not empty and stands for itself between quotes. -/
def ReadBack (revision : Option String) : Prop :=
  ∀ value, revision = some value → value ≠ "" ∧ IsPlainText value.toList

/-- The document that is read back. -/
def rootOf (state : ProjectToolchainState) : Table :=
  match state.sourceRevision with
  | none => commonRoot state
  | some revision => setKey (commonRoot state) "source" (.table [("revision", .string revision)])

theorem opensString_eq {revision : String} (h : IsPlainText revision.toList) :
    opensString "revision" (revision.toList ++ ['"', '\n']) =
      (Line.pair "revision" (.text revision)).render ++ ['\n'] := by
  rw [← toList_pair (show isBareKey "revision" by decide) rfl h, String.toList_append,
    String.toList_append, List.append_assoc]
  rfl

theorem readToml_renderToolchainState (h : Supported state) (hread : ReadBack state.sourceRevision) :
    readToml (renderToolchainState state) = some (rootOf state) := by
  have htext := toList_renderToolchainState h
  obtain ⟨r, hr, hclose, -⟩ := @foldlM_commonLines state
  cases hrevision : state.sourceRevision with
  | none =>
    rw [hrevision] at htext
    have hdocument : renderToolchainState state = documentText (commonLines state) := by
      rw [← String.toList_inj, htext, documentText, String.toList_ofList]
      exact List.append_nil _
    rw [hdocument, readToml_documentText fits_commonLines (clean_commonLines h), assemble, hr, rootOf,
      hrevision, ← hclose]
    rfl
  | some revision =>
    rw [hrevision] at htext
    have hplain := (hread revision hrevision).2
    have hdocument : renderToolchainState state =
        documentText (linesToSource state ++ [.pair "revision" (.text revision)]) := by
      rw [← String.toList_inj, htext, documentText, String.toList_ofList]
      dsimp only
      rw [opensString_eq hplain, linesToSource, renderLines, renderLines]
      simp only [List.flatMap_append, List.flatMap_cons, List.flatMap_nil, List.append_assoc,
        List.append_nil]
    have hfits : ∀ line ∈ linesToSource state ++ [.pair "revision" (.text revision)], line.Fits := by
      intro line hline
      rcases List.mem_append.mp hline with hline | hline
      · exact fits_linesToSource line hline
      · rw [List.mem_singleton.mp hline]
        exact trivial
    have hclean : ∀ line ∈ linesToSource state ++ [.pair "revision" (.text revision)],
        line.Clean := by
      intro line hline
      rcases List.mem_append.mp hline with hline | hline
      · exact clean_linesToSource h line hline
      · rw [List.mem_singleton.mp hline]
        exact ⟨show IsClean "revision".toList by decide,
          Written.clean_text.mpr (isClean_of_plain hplain)⟩
    rw [hdocument, readToml_documentText hfits hclean, assemble, List.filterMap_append,
      List.foldlM_append, foldlM_linesToSource, rootOf, hrevision]
    rfl

theorem commonRoot_eq : commonRoot state =
    setKey (setKey [] "toolchain" (.table (toolchainSection state).table)) "cloud"
      (.table (cloudSection state).table) := rfl

theorem getKey_commonRoot_toolchain :
    getKey (commonRoot state) "toolchain" = some (.table (toolchainSection state).table) := by
  rw [commonRoot_eq, getKey_setKey, if_neg (by decide), getKey_setKey, if_pos rfl]

theorem getKey_commonRoot_cloud :
    getKey (commonRoot state) "cloud" = some (.table (cloudSection state).table) := by
  rw [commonRoot_eq, getKey_setKey, if_pos rfl]

theorem getKey_commonRoot_source : getKey (commonRoot state) "source" = none := by
  rw [commonRoot_eq, getKey_setKey, if_neg (by decide), getKey_setKey, if_neg (by decide)]
  rfl

/-- The revision only adds its table. -/
theorem getKey_rootOf {name : String} (hname : name ≠ "source") :
    getKey (rootOf state) name = getKey (commonRoot state) name := by
  rw [rootOf]
  split
  · rfl
  · rw [getKey_setKey, if_neg hname]

/-- A key of a section that is a text. -/
theorem textOf_table {s : Section} {key value default : String} (hnodup : (s.pairs.map (·.1)).Nodup)
    (hlookup : s.pairs.lookup key = some (.text value)) (hne : value ≠ "") :
    textOf s.table key default = value := by
  rw [textOf, ← lookup_eq_getKey, lookup_table hnodup, hlookup]
  exact if_neg hne

/-- The revision that is read back. -/
theorem revision_rootOf (hread : ReadBack state.sourceRevision) :
    ((getKey (((getKey (rootOf state) "source").bind Toml.asTable).getD []) "revision").bind
      Toml.asString).filter (· ≠ "") = state.sourceRevision := by
  rw [rootOf]
  cases hrevision : state.sourceRevision with
  | none =>
    dsimp only
    rw [getKey_commonRoot_source]
    rfl
  | some revision =>
    dsimp only
    rw [getKey_setKey, if_pos rfl]
    change (some revision).filter (· ≠ "") = some revision
    rw [Option.filter_some, if_pos (decide_eq_true (hread revision hrevision).1)]

/-- The document that is read back describes the state. -/
theorem stateOf_rootOf {initial : ProjectToolchainState} (h : Supported state)
    (hread : ReadBack state.sourceRevision) :
    stateOf initial (toolchainSection state).table (rootOf state) =
      { state with
        manifestPath := initial.manifestPath
        statePath := initial.statePath
        stateFileExists := initial.stateFileExists } := by
  have hne := fun value hvalue => (h.isPlainText value hvalue).2
  have htoolchain : ((toolchainSection state).pairs.map (·.1)).Nodup :=
    show ["mode", "channel", "build"].Nodup by decide
  have hcloud : ((cloudSection state).pairs.map (·.1)).Nodup :=
    show ["risk", "lane", "security"].Nodup by decide
  have hmode := @textOf_table _ "mode" state.mode initial.mode htoolchain rfl (hne _ (by simp))
  have hchannel := @textOf_table _ "channel" state.channel initial.channel htoolchain rfl
    (hne _ (by simp))
  have hbuild := @textOf_table _ "build" state.buildMode initial.buildMode htoolchain rfl
    (hne _ (by simp))
  have hrisk := @textOf_table _ "risk" state.riskClass initial.riskClass hcloud rfl (hne _ (by simp))
  have hlane := @textOf_table _ "lane" state.preferredExecutionLane initial.preferredExecutionLane
    hcloud rfl (hne _ (by simp))
  have hsecurity := @textOf_table _ "security" state.securityProfile initial.securityProfile hcloud
    rfl (hne _ (by simp))
  unfold stateOf
  dsimp only
  rw [revision_rootOf hread, getKey_rootOf (by decide), getKey_commonRoot_cloud]
  dsimp only [Option.bind_some, Toml.asTable, Option.getD_some]
  rw [hmode, hchannel, hbuild, hrisk, hlane, hsecurity]

end Reading

section Updates

variable {parse : String → Option Table} {update : ToolchainStateUpdate} {writing : Writing}
  {files' : Files} {previous : ProjectToolchainState}

theorem canonicalAbsolutePath_idem :
    canonicalAbsolutePath (canonicalAbsolutePath manifestPath) = canonicalAbsolutePath manifestPath :=
  normal_normal

theorem projectToolchainStatePathForManifest_canonical :
    projectToolchainStatePathForManifest (canonicalAbsolutePath manifestPath) =
      projectToolchainStatePathForManifest manifestPath := by
  rw [projectToolchainStatePathForManifest, projectToolchainStatePathForManifest,
    canonicalAbsolutePath_idem]

theorem loadProjectToolchainState_canonical :
    loadProjectToolchainState parse files (canonicalAbsolutePath manifestPath) =
      loadProjectToolchainState parse files manifestPath := by
  rw [loadProjectToolchainState, loadProjectToolchainState, canonicalAbsolutePath_idem]

/-- What is loaded from a file beside the manifest. -/
theorem loadProjectToolchainState_of_get {text : String}
    (h : files.get (projectToolchainStatePathForManifest manifestPath) = some text) :
    loadProjectToolchainState parse files manifestPath = .ok state ↔
      ∃ doc toolchain, parse text = some doc ∧
        (getKey doc "toolchain").bind Toml.asTable = some toolchain ∧ Supported state ∧
        state = stateOf
          { manifestPath := canonicalAbsolutePath manifestPath
            statePath := projectToolchainStatePathForManifest manifestPath
            stateFileExists := true } toolchain doc := by
  have hfound : findProjectToolchainStatePath files (canonicalAbsolutePath manifestPath) =
      some (projectToolchainStatePathForManifest manifestPath) := by
    rw [← projectToolchainStatePathForManifest_canonical] at h ⊢
    exact findProjectToolchainStatePath_eq h
  have hparsed : parseFile parse files (projectToolchainStatePathForManifest manifestPath) =
      parse text := by
    rw [parseFile, h, Option.bind_some]
  rw [loadProjectToolchainState]
  dsimp only
  rw [hfound]
  dsimp only
  rw [hparsed]
  cases hdoc : parse text with
  | none => exact ⟨nofun, fun ⟨_, _, hsome, _⟩ => nomatch hsome⟩
  | some doc =>
    dsimp only
    cases htoolchain : (getKey doc "toolchain").bind Toml.asTable with
    | none =>
      refine ⟨nofun, fun ⟨_, _, hsome, hnone, _⟩ => ?_⟩
      obtain rfl := Option.some.inj hsome
      rw [htoolchain] at hnone
      cases hnone
    | some toolchain =>
      constructor
      · intro hload
        obtain ⟨_, hchecked, hstate⟩ := bind_ok_iff.mp hload
        obtain rfl := Except.ok.inj hstate
        exact ⟨doc, toolchain, rfl, htoolchain, requireAllowedValues_eq_ok.mp hchecked, rfl⟩
      · rintro ⟨doc', toolchain', hdoc', htoolchain', hsupported, hstate⟩
        obtain rfl := Option.some.inj hdoc'
        rw [htoolchain] at htoolchain'
        obtain rfl := Option.some.inj htoolchain'
        refine bind_ok_iff.mpr ⟨(), requireAllowedValues_eq_ok.mpr ?_, ?_⟩
        · rw [← hstate]
          exact hsupported
        · rw [← hstate]
          rfl

/-- The state that an update returns is in the file that it wrote. -/
theorem updateProjectToolchainState_ok
    (h : updateProjectToolchainState parse writing files update = (files', .ok state)) :
    ∃ previous, loadProjectToolchainState parse files update.manifestPath = .ok previous ∧
      Supported (updated previous update) ∧
      state = { updated previous update with stateFileExists := true } ∧
      files' = files.put (projectToolchainStatePathForManifest update.manifestPath)
        (renderToolchainState (updated previous update)) := by
  rw [updateProjectToolchainState] at h
  dsimp only at h
  split at h
  · cases h
  · next checked hchecked =>
    obtain ⟨_, -, hchecked⟩ := bind_ok_iff.mp hchecked
    obtain ⟨previous, hload, hchecked⟩ := bind_ok_iff.mp hchecked
    obtain ⟨_, hsupported, hstate⟩ := bind_ok_iff.mp hchecked
    obtain rfl := Except.ok.inj hstate
    rw [loadProjectToolchainState_canonical] at hload
    refine ⟨previous, hload, requireAllowedValues_eq_ok.mp hsupported, ?_⟩
    cases writing with
    | closed => cases h
    | broken written => cases h
    | done =>
      obtain ⟨hfiles, hstate⟩ := Prod.mk.inj h
      refine ⟨(Except.ok.inj hstate).symm, ?_⟩
      rw [← hfiles, ← projectToolchainStatePathForManifest_canonical]
      rfl

/-- A state of the vocabulary is written for a manifest that loads. -/
theorem updateProjectToolchainState_done {manifest : ManifestDocument}
    (hmanifest : loadManifestFile parse files (canonicalAbsolutePath update.manifestPath) =
      .ok manifest)
    (hload : loadProjectToolchainState parse files update.manifestPath = .ok previous)
    (hsupported : Supported (updated previous update)) :
    updateProjectToolchainState parse .done files update =
      (files.put (projectToolchainStatePathForManifest update.manifestPath)
        (renderToolchainState (updated previous update)),
        .ok { updated previous update with stateFileExists := true }) := by
  rw [updateProjectToolchainState]
  dsimp only
  rw [hmanifest, loadProjectToolchainState_canonical, hload]
  have hchecked : (do
      let _ ← (Except.ok manifest : Except StateFailure ManifestDocument)
      let state ← (Except.ok previous : Except StateFailure ProjectToolchainState)
      requireAllowedValues (updated state update)
      return updated state update) = .ok (updated previous update) :=
    bind_ok_iff.mpr ⟨manifest, rfl, bind_ok_iff.mpr ⟨previous, rfl,
      bind_ok_iff.mpr ⟨(), requireAllowedValues_eq_ok.mpr hsupported, rfl⟩⟩⟩
  rw [hchecked, ← projectToolchainStatePathForManifest_canonical]
  rfl

/-- The next load returns the state that the update returned, and what the update does not mention
is as it was loaded before. -/
structure RoundTrips (parse : String → Option Table) (update : ToolchainStateUpdate)
    (files' : Files) (previous state : ProjectToolchainState) : Prop where
  loads : loadProjectToolchainState parse files' update.manifestPath = .ok state
  mode : update.mode = none → state.mode = previous.mode
  channel : update.channel = none → state.channel = previous.channel
  buildMode : update.buildMode = none → state.buildMode = previous.buildMode
  riskClass : update.riskClass = none → state.riskClass = previous.riskClass
  preferredExecutionLane : update.preferredExecutionLane = none →
    state.preferredExecutionLane = previous.preferredExecutionLane
  securityProfile : update.securityProfile = none → state.securityProfile = previous.securityProfile
  sourceRevision : update.sourceRevision = none → state.sourceRevision = previous.sourceRevision

/-- The rendered state is loaded as it was exactly when its revision is read back. -/
theorem loads_iff (hparse : ReadsStrings parse) (hsupported : Supported state)
    (hmanifest : state.manifestPath = canonicalAbsolutePath manifestPath)
    (hpath : state.statePath = projectToolchainStatePathForManifest manifestPath)
    (hexists : state.stateFileExists = true)
    (h : files.get (projectToolchainStatePathForManifest manifestPath) =
      some (renderToolchainState state)) :
    loadProjectToolchainState parse files manifestPath = .ok state ↔
      ReadBack state.sourceRevision := by
  rw [loadProjectToolchainState_of_get h]
  constructor
  · rintro ⟨doc, toolchain, hdoc, htoolchain, -, hstate⟩ revision hrevision
    obtain ⟨value, after, hread, hkey⟩ := revision_of_parse hparse hsupported hrevision hdoc
    have hloaded : ((getKey (((getKey doc "source").bind Toml.asTable).getD []) "revision").bind
        Toml.asString).filter (· ≠ "") = some revision := by
      rw [← hrevision]
      exact (congrArg ProjectToolchainState.sourceRevision hstate).symm
    obtain ⟨source, hsource, hvalue⟩ := Option.bind_eq_some_iff.mp hkey
    rw [hsource, Option.getD_some, hvalue] at hloaded
    obtain ⟨heq, hne⟩ := Option.filter_eq_some_iff.mp hloaded
    obtain rfl := Option.some.inj heq
    rw [String.toList_ofList] at hread ⊢
    exact ⟨of_decide_eq_true hne, isPlainText_of_readString hread⟩
  · intro hread
    have hdoc := hparse.reads _ _ (readToml_renderToolchainState hsupported hread)
    refine ⟨_, (toolchainSection state).table, hdoc, ?_, hsupported, ?_⟩
    · rw [getKey_rootOf (by decide), getKey_commonRoot_toolchain]
      rfl
    · rw [stateOf_rootOf hsupported hread, ← hmanifest, ← hpath, ← hexists]

/-- A returned state is loaded again exactly when its revision, given or kept, is read back. -/
theorem updateRoundTrips_iff (hparse : ReadsStrings parse)
    (hload : loadProjectToolchainState parse files update.manifestPath = .ok previous)
    (hupdate : updateProjectToolchainState parse writing files update = (files', .ok state)) :
    RoundTrips parse update files' previous state ↔
      ReadBack (update.sourceRevision.or previous.sourceRevision) := by
  obtain ⟨previous', hload', hsupported, rfl, rfl⟩ := updateProjectToolchainState_ok hupdate
  rw [hload] at hload'
  obtain rfl := Except.ok.inj hload'
  have hfile : (files.put (projectToolchainStatePathForManifest update.manifestPath)
      (renderToolchainState (updated previous update))).get
        (projectToolchainStatePathForManifest update.manifestPath) =
      some (renderToolchainState { updated previous update with stateFileExists := true }) :=
    if_pos rfl
  have hloads := @loads_iff { updated previous update with stateFileExists := true } _
    update.manifestPath parse hparse
    ⟨hsupported.mode, hsupported.channel, hsupported.buildMode, hsupported.riskClass,
      hsupported.preferredExecutionLane, hsupported.securityProfile⟩
    rfl projectToolchainStatePathForManifest_canonical rfl hfile
  have hkept : ∀ (mentioned : Option String) (value : String), mentioned = none →
      mentioned.getD value = value := by
    rintro _ value rfl
    rfl
  refine ⟨fun h => hloads.mp h.loads, fun hread => ?_⟩
  exact
    { loads := hloads.mpr hread
      mode := hkept _ _
      channel := hkept _ _
      buildMode := hkept _ _
      riskClass := hkept _ _
      preferredExecutionLane := hkept _ _
      securityProfile := hkept _ _
      sourceRevision := fun h => by
        change update.sourceRevision.or previous.sourceRevision = previous.sourceRevision
        rw [h]
        rfl }

end Updates

section Samples

def sampleManifest : String :=
  "[spio]\nmanifest-version = 1\n\n[workspace]\nmembers = [\"a\"]\nresolver = \"1\"\n"

/-- A workspace without a state file. -/
def sampleFiles : Files := FileTree.empty.put ["w", "spio.toml"] sampleManifest

def sampleUpdate (revision : String) : ToolchainStateUpdate :=
  { manifestPath := ["w", "spio.toml"], channel := some "nightly", sourceRevision := some revision }

def initialState : ProjectToolchainState :=
  { manifestPath := ["w", "spio.toml"], statePath := ["w", "spio-toolchain.lock"] }

theorem load_sampleFiles :
    loadProjectToolchainState readToml sampleFiles ["w", "spio.toml"] = .ok initialState := by
  decide +kernel

theorem loadManifest_sampleFiles :
    (loadManifestFile readToml sampleFiles ["w", "spio.toml"]).isOk = true := by
  decide +kernel

theorem supported_sample {b : Bool} (revision : String) :
    Supported { updated initialState (sampleUpdate revision) with stateFileExists := b } where
  mode := show "binary" ∈ supportedToolchainModes by decide
  channel := show "nightly" ∈ supportedChannels by decide
  buildMode := show "minimal" ∈ supportedBuildModes by decide
  riskClass := show "untrusted-user" ∈ supportedCloudRiskClasses by decide
  preferredExecutionLane := show "isolated" ∈ supportedCloudExecutionLanes by decide
  securityProfile := show "sandbox-default" ∈ supportedCloudSecurityProfiles by decide

theorem update_sampleFiles (revision : String) :
    updateProjectToolchainState readToml .done sampleFiles (sampleUpdate revision) =
      (sampleFiles.put ["w", "spio-toolchain.lock"]
        (renderToolchainState (updated initialState (sampleUpdate revision))),
        .ok { updated initialState (sampleUpdate revision) with stateFileExists := true }) := by
  cases hmanifest : loadManifestFile readToml sampleFiles ["w", "spio.toml"] with
  | error failure =>
    have hok := loadManifest_sampleFiles
    rw [hmanifest] at hok
    cases hok
  | ok manifest =>
    exact updateProjectToolchainState_done hmanifest load_sampleFiles (supported_sample revision)

theorem updateRoundTrips_sample :
    loadProjectToolchainState readToml sampleFiles ["w", "spio.toml"] = .ok initialState ∧
      (RoundTrips readToml (sampleUpdate "f00dcafe")
        (sampleFiles.put ["w", "spio-toolchain.lock"]
          (renderToolchainState (updated initialState (sampleUpdate "f00dcafe"))))
        initialState { updated initialState (sampleUpdate "f00dcafe") with stateFileExists := true } ↔
          ReadBack ((sampleUpdate "f00dcafe").sourceRevision.or initialState.sourceRevision)) :=
  ⟨load_sampleFiles,
    updateRoundTrips_iff readsStrings_readToml load_sampleFiles (update_sampleFiles "f00dcafe")⟩

/-- The revision is in the state that an update returns, and the next load does not return it. -/
def NotLoaded (revision : String) : Prop := ∃ files' state,
  updateProjectToolchainState readToml .done sampleFiles (sampleUpdate revision) =
    (files', .ok state) ∧
  state.sourceRevision = some revision ∧
  loadProjectToolchainState readToml files' (sampleUpdate revision).manifestPath ≠ .ok state

theorem notLoaded_of_not_plain {revision : String}
    (h : ¬ (revision ≠ "" ∧ IsPlainText revision.toList)) : NotLoaded revision := by
  refine ⟨_, _, update_sampleFiles revision, rfl, fun hload => ?_⟩
  have hpath : projectToolchainStatePathForManifest (sampleUpdate revision).manifestPath =
      ["w", "spio-toolchain.lock"] :=
    show projectToolchainStatePathForManifest ["w", "spio.toml"] = _ by decide
  have hfile : (sampleFiles.put ["w", "spio-toolchain.lock"]
      (renderToolchainState (updated initialState (sampleUpdate revision)))).get
        (projectToolchainStatePathForManifest (sampleUpdate revision).manifestPath) =
      some (renderToolchainState
        { updated initialState (sampleUpdate revision) with stateFileExists := true }) := by
    rw [hpath, FileTree.get_put_self]
    rfl
  exact h ((loads_iff readsStrings_readToml (supported_sample revision) rfl rfl rfl
    hfile).mp hload revision rfl)

/-- An empty revision and one with a quote are returned, and not loaded again. -/
theorem revision_not_loaded : NotLoaded "" ∧ NotLoaded "a\"b" :=
  ⟨notLoaded_of_not_plain (by decide), notLoaded_of_not_plain (by decide)⟩

end Samples

end StyioPlatform.Toolchain
