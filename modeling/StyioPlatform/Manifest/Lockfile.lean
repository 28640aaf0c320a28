import StyioPlatform.Manifest.TomlSections
import StyioPlatform.Resolve.Correctness

/-! Lockfiles (`Lockfile.cpp`): the loader, the canonical writer, and when they are inverse to each
other. -/
namespace StyioPlatform.Manifest

open Resolve

/-- `Sha256Regex`. -/
def isSha256 (value : String) : Bool :=
  value.toList.length = 64 ∧ value.toList.all fun c => c.isDigit || ('a' ≤ c ∧ c ≤ 'f')

def parseStringArray (table : Table) (key context : String) : Except Failure (List String) :=
  requireStringArray table key context false

def validateSourceKind (sourceKind : String) : Except Failure Unit :=
  check (sourceKind ∈ ["workspace", "path", "git", "registry"])
    "lockfile package source-kind must be one of workspace, path, git, or registry"

def validateSha256 (sha256 context : String) : Except Failure Unit :=
  check (isSha256 sha256) (context ++ " must be a lowercase sha256 hex digest")

/-- The checks that `LoadLockfile` makes of a package that it has read. -/
def validateLockPackage (p : LockPackage) : Except Failure Unit := do
  check (p.id ≠ "") "[[package]].id must be a non-empty string"
  validatePackageName p.name "lockfile package name"
  validateSemver p.version "lockfile package version"
  validateSourceKind p.sourceKind
  if p.sourceKind = "git" then
    check (p.git.any (· ≠ ""))
      "[[package]].git must be a non-empty string when source-kind = \"git\""
    check (p.rev.any (· ≠ ""))
      "[[package]].rev must be a non-empty string when source-kind = \"git\""
    check (!(p.registry.isSome || p.sha256.isSome))
      ("[[package]].registry and [[package]].sha256 are only valid when source-kind = " ++
        "\"registry\"")
  else if p.sourceKind = "registry" then
    check (p.registry.any (· ≠ ""))
      "[[package]].registry must be a non-empty string when source-kind = \"registry\""
    match p.sha256 with
    | none => invalid "[[package]].sha256 must be present when source-kind = \"registry\""
    | some sha256 => validateSha256 sha256 "[[package]].sha256"
    check (!(p.git.isSome || p.rev.isSome))
      "[[package]].git and [[package]].rev are only valid when source-kind = \"git\""
  else
    check (!(p.git.isSome || p.rev.isSome || p.registry.isSome || p.sha256.isSome))
      ("[[package]].git/rev are only valid for git packages and [[package]].registry/sha256 are " ++
        "only valid for registry packages")

/-- One round of the loop of `LoadLockfile`. -/
def parseLockPackage (node : Toml) : Except Failure LockPackage :=
  match node.asTable with
  | none => invalid "lockfile package entry must be a table"
  | some package => do
    let id ← requireString package "id" "[[package]]"
    let name ← requireString package "name" "[[package]]"
    let version ← requireString package "version" "[[package]]"
    let sourceKind ← requireString package "source-kind" "[[package]]"
    let dependencies ← parseStringArray package "dependencies" "[[package]]"
    let parsed := ⟨id, name, version, sourceKind, optionalString package "git",
      optionalString package "rev", optionalString package "registry",
      optionalString package "sha256", dependencies⟩
    validateLockPackage parsed
    return parsed

/-- `LoadLockfile`, on the parsed document. -/
def parseLockfile (doc : Table) : Except Failure LockfileDocument := do
  check ((doc.lookup "lock-version").bind Toml.asInteger = some 1) "lock-version must be 1"
  match (doc.lookup "metadata").bind Toml.asTable with
  | none => invalid "missing or invalid [metadata] table"
  | some metadata =>
    let generatedBy ← requireString metadata "generated-by" "[metadata]"
    let resolver ← requireString metadata "resolver" "[metadata]"
    check (generatedBy ≠ "") "[metadata].generated-by must be a non-empty string"
    check (resolver = "single-version-v1") "[metadata].resolver must be single-version-v1"
    match (doc.lookup "package").bind Toml.asArray with
    | none => return ⟨generatedBy, resolver, []⟩
    | some packages => return ⟨generatedBy, resolver, ← packages.mapM parseLockPackage⟩

/-- `LoadLockfile`, on the text of a file. -/
def loadLockfile (parse : String → Option Table) (lockfilePath text : String) :
    Except Failure LockfileDocument :=
  match parse text with
  | none => invalid ("failed to parse lockfile '" ++ lockfilePath ++ "'")
  | some doc => parseLockfile doc

/-- What `SerializeLockfileCanonical` puts out for a package, piece by piece. -/
def emitLockPackage (p : LockPackage) : List String :=
  ["\n[[package]]\n",
    "id = ", quoteTomlString p.id, "\n",
    "name = ", quoteTomlString p.name, "\n",
    "version = ", quoteTomlString p.version, "\n",
    "source-kind = ", quoteTomlString p.sourceKind, "\n"] ++
  (if p.sourceKind = "git" then
    ["git = ", quoteTomlString (p.git.getD ""), "\n",
      "rev = ", quoteTomlString (p.rev.getD ""), "\n"]
  else if p.sourceKind = "registry" then
    ["registry = ", quoteTomlString (p.registry.getD ""), "\n",
      "sha256 = ", quoteTomlString (p.sha256.getD ""), "\n"]
  else []) ++
  ["dependencies = [",
    ", ".intercalate ((p.dependencies.insertionSort (· ≤ ·)).map quoteTomlString), "]\n"]

/-- `SerializeLockfileCanonical`. What `std::sort` does with packages of one id is not said, so the
sort is a parameter. -/
def serializeLockfileCanonical (sort : List LockPackage → List LockPackage)
    (lockfile : LockfileDocument) : String :=
  String.join (["lock-version = 1\n",
    "\n[metadata]\n",
    "generated-by = ", quoteTomlString lockfile.generatedBy, "\n",
    "resolver = ", quoteTomlString lockfile.resolver, "\n"] ++
    (sort lockfile.packages).flatMap emitLockPackage)

section Writing

variable {p : LockPackage} {l : LockfileDocument}

/-- The pairs of a package, in the order in which they are written. -/
def lockPairs (p : LockPackage) : List (String × Written) :=
  [("id", .text p.id), ("name", .text p.name), ("version", .text p.version),
    ("source-kind", .text p.sourceKind)] ++
  (if p.sourceKind = "git" then
    [("git", .text (p.git.getD "")), ("rev", .text (p.rev.getD ""))]
  else if p.sourceKind = "registry" then
    [("registry", .text (p.registry.getD "")), ("sha256", .text (p.sha256.getD ""))]
  else []) ++
  [("dependencies", .texts (p.dependencies.insertionSort (· ≤ ·)))]

def lockSections (l : LockfileDocument) : List Section :=
  ⟨"metadata", false, [("generated-by", .text l.generatedBy), ("resolver", .text l.resolver)]⟩ ::
    l.packages.map fun p => ⟨"package", true, lockPairs p⟩

def lockLines (l : LockfileDocument) : List Line :=
  .pair "lock-version" .one :: (lockSections l).flatMap fun s => .blank :: s.lines

theorem toList_emitLockPackage : (emitLockPackage p).flatMap String.toList =
    (Line.blank :: (Section.mk "package" true (lockPairs p)).lines).flatMap
      fun line => line.render ++ ['\n'] := by
  rw [emitLockPackage]
  simp only [Section.lines, lockPairs, Section.header, List.flatMap_cons,
    List.map_append, List.flatMap_append, List.map_cons, List.map_nil, List.flatMap_nil]
  rw [render_text (by decide), render_text (by decide), render_text (by decide),
    render_text (by decide), render_texts (by decide)]
  split
  · simp only [List.map_cons, List.map_nil, List.flatMap_cons, List.flatMap_nil]
    rw [render_text (by decide), render_text (by decide)]
    simp [Line.render]
  · split
    · simp only [List.map_cons, List.map_nil, List.flatMap_cons, List.flatMap_nil]
      rw [render_text (by decide), render_text (by decide)]
      simp [Line.render]
    · simp [Line.render]

theorem serializeLockfileCanonical_eq {sort : List LockPackage → List LockPackage} :
    serializeLockfileCanonical sort l =
      documentText (lockLines { l with packages := sort l.packages }) := by
  have hpackages : ((sort l.packages).flatMap emitLockPackage).flatMap String.toList =
      (((sort l.packages).map fun p => Section.mk "package" true (lockPairs p)).flatMap
        fun s => Line.blank :: s.lines).flatMap fun line => line.render ++ ['\n'] := by
    rw [List.flatMap_assoc, List.flatMap_map, List.flatMap_assoc]
    exact List.flatMap_congr fun p _ => toList_emitLockPackage
  apply String.toList_injective
  rw [serializeLockfileCanonical, String.toList_join, documentText, String.toList_ofList,
    List.flatMap_append, hpackages]
  simp only [lockLines, lockSections, Section.lines, Section.header, List.flatMap_cons,
    List.flatMap_append, List.map_cons, List.map_nil, List.flatMap_nil]
  rw [render_text (by decide), render_text (by decide)]
  simp [Line.render, toList_quoteTomlKey, Written.render, isBareKey, isBare]

/-- What a package is after it has been written and loaded again. -/
def canonicalPackage (p : LockPackage) : LockPackage :=
  { p with dependencies := p.dependencies.insertionSort (· ≤ ·) }

def lockStrings (p : LockPackage) : List String :=
  [p.id, p.name, p.version, p.sourceKind] ++ p.git.toList ++ p.rev.toList ++ p.registry.toList ++
    p.sha256.toList ++ p.dependencies

/-- No string of the lockfile has a control character. -/
def CleanLockfile (l : LockfileDocument) : Prop :=
  ∀ s ∈ l.generatedBy :: l.resolver :: l.packages.flatMap lockStrings, IsClean s.toList

instance : Decidable (CleanLockfile l) :=
  inferInstanceAs (Decidable (∀ s ∈ l.generatedBy :: l.resolver :: l.packages.flatMap lockStrings,
    IsClean s.toList))

/-- The checks of a package that pass. -/
theorem validateLockPackage_eq_ok {u : Unit} : validateLockPackage p = .ok u ↔
    p.id ≠ "" ∧ isPackageName p.name = true ∧ isSemver p.version = true ∧
      ((p.sourceKind = "workspace" ∨ p.sourceKind = "path") ∧ p.git = none ∧ p.rev = none ∧
          p.registry = none ∧ p.sha256 = none ∨
        p.sourceKind = "git" ∧ (∃ git ≠ "", p.git = some git) ∧ (∃ rev ≠ "", p.rev = some rev) ∧
          p.registry = none ∧ p.sha256 = none ∨
        p.sourceKind = "registry" ∧ (∃ registry ≠ "", p.registry = some registry) ∧
          (∃ sha256, p.sha256 = some sha256 ∧ isSha256 sha256 = true) ∧ p.git = none ∧
          p.rev = none) := by
  obtain ⟨id, name, version, kind, git, rev, registry, sha256, dependencies⟩ := p
  simp only [validateLockPackage, bind_ok_iff, check_eq_ok, validatePackageName, validateSemver,
    validateSourceKind, exists_const, decide_eq_true_eq]
  refine and_congr_right fun _ => and_congr_right fun _ => and_congr_right fun _ => ?_
  by_cases hgit : kind = "git"
  · subst hgit
    cases git <;> cases rev <;> cases registry <;> cases sha256 <;>
      simp [bind_ok_iff, check_eq_ok]
  · by_cases hregistry : kind = "registry"
    · subst hregistry
      cases git <;> cases rev <;> cases registry <;> cases sha256 <;>
        simp [bind_ok_iff, check_eq_ok, validateSha256, invalid]
    · simp [hgit, hregistry, check_eq_ok, and_assoc]

theorem fits_lockLines : ∀ line ∈ lockLines l, line.Fits := by
  have hpairs : ∀ p, ∀ x ∈ lockPairs p, x.2.Fits := by
    intro p
    by_cases hgit : p.sourceKind = "git"
    · simp [lockPairs, hgit, Written.Fits]
    · by_cases hregistry : p.sourceKind = "registry" <;>
        simp [lockPairs, hgit, hregistry, Written.Fits]
  have hnames : isBareKey "metadata" = true ∧ isBareKey "package" = true := by decide
  intro line hline
  rcases List.mem_cons.mp hline with rfl | hline
  · exact trivial
  · obtain ⟨s, hs, hline⟩ := List.mem_flatMap.mp hline
    rcases List.mem_cons.mp hline with rfl | hline
    · exact trivial
    · rcases List.mem_cons.mp hs with rfl | hs
      · exact fits_lines hnames.1 (by simp [Written.Fits]) line hline
      · obtain ⟨p, hp, rfl⟩ := List.mem_map.mp hs
        exact fits_lines hnames.2 (hpairs p) line hline

theorem clean_lockPairs (hvalid : validateLockPackage p = .ok ()) :
    (∀ x ∈ lockPairs p, IsClean x.1.toList ∧ x.2.Clean) ↔
      ∀ s ∈ lockStrings p, IsClean s.toList := by
  have hkeys : ∀ key ∈ ["id", "name", "version", "source-kind", "git", "rev", "registry", "sha256",
      "dependencies"], IsClean key.toList := by decide
  obtain ⟨-, -, -, hkind⟩ := validateLockPackage_eq_ok.mp hvalid
  rcases hkind with ⟨hkind, hgit, hrev, hregistry, hsha⟩ |
    ⟨hkind, ⟨git, -, hgit⟩, ⟨rev, -, hrev⟩, hregistry, hsha⟩ |
    ⟨hkind, ⟨registry, -, hregistry⟩, ⟨sha, hsha, -⟩, hgit, hrev⟩
  · have hnot : ¬ p.sourceKind = "git" ∧ ¬ p.sourceKind = "registry" := by
      rcases hkind with h | h <;> rw [h] <;> decide
    simp_all [lockPairs, lockStrings, Written.Clean, Written.strings]
  · simp_all [lockPairs, lockStrings, Written.Clean, Written.strings]
  · simp_all [lockPairs, lockStrings, Written.Clean, Written.strings]

theorem clean_lockLines (hvalid : ∀ p ∈ l.packages, validateLockPackage p = .ok ()) :
    (∀ line ∈ lockLines l, line.Clean) ↔ CleanLockfile l := by
  have hmetadata : IsClean "generated-by".toList ∧ IsClean "resolver".toList := by decide
  have hversion : (Line.pair "lock-version" .one).Clean := ⟨by decide, nofun⟩
  have hsections : (∀ line ∈ (lockSections l).flatMap fun s => .blank :: s.lines, line.Clean) ↔
      ∀ s ∈ lockSections l, ∀ line ∈ s.lines, line.Clean := by
    simp only [List.mem_flatMap, List.mem_cons]
    constructor
    · exact fun h s hs line hline => h line ⟨s, hs, .inr hline⟩
    · rintro h line ⟨s, hs, rfl | hline⟩
      · exact trivial
      · exact h s hs line hline
  have hpackages : (∀ p ∈ l.packages, ∀ x ∈ lockPairs p, IsClean x.1.toList ∧ x.2.Clean) ↔
      ∀ s ∈ l.packages.flatMap lockStrings, IsClean s.toList := by
    rw [forall₂_congr fun p hp => clean_lockPairs (hvalid p hp)]
    simp only [List.mem_flatMap]
    constructor
    · rintro h s ⟨p, hp, hs⟩
      exact h p hp s hs
    · exact fun h p hp s hs => h s ⟨p, hp, hs⟩
  rw [lockLines, List.forall_mem_cons, and_iff_right hversion, hsections, lockSections,
    List.forall_mem_cons, clean_lines, List.forall_mem_map]
  simp only [clean_lines, hpackages, CleanLockfile, List.forall_mem_cons, Written.clean_text,
    hmetadata, List.not_mem_nil, false_imp_iff, implies_true, true_and, and_true, and_assoc]

theorem nodup_lockPairs : ((lockPairs p).map (·.1)).Nodup := by
  by_cases hgit : p.sourceKind = "git"
  · simp [lockPairs, hgit]
  · by_cases hregistry : p.sourceKind = "registry" <;> simp [lockPairs, hgit, hregistry]

theorem arranged_lockSections : Arranged (lockSections l) where
  distinct := by
    rw [lockSections, List.pairwise_cons]
    refine ⟨?_, List.pairwise_map.mpr (List.pairwise_of_forall fun _ _ _ => ⟨rfl, rfl⟩)⟩
    intro s hs hname
    obtain ⟨p, -, rfl⟩ := List.mem_map.mp hs
    exact absurd (show "metadata" = "package" from hname) (by decide)
  nodup := by
    intro s hs
    rcases List.mem_cons.mp hs with rfl | hs
    · simp
    · obtain ⟨p, -, rfl⟩ := List.mem_map.mp hs
      exact nodup_lockPairs

/-- The document that the parser makes of a lockfile. -/
def lockTable (l : LockfileDocument) : Table :=
  (lockSections l).foldl Section.fill (setKey [] "lock-version" (.integer 1))

theorem readToml_lockLines (hclean : ∀ line ∈ lockLines l, line.Clean) :
    readToml (documentText (lockLines l)) = some (lockTable l) := by
  have hfree : ∀ s ∈ lockSections l, ∀ x ∈ [("lock-version", Written.one)], x.1 ≠ s.name := by
    intro s hs x hx
    rw [List.mem_singleton.mp hx]
    rcases List.mem_cons.mp hs with rfl | hs
    · simp
    · obtain ⟨p, -, rfl⟩ := List.mem_map.mp hs
      simp
  have hassemble := assemble_sections [("lock-version", .one)] (by simp)
    arranged_lockSections hfree
  rw [readToml_documentText fits_lockLines hclean, lockLines, List.filterMap_cons, filterMap_blank]
  exact hassemble

/-- A package that passes the checks is loaded as it is written. -/
theorem parseLockPackage_lockPairs {s : Section} (hs : s.pairs = lockPairs p)
    (hvalid : validateLockPackage p = .ok ()) :
    parseLockPackage (.table s.table) = .ok (canonicalPackage p) := by
  have hlookup : ∀ key, s.table.lookup key = ((lockPairs p).lookup key).map Written.toml := by
    intro key
    rw [← hs]
    exact lookup_table (hs ▸ nodup_lockPairs)
  have hoptional : optionalString s.table "git" = p.git ∧ optionalString s.table "rev" = p.rev ∧
      optionalString s.table "registry" = p.registry ∧
      optionalString s.table "sha256" = p.sha256 := by
    obtain ⟨-, -, -, hkind⟩ := validateLockPackage_eq_ok.mp hvalid
    rcases hkind with ⟨hkind, hgit, hrev, hregistry, hsha⟩ |
      ⟨hkind, ⟨git, -, hgit⟩, ⟨rev, -, hrev⟩, hregistry, hsha⟩ |
      ⟨hkind, ⟨registry, -, hregistry⟩, ⟨sha, hsha, -⟩, hgit, hrev⟩
    · have hnot : ¬ p.sourceKind = "git" ∧ ¬ p.sourceKind = "registry" := by
        rcases hkind with h | h <;> rw [h] <;> decide
      refine ⟨?_, ?_, ?_, ?_⟩ <;> apply optionalString_eq <;>
        simp [hlookup, lockPairs, hnot, hgit, hrev, hregistry, hsha, List.lookup_cons, List.lookup_nil]
    · refine ⟨?_, ?_, ?_, ?_⟩ <;> apply optionalString_eq <;>
        simp [hlookup, lockPairs, hkind, hgit, hrev, hregistry, hsha, List.lookup_cons, List.lookup_nil, Written.toml]
    · refine ⟨?_, ?_, ?_, ?_⟩ <;> apply optionalString_eq <;>
        simp [hlookup, lockPairs, hkind, hgit, hrev, hregistry, hsha, List.lookup_cons, List.lookup_nil, Written.toml]
  have hdependencies : s.table.lookup "dependencies" =
      some (.array ((p.dependencies.insertionSort (· ≤ ·)).map .string)) := by
    rw [hlookup, lockPairs]
    by_cases hgit : p.sourceKind = "git"
    · simp [hgit, List.lookup_cons, List.lookup_nil, Written.toml]
    · by_cases hregistry : p.sourceKind = "registry" <;>
        simp [hgit, hregistry, List.lookup_cons, List.lookup_nil, Written.toml]
  have hvalid' : validateLockPackage (canonicalPackage p) = .ok () := hvalid
  simp only [parseLockPackage, Toml.asTable]
  have hstring : ∀ key value, (lockPairs p).lookup key = some (.text value) →
      requireString s.table key "[[package]]" = .ok value := by
    intro key value h
    apply requireString_eq
    rw [hlookup, h]
    rfl
  have hlist : parseStringArray s.table "dependencies" "[[package]]" =
      .ok (p.dependencies.insertionSort (· ≤ ·)) :=
      requireStringArray_eq hdependencies fun h => absurd h Bool.false_ne_true
  rw [hstring "id" p.id rfl, hstring "name" p.name rfl, hstring "version" p.version rfl,
    hstring "source-kind" p.sourceKind rfl, hlist, hoptional.1, hoptional.2.1, hoptional.2.2.1,
    hoptional.2.2.2]
  change (validateLockPackage (canonicalPackage p) >>= fun _ => pure (canonicalPackage p)) = _
  rw [hvalid']
  rfl

/-- What the loader makes of the document of a lockfile. -/
theorem parseLockfile_lockTable (hgenerated : l.generatedBy ≠ "")
    (hresolver : l.resolver = "single-version-v1")
    (hvalid : ∀ p ∈ l.packages, validateLockPackage p = .ok ()) :
    parseLockfile (lockTable l) = .ok { l with packages := l.packages.map canonicalPackage } := by
  have hother : ∀ name ≠ "package", ∀ s ∈ l.packages.map fun p =>
      Section.mk "package" true (lockPairs p), s.name ≠ name := by
    intro name hname s hs
    obtain ⟨p, -, rfl⟩ := List.mem_map.mp hs
    exact Ne.symm hname
  have hversion : (lockTable l).lookup "lock-version" = some (.integer 1) := by
    rw [lookup_eq_getKey, lockTable, lockSections, List.foldl_cons,
      getKey_foldl_fill_of_ne (hother _ (by decide)), Section.fill, getKey_setKey, getKey_setKey]
    rfl
  obtain ⟨metadata, hmetadata, hgeneratedBy, hresolvedBy⟩ : ∃ metadata : Table,
      (lockTable l).lookup "metadata" = some (.table metadata) ∧
        metadata.lookup "generated-by" = some (.string l.generatedBy) ∧
        metadata.lookup "resolver" = some (.string l.resolver) := by
    refine ⟨_, ?_, lookup_table (s := ⟨"metadata", false, [("generated-by", .text l.generatedBy),
      ("resolver", .text l.resolver)]⟩) (by simp), lookup_table (by simp)⟩
    rw [lookup_eq_getKey, lockTable, lockSections, List.foldl_cons,
      getKey_foldl_fill_of_ne (hother _ (by decide)), Section.fill, getKey_setKey]
    rfl
  have hpackages : ((lockTable l).lookup "package").bind Toml.asArray =
      if l.packages = [] then none
      else some (l.packages.map fun p =>
        .table (Section.mk "package" true (lockPairs p)).table) := by
    have hbase : getKey (Section.fill (setKey [] "lock-version" (.integer 1)) ⟨"metadata", false,
        [("generated-by", .text l.generatedBy), ("resolver", .text l.resolver)]⟩) "package" =
        none := by
      rw [Section.fill, getKey_setKey, getKey_setKey]
      rfl
    rw [lookup_eq_getKey, lockTable, lockSections, List.foldl_cons]
    split
    · next hnil =>
      rw [hnil, List.map_nil, List.foldl_nil, hbase]
      rfl
    · next hne =>
      rw [getKey_foldl_fill_repeated _ (by simpa using hne), hbase]
      · simp [Toml.asArray]
      · intro s hs
        obtain ⟨p, -, rfl⟩ := List.mem_map.mp hs
        exact ⟨rfl, rfl⟩
  have hload : (l.packages.map fun p =>
      Toml.table (Section.mk "package" true (lockPairs p)).table).mapM parseLockPackage =
        .ok (l.packages.map canonicalPackage) := by
    rw [List.mapM_map]
    exact mapM_eq_pure fun p hp => parseLockPackage_lockPairs rfl (hvalid p hp)
  rw [parseLockfile, hversion, check_eq_ok (u := ()).mpr (by rfl), hmetadata]
  change (requireString metadata _ _ >>= _) = _
  rw [requireString_eq hgeneratedBy]
  change (requireString metadata _ _ >>= _) = _
  rw [requireString_eq hresolvedBy]
  change (check _ _ >>= fun _ => check _ _ >>= _) = _
  rw [check_eq_ok (u := ()).mpr (by simpa using hgenerated), check_eq_ok (u := ()).mpr
    (by simpa using hresolver), hpackages]
  split
  · next hnone =>
    split at hnone
    · next hnil =>
      rw [hnil]
      rfl
    · cases hnone
  · next packages hsome =>
    split at hsome
    · cases hsome
    · cases hsome
      rw [hload]
      rfl

end Writing

end StyioPlatform.Manifest
