import StyioPlatform.Lib.Json
import StyioPlatform.Lib.Paths
import StyioPlatform.Registry.IndexStore

/-! Mirror synchronisation (`MirrorSync.cpp`): a node copies the current publication of another
registry root into its own root. -/
namespace StyioPlatform.Registry

open FileTree Prog

/-- The files of a host, by their path from `/`. -/
abbrev Disk := FileTree String Bytes

/-- The files of a tree as they are on disk. -/
def onDisk (env : Environment) (t : Tree) : Disk := t.map (·.bytes env)

/-- `nlohmann::json::parse` and the text that `WriteJsonFile` writes. -/
structure JsonCodec where
  parse : Bytes → Option Json
  print : Json → Bytes

structure MirrorConfig where
  mirrorSourceRoot : Option Path
  registryRoot : Path
  registryRoot_names : ∀ name ∈ registryRoot, IsName name := by decide
  stateBackend : String := "memory"
  mirrorId : String
  region : String
  mirrorOrigin : String

/-- A row of `platform_mirror_cursors`. -/
structure MirrorCursorRecord where
  mirrorId : String
  region : String
  origin : String
  freshness : String
  replayCursor : String
  publicationId : String
  repositoryVersionId : String
  syncedAt : String
  treeSize : ℤ

structure MirrorHost where
  disk : Disk
  cursors : List (String × MirrorCursorRecord) := []

/-- Where a call of the operating system or of the database reports an error. -/
inductive MirrorSite where
  | readOrigin | createTarget | clearTemporary | createTemporary | copyPublication | verify
  | createPublications | clearPublication | activate | clearReadPlane | copyReadPlane
  | createDistribution | writePointer | countLeaves | recordState
  deriving DecidableEq

/-- What goes wrong in one call of the synchronisation: a removal that reports an error leaves
some files, a copy that stops has moved some, and a write that fails leaves some bytes. -/
structure Disturbance where
  site : Option MirrorSite := none
  left : List Path := []
  moved : List Path := []
  written : Option Bytes := none

abbrev MirrorProgram := Prog String MirrorHost

section Disk

/-- `fs::exists`. -/
def occupied (d : Disk) (p : Path) : Bool := (d.get p).isSome || d.isDirectory p

/-- The regular files below a directory, in order. -/
def filesBelow (d : Disk) (root : Path) : List Path := sorted ((d.subtree root).support.erase [])

def countFiles (d : Disk) (root : Path) : ℕ := (filesBelow d root).length

def countLogLeaves (d : Disk) (root : Path) : ℕ := countFiles d (root ++ ["log", "leaves"])

/-- `DirectoryDigest`, of the mirror and of the control plane. -/
def diskDigest (env : Environment) (d : Disk) (root : Path) : String :=
  let entry (p : Path) := (d.get (root ++ p)).map fun b => (p, sha256Bytes env b)
  "sha256:" ++ sha256Bytes env
    (env.canonicalJson (.listing ((filesBelow d root).filterMap entry)))

/-- A file is where the copy needs a directory, or a directory where it needs a file. -/
def obstructs (d : Disk) (dest q : Path) : Bool :=
  d.isDirectory (dest ++ q) || q.inits.dropLast.any fun r => (d.get (dest ++ r)).isSome

end Disk

/-- `static_cast<int>`. -/
@[irreducible] def asInt (n : ℕ) : ℤ := (n : ℤ).bmod (2 ^ 32)

/-- Stop with an error unless the condition holds. -/
def demand (c : Prop) [Decidable c] (message : String) : Except String Unit :=
  if c then .ok () else .error message

/-- A member that is asked for with the wrong type makes the JSON library throw. -/
def typed {α : Type} (value : Option α) : Except String α :=
  match value with
  | none => .error "type error"
  | some a => .ok a

theorem demand_eq_ok {c : Prop} [Decidable c] {message : String} {u : Unit} :
    demand c message = .ok u ↔ c := by
  by_cases hc : c <;> simp [demand, hc]

theorem typed_eq_ok {α : Type} {value : Option α} {a : α} :
    typed value = .ok a ↔ value = some a := by
  cases value <;> simp [typed]

def verifyPublicationSnapshot (env : Environment) (d : Disk) (publicationRoot : Path)
    (publication : Json) : Except String Unit := do
  demand (occupied d (publicationRoot ++ ["config.json"]) ∧
    occupied d (publicationRoot ++ ["trust", "root.json"]) ∧
    occupied d (publicationRoot ++ ["publication.json"])) "publication snapshot is incomplete"
  let verified ← typed (publication.boolOr "verified" false)
  demand (verified = true) "origin publication is not verified"
  let artifactCount ← typed (publication.intOr "artifact_count" 0)
  demand (artifactCount = asInt (countFiles d (publicationRoot ++ ["artifacts"])))
    "publication artifact count mismatch"
  let indexDigest ← typed (publication.textOr "index_digest" "")
  demand (indexDigest = diskDigest env d (publicationRoot ++ ["index"]))
    "publication index digest mismatch"
  let trustDigest ← typed (publication.textOr "trust_digest" "")
  demand (trustDigest = diskDigest env d (publicationRoot ++ ["trust"]))
    "publication trust digest mismatch"
  let treeSize ← typed (publication.intOr "tree_size" 0)
  demand (treeSize = asInt (countLogLeaves d publicationRoot)) "publication tree size mismatch"

section Programs

variable (turn : Disturbance)

/-- The call at this place throws if it reports an error. -/
def mayThrow (site : MirrorSite) : MirrorProgram Unit :=
  if turn.site = some site then Prog.fail "system error" else pure ()

def modifyDisk (f : Disk → Disk) : MirrorProgram Unit :=
  Prog.modify fun h => { h with disk := f h.disk }

def files : MirrorProgram Disk := fun h => (.ok h.disk, h)

/-- `fs::remove_all` of some places; an error is not looked at. -/
def removeFiles (site : MirrorSite) (inside : Path → Bool) : MirrorProgram Unit :=
  modifyDisk (·.restrict fun p =>
    !inside p || (decide (turn.site = some site) && decide (p ∈ turn.left)))

/-- `fs::create_directories`; a file in the way makes it throw. -/
def createDirectories (site : MirrorSite) (p : Path) : MirrorProgram Unit := do
  mayThrow turn site
  let d ← files
  Prog.ofExcept (demand (∀ q ∈ p.inits, d.get q = none) "not a directory")

/-- `fs::copy` of a directory's content, overwriting. -/
def copyFiles (site : MirrorSite) (u : Disk) (dest : Path) (message : String) :
    MirrorProgram Unit := do
  let d ← files
  if turn.site = some site ∨ ∃ q ∈ u.support, obstructs d dest q = true then
    modifyDisk (·.graft dest (u.restrict fun q => decide (q ∈ turn.moved) && !obstructs d dest q))
    Prog.fail message
  else modifyDisk (·.graft dest u)

/-- The entries of a registry root that a mirror serves. -/
def mirrorEntries : List String := ["config.json", "trust", "artifacts", "index", "log"]

def inMirrorPlane (p : Path) : Bool := p.head?.any (· ∈ mirrorEntries)

/-- `fs::copy` puts a file into the directory that is at its destination. -/
def landed (d : Disk) (dest : Path) (u : Disk) (name : String) : Disk :=
  match u.get [name] with
  | none => u
  | some bytes => if d.isDirectory (dest ++ [name]) then (u.removeAll [name]).put [name, name] bytes
    else u

/-- `MaterializePublication`: remove the entries from the target, then copy them from the
publication. -/
def materializePublication (publicationRoot targetRoot : Path) : MirrorProgram Unit := do
  removeFiles turn .clearReadPlane fun p =>
    decide (targetRoot <+: p) && inReadPlane (p.drop targetRoot.length)
  let d ← files
  let plane := (d.subtree publicationRoot).restrict inMirrorPlane
  copyFiles turn .copyReadPlane (mirrorEntries.foldl (landed d targetRoot) plane) targetRoot
    "mirror copy failed"

/-- `WriteJsonFile`; a write that fails is not noticed. -/
def writeJsonFile (codec : JsonCodec) (path : Path) (payload : Json) : MirrorProgram Unit := do
  createDirectories turn .createDistribution path.dropLast
  let d ← files
  if d.isDirectory path then pure ()
  else if turn.site = some .writePointer then
    match turn.written with
    | none => pure ()
    | some bytes => modifyDisk (·.put path bytes)
  else modifyDisk (·.put path (codec.print payload))

/-- The JSON document in a file. -/
def readJson (codec : JsonCodec) (d : Disk) (path : Path) : Except String Json :=
  match (d.get path).bind codec.parse with
  | none => .error "parse error"
  | some j => .ok j

def pointerFile : Path := ["_distributions", "default", "current.json"]

/-- `root / id` for an id that may have several names; an absolute id replaces the root. -/
def joined (root : Path) (id : String) : List String :=
  let names := (id.toList.splitOn '/').map String.ofList
  if id.toList.head? = some '/' then names else root ++ names

/-- `root / id`, its names followed through the directories that exist. -/
def followed (d : Disk) (root : Path) (id : String) : Option Path :=
  walk (fun p => decide (p = []) || d.isDirectory p) (joined root id) []

/-- What the synchronisation has read of the origin: the pointer, and the manifest and the files of
the publication that it names. -/
structure OriginPublication where
  publicationId : String
  current : Json
  publication : Json
  root : Path

/-- The part of `RunMirrorSyncOnce` that reads the origin. -/
def readOrigin (codec : JsonCodec) (cfg : MirrorConfig) (d : Disk) :
    Except String OriginPublication :=
  match cfg.mirrorSourceRoot with
  | none => .error "STYIO_PLATFORM_REGISTRY_MIRROR_SOURCE_ROOT is required"
  | some sourceRoot => do
    demand (d.isDirectory sourceRoot) "mirror source root does not exist or is not a directory"
    demand (occupied d (sourceRoot ++ pointerFile)) "origin distribution current pointer is missing"
    let current ← readJson codec d (sourceRoot ++ pointerFile)
    let publicationId ← typed (current.textField "publication_id")
    match followed d (sourceRoot ++ ["_publications"]) publicationId with
    | none => .error "origin publication manifest is missing"
    | some root =>
      demand (occupied d (root ++ ["publication.json"])) "origin publication manifest is missing"
      let publication ← readJson codec d (root ++ ["publication.json"])
      return { publicationId, current, publication, root }

/-- The publication is built here. -/
def temporaryPlace (cfg : MirrorConfig) (publicationId : String) : Path :=
  normal (joined (cfg.registryRoot ++ ["_tmp", "mirror"]) publicationId)

/-- The publication is kept here. -/
def publicationPlace (cfg : MirrorConfig) (publicationId : String) : Path :=
  normal (joined (cfg.registryRoot ++ ["_publications"]) publicationId)

/-- The last name of the id is that of a directory itself or of the one above it. -/
def endsInDots (id : String) : Bool :=
  let names := (id.toList.splitOn '/').map String.ofList
  ((names.filter (· ≠ "")).getLast?).any fun name => name = "." ∨ name = ".."

/-- `fs::rename` of the publication. -/
def activatePublicationAt (publicationId : String) (source dest : Path) : MirrorProgram Unit := do
  let d ← files
  if turn.site = some .activate ∨ endsInDots publicationId ∨ d.isDirectory source = false ∨
      occupied d dest ∨ source <+: dest then
    Prog.fail "mirror publication activation failed"
  else modifyDisk (·.rename source dest)

/-- Copy the publication to the mirror, verify the copy and put it in its place. -/
def fetchPublication (env : Environment) (cfg : MirrorConfig) (origin : OriginPublication) :
    MirrorProgram Unit := do
  let temporary := temporaryPlace cfg origin.publicationId
  let final := publicationPlace cfg origin.publicationId
  createDirectories turn .createTarget cfg.registryRoot
  removeFiles turn .clearTemporary fun p => decide (temporary <+: p)
  createDirectories turn .createTemporary temporary.dropLast
  let d ← files
  Prog.ofExcept (demand (d.isDirectory origin.root) "mirror publication copy failed")
  copyFiles turn .copyPublication (d.subtree origin.root) temporary "mirror publication copy failed"
  mayThrow turn .verify
  let d ← files
  Prog.ofExcept (verifyPublicationSnapshot env d temporary origin.publication)
  createDirectories turn .createPublications final.dropLast
  removeFiles turn .clearPublication fun p => decide (final <+: p)
  activatePublicationAt turn origin.publicationId temporary final

/-- `checkpoint-` and the tree size with at least four digits. -/
def replayCursor (treeSize : ℕ) : String := "checkpoint-" ++ paddedNumber treeSize 4

/-- `RecordMirrorState`, on a node with Postgres. -/
def recordMirrorState (cfg : MirrorConfig) (origin : OriginPublication) (treeSize : ℕ) :
    MirrorProgram Unit :=
  if cfg.stateBackend = "postgres" then do
    mayThrow turn .recordState
    let repositoryVersionId ←
      Prog.ofExcept (typed (origin.publication.textOr "repository_version_id" ""))
    let syncedAt ← Prog.ofExcept (typed (origin.current.textOr "updated_at" ""))
    let cursor : MirrorCursorRecord :=
      { mirrorId := cfg.mirrorId, region := cfg.region, origin := cfg.mirrorOrigin
        freshness := "fresh", replayCursor := replayCursor treeSize
        publicationId := origin.publicationId, repositoryVersionId, syncedAt
        treeSize := asInt treeSize }
    Prog.modify fun h => { h with cursors := setKey h.cursors cfg.mirrorId cursor }
  else pure ()

/-- The `try` block of `RunMirrorSyncOnce`. -/
def mirrorSync (env : Environment) (codec : JsonCodec) (cfg : MirrorConfig) :
    MirrorProgram Unit := do
  mayThrow turn .readOrigin
  let d ← files
  let origin ← Prog.ofExcept (readOrigin codec cfg d)
  let final := publicationPlace cfg origin.publicationId
  fetchPublication turn env cfg origin
  materializePublication turn final cfg.registryRoot
  writeJsonFile turn codec (cfg.registryRoot ++ pointerFile) origin.current
  mayThrow turn .countLeaves
  let d ← files
  recordMirrorState turn cfg origin (countLogLeaves d final)

/-- `RunMirrorSyncOnce`: the exit code and what is left. -/
def runMirrorSyncOnce (env : Environment) (codec : JsonCodec) (cfg : MirrorConfig)
    (h : MirrorHost) : ℕ × MirrorHost :=
  match mirrorSync turn env codec cfg h with
  | (.ok (), h') => (0, h')
  | (.error _, h') => (1, h')

end Programs

end StyioPlatform.Registry
