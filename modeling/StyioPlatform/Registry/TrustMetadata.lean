import StyioPlatform.Registry.IndexStore

/-! Signed registry metadata: the initial files, and the refresh of targets, checkpoint, snapshot
and timestamp that follows every change of the index (`RegistryTrustMetadata.hpp`). -/
namespace StyioPlatform.Registry

def registryRoleNames : List RegistryRole := [.root, .timestamp, .snapshot, .targets, .log]

def configPath : Path := ["config.json"]

def rootPath : Path := ["trust", "root.json"]

def timestampPath : Path := ["trust", "timestamp.json"]

def snapshotPath : Path := ["trust", "snapshot.json"]

def targetsPath (namespaceName : String) : Path := ["trust", "targets", namespaceName ++ ".json"]

def checkpointPath : Path := ["log", "checkpoint.json"]

def leafPath (sequence : ℕ) : Path := ["log", "leaves", paddedNumber sequence 12 ++ ".json"]

/-- `RegistryRoleKeysPayload`. -/
def registryRoleKeysPayload (keys : RegistryKeyDirectory) : List (String × String) :=
  registryRoleNames.foldl (fun l r => setKey l (keys.key r).keyid (keys.key r).publicKeyPem) []

/-- `RegistryRolesPolicyPayload`. -/
def registryRolesPolicyPayload (keys : RegistryKeyDirectory) (r : RegistryRole) : RolePolicy :=
  { keyids := [(keys.key r).keyid] }

/-- `SignedRegistryPayload`. -/
def signedRegistryPayload (env : Environment) (key : RegistryRoleKey) (p : SignedPayload) :
    Envelope where
  signed := p
  signatures := [{ keyid := key.keyid, sig := env.sign key (env.canonicalJson (.signed p)) }]

def registryConfigPayload (cfg : PlatformConfig) (generatedAt : String)
    (publication : Option PublicationRef) : RegistryConfig :=
  { registryName := cfg.registryName, generatedAt := generatedAt, publication := publication }

def signedFileMeta (env : Environment) (f : File) (version : ℕ) : FileMeta where
  version := version
  length := (f.bytes env).length
  sha256 := f.sha256 env

/-- `at("signed").value("version", 0)`; 0 for a file of any other form. -/
def File.signedVersion : File → ℕ
  | .json (.envelope e) => e.signed.version
  | _ => 0

def readSignedVersion (t : Tree) (path : Path) : ℕ := ((t.get path).map File.signedVersion).getD 0

/-- The path is that of a log leaf. -/
def isLeafPath : Path → Bool
  | ["log", "leaves", name] => hasExtension ".json" name
  | _ => false

def leafSequencePaths (t : Tree) : List Path := sorted (t.support.filter fun p => isLeafPath p)

def hexValue (c : Char) : Option ℕ :=
  if c.isDigit then some (c.toNat - '0'.toNat)
  else if 'a' ≤ c ∧ c ≤ 'f' then some (c.toNat - 'a'.toNat + 10)
  else if 'A' ≤ c ∧ c ≤ 'F' then some (c.toNat - 'A'.toNat + 10)
  else none

/-- `static_cast<char>(std::stoi(text, nullptr, 16))` of a text of two characters. -/
def stoiHex (a b : Char) : Option UInt8 :=
  match hexValue a, hexValue b with
  | some x, some y => some (.ofNat (16 * x + y))
  | some x, none => some (.ofNat x)
  | none, some y =>
    if isSpace a ∨ a = '+' then some (.ofNat y)
    else if a = '-' then some (.ofNat (256 - y))
    else none
  | none, none => none

/-- The bytes that a hexadecimal text denotes, two characters at a time. -/
def leafBytes : List Char → Option Bytes
  | a :: b :: rest => do
    let byte ← stoiHex a b
    let bytes ← leafBytes rest
    pure (byte :: bytes)
  | _ => some []

/-- One round of `TransparencyRootHash`. -/
def transparencyStep (env : Environment) (state : Bytes) (leafHash : String) : Option Bytes :=
  (leafBytes leafHash.toList).map fun bytes => env.sha256 (state ++ bytes)

/-- `TransparencyRootHash`; `none` where a digest is not hexadecimal. -/
def transparencyRootHash (env : Environment) (leafHashes : List String) : Option String :=
  (leafHashes.foldlM (transparencyStep env) (List.replicate 32 0)).map hexBytes

structure PackageMaps where
  namespacePackages : List (String × List (String × PackageEntry)) := []
  snapshotMeta : List (Path × FileMeta) := []

/-- What targets metadata says about one record. -/
def releaseEntry (env : Environment) (r : ReleaseRecord) : ReleaseEntry where
  releaseRevision := r.releaseRevision
  indexRecordSha256 := recordSha256 env r
  sourceArtifactSha256 := r.sourceArtifact.sha256
  sourceArtifactPath := r.sourceArtifact.path
  binaryArtifactCount := r.binaryArtifacts.length

/-- The entry of one index file. -/
def packageEntry (env : Environment) (path : Path) (records : List ReleaseRecord) :
    PackageEntry where
  indexPath := path
  latestVersion := latestVersion (records.map (·.version))
  releases := records.foldl (fun l r => setKey l r.version (releaseEntry env r)) []

/-- The path is that of an index file. -/
def isIndexPath (p : Path) : Bool :=
  p.head? == some "index" && (p.tail.getLast?.map (hasExtension ".jsonl")).getD false

def indexPaths (t : Tree) : List Path := sorted (t.support.filter fun p => isIndexPath p)

/-- The records of one index file, all of one package; the error otherwise. -/
def collectRecords (t : Tree) (path : Path) : Except Failure (String × List ReleaseRecord) :=
  match (t.get path).bind File.records with
  | none => .error parseError
  | some [] => .error (.error "registry index file is empty")
  | some (first :: rest) =>
    if (first :: rest).all (·.package = first.package) then .ok (first.package, first :: rest)
    else .error (.error "registry index file contains mixed package names")

/-- Enter one index file into the maps. -/
def PackageMaps.add (env : Environment) (maps : PackageMaps) (path : Path) (package : String)
    (records : List ReleaseRecord) : PackageMaps where
  namespacePackages :=
    let space := packageNamespace package
    let packages := (getKey maps.namespacePackages space).getD []
    setKey maps.namespacePackages space (setKey packages package (packageEntry env path records))
  snapshotMeta := setKey maps.snapshotMeta path (signedFileMeta env (.jsonl records) 1)

def collectPackageMaps (env : Environment) (t : Tree) : Except Failure PackageMaps :=
  (indexPaths t).foldlM (fun maps path => do
    let (package, records) ← collectRecords t path
    pure (maps.add env path package records)) {}

structure MetadataVersions where
  checkpointVersion : ℕ
  snapshotVersion : ℕ
  timestampVersion : ℕ
  namespaces : ℕ

/-- Sign a payload with the key of a role and write it. -/
def writeSigned (env : Environment) (cfg : PlatformConfig) (role : RegistryRole) (path : Path)
    (p : SignedPayload) : Program File := do
  let f := File.json (.envelope (signedRegistryPayload env (cfg.keys.key role) p))
  writeTextFile path f
  pure f

/-- The loop over the namespaces: targets metadata with the next version, and its file meta. -/
def writeTargets (env : Environment) (cfg : PlatformConfig) (host : Host) (fault : Option Site) :
    List (String × List (String × PackageEntry)) → List (Path × FileMeta) →
      Program (List (Path × FileMeta))
  | [], snapshotMeta => pure snapshotMeta
  | (namespaceName, packages) :: rest, snapshotMeta => do
    let path := targetsPath namespaceName
    let version := readSignedVersion (← rootTree) path + 1
    failAt fault (.signTargets namespaceName)
    let f ← writeSigned env cfg .targets path
      { version := version, body := .targets (host.expires path) namespaceName packages }
    writeTargets env cfg host fault rest (setKey snapshotMeta path (signedFileMeta env f version))

/-- The digests of the leaves, in the order of their files. -/
def leafHashes (env : Environment) (t : Tree) : Except Failure (List String) :=
  (leafSequencePaths t).mapM fun path =>
    match (t.get path).bind File.parse with
    | none => .error parseError
    | some d => .ok (sha256Bytes env (env.canonicalJson d))

def refreshSignedRegistryMetadata (env : Environment) (cfg : PlatformConfig) (host : Host)
    (fault : Option Site) (registryTime : String) : Program MetadataVersions := do
  failAt fault .collectPackages
  let maps ← Prog.ofExcept (collectPackageMaps env (← rootTree))
  let snapshotMeta ← writeTargets env cfg host fault maps.namespacePackages maps.snapshotMeta
  let hashes ← Prog.ofExcept (leafHashes env (← rootTree))
  let rootHash ← Prog.ofExcept ((transparencyRootHash env hashes).map Except.ok
    |>.getD (.error (.error "stoi")))
  let checkpointVersion := readSignedVersion (← rootTree) checkpointPath + 1
  failAt fault .signCheckpoint
  let checkpoint ← writeSigned env cfg .log checkpointPath
    { version := checkpointVersion, body := .checkpoint registryTime hashes.length rootHash }
  let snapshotVersion := readSignedVersion (← rootTree) snapshotPath + 1
  failAt fault .signSnapshot
  let snapshot ← writeSigned env cfg .snapshot snapshotPath
    { version := snapshotVersion
      body := .snapshot (host.expires snapshotPath) snapshotMeta
        (signedFileMeta env checkpoint checkpointVersion) }
  let timestampVersion := readSignedVersion (← rootTree) timestampPath + 1
  failAt fault .signTimestamp
  let _ ← writeSigned env cfg .timestamp timestampPath
    { version := timestampVersion
      body := .timestamp (host.expires timestampPath)
        (signedFileMeta env snapshot snapshotVersion) }
  modifyRoot (·.removeAll ["_tmp"])
  pure { checkpointVersion, snapshotVersion, timestampVersion,
         namespaces := maps.namespacePackages.length }

/-- Sign and write an initial file unless the path holds one; the file that is there then. -/
def writeSignedIfMissing (env : Environment) (cfg : PlatformConfig) (fault : Option Site)
    (role : RegistryRole) (path : Path) (p : SignedPayload) : Program File := do
  match (← rootTree).get path with
  | some f => pure f
  | none =>
    failAt fault (.signInitial role)
    writeSigned env cfg role path p

/-- `config.json` of a new root. -/
def writeConfigIfMissing (cfg : PlatformConfig) (host : Host) : Program Unit := do
  let t ← rootTree
  onlyIf ((t.get configPath).isNone) (writeTextFile configPath
    (.json (.config (registryConfigPayload cfg host.registryTime none))))

def ensureRegistryRootInitialized (env : Environment) (cfg : PlatformConfig) (host : Host)
    (fault : Option Site) : Program Unit := do
  failAt fault .createRoot
  failAt fault .loadKeys
  writeConfigIfMissing cfg host
  let checkpoint ← writeSignedIfMissing env cfg fault .log checkpointPath
    { version := 1
      body := .checkpoint host.registryTime 0 ((transparencyRootHash env []).getD "") }
  let snapshot ← writeSignedIfMissing env cfg fault .snapshot snapshotPath
    { version := 1
      body := .snapshot (host.expires snapshotPath) [] (signedFileMeta env checkpoint 1) }
  let _ ← writeSignedIfMissing env cfg fault .timestamp timestampPath
    { version := 1
      body := .timestamp (host.expires timestampPath) (signedFileMeta env snapshot 1) }
  let _ ← writeSignedIfMissing env cfg fault .root rootPath
    { version := 1
      body := .root (host.expires rootPath) (registryRoleKeysPayload cfg.keys)
        (registryRolesPolicyPayload cfg.keys) }
  modifyRoot (·.removeAll ["_tmp"])

end StyioPlatform.Registry
