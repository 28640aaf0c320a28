import StyioPlatform.Lib.FileTree
import StyioPlatform.Lib.Prog
import StyioPlatform.Security.Identity

/-! The certificate authority of the platform (`CertificateAuthority.cpp`) over the files below its
root directory. A certificate is known by the URI for which it was created. -/
namespace StyioPlatform.Security

/-- What a file of the authority holds. -/
inductive PemFile where
  | privateKey
  | authorityCertificate
  | certificate (uriSan : String)
  /-- What a write that failed in the middle leaves. -/
  | torn
  deriving DecidableEq

/-- The files below the root directory, by the names from there. -/
abbrev Directory := FileTree String PemFile

abbrev Authority : Type → Type := Prog String Directory

def isAllowedInPath (c : Char) : Bool :=
  ('a' ≤ c && c ≤ 'z') || ('A' ≤ c && c ≤ 'Z') || ('0' ≤ c && c ≤ '9') ||
    c == '-' || c == '_' || c == '.'

/-- `SanitizePathPart`, which goes through the bytes of the text. -/
def sanitizePathPart (value : String) : String :=
  if value = "" then "unknown"
  else String.ofList (value.toList.flatMap fun c =>
    if isAllowedInPath c then [c] else List.replicate c.utf8Size '-')

def caCertificatePath : List String := ["ca", "ca.crt"]

def caPrivateKeyPath : List String := ["ca", "ca.key"]

def issuedCertificateDir (subject : PlatformCertificateSubject) : List String :=
  ["issued", sanitizePathPart subject.tenantId, sanitizePathPart subject.role,
    sanitizePathPart subject.nodeId]

structure PlatformCertificateBundle where
  caCertificatePath : List String
  caPrivateKeyPath : List String
  certificatePath : List String
  privateKeyPath : List String
  identityUriSan : String
  deriving DecidableEq

def bundleForSubject (config : PlatformCertificateAuthorityConfig)
    (subject : PlatformCertificateSubject) : PlatformCertificateBundle where
  caCertificatePath := caCertificatePath
  caPrivateKeyPath := caPrivateKeyPath
  certificatePath := issuedCertificateDir subject ++ ["tls.crt"]
  privateKeyPath := issuedCertificateDir subject ++ ["tls.key"]
  identityUriSan := buildPlatformMtlsUriSan config subject

/-- How a write of a file ends: the file is written, or cannot be opened, or is left torn. -/
inductive Write where
  | done | refused | torn
  deriving DecidableEq

/-- What OpenSSL and the file system do during one call. -/
structure Surroundings where
  authorityKey : Bool := true
  authorityCertificate : Bool := true
  authorityKeyWrite : Write := .done
  authorityCertificateWrite : Write := .done
  loadKey : Bool := true
  loadCertificate : Bool := true
  leafKey : Bool := true
  leafCertificate : Bool := true
  leafKeyWrite : Write := .done
  leafCertificateWrite : Write := .done

/-- The file at a path, which may have `.` and `..` among its names. -/
def fileAt (t : Directory) (path : List String) : Option PemFile := t.get (normal path)

def existingFile (path : List String) : Authority Bool := do
  return (fileAt (← .read) path).isSome

def requireOpenSsl (ok : Bool) (message : String) : Authority Unit :=
  if ok then pure () else .fail message

def writeFile (outcome : Write) (path : List String) (file : PemFile) (what : String) :
    Authority Unit :=
  match outcome with
  | .done => .modify fun t => t.put (normal path) file
  | .refused => .fail ("failed to open " ++ what ++ " for writing: " ++ "/".intercalate path)
  | .torn => do
    .modify fun t => t.put (normal path) .torn
    .fail ("failed to write " ++ what)

def writePrivateKey (outcome : Write) (path : List String) : Authority Unit :=
  writeFile outcome path .privateKey "private key"

def writeCertificate (outcome : Write) (path : List String) (file : PemFile) : Authority Unit :=
  writeFile outcome path file "certificate"

def loadPrivateKey (ok : Bool) (path : List String) : Authority Unit := do
  let file := fileAt (← .read) path
  if file = none then .fail ("failed to open private key: " ++ "/".intercalate path)
  else requireOpenSsl (ok && file = some .privateKey) "failed to read private key"

def loadCertificate (ok : Bool) (path : List String) : Authority Unit := do
  let file := fileAt (← .read) path
  if file = none then .fail ("failed to open certificate: " ++ "/".intercalate path)
  else requireOpenSsl (ok && file = some .authorityCertificate) "failed to read certificate"

def ensurePlatformCertificateAuthority (around : Surroundings) : Authority Unit := do
  if (← existingFile caCertificatePath) && (← existingFile caPrivateKeyPath) then pure ()
  else
    requireOpenSsl around.authorityKey "failed to generate private key"
    requireOpenSsl around.authorityCertificate "failed to create CA certificate"
    writePrivateKey around.authorityKeyWrite caPrivateKeyPath
    writeCertificate around.authorityCertificateWrite caCertificatePath .authorityCertificate

def ensurePlatformMtlsCertificate (config : PlatformCertificateAuthorityConfig)
    (around : Surroundings) (subject : PlatformCertificateSubject) :
    Authority PlatformCertificateBundle := do
  let bundle := bundleForSubject config subject
  ensurePlatformCertificateAuthority around
  if (← existingFile bundle.certificatePath) && (← existingFile bundle.privateKeyPath) then
    return bundle
  loadPrivateKey around.loadKey bundle.caPrivateKeyPath
  loadCertificate around.loadCertificate bundle.caCertificatePath
  requireOpenSsl around.leafKey "failed to generate private key"
  requireOpenSsl around.leafCertificate "failed to create leaf certificate"
  writePrivateKey around.leafKeyWrite bundle.privateKeyPath
  writeCertificate around.leafCertificateWrite bundle.certificatePath
    (.certificate (buildPlatformMtlsUriSan config subject))
  return bundle

/-- One call of `EnsurePlatformMtlsCertificate` with what happens around it. -/
structure Call where
  subject : PlatformCertificateSubject
  around : Surroundings := {}

/-- The directory, and the bundles that were returned so far with their subjects. -/
structure Issuance where
  directory : Directory := .empty
  returned : List (PlatformCertificateSubject × PlatformCertificateBundle) := []

def Issuance.step (config : PlatformCertificateAuthorityConfig) (h : Issuance) (call : Call) :
    Issuance :=
  match ensurePlatformMtlsCertificate config call.around call.subject h.directory with
  | (.ok bundle, t) => ⟨t, (call.subject, bundle) :: h.returned⟩
  | (.error _, t) => ⟨t, h.returned⟩

/-- Every bundle leads to the certificate of its subject, and to no other subject's. -/
def Issuance.Own (h : Issuance) : Prop :=
  ∀ x ∈ h.returned,
    fileAt h.directory x.2.certificatePath = some (.certificate x.2.identityUriSan) ∧
      ∀ y ∈ h.returned, y.1 ≠ x.1 → normal y.2.certificatePath ≠ normal x.2.certificatePath

instance (h : Issuance) : Decidable h.Own := inferInstanceAs (Decidable (∀ x ∈ h.returned, _))

section Issuing

variable {subjects : Set PlatformCertificateSubject} {t : Directory} {around : Surroundings}
  {path : List String} {file : PemFile} {what : String} {outcome : Write}

/-- Where the certificate of a subject lies. -/
def certificateFile (subject : PlatformCertificateSubject) : List String :=
  normal (issuedCertificateDir subject ++ ["tls.crt"])

/-- What lies at the certificate files is what the subjects there are owed. -/
def Honest (config : PlatformCertificateAuthorityConfig)
    (subjects : Set PlatformCertificateSubject) (t : Directory) : Prop :=
  ∀ subject ∈ subjects, ∀ file, t.get (certificateFile subject) = some file →
    file = .certificate (buildPlatformMtlsUriSan config subject)

theorem certificateFile_eq (subject : PlatformCertificateSubject) :
    certificateFile subject = normal (issuedCertificateDir subject) ++ ["tls.crt"] :=
  normal_concat (by decide)

/-- A file of another name is no certificate of a subject. -/
theorem normal_ne_certificateFile {names : List String} {name : String} (hname : IsName name)
    (hne : name ≠ "tls.crt") : normal (names ++ [name]) ≠ certificateFile subject := by
  rw [normal_concat hname, certificateFile_eq]
  intro he
  exact hne (by simpa using congrArg List.getLast? he)

theorem honest_put (h : Honest config subjects t)
    (hput : ∀ subject ∈ subjects, path = certificateFile subject →
      file = .certificate (buildPlatformMtlsUriSan config subject)) :
    Honest config subjects (t.put path file) := by
  intro subject hsubject f hf
  rw [FileTree.get_put] at hf
  split at hf
  · rename_i he
    cases hf
    exact hput subject hsubject he.symm
  · exact h subject hsubject f hf

theorem keeps_existingFile {I : Directory → Prop} : Prog.Keeps I (existingFile path) :=
  Prog.keeps_bind Prog.keeps_read fun _ => Prog.keeps_pure

theorem keeps_requireOpenSsl {I : Directory → Prop} {ok : Bool} {message : String} :
    Prog.Keeps I (requireOpenSsl ok message) :=
  Prog.keeps_ite Prog.keeps_pure Prog.keeps_fail

theorem keeps_loadPrivateKey {I : Directory → Prop} {ok : Bool} :
    Prog.Keeps I (loadPrivateKey ok path) :=
  Prog.keeps_bind Prog.keeps_read fun _ => Prog.keeps_ite Prog.keeps_fail keeps_requireOpenSsl

theorem keeps_loadCertificate {I : Directory → Prop} {ok : Bool} :
    Prog.Keeps I (loadCertificate ok path) :=
  Prog.keeps_bind Prog.keeps_read fun _ => Prog.keeps_ite Prog.keeps_fail keeps_requireOpenSsl

/-- A write keeps what each state that it can leave satisfies. -/
theorem keeps_writeFile {I : Directory → Prop}
    (h : ∀ t, I t → outcome = .done → I (t.put (normal path) file))
    (htorn : ∀ t, I t → outcome = .torn → I (t.put (normal path) .torn)) :
    Prog.Keeps I (writeFile outcome path file what) := by
  cases outcome with
  | done => exact Prog.keeps_modify fun t ht => h t ht rfl
  | refused => exact Prog.keeps_fail
  | torn =>
    exact Prog.keeps_bind (Prog.keeps_modify fun t ht => htorn t ht rfl) fun _ => Prog.keeps_fail

/-- The directory is honest and holds the given files. -/
def Stocks (config : PlatformCertificateAuthorityConfig)
    (subjects : Set PlatformCertificateSubject) (held : List (List String)) (t : Directory) :
    Prop :=
  Honest config subjects t ∧ ∀ path ∈ held, (t.get path).isSome

variable {held : List (List String)}

theorem stocks_put (h : Stocks config subjects held t)
    (hput : ∀ subject ∈ subjects, path = certificateFile subject →
      file = .certificate (buildPlatformMtlsUriSan config subject)) :
    Stocks config subjects held (t.put path file) := by
  refine ⟨honest_put h.1 hput, ?_⟩
  intro q hq
  rw [FileTree.get_put]
  split
  · rfl
  · exact h.2 q hq

/-- A write to a file of another name stays away from the certificates. -/
theorem keeps_writeFile_other {names : List String} {name : String} (hname : IsName name)
    (hne : name ≠ "tls.crt") :
    Prog.Keeps (Stocks config subjects held) (writeFile outcome (names ++ [name]) file what) := by
  apply keeps_writeFile
  · intro t ht _
    exact stocks_put ht fun _ _ he => absurd he (normal_ne_certificateFile hname hne)
  · intro t ht _
    exact stocks_put ht fun _ _ he => absurd he (normal_ne_certificateFile hname hne)

theorem keeps_ensurePlatformCertificateAuthority :
    Prog.Keeps (Stocks config subjects held) (ensurePlatformCertificateAuthority around) := by
  unfold ensurePlatformCertificateAuthority
  refine Prog.keeps_bind keeps_existingFile fun _ => ?_
  refine Prog.keeps_bind keeps_existingFile fun _ => ?_
  refine Prog.keeps_ite Prog.keeps_pure ?_
  refine Prog.keeps_bind keeps_requireOpenSsl fun _ => ?_
  refine Prog.keeps_bind keeps_requireOpenSsl fun _ => ?_
  refine Prog.keeps_bind ?_ fun _ => ?_
  · exact @keeps_writeFile_other _ _ _ _ _ _ ["ca"] "ca.key" (by decide) (by decide)
  · exact @keeps_writeFile_other _ _ _ _ _ _ ["ca"] "ca.crt" (by decide) (by decide)

theorem keeps_ensurePlatformMtlsCertificate
    (hown : ∀ other ∈ subjects, certificateFile other = certificateFile subject → other = subject)
    (htorn : around.leafCertificateWrite ≠ .torn) :
    Prog.Keeps (Stocks config subjects held)
      (ensurePlatformMtlsCertificate config around subject) := by
  unfold ensurePlatformMtlsCertificate
  refine Prog.keeps_bind keeps_ensurePlatformCertificateAuthority fun _ => ?_
  refine Prog.keeps_bind keeps_existingFile fun _ => ?_
  refine Prog.keeps_bind keeps_existingFile fun _ => ?_
  refine Prog.keeps_ite Prog.keeps_pure ?_
  refine Prog.keeps_bind keeps_loadPrivateKey fun _ => ?_
  refine Prog.keeps_bind keeps_loadCertificate fun _ => ?_
  refine Prog.keeps_bind keeps_requireOpenSsl fun _ => ?_
  refine Prog.keeps_bind keeps_requireOpenSsl fun _ => ?_
  refine Prog.keeps_bind ?_ fun _ => Prog.keeps_bind ?_ fun _ => Prog.keeps_pure
  · exact keeps_writeFile_other (by decide) (by decide)
  · apply keeps_writeFile
    · intro t ht _
      refine stocks_put ht fun other hother he => ?_
      rw [hown other hother he.symm]
    · intro t _ h
      exact absurd h htorn

theorem wp_existingFile {Q : Bool → Directory → Prop} {E : String → Directory → Prop} :
    Prog.wp (existingFile path) Q E t ↔ Q (fileAt t path).isSome t := by
  simp [existingFile]

/-- A bundle is returned only where its certificate file is. -/
theorem wp_ensurePlatformMtlsCertificate :
    Prog.wp (ensurePlatformMtlsCertificate config around subject)
      (fun bundle t => bundle = bundleForSubject config subject ∧
        (t.get (certificateFile subject)).isSome) (fun _ _ => True) t := by
  unfold ensurePlatformMtlsCertificate
  rw [Prog.wp_bind]
  refine Prog.wp_mono Prog.wp_true ?_ fun _ _ _ => trivial
  intro _ t _
  rw [Prog.wp_bind, wp_existingFile, Prog.wp_bind, wp_existingFile, Prog.wp_ite]
  constructor
  · intro hexists
    rw [Bool.and_eq_true] at hexists
    exact ⟨rfl, hexists.1⟩
  · intro _
    have hskip : ∀ {x : Authority Unit} {k : Unit → Authority PlatformCertificateBundle}
        {Q : PlatformCertificateBundle → Directory → Prop} {t : Directory},
        (∀ t, Prog.wp (k ()) Q (fun _ _ => True) t) →
          Prog.wp (x >>= k) Q (fun _ _ => True) t := by
      intro x k Q t hk
      rw [Prog.wp_bind]
      exact Prog.wp_mono Prog.wp_true (fun _ t _ => hk t) fun _ _ _ => trivial
    refine hskip fun t => hskip fun t => hskip fun t => hskip fun t => hskip fun t => ?_
    cases hwrite : around.leafCertificateWrite with
    | done =>
      rw [writeCertificate, writeFile, Prog.wp_bind, Prog.wp_modify, Prog.wp_pure]
      exact ⟨rfl, by simp [certificateFile, bundleForSubject]⟩
    | refused => exact trivial
    | torn => exact trivial

/-- The bundles of the history are those of its subjects, and their certificates are in place. -/
structure Issuance.Tracked (config : PlatformCertificateAuthorityConfig)
    (subjects : Set PlatformCertificateSubject) (h : Issuance) : Prop where
  stocks : Stocks config subjects (h.returned.map fun x => certificateFile x.1) h.directory
  bundle : ∀ x ∈ h.returned, x.1 ∈ subjects ∧ x.2 = bundleForSubject config x.1

/-- The two subjects are given the same directory. -/
def SameDirectory (subject other : PlatformCertificateSubject) : Prop :=
  normal (issuedCertificateDir subject) = normal (issuedCertificateDir other)

instance : DecidableRel SameDirectory := fun _ _ => inferInstanceAs (Decidable (_ = _))

theorem certificateFile_eq_iff :
    certificateFile subject = certificateFile other ↔ SameDirectory subject other := by
  rw [certificateFile_eq, certificateFile_eq, List.append_left_inj, SameDirectory]

theorem tracked_step {h : Issuance} {call : Call} (htracked : h.Tracked config subjects)
    (hmem : call.subject ∈ subjects)
    (hown : ∀ other ∈ subjects, SameDirectory other call.subject → other = call.subject)
    (htorn : call.around.leafCertificateWrite ≠ .torn) :
    (h.step config call).Tracked config subjects := by
  have hkeeps := keeps_ensurePlatformMtlsCertificate
    (fun other hother he => hown other hother (certificateFile_eq_iff.mp he)) htorn h.directory
    htracked.stocks
  rcases hcall : ensurePlatformMtlsCertificate config call.around call.subject h.directory with
    ⟨_ | bundle, t⟩
  · rw [hcall] at hkeeps
    simp only [Issuance.step, hcall]
    exact ⟨hkeeps, htracked.bundle⟩
  · rw [hcall] at hkeeps
    obtain ⟨hbundle, hfile⟩ := wp_ensurePlatformMtlsCertificate.of_ok hcall
    simp only [Issuance.step, hcall]
    refine ⟨⟨hkeeps.1, ?_⟩, ?_⟩
    · rw [List.map_cons, List.forall_mem_cons]
      exact ⟨hfile, hkeeps.2⟩
    · rw [List.forall_mem_cons]
      exact ⟨⟨hmem, hbundle⟩, htracked.bundle⟩

theorem tracked_run {calls : List Call} {h : Issuance} (htracked : h.Tracked config subjects)
    (hmem : ∀ call ∈ calls, call.subject ∈ subjects)
    (hown : ∀ subject ∈ subjects, ∀ other ∈ subjects, SameDirectory other subject → other = subject)
    (htorn : ∀ call ∈ calls, call.around.leafCertificateWrite ≠ .torn) :
    (calls.foldl (Issuance.step config) h).Tracked config subjects := by
  induction calls generalizing h with
  | nil => exact htracked
  | cons call calls ih =>
    rw [List.forall_mem_cons] at hmem htorn
    exact ih (tracked_step htracked hmem.1 (hown _ hmem.1) htorn.1) hmem.2 htorn.2

theorem Issuance.Tracked.own {h : Issuance} (htracked : h.Tracked config subjects)
    (hown : ∀ subject ∈ subjects, ∀ other ∈ subjects,
      SameDirectory other subject → other = subject) : h.Own := by
  intro x hx
  obtain ⟨hsubject, hbundle⟩ := htracked.bundle x hx
  constructor
  · have hfile := htracked.stocks.2 (certificateFile x.1) (List.mem_map_of_mem hx)
    obtain ⟨file, hfile⟩ := Option.isSome_iff_exists.mp hfile
    rw [hbundle]
    exact hfile.trans (congrArg some (htracked.stocks.1 x.1 hsubject file hfile))
  · intro y hy hne he
    obtain ⟨hother, hbundle'⟩ := htracked.bundle y hy
    rw [hbundle, hbundle'] at he
    exact hne (hown _ hsubject _ hother (certificateFile_eq_iff.mp he))

theorem own_run {calls : List Call}
    (hdirectories : ∀ call ∈ calls, ∀ other ∈ calls,
      SameDirectory other.subject call.subject → other.subject = call.subject)
    (hwhole : ∀ call ∈ calls, call.around.leafCertificateWrite ≠ .torn) :
    (calls.foldl (Issuance.step config) {}).Own := by
  have hown : ∀ subject ∈ {s | ∃ call ∈ calls, call.subject = s},
      ∀ other ∈ {s | ∃ call ∈ calls, call.subject = s},
        SameDirectory other subject → other = subject := by
    rintro _ ⟨call, hcall, rfl⟩ _ ⟨other, hother, rfl⟩ hsame
    exact hdirectories call hcall other hother hsame
  have hstart : Issuance.Tracked config {s | ∃ call ∈ calls, call.subject = s} {} :=
    ⟨⟨by simp [Honest], by simp⟩, by simp⟩
  exact (tracked_run hstart (fun call hcall => ⟨call, hcall, rfl⟩) hown hwhole).own hown

/-- Two subjects of different directories, one of them asked for twice. -/
theorem own_run_twoWorkers :
    (([⟨⟨"worker", "a", "n", "worker/n"⟩, {}⟩, ⟨⟨"worker", "b", "n", "worker/n"⟩, {}⟩,
      ⟨⟨"worker", "a", "n", "worker/n"⟩, {}⟩] : List Call).foldl (Issuance.step {}) {}).Own :=
  own_run (by decide +kernel) (by decide +kernel)

/-- The second tenant is handed the certificate of the first. -/
theorem not_own_run_sanitized : ∃ first second,
    buildPlatformNodeCertificateSubject "worker" "a b" "n" = .ok first ∧
      buildPlatformNodeCertificateSubject "worker" "a-b" "n" = .ok second ∧
      ¬ (([⟨first, {}⟩, ⟨second, {}⟩] : List Call).foldl (Issuance.step {}) {}).Own :=
  ⟨⟨"worker", "a b", "n", "worker/n"⟩, ⟨"worker", "a-b", "n", "worker/n"⟩, by decide +kernel,
    by decide +kernel, by decide +kernel⟩

end Issuing

end StyioPlatform.Security
