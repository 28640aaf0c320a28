import StyioPlatform.Lib.Paths

/-! The identity that an mTLS certificate carries as a URI: how the certificate authority writes it
(`CertificateAuthority.cpp`) and how the control plane reads it back (`Identity.cpp`). -/
namespace StyioPlatform.Security

/-- The roles that `IsPlatformServiceRole` knows. -/
def platformServiceRoles : List String :=
  ["control-plane", "worker", "registry-writer", "mirror", "operator", "cluster-registrar",
    "package-owner"]

def isPlatformServiceRole (role : String) : Bool := platformServiceRoles.contains role

structure MtlsIdentity where
  role : String
  tenantId : String
  nodeId : String
  deriving DecidableEq

def splitPath (input : List Char) : List String := (segments '/' input).map String.ofList

/-- The part after the first part equal to the key. -/
def valueAfter : List String → String → String
  | part :: value :: parts, key => if part = key then value else valueAfter (value :: parts) key
  | _, _ => ""

def spiffeStart : List Char := "spiffe://styio-platform/".toList

def parseMtlsUriSan (value : String) : Option MtlsIdentity :=
  if spiffeStart.isPrefixOf value.toList then
    let parts := splitPath (value.toList.drop spiffeStart.length)
    let identity : MtlsIdentity :=
      { role := valueAfter parts "role"
        tenantId := valueAfter parts "tenant"
        nodeId := valueAfter parts "node" }
    if !isPlatformServiceRole identity.role || identity.nodeId = "" then none else some identity
  else none

structure PlatformCertificateAuthorityConfig where
  spiffeTrustDomain : String := "styio-platform"

structure PlatformCertificateSubject where
  role : String
  tenantId : String
  nodeId : String
  commonName : String
  deriving DecidableEq

def requireSubjectValue (value field : String) : Except String String :=
  if value = "" then .error (field ++ " is required for platform certificate subject")
  else .ok value

def buildPlatformNodeCertificateSubject (role tenantId nodeId : String) :
    Except String PlatformCertificateSubject := do
  let role ← requireSubjectValue role "role"
  let tenantId ← requireSubjectValue tenantId "tenant_id"
  let nodeId ← requireSubjectValue nodeId "node_id"
  if !isPlatformServiceRole role then
    throw ("unsupported platform certificate role: " ++ role)
  return { role, tenantId, nodeId, commonName := role ++ "/" ++ nodeId }

def buildPlatformMtlsUriSan (config : PlatformCertificateAuthorityConfig)
    (subject : PlatformCertificateSubject) : String :=
  "spiffe://" ++ config.spiffeTrustDomain ++ "/tenant/" ++ subject.tenantId ++
    "/role/" ++ subject.role ++ "/node/" ++ subject.nodeId

/-- The identity that the subject stands for. -/
def PlatformCertificateSubject.identity (subject : PlatformCertificateSubject) : MtlsIdentity :=
  ⟨subject.role, subject.tenantId, subject.nodeId⟩

/-- What the authority accepts as a subject. -/
structure PlatformCertificateSubject.Accepted (subject : PlatformCertificateSubject) : Prop where
  role : subject.role ∈ platformServiceRoles
  tenantId : subject.tenantId ≠ ""
  nodeId : subject.nodeId ≠ ""
  commonName : subject.commonName = subject.role ++ "/" ++ subject.nodeId

variable {config : PlatformCertificateAuthorityConfig} {role tenantId nodeId : String}
  {subject other : PlatformCertificateSubject}

theorem build_eq_ok_iff : buildPlatformNodeCertificateSubject role tenantId nodeId = .ok subject ↔
    subject.Accepted ∧ subject.role = role ∧ subject.tenantId = tenantId ∧
      subject.nodeId = nodeId := by
  simp only [buildPlatformNodeCertificateSubject, requireSubjectValue]
  constructor
  · intro h
    by_cases hrole : role = "" <;> by_cases htenant : tenantId = "" <;>
      by_cases hnode : nodeId = "" <;> by_cases hservice : isPlatformServiceRole role <;>
      simp [hrole, htenant, hnode, hservice, bind, Except.bind, throw, throwThe,
        MonadExceptOf.throw, pure, Except.pure] at h
    subst h
    exact ⟨⟨by simpa [isPlatformServiceRole] using hservice, htenant, hnode, rfl⟩, rfl, rfl, rfl⟩
  · rintro ⟨haccepted, rfl, rfl, rfl⟩
    have hrole : subject.role ≠ "" := by
      intro he
      have := he ▸ haccepted.role
      simp [platformServiceRoles] at this
    have hservice : isPlatformServiceRole subject.role = true := by
      simpa [isPlatformServiceRole] using haccepted.role
    simp [hrole, haccepted.tenantId, haccepted.nodeId, hservice, bind, Except.bind, pure,
      Except.pure, ← haccepted.commonName]

theorem role_plain (h : role ∈ platformServiceRoles) :
    '/' ∉ role.toList ∧ role.toList ≠ [] ∧ role ≠ "role" ∧ role ≠ "node" := by
  have hall : ∀ role ∈ platformServiceRoles,
      '/' ∉ role.toList ∧ role.toList ≠ [] ∧ role ≠ "role" ∧ role ≠ "node" := by
    decide +kernel
  exact hall role h

/-- What follows the trust domain. -/
def sanBody (subject : PlatformCertificateSubject) : List Char :=
  "tenant".toList ++ '/' :: (subject.tenantId.toList ++ '/' :: ("role".toList ++
    '/' :: (subject.role.toList ++ '/' :: ("node".toList ++ '/' :: subject.nodeId.toList))))

theorem toList_uriSan (h : config.spiffeTrustDomain = "styio-platform") :
    (buildPlatformMtlsUriSan config subject).toList = spiffeStart ++ sanBody subject := by
  have hstart : spiffeStart = "spiffe://".toList ++ "styio-platform".toList ++ ['/'] := by
    decide +kernel
  have htenant : "/tenant/".toList = '/' :: ("tenant".toList ++ ['/']) := by decide +kernel
  have hrole : "/role/".toList = '/' :: ("role".toList ++ ['/']) := by decide +kernel
  have hnode : "/node/".toList = '/' :: ("node".toList ++ ['/']) := by decide +kernel
  simp only [buildPlatformMtlsUriSan, sanBody, hstart, htenant, hrole, hnode, h,
    String.toList_append, List.append_assoc, List.cons_append, List.nil_append]

theorem ne_nil_of_ne_empty {s : String} (h : s ≠ "") : s.toList ≠ [] := by
  simpa using h

theorem splitPath_of_not_mem {s : String} (h : '/' ∉ s.toList) (hne : s ≠ "") :
    splitPath s.toList = [s] := by
  rw [splitPath, segments_of_not_mem h (ne_nil_of_ne_empty hne), List.map_singleton,
    String.ofList_toList]

/-- The parts of a text start with the whole text only where it has no separator. -/
theorem not_mem_of_head?_splitPath {s : String} {rest : List String}
    (h : splitPath s.toList = s :: rest) : '/' ∉ s.toList := by
  obtain ⟨piece, pieces, hsegments, hpiece, -⟩ := List.map_eq_cons_iff.mp h
  rw [← hpiece, String.toList_ofList]
  exact not_mem_of_mem_segments (by rw [hsegments]; exact List.mem_cons_self)

theorem splitPath_sanBody (h : subject.role ∈ platformServiceRoles) :
    splitPath (sanBody subject) = "tenant" :: (splitPath subject.tenantId.toList ++
      "role" :: subject.role :: "node" :: splitPath subject.nodeId.toList) := by
  obtain ⟨hslash, hne, -, -⟩ := role_plain h
  have hsegments : segments '/' subject.role.toList = [subject.role.toList] :=
    segments_of_not_mem hslash hne
  simp only [splitPath, sanBody, segments_append_cons, hsegments,
    segments_of_not_mem (show '/' ∉ "tenant".toList by decide) (by decide),
    segments_of_not_mem (show '/' ∉ "role".toList by decide) (by decide),
    segments_of_not_mem (show '/' ∉ "node".toList by decide) (by decide), List.map_append,
    List.map_cons, String.ofList_toList, List.cons_append, List.nil_append]

theorem parseMtlsUriSan_eq (h : config.spiffeTrustDomain = "styio-platform") :
    parseMtlsUriSan (buildPlatformMtlsUriSan config subject) =
      let parts := splitPath (sanBody subject)
      if !isPlatformServiceRole (valueAfter parts "role") || valueAfter parts "node" = "" then none
      else some ⟨valueAfter parts "role", valueAfter parts "tenant", valueAfter parts "node"⟩ := by
  have hstart : spiffeStart.isPrefixOf (spiffeStart ++ sanBody subject) = true := by simp
  simp only [parseMtlsUriSan, toList_uriSan h, hstart, if_true, List.drop_left]

/-- The values from which the parts of the identity can be told again. -/
def Separable (tenantId nodeId : String) : Prop :=
  '/' ∉ tenantId.toList ∧ '/' ∉ nodeId.toList ∧ tenantId ≠ "role" ∧
    (tenantId = "node" → nodeId = "role")

instance (tenantId nodeId : String) : Decidable (Separable tenantId nodeId) :=
  inferInstanceAs (Decidable (_ ∧ _ ∧ _ ∧ _))

theorem parse_of_separable (h : config.spiffeTrustDomain = "styio-platform")
    (hsubject : subject.Accepted) (hseparable : Separable subject.tenantId subject.nodeId) :
    parseMtlsUriSan (buildPlatformMtlsUriSan config subject) = some subject.identity := by
  obtain ⟨htenant, hnode, hrole, hswapped⟩ := hseparable
  obtain ⟨-, -, hplain, hplain'⟩ := role_plain hsubject.role
  have hservice : isPlatformServiceRole subject.role = true := by
    simpa [isPlatformServiceRole] using hsubject.role
  have hparts : splitPath (sanBody subject) =
      ["tenant", subject.tenantId, "role", subject.role, "node", subject.nodeId] := by
    rw [splitPath_sanBody hsubject.role, splitPath_of_not_mem htenant hsubject.tenantId,
      splitPath_of_not_mem hnode hsubject.nodeId, List.singleton_append]
  have hvalue : valueAfter (splitPath (sanBody subject)) "node" = subject.nodeId := by
    rw [hparts]
    by_cases hname : subject.tenantId = "node"
    · simp [valueAfter, hname, hswapped hname]
    · simp [valueAfter, hname, hplain']
  rw [parseMtlsUriSan_eq h]
  simp only [hvalue]
  simp [hparts, valueAfter, hrole, hservice, hsubject.nodeId, PlatformCertificateSubject.identity]

theorem separable_of_parse (h : config.spiffeTrustDomain = "styio-platform")
    (hsubject : subject.Accepted)
    (hparse : parseMtlsUriSan (buildPlatformMtlsUriSan config subject) = some subject.identity) :
    Separable subject.tenantId subject.nodeId := by
  obtain ⟨-, -, hplain, hplain'⟩ := role_plain hsubject.role
  rw [parseMtlsUriSan_eq h] at hparse
  simp only [Option.ite_none_left_eq_some, Option.some.injEq, PlatformCertificateSubject.identity,
    MtlsIdentity.mk.injEq] at hparse
  obtain ⟨-, hrole, htenant, hnode⟩ := hparse
  rw [splitPath_sanBody hsubject.role] at hrole htenant hnode
  -- the part after `tenant` is the whole tenant
  have hslash : '/' ∉ subject.tenantId.toList := by
    cases hparts : splitPath subject.tenantId.toList with
    | nil =>
      have he : "role" = subject.tenantId := by simpa [hparts, valueAfter] using htenant
      rw [← he] at hparts
      exact absurd hparts (by decide +kernel)
    | cons first rest =>
      have he : first = subject.tenantId := by simpa [hparts, valueAfter] using htenant
      rw [he] at hparts
      exact not_mem_of_head?_splitPath hparts
  rw [splitPath_of_not_mem hslash hsubject.tenantId] at hrole hnode
  have hname : subject.tenantId ≠ "role" := by
    intro he
    simp [valueAfter, he] at hrole
    exact hplain hrole.symm
  by_cases hswapped : subject.tenantId = "node"
  · have he : "role" = subject.nodeId := by simpa [valueAfter, hswapped] using hnode
    exact ⟨hslash, he ▸ by decide, hname, fun _ => he.symm⟩
  · refine ⟨hslash, ?_, hname, fun he => absurd he hswapped⟩
    cases hparts : splitPath subject.nodeId.toList with
    | nil =>
      have he : "" = subject.nodeId := by
        simpa [hparts, valueAfter, hswapped, hplain'] using hnode
      exact absurd he.symm hsubject.nodeId
    | cons first rest =>
      have he : first = subject.nodeId := by
        simpa [hparts, valueAfter, hswapped, hplain'] using hnode
      rw [he] at hparts
      exact not_mem_of_head?_splitPath hparts

theorem splitOn_sanBody (h : subject.role ∈ platformServiceRoles) :
    (sanBody subject).splitOn '/' = "tenant".toList :: (subject.tenantId.toList.splitOn '/' ++
      "role".toList :: subject.role.toList :: "node".toList ::
        subject.nodeId.toList.splitOn '/') := by
  obtain ⟨hslash, -, -, -⟩ := role_plain h
  have hrole : subject.role.toList.splitOn '/' = [subject.role.toList] :=
    List.splitOn_eq_singleton hslash
  simp only [sanBody, List.splitOn_append_cons_self, hrole,
    List.splitOn_eq_singleton (show '/' ∉ "tenant".toList by decide),
    List.splitOn_eq_singleton (show '/' ∉ "role".toList by decide),
    List.splitOn_eq_singleton (show '/' ∉ "node".toList by decide), List.cons_append,
    List.nil_append]

theorem eq_of_splitOn_eq_singleton {s t : String} (h : s.toList.splitOn '/' = [t.toList]) :
    s = t := by
  have hjoin : List.intercalate ['/'] (s.toList.splitOn '/') = s.toList :=
    List.intercalate_splitOn '/'
  rw [h] at hjoin
  exact String.toList_inj.mp (by simpa using hjoin.symm)

/-- A URI whose tenant and node have no separator belongs to one subject: any other subject with
that URI has as many separators in it. -/
theorem eq_of_uriSan_eq (h : config.spiffeTrustDomain = "styio-platform")
    (hsubject : subject.Accepted) (hother : other.Accepted)
    (htenant : '/' ∉ subject.tenantId.toList) (hnode : '/' ∉ subject.nodeId.toList)
    (he : buildPlatformMtlsUriSan config other = buildPlatformMtlsUriSan config subject) :
    other = subject := by
  have hbody : sanBody other = sanBody subject := by
    have hlist := congrArg String.toList he
    rw [toList_uriSan h, toList_uriSan h] at hlist
    exact List.append_cancel_left hlist
  have hsplit := congrArg (List.splitOn '/') hbody
  rw [splitOn_sanBody hsubject.role, splitOn_sanBody hother.role,
    List.splitOn_eq_singleton htenant, List.splitOn_eq_singleton hnode] at hsplit
  cases htenants : other.tenantId.toList.splitOn '/' with
  | nil => exact absurd htenants (by simp)
  | cons first tenants =>
    cases hnodes : other.nodeId.toList.splitOn '/' with
    | nil => exact absurd hnodes (by simp)
    | cons node nodes =>
      rw [htenants, hnodes] at hsplit
      have hlength := congrArg List.length hsplit
      simp only [List.length_cons, List.length_append, List.length_nil] at hlength
      have hnil : tenants = [] := List.length_eq_zero_iff.mp (by omega)
      have hnil' : nodes = [] := List.length_eq_zero_iff.mp (by omega)
      subst hnil hnil'
      simp only [List.cons_append, List.nil_append, List.cons.injEq, true_and, and_true] at hsplit
      obtain ⟨hfirst, hrole, hlast⟩ := hsplit
      have htenantId : other.tenantId = subject.tenantId :=
        eq_of_splitOn_eq_singleton (hfirst ▸ htenants)
      have hnodeId : other.nodeId = subject.nodeId := eq_of_splitOn_eq_singleton (hlast ▸ hnodes)
      have hroles : other.role = subject.role := String.toList_inj.mp hrole
      have hcommon : other.commonName = subject.commonName := by
        rw [hother.commonName, hsubject.commonName, hroles, hnodeId]
      cases other
      cases subject
      simp_all

/-- The URI of a subject stands for that subject. -/
structure RoundTrips (config : PlatformCertificateAuthorityConfig)
    (subject : PlatformCertificateSubject) : Prop where
  parse : parseMtlsUriSan (buildPlatformMtlsUriSan config subject) = some subject.identity
  unique : ∀ role tenantId nodeId other,
    buildPlatformNodeCertificateSubject role tenantId nodeId = .ok other →
      buildPlatformMtlsUriSan config other = buildPlatformMtlsUriSan config subject →
        other = subject
  role : ∀ identity, parseMtlsUriSan (buildPlatformMtlsUriSan config subject) = some identity →
    identity.role = subject.role

theorem roundTrips_iff (hdomain : config.spiffeTrustDomain = "styio-platform")
    (h : buildPlatformNodeCertificateSubject role tenantId nodeId = .ok subject) :
    RoundTrips config subject ↔ Separable tenantId nodeId := by
  obtain ⟨haccepted, rfl, rfl, rfl⟩ := build_eq_ok_iff.mp h
  constructor
  · intro hround
    exact separable_of_parse hdomain haccepted hround.parse
  · intro hseparable
    have hparse := parse_of_separable hdomain haccepted hseparable
    refine ⟨hparse, ?_, ?_⟩
    · intro _ _ _ other hother he
      exact eq_of_uriSan_eq hdomain haccepted (build_eq_ok_iff.mp hother).1 hseparable.1
        hseparable.2.1 he
    · intro identity hidentity
      rw [hparse] at hidentity
      cases hidentity
      rfl

theorem roundTrips_worker : ∃ subject,
    buildPlatformNodeCertificateSubject "worker" "tenant-1" "node-1" = .ok subject ∧
      RoundTrips {} subject :=
  ⟨⟨"worker", "tenant-1", "node-1", "worker/node-1"⟩, by decide +kernel,
    (@roundTrips_iff {} "worker" "tenant-1" "node-1" _ rfl (by decide +kernel)).mpr
      (by decide +kernel)⟩

/-- A worker's certificate for a tenant of this name is read as the operator's. -/
theorem not_roundTrips_operator : ∃ subject,
    buildPlatformNodeCertificateSubject "worker" "a/role/operator" "node-1" = .ok subject ∧
      parseMtlsUriSan (buildPlatformMtlsUriSan {} subject) =
        some ⟨"operator", "a", "node-1"⟩ ∧ ¬ RoundTrips {} subject := by
  refine ⟨⟨"worker", "a/role/operator", "node-1", "worker/node-1"⟩, by decide +kernel,
    by decide +kernel, fun h => ?_⟩
  have hrole := h.role ⟨"operator", "a", "node-1"⟩ (by decide +kernel)
  exact absurd hrole (by decide)

end StyioPlatform.Security
