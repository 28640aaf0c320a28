import StyioPlatform.Storage.ObjectStore
import StyioPlatform.Workspace.Records

/-! Object keys of artifacts (`ObjectStore.cpp`): which tenants, workspaces, jobs and artifacts have
keys of their own. -/
namespace StyioPlatform.Storage

open Workspace

/-- The characters that `SanitizeKeyPart` keeps. -/
def keptInKey (c : Char) : Bool :=
  ('a' ≤ c && c ≤ 'z') || ('A' ≤ c && c ≤ 'Z') || ('0' ≤ c && c ≤ '9') ||
    c == '-' || c == '_' || c == '.'

/-- `SanitizeKeyPart`, which goes through the bytes of the text. -/
def sanitizeKeyPart (value : String) : Text :=
  let result := value.toList.flatMap fun c =>
    if keptInKey c then [c] else List.replicate c.utf8Size '_'
  if result = [] then "unset".toList else result

/-- What an object key names. -/
structure ArtifactOf where
  tenantId : String
  workspaceId : String
  jobId : String
  artifactName : String
  deriving DecidableEq

/-- What the keys of a workspace start with. -/
def workspacePrefix (a : ArtifactOf) : Text :=
  "tenants/".toList ++ sanitizeKeyPart a.tenantId ++
    "/workspaces/".toList ++ sanitizeKeyPart a.workspaceId

/-- `BuildArtifactObjectKey`. -/
def buildArtifactObjectKey (a : ArtifactOf) : Text :=
  workspacePrefix a ++
    "/jobs/".toList ++ sanitizeKeyPart a.jobId ++
    "/artifacts/".toList ++ sanitizeKeyPart a.artifactName

/-- The ids of a job that was submitted. -/
def Submitted (a : ArtifactOf) : Prop :=
  a.tenantId ≠ "" ∧ a.workspaceId ≠ "" ∧ ∃ sequence, a.jobId = jobIdFor sequence

/-- The key is taken as it is and names this artifact only, and no other tenant has artifacts under
its prefix. -/
def KeptApart (a : ArtifactOf) : Prop :=
  normalizeObjectKey (buildArtifactObjectKey a) = some (buildArtifactObjectKey a) ∧
    (∀ b, Submitted b → buildArtifactObjectKey b = buildArtifactObjectKey a → b = a) ∧
    ∀ b, Submitted b → workspacePrefix b = workspacePrefix a → b.tenantId = a.tenantId

/-- The characters that nothing else is replaced by. -/
def ownInKey (c : Char) : Bool := keptInKey c && c != '_'

/-- A part of a key that stands for itself only. -/
def OwnPart (value : String) : Prop :=
  (∀ c ∈ value.toList, ownInKey c = true) ∧ value ≠ "." ∧ value ≠ ".."

instance : DecidablePred OwnPart := fun _ => @instDecidableAnd _ _ (List.decidableBAll _ _) _

/-- Tenant, workspace and artifact stand for themselves, the artifact also beside the default. -/
def OwnKey (a : ArtifactOf) : Prop :=
  OwnPart a.tenantId ∧ OwnPart a.workspaceId ∧ OwnPart a.artifactName ∧
    a.artifactName ≠ "" ∧ a.artifactName ≠ "unset"

instance : DecidablePred OwnKey := fun _ => inferInstanceAs (Decidable (_ ∧ _ ∧ _ ∧ _ ∧ _))

variable {value value' : String} {c : Char} {a b : ArtifactOf}

section Parts

theorem keptInKey_of_ownInKey (h : ownInKey c = true) : keptInKey c = true := by
  rw [ownInKey, Bool.and_eq_true] at h
  exact h.1

theorem replicate_utf8Size_ne (c : Char) : List.replicate c.utf8Size '_' ≠ [] := by
  have hpos := c.utf8Size_pos
  rw [Ne, List.replicate_eq_nil_iff]
  omega

/-- The characters of a text that is not empty, replaced one after the other. -/
theorem sanitizeKeyPart_of_ne (h : value ≠ "") : sanitizeKeyPart value =
    value.toList.flatMap fun c => if keptInKey c then [c] else List.replicate c.utf8Size '_' := by
  have hlist : value.toList ≠ [] := fun hnil => h (String.toList_eq_nil_iff.mp hnil)
  obtain ⟨c, l, hcons⟩ := List.exists_cons_of_ne_nil hlist
  rw [sanitizeKeyPart, if_neg]
  rw [hcons, List.flatMap_cons, List.append_eq_nil_iff]
  rintro ⟨hfirst, -⟩
  split at hfirst
  · cases hfirst
  · exact replicate_utf8Size_ne c hfirst

theorem sanitizeKeyPart_empty : sanitizeKeyPart "" = "unset".toList := rfl

theorem keptInKey_of_mem (h : c ∈ sanitizeKeyPart value) : keptInKey c = true := by
  rcases eq_or_ne value "" with rfl | hne
  · rw [sanitizeKeyPart_empty] at h
    exact List.all_eq_true.mp (show "unset".toList.all keptInKey = true by decide) c h
  · rw [sanitizeKeyPart_of_ne hne, List.mem_flatMap] at h
    obtain ⟨d, -, hd⟩ := h
    split at hd
    · next hkept => rwa [List.mem_singleton.mp hd]
    · rw [(List.mem_replicate.mp hd).2]
      decide

theorem sanitizeKeyPart_ne_nil : sanitizeKeyPart value ≠ [] := by
  unfold sanitizeKeyPart
  dsimp only
  split
  · decide
  · assumption

/-- Texts of characters that are kept stay as they are. -/
theorem sanitizeKeyPart_of_kept (hne : value ≠ "") (h : ∀ c ∈ value.toList, keptInKey c = true) :
    sanitizeKeyPart value = value.toList := by
  rw [sanitizeKeyPart_of_ne hne]
  calc value.toList.flatMap (fun c => if keptInKey c then [c] else List.replicate c.utf8Size '_')
      = value.toList.flatMap fun c => [c] :=
        List.flatMap_congr fun c hc => if_pos (h c hc)
    _ = value.toList := List.flatMap_singleton' _

/-- A part that has only characters of its own comes from itself. -/
theorem eq_of_sanitizeKeyPart (hne : value' ≠ "") (hown : ∀ c ∈ value.toList, ownInKey c = true)
    (h : sanitizeKeyPart value' = value.toList) : value' = value := by
  have hkept : ∀ c ∈ value'.toList, keptInKey c = true := by
    intro c hc
    by_contra hnot
    have hmem : '_' ∈ sanitizeKeyPart value' := by
      rw [sanitizeKeyPart_of_ne hne, List.mem_flatMap]
      refine ⟨c, hc, ?_⟩
      rw [if_neg hnot, List.mem_replicate]
      exact ⟨by have := c.utf8Size_pos; omega, rfl⟩
    have hunderscore := hown '_' (h ▸ hmem)
    revert hunderscore
    decide
  rw [sanitizeKeyPart_of_kept hne hkept] at h
  exact String.toList_inj.mp h

/-- A part with another character comes from another text too. -/
theorem exists_other (hne : value ≠ "") (hother : ∃ c ∈ value.toList, ownInKey c = false) :
    ∃ value', value' ≠ "" ∧ value' ≠ value ∧ sanitizeKeyPart value' = sanitizeKeyPart value := by
  by_cases hkept : ∀ c ∈ value.toList, keptInKey c = true
  · -- an underscore also stands for a blank
    obtain ⟨c, hc, hown⟩ := hother
    obtain rfl : c = '_' := by
      have := hkept c hc
      simpa [ownInKey, this] using hown
    have hmapped : (String.ofList (value.toList.map fun c => if c = '_' then ' ' else c)) ≠ "" := by
      intro hnil
      have hlist := congrArg String.toList hnil
      rw [String.toList_ofList, String.toList_empty, List.map_eq_nil_iff] at hlist
      exact hne (String.toList_eq_nil_iff.mp hlist)
    refine ⟨_, hmapped, fun heq => ?_, ?_⟩
    · rw [← heq, String.toList_ofList, List.mem_map] at hc
      obtain ⟨d, -, hd⟩ := hc
      split at hd
      · cases hd
      · next hnot => exact hnot hd
    · rw [sanitizeKeyPart_of_ne hmapped, sanitizeKeyPart_of_ne hne, String.toList_ofList,
        List.flatMap_map]
      refine List.flatMap_congr fun d _ => ?_
      by_cases hd : d = '_'
      · rw [if_pos hd, hd]
        decide
      · rw [if_neg hd]
  · -- a text with replaced characters shares the key of its replacement
    have hclean : String.ofList (sanitizeKeyPart value) ≠ "" := by
      intro hnil
      have hlist := congrArg String.toList hnil
      rw [String.toList_ofList, String.toList_empty] at hlist
      exact sanitizeKeyPart_ne_nil hlist
    refine ⟨_, hclean, fun heq => hkept ?_, ?_⟩
    · rw [← heq, String.toList_ofList]
      exact fun c hc => keptInKey_of_mem hc
    · rw [sanitizeKeyPart_of_kept hclean, String.toList_ofList]
      rw [String.toList_ofList]
      exact fun c hc => keptInKey_of_mem hc

end Parts

section Keys

/-- The names between the separators. -/
def keyParts (a : ArtifactOf) : List Text :=
  ["tenants".toList, sanitizeKeyPart a.tenantId, "workspaces".toList, sanitizeKeyPart a.workspaceId,
    "jobs".toList, sanitizeKeyPart a.jobId, "artifacts".toList, sanitizeKeyPart a.artifactName]

/-- Names with separators around them, joined to texts between them. -/
theorem append_eq_intercalate {p q r s p' q' r' s' t u v w : Text} (hp : p' = p ++ ['/'])
    (hq : q' = '/' :: (q ++ ['/'])) (hr : r' = '/' :: (r ++ ['/'])) (hs : s' = '/' :: (s ++ ['/'])) :
    p' ++ t ++ q' ++ u ++ r' ++ v ++ s' ++ w = ['/'].intercalate [p, t, q, u, r, v, s, w] := by
  subst hp hq hr hs
  simp [List.intercalate]

theorem buildArtifactObjectKey_eq : buildArtifactObjectKey a = ['/'].intercalate (keyParts a) := by
  unfold buildArtifactObjectKey workspacePrefix keyParts
  exact append_eq_intercalate (by decide) (by decide) (by decide) (by decide)

theorem splitOn_buildArtifactObjectKey :
    (buildArtifactObjectKey a).splitOn '/' = keyParts a := by
  rw [buildArtifactObjectKey_eq]
  refine List.splitOn_intercalate _ (fun part hpart => ?_) (by simp [keyParts])
  have hsanitized : ∀ value, '/' ∉ sanitizeKeyPart value := by
    intro value hmem
    have := keptInKey_of_mem hmem
    revert this
    decide
  simp only [keyParts, List.mem_cons, List.not_mem_nil, or_false] at hpart
  rcases hpart with rfl | rfl | rfl | rfl | rfl | rfl | rfl | rfl
  · decide
  · exact hsanitized _
  · decide
  · exact hsanitized _
  · decide
  · exact hsanitized _
  · decide
  · exact hsanitized _

theorem congr_parts {t t' u u' v v' w w' p q r s : Text} (ht : t = t') (hu : u = u') (hv : v = v')
    (hw : w = w') : [p, t, q, u, r, v, s, w] = [p, t', q, u', r, v', s, w'] := by
  rw [ht, hu, hv, hw]

/-- Keys are equal exactly when their parts are. -/
theorem buildArtifactObjectKey_eq_iff : buildArtifactObjectKey a = buildArtifactObjectKey b ↔
    sanitizeKeyPart a.tenantId = sanitizeKeyPart b.tenantId ∧
    sanitizeKeyPart a.workspaceId = sanitizeKeyPart b.workspaceId ∧
    sanitizeKeyPart a.jobId = sanitizeKeyPart b.jobId ∧
    sanitizeKeyPart a.artifactName = sanitizeKeyPart b.artifactName := by
  constructor
  · intro h
    have hparts := congrArg (List.splitOn '/') h
    rw [splitOn_buildArtifactObjectKey, splitOn_buildArtifactObjectKey, keyParts, keyParts] at hparts
    obtain ⟨htenant, hparts⟩ := List.cons.inj (List.cons.inj hparts).2
    obtain ⟨hworkspace, hparts⟩ := List.cons.inj (List.cons.inj hparts).2
    obtain ⟨hjob, hparts⟩ := List.cons.inj (List.cons.inj hparts).2
    obtain ⟨hartifact, -⟩ := List.cons.inj (List.cons.inj hparts).2
    exact ⟨htenant, hworkspace, hjob, hartifact⟩
  · rintro ⟨htenant, hworkspace, hjob, hartifact⟩
    have hparts : keyParts a = keyParts b := by
      unfold keyParts
      exact congr_parts htenant hworkspace hjob hartifact
    exact buildArtifactObjectKey_eq.trans ((congrArg _ hparts).trans buildArtifactObjectKey_eq.symm)

theorem keptInKey_of_mem_keyParts {part : Text} (h : part ∈ keyParts a) (hc : c ∈ part) :
    keptInKey c = true := by
  have hname : ∀ name : Text, name.all keptInKey = true → c ∈ name → keptInKey c = true :=
    fun name hall => List.all_eq_true.mp hall c
  simp only [keyParts, List.mem_cons, List.not_mem_nil, or_false] at h
  rcases h with rfl | rfl | rfl | rfl | rfl | rfl | rfl | rfl
  · exact hname _ (by decide) hc
  · exact keptInKey_of_mem hc
  · exact hname _ (by decide) hc
  · exact keptInKey_of_mem hc
  · exact hname _ (by decide) hc
  · exact keptInKey_of_mem hc
  · exact hname _ (by decide) hc
  · exact keptInKey_of_mem hc

theorem workspacePrefix_eq (h : workspacePrefix a = workspacePrefix b) :
    sanitizeKeyPart a.tenantId = sanitizeKeyPart b.tenantId := by
  have hkeys : buildArtifactObjectKey ⟨a.tenantId, a.workspaceId, b.jobId, b.artifactName⟩ =
      buildArtifactObjectKey b := by
    unfold buildArtifactObjectKey
    exact congrArg (fun p => p ++ "/jobs/".toList ++ sanitizeKeyPart b.jobId ++
      "/artifacts/".toList ++ sanitizeKeyPart b.artifactName) h
  exact (buildArtifactObjectKey_eq_iff.mp hkeys).1

theorem forall_mem_keyParts : (∀ part ∈ keyParts a, isCanonicalPart part = true) ↔
    isCanonicalPart (sanitizeKeyPart a.tenantId) = true ∧
    isCanonicalPart (sanitizeKeyPart a.workspaceId) = true ∧
    isCanonicalPart (sanitizeKeyPart a.jobId) = true ∧
    isCanonicalPart (sanitizeKeyPart a.artifactName) = true := by
  have htenants : isCanonicalPart "tenants".toList = true := by decide
  have hworkspaces : isCanonicalPart "workspaces".toList = true := by decide
  have hjobs : isCanonicalPart "jobs".toList = true := by decide
  have hartifacts : isCanonicalPart "artifacts".toList = true := by decide
  simp only [keyParts, List.forall_mem_cons, htenants, hworkspaces, hjobs, hartifacts, true_and,
    List.not_mem_nil, IsEmpty.forall_iff, implies_true, and_true]

/-- The key is taken as it is unless one of its parts is the name of a directory itself or of the
one above it. -/
theorem normalizeObjectKey_build_iff :
    normalizeObjectKey (buildArtifactObjectKey a) = some (buildArtifactObjectKey a) ↔
      isCanonicalPart (sanitizeKeyPart a.tenantId) = true ∧
      isCanonicalPart (sanitizeKeyPart a.workspaceId) = true ∧
      isCanonicalPart (sanitizeKeyPart a.jobId) = true ∧
      isCanonicalPart (sanitizeKeyPart a.artifactName) = true := by
  have hdrop : (buildArtifactObjectKey a).dropWhile (· = '/') = buildArtifactObjectKey a := rfl
  have hne : buildArtifactObjectKey a ≠ [] := List.cons_ne_nil _ _
  have hlast : (buildArtifactObjectKey a).getLast? ≠ some '/' := by
    intro hslash
    have happend : (buildArtifactObjectKey a).getLast? = (sanitizeKeyPart a.artifactName).getLast? :=
      List.getLast?_append_of_ne_nil _ sanitizeKeyPart_ne_nil
    have hkept := keptInKey_of_mem (List.mem_of_getLast? (happend.symm.trans hslash))
    revert hkept
    decide
  have hbackslash : '\\' ∉ buildArtifactObjectKey a := by
    intro hmem
    rw [buildArtifactObjectKey_eq] at hmem
    rcases eq_or_mem_of_mem_intercalate hmem with hslash | ⟨part, hpart, hmem⟩
    · cases hslash
    · have hkept := keptInKey_of_mem_keyParts hpart hmem
      revert hkept
      decide
  have hlines : lines (buildArtifactObjectKey a) = keyParts a := by
    unfold lines
    dsimp only
    rw [splitOn_buildArtifactObjectKey, if_neg]
    exact sanitizeKeyPart_ne_nil
  unfold normalizeObjectKey
  dsimp only
  rw [hdrop, hlines, if_neg (by simp only [hne, hlast, hbackslash, or_self, not_false_eq_true]),
    ← forall_mem_keyParts]
  simp only [List.all_eq_true, ite_eq_left_iff, reduceCtorEq, imp_false, not_not]

theorem isCanonicalPart_sanitizeKeyPart : isCanonicalPart (sanitizeKeyPart value) = true ↔
    value ≠ "." ∧ value ≠ ".." := by
  have hsame : ∀ name : String, name.toList.all ownInKey = true → name ≠ "" →
      name ≠ "unset" → (sanitizeKeyPart value = name.toList ↔ value = name) := by
    intro name hall hne hunset
    have hown := List.all_eq_true.mp hall
    constructor
    · intro h
      rcases eq_or_ne value "" with rfl | hvalue
      · rw [sanitizeKeyPart_empty] at h
        exact absurd (String.toList_inj.mp h).symm hunset
      · exact eq_of_sanitizeKeyPart hvalue hown h
    · rintro rfl
      exact sanitizeKeyPart_of_kept hne fun c hc => keptInKey_of_ownInKey (hown c hc)
  have hdot := hsame "." (by decide) (by decide) (by decide)
  have hdots := hsame ".." (by decide) (by decide) (by decide)
  rw [isCanonicalPart, decide_eq_true_iff, Ne, Ne, Ne, Ne, Ne, hdot, hdots]
  exact ⟨fun h => h.2, fun h => ⟨sanitizeKeyPart_ne_nil, h⟩⟩

/-- Parts of their own are those that are accepted and that no other name becomes. -/
theorem ownPart_iff (hne : value ≠ "") : OwnPart value ↔
    isCanonicalPart (sanitizeKeyPart value) = true ∧
      ∀ value', value' ≠ "" → sanitizeKeyPart value' = sanitizeKeyPart value → value' = value := by
  rw [isCanonicalPart_sanitizeKeyPart, OwnPart, and_comm]
  refine and_congr_right fun _ => ?_
  constructor
  · intro hown value' hne' h
    have hkept : sanitizeKeyPart value = value.toList :=
      sanitizeKeyPart_of_kept hne fun c hc => keptInKey_of_ownInKey (hown c hc)
    exact eq_of_sanitizeKeyPart hne' hown (h.trans hkept)
  · intro honly c hc
    by_contra hother
    obtain ⟨value', hne', hdifferent, hsame⟩ :=
      exists_other hne ⟨c, hc, Bool.eq_false_iff.mpr hother⟩
    exact hdifferent (honly value' hne' hsame)

/-- An artifact may have no name, which makes the default a second spelling. -/
theorem ownName_iff : (OwnPart value ∧ value ≠ "" ∧ value ≠ "unset") ↔
    isCanonicalPart (sanitizeKeyPart value) = true ∧
      ∀ value', sanitizeKeyPart value' = sanitizeKeyPart value → value' = value := by
  have hunset : sanitizeKeyPart "unset" = sanitizeKeyPart "" := by decide
  constructor
  · rintro ⟨hown, hne, hnotUnset⟩
    obtain ⟨hcanonical, honly⟩ := (ownPart_iff hne).mp hown
    refine ⟨hcanonical, fun value' h => ?_⟩
    rcases eq_or_ne value' "" with rfl | hne'
    · exact absurd (honly "unset" (by decide) (hunset.trans h)).symm hnotUnset
    · exact honly value' hne' h
  · rintro ⟨hcanonical, honly⟩
    have hne : value ≠ "" := by
      rintro rfl
      exact absurd (honly "unset" hunset) (by decide)
    refine ⟨(ownPart_iff hne).mpr ⟨hcanonical, fun value' _ h => honly value' h⟩, hne, ?_⟩
    rintro rfl
    exact absurd (honly "" hunset.symm) (by decide)

theorem ownInKey_of_isDigit (h : c.isDigit = true) : ownInKey c = true := by
  have hdigit : ('0' ≤ c && c ≤ '9') = true := h
  have hne : c ≠ '_' := by
    rintro rfl
    revert h
    decide
  simp only [ownInKey, keptInKey, hdigit, Bool.or_true, Bool.true_or, Bool.true_and, bne_iff_ne]
  exact hne

theorem ownPart_jobIdFor (sequence : ℕ) : OwnPart (jobIdFor sequence) ∧ jobIdFor sequence ≠ "" := by
  have hj : 'j' ∈ (jobIdFor sequence).toList := by
    rw [toList_jobIdFor]
    exact List.mem_append_left _ (by decide)
  have hname : ∀ name : String, 'j' ∉ name.toList → jobIdFor sequence ≠ name := by
    intro name hnot heq
    exact hnot (heq ▸ hj)
  refine ⟨⟨fun c hc => ?_, hname "." (by decide), hname ".." (by decide)⟩, hname "" (by decide)⟩
  rw [toList_jobIdFor, List.mem_append] at hc
  rcases hc with hc | hc
  · exact List.all_eq_true.mp (show "job-".toList.all ownInKey = true by decide) c hc
  · exact ownInKey_of_isDigit (isDigit_of_mem_paddedDigits hc)

/-- The names of an accepted request. -/
theorem submitted_of_accepted {request : Json} {region artifactName : String} {sequence : ℕ}
    {job : PlatformJobRecord} (hvalid : validateSubmitJobRequest request = none)
    (hjob : buildQueuedJobRecord request region (jobIdFor sequence) = some job) :
    Submitted ⟨job.tenantId, job.workspaceId, job.jobId, artifactName⟩ := by
  obtain ⟨region', -, rfl⟩ := Option.map_eq_some_iff.mp hjob
  have hmissing : missingField request ["tenant_id", "user_id", "workspace_id", "action"] = none := by
    unfold validateSubmitJobRequest at hvalid
    split at hvalid
    · cases hvalid
    · split at hvalid
      · cases hvalid
      · assumption
  have hpresent : ∀ field ∈ ["tenant_id", "user_id", "workspace_id", "action"],
      (request.textField field).getD "" ≠ "" := by
    intro field hfield hempty
    have hfound := List.find?_eq_none.mp (Option.map_eq_none_iff.mp hmissing) field hfield
    refine hfound ?_
    rw [Json.nonEmptyField]
    cases htext : request.textField field with
    | none => rfl
    | some text =>
      rw [htext] at hempty
      simp only [Option.getD_some] at hempty
      rw [hempty]
      rfl
  exact ⟨hpresent "tenant_id" (by decide), hpresent "workspace_id" (by decide), sequence, rfl⟩

/-- An artifact has a key of its own exactly when its tenant, workspace and name stand for
themselves. -/
theorem keptApart_iff_ownKey (h : Submitted a) : KeptApart a ↔ OwnKey a := by
  obtain ⟨tenant, workspace, job, artifact⟩ := a
  obtain ⟨htenant, hworkspace, sequence, rfl⟩ := h
  obtain ⟨hjob, hjobNe⟩ := ownPart_jobIdFor sequence
  constructor
  · rintro ⟨haccepted, honly, -⟩
    obtain ⟨htenantCanonical, hworkspaceCanonical, -, hartifactCanonical⟩ :=
      normalizeObjectKey_build_iff.mp haccepted
    refine ⟨(ownPart_iff htenant).mpr ⟨htenantCanonical, ?_⟩,
      (ownPart_iff hworkspace).mpr ⟨hworkspaceCanonical, ?_⟩,
      ownName_iff.mpr ⟨hartifactCanonical, ?_⟩⟩
    · intro tenant' hne hsame
      have hother := honly ⟨tenant', workspace, jobIdFor sequence, artifact⟩
        ⟨hne, hworkspace, sequence, rfl⟩ (buildArtifactObjectKey_eq_iff.mpr ⟨hsame, rfl, rfl, rfl⟩)
      exact (ArtifactOf.mk.inj hother).1
    · intro workspace' hne hsame
      have hother := honly ⟨tenant, workspace', jobIdFor sequence, artifact⟩
        ⟨htenant, hne, sequence, rfl⟩ (buildArtifactObjectKey_eq_iff.mpr ⟨rfl, hsame, rfl, rfl⟩)
      exact (ArtifactOf.mk.inj hother).2.1
    · intro artifact' hsame
      have hother := honly ⟨tenant, workspace, jobIdFor sequence, artifact'⟩
        ⟨htenant, hworkspace, sequence, rfl⟩
        (buildArtifactObjectKey_eq_iff.mpr ⟨rfl, rfl, rfl, hsame⟩)
      exact (ArtifactOf.mk.inj hother).2.2.2
  · rintro ⟨htenantOwn, hworkspaceOwn, hartifactOwn⟩
    obtain ⟨htenantCanonical, htenantOnly⟩ := (ownPart_iff htenant).mp htenantOwn
    obtain ⟨hworkspaceCanonical, hworkspaceOnly⟩ := (ownPart_iff hworkspace).mp hworkspaceOwn
    obtain ⟨hjobCanonical, hjobOnly⟩ := (ownPart_iff hjobNe).mp hjob
    obtain ⟨hartifactCanonical, hartifactOnly⟩ := ownName_iff.mp hartifactOwn
    refine ⟨normalizeObjectKey_build_iff.mpr
      ⟨htenantCanonical, hworkspaceCanonical, hjobCanonical, hartifactCanonical⟩, ?_,
      fun b hb hprefix => htenantOnly _ hb.1 (workspacePrefix_eq hprefix)⟩
    rintro ⟨tenant', workspace', job', artifact'⟩ ⟨htenant', hworkspace', sequence', rfl⟩ hkey
    obtain ⟨hsameTenant, hsameWorkspace, hsameJob, hsameArtifact⟩ :=
      buildArtifactObjectKey_eq_iff.mp hkey
    have hjobEq := hjobOnly _ (ownPart_jobIdFor sequence').2 hsameJob
    exact (ArtifactOf.mk.injEq ..).mpr ⟨htenantOnly _ htenant' hsameTenant,
      hworkspaceOnly _ hworkspace' hsameWorkspace, hjobEq, hartifactOnly _ hsameArtifact⟩

theorem keptApart_iff_ownKey_sample :
    Submitted ⟨"tenant-acme", "workspace-main", jobIdFor 7, "stdout.log"⟩ ∧
      (KeptApart ⟨"tenant-acme", "workspace-main", jobIdFor 7, "stdout.log"⟩ ↔
        OwnKey ⟨"tenant-acme", "workspace-main", jobIdFor 7, "stdout.log"⟩) :=
  ⟨⟨by decide, by decide, 7, rfl⟩, keptApart_iff_ownKey ⟨by decide, by decide, 7, rfl⟩⟩

/-- Two tenants with one key, and a tenant whose keys are refused. -/
theorem tenants_share_key :
    Submitted ⟨"tenant/acme", "main", jobIdFor 7, "stdout.log"⟩ ∧
      Submitted ⟨"tenant_acme", "main", jobIdFor 7, "stdout.log"⟩ ∧
      buildArtifactObjectKey ⟨"tenant/acme", "main", jobIdFor 7, "stdout.log"⟩ =
        buildArtifactObjectKey ⟨"tenant_acme", "main", jobIdFor 7, "stdout.log"⟩ ∧
      Submitted ⟨".", "main", jobIdFor 7, "stdout.log"⟩ ∧
      normalizeObjectKey (buildArtifactObjectKey ⟨".", "main", jobIdFor 7, "stdout.log"⟩) = none := by
  refine ⟨⟨by decide, by decide, 7, rfl⟩, ⟨by decide, by decide, 7, rfl⟩, ?_,
    ⟨by decide, by decide, 7, rfl⟩, ?_⟩
  · exact buildArtifactObjectKey_eq_iff.mpr ⟨by decide, rfl, rfl, rfl⟩
  · decide +kernel

end Keys

end StyioPlatform.Storage
