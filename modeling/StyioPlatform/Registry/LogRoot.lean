import Mathlib.Data.Set.Function
import StyioPlatform.Lib.Sha2
import StyioPlatform.Registry.Verification

/-! The root hash of the log, by the control plane (`RegistryTrustMetadata.hpp`) and by the
publisher (`publisher.py`): both compute one chain of digests over the leaves, and the end of the
chain binds all of them. -/
namespace StyioPlatform.Registry

/-- `bytes.fromhex`, which passes over white space between the bytes; `none` where it raises. -/
def fromHex : List Char → Option Bytes
  | [] => some []
  | [c] => if isSpace c then some [] else none
  | c :: d :: rest =>
    if isSpace c then fromHex (d :: rest)
    else do
      let high ← hexValue c
      let low ← hexValue d
      let bytes ← fromHex rest
      pure (.ofNat (16 * high + low) :: bytes)

/-- One round of `_log_root_hash`. -/
def logRootStep (env : Environment) (state : Bytes) (leafHash : String) : Option Bytes :=
  (fromHex leafHash.toList).map fun bytes => env.sha256 (state ++ bytes)

/-- `_log_root_hash`; `none` where a digest is not hexadecimal. -/
def logRootHash (env : Environment) (leafHashes : List String) : Option String :=
  (leafHashes.foldlM (logRootStep env) (List.replicate 32 0)).map hexBytes

/-- A digest of 64 lowercase hexadecimal digits. -/
def IsLeafHash (text : String) : Prop :=
  text.toList.length = 64 ∧ ∀ c ∈ text.toList, c ∈ "0123456789abcdef".toList

instance : DecidablePred IsLeafHash :=
  fun _ => @instDecidableAnd _ _ _ (List.decidableBAll _ _)

/-- The bytes that a digest stands for. -/
def digestBytes (leafHash : String) : Bytes := (leafBytes leafHash.toList).getD []

/-- The state after the leaves. -/
def rootState (env : Environment) (state : Bytes) (leafHashes : List String) : Bytes :=
  leafHashes.foldl (fun state leafHash => env.sha256 (state ++ digestBytes leafHash)) state

/-- What is hashed on the way, one input a leaf. -/
def hashedInputs (env : Environment) : Bytes → List String → List Bytes
  | _, [] => []
  | state, leafHash :: rest =>
    (state ++ digestBytes leafHash) ::
      hashedInputs env (env.sha256 (state ++ digestBytes leafHash)) rest

/-- The inputs hashed for the root hash of a log. -/
def rootInputs (env : Environment) (leafHashes : List String) : List Bytes :=
  hashedInputs env (List.replicate 32 0) leafHashes

/-- What the root hashes of two logs say about the leaves. -/
structure RootBinds (env : Environment) (l m : List String) : Prop where
  agree : transparencyRootHash env l = logRootHash env l
  total : (transparencyRootHash env l).isSome
  resume : ∀ rootHash, transparencyRootHash env l = some rootHash →
    transparencyRootHash env (l ++ m) = resumeRootHash env rootHash m
  /-- With digests of 32 bytes, only inputs of 64 bytes are hashed. -/
  inputs : (∀ input, (env.sha256 input).length = 32) →
    ∀ input ∈ rootInputs env l, input.length = 64
  binds : l.length = m.length →
    Set.InjOn env.sha256 {input | input ∈ rootInputs env l ∨ input ∈ rootInputs env m} →
    transparencyRootHash env l = transparencyRootHash env m → l = m

variable {env : Environment} {l m : List String} {state : Bytes} {leafHash leafHash' : String}

theorem hexValue_of_mem {c : Char} (h : c ∈ "0123456789abcdef".toList) :
    isSpace c = false ∧ ∃ x < 16, hexValue c = some x ∧ x.digitChar = c := by
  obtain ⟨x, hx, rfl⟩ : ∃ x < 16, Nat.digitChar x = c := by
    simp only [String.reduceToList, List.mem_cons, List.not_mem_nil, or_false] at h
    rcases h with rfl | rfl | rfl | rfl | rfl | rfl | rfl | rfl | rfl | rfl | rfl | rfl | rfl | rfl |
      rfl | rfl
    exacts [⟨0, by decide⟩, ⟨1, by decide⟩, ⟨2, by decide⟩, ⟨3, by decide⟩, ⟨4, by decide⟩,
      ⟨5, by decide⟩, ⟨6, by decide⟩, ⟨7, by decide⟩, ⟨8, by decide⟩, ⟨9, by decide⟩,
      ⟨10, by decide⟩, ⟨11, by decide⟩, ⟨12, by decide⟩, ⟨13, by decide⟩, ⟨14, by decide⟩,
      ⟨15, by decide⟩]
  refine ⟨?_, x, hx, hexValue_digitChar hx, rfl⟩
  clear h
  revert x
  decide

/-- Both readers find the same bytes in pairs of digits, and the bytes determine the digits. -/
theorem bytes_of_digits : ∀ {digits : List Char}, 2 ∣ digits.length →
    (∀ c ∈ digits, c ∈ "0123456789abcdef".toList) → ∃ bytes, leafBytes digits = some bytes ∧
      fromHex digits = some bytes ∧ bytes.flatMap hexByte = digits
  | [], _, _ => ⟨[], rfl, rfl, rfl⟩
  | [c], heven, _ => by
    rw [List.length_singleton] at heven
    omega
  | c :: d :: rest, heven, hall => by
    have hrest : 2 ∣ rest.length := by
      simp only [List.length_cons] at heven
      omega
    obtain ⟨bytes, hleaf, hfrom, hwritten⟩ := bytes_of_digits hrest fun e he =>
      hall e (List.mem_cons_of_mem _ (List.mem_cons_of_mem _ he))
    obtain ⟨hspace, x, hx, hxvalue, hxdigit⟩ := hexValue_of_mem (hall c (by simp))
    obtain ⟨-, y, hy, hyvalue, hydigit⟩ := hexValue_of_mem (hall d (by simp))
    have hbyte : (UInt8.ofNat (16 * x + y)).toNat = 16 * x + y := by
      rw [UInt8.toNat_ofNat']
      omega
    refine ⟨.ofNat (16 * x + y) :: bytes, ?_, ?_, ?_⟩
    · simp [leafBytes, stoiHex, hxvalue, hyvalue, hleaf]
    · simp [fromHex, hspace, hxvalue, hyvalue, hfrom]
    · have hhigh : (16 * x + y) / 16 = x := by omega
      have hlow : (16 * x + y) % 16 = y := by omega
      rw [List.flatMap_cons, hexByte, hbyte, hhigh, hlow, hxdigit, hydigit, hwritten]
      rfl

theorem bytes_of_isLeafHash (h : IsLeafHash leafHash) :
    leafBytes leafHash.toList = some (digestBytes leafHash) ∧
      fromHex leafHash.toList = some (digestBytes leafHash) ∧
      hexBytes (digestBytes leafHash) = leafHash := by
  obtain ⟨bytes, hleaf, hfrom, hwritten⟩ := bytes_of_digits (by rw [h.1]; decide) h.2
  have hdigest : digestBytes leafHash = bytes := by rw [digestBytes, hleaf, Option.getD_some]
  rw [hdigest]
  refine ⟨hleaf, hfrom, ?_⟩
  rw [hexBytes, hwritten, String.ofList_toList]

theorem length_hexByte (bytes : Bytes) : (bytes.flatMap hexByte).length = 2 * bytes.length := by
  induction bytes with
  | nil => rfl
  | cons byte bytes ih =>
    rw [List.flatMap_cons, List.length_append, ih, hexByte]
    simp only [List.length_cons, List.length_nil]
    omega

theorem length_digestBytes (h : IsLeafHash leafHash) : (digestBytes leafHash).length = 32 := by
  have hwritten := congrArg (fun text : String => text.toList.length) (bytes_of_isLeafHash h).2.2
  simp only [hexBytes, String.toList_ofList, length_hexByte, h.1] at hwritten
  omega

theorem digestBytes_injOn (h : IsLeafHash leafHash) (h' : IsLeafHash leafHash')
    (heq : digestBytes leafHash = digestBytes leafHash') : leafHash = leafHash' := by
  rw [← (bytes_of_isLeafHash h).2.2, heq, (bytes_of_isLeafHash h').2.2]

/-- Any round that decodes the digests in this way goes through the same states. -/
theorem foldlM_rootState {step : Bytes → String → Option Bytes} {decode : List Char → Option Bytes}
    (hstep : ∀ state leafHash, step state leafHash =
      (decode leafHash.toList).map fun bytes => env.sha256 (state ++ bytes))
    (hl : ∀ leafHash ∈ l, decode leafHash.toList = some (digestBytes leafHash)) :
    l.foldlM step state = some (rootState env state l) := by
  induction l generalizing state with
  | nil => rfl
  | cons leafHash l ih =>
    rw [List.foldlM_cons, hstep, hl leafHash List.mem_cons_self]
    exact ih fun h hmem => hl h (List.mem_cons_of_mem _ hmem)

theorem transparencyRootHash_eq (hl : ∀ leafHash ∈ l, IsLeafHash leafHash) :
    transparencyRootHash env l = some (hexBytes (rootState env (List.replicate 32 0) l)) := by
  have hrounds := @foldlM_rootState env l (List.replicate 32 0) (transparencyStep env) leafBytes
    (fun _ _ => rfl) fun h hmem => (bytes_of_isLeafHash (hl h hmem)).1
  rw [transparencyRootHash, hrounds, Option.map_some]

theorem logRootHash_eq (hl : ∀ leafHash ∈ l, IsLeafHash leafHash) :
    logRootHash env l = some (hexBytes (rootState env (List.replicate 32 0) l)) := by
  have hrounds := @foldlM_rootState env l (List.replicate 32 0) (logRootStep env) fromHex
    (fun _ _ => rfl) fun h hmem => (bytes_of_isLeafHash (hl h hmem)).2.1
  rw [logRootHash, hrounds, Option.map_some]

theorem rootState_concat :
    rootState env state (l ++ [leafHash]) =
      env.sha256 (rootState env state l ++ digestBytes leafHash) := by
  simp [rootState]

theorem hashedInputs_concat : hashedInputs env state (l ++ [leafHash]) =
    hashedInputs env state l ++ [rootState env state l ++ digestBytes leafHash] := by
  induction l generalizing state with
  | nil => rfl
  | cons first l ih =>
    rw [List.cons_append, hashedInputs, ih, hashedInputs]
    rfl

theorem length_of_mem_hashedInputs (hdigest : ∀ input, (env.sha256 input).length = 32)
    (hl : ∀ leafHash ∈ l, IsLeafHash leafHash) (hstate : state.length = 32) :
    ∀ input ∈ hashedInputs env state l, input.length = 64 := by
  induction l generalizing state with
  | nil => simp [hashedInputs]
  | cons leafHash l ih =>
    intro input hinput
    rcases List.mem_cons.mp hinput with rfl | hinput
    · rw [List.length_append, hstate, length_digestBytes (hl leafHash List.mem_cons_self)]
    · exact ih (fun h hmem => hl h (List.mem_cons_of_mem _ hmem)) (hdigest _) input hinput

/-- Equal states come from equal leaves, unless two of the inputs collide. The induction takes the
last leaf away: its input holds the state before it. -/
theorem eq_of_rootState_eq (hl : ∀ leafHash ∈ l, IsLeafHash leafHash)
    (hm : ∀ leafHash ∈ m, IsLeafHash leafHash) (hlength : l.length = m.length)
    (hcollide : Set.InjOn env.sha256
      {input | input ∈ hashedInputs env state l ∨ input ∈ hashedInputs env state m})
    (heq : rootState env state l = rootState env state m) : l = m := by
  induction l using List.reverseRecOn generalizing m with
  | nil => exact (List.length_eq_zero_iff.mp hlength.symm).symm
  | append_singleton l leafHash ih =>
    obtain ⟨m, leafHash', rfl⟩ : ∃ m' leafHash', m = m' ++ [leafHash'] := by
      rcases List.eq_nil_or_concat m with rfl | ⟨m', leafHash', hconcat⟩
      · simp at hlength
      · exact ⟨m', leafHash', by simpa using hconcat⟩
    simp only [List.length_append, List.length_singleton, Nat.add_right_cancel_iff] at hlength
    have hleaf := hl leafHash (by simp)
    have hleaf' := hm leafHash' (by simp)
    simp only [hashedInputs_concat, List.mem_append, List.mem_singleton] at hcollide
    rw [rootState_concat, rootState_concat] at heq
    have hinput := hcollide (Or.inl (Or.inr rfl)) (Or.inr (Or.inr rfl)) heq
    obtain ⟨hstate, hbytes⟩ := List.append_inj' hinput
      (by rw [length_digestBytes hleaf, length_digestBytes hleaf'])
    have hbefore := ih (fun h hmem => hl h (List.mem_append_left _ hmem))
      (fun h hmem => hm h (List.mem_append_left _ hmem)) hlength
      (hcollide.mono fun input hin => hin.imp Or.inl Or.inl) hstate
    rw [hbefore, digestBytes_injOn hleaf hleaf' hbytes]

theorem checkpoint_binds_log (hl : ∀ leafHash ∈ l, IsLeafHash leafHash)
    (hm : ∀ leafHash ∈ m, IsLeafHash leafHash) : RootBinds env l m where
  agree := (transparencyRootHash_eq hl).trans (logRootHash_eq hl).symm
  total := by
    rw [transparencyRootHash_eq hl]
    rfl
  resume rootHash hroot := by
    have hboth : ∀ leafHash ∈ l ++ m, IsLeafHash leafHash := by
      intro leafHash hmem
      rcases List.mem_append.mp hmem with hmem | hmem
      · exact hl leafHash hmem
      · exact hm leafHash hmem
    have hroot' := @transparencyRootHash_eq env _ hboth
    rw [hroot']
    exact (resumeRootHash_append hroot hroot').symm
  inputs hdigest := length_of_mem_hashedInputs hdigest hl (List.length_replicate ..)
  binds hlength hcollide heq := by
    rw [transparencyRootHash_eq hl, transparencyRootHash_eq hm] at heq
    exact eq_of_rootState_eq hl hm hlength hcollide (hexBytes_injective (Option.some.inj heq))

/-- The sample environment with SHA-256 itself. -/
def hashingEnvironment : Environment := { sampleEnvironment with sha256 := Sha2.digest }

/-- The digest of "abc" and that of the empty text. -/
def sampleLeafHashes : List String :=
  ["ba7816bf8f01cfea414140de5dae2223b00361a396177a9cb410ff61f20015ad",
    "e3b0c44298fc1c149afbf4c8996fb92427ae41e4649b934ca495991b7852b855"]

theorem checkpoint_binds_log_sample :
    RootBinds hashingEnvironment sampleLeafHashes sampleLeafHashes.reverse :=
  checkpoint_binds_log (by decide +kernel) (by decide +kernel)

end StyioPlatform.Registry
