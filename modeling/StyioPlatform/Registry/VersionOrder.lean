import StyioPlatform.Manifest.Document
import StyioPlatform.Registry.Identifiers

/-! The order of versions (`RegistryIdentifiers.hpp`, `common.py`), and the latest version of an
index. -/
namespace StyioPlatform.Registry

open Manifest (isSemver)

/-- `parse_semver_key`, of an ASCII text. -/
def parseSemverKey (version : String) : ℕ ×ₗ ℕ ×ₗ ℕ ×ₗ String :=
  match version.toList.splitOn '.' with
  | [major, minor, patch] =>
    if [major, minor, patch].all fun part => !part.isEmpty && part.all Char.isDigit then
      toLex (Nat.ofDigitChars 10 major 0, toLex (Nat.ofDigitChars 10 minor 0,
        toLex (Nat.ofDigitChars 10 patch 0, "")))
    else toLex (0, toLex (0, toLex (0, version)))
  | _ => toLex (0, toLex (0, toLex (0, version)))

/-- `sorted(versions, key=parse_semver_key)[-1]`. -/
def latestByKey (versions : List String) : String :=
  (versions.insertionSort fun a b => parseSemverKey a ≤ parseSemverKey b).getLastD ""

/-- The numbers of a version. -/
def numbers (version : String) : List ℕ :=
  (version.toList.splitOn '.').map fun part => Nat.ofDigitChars 10 part 0

/-- The numeric triple of a version. -/
def triple (version : String) : ℕ ×ₗ ℕ ×ₗ ℕ :=
  toLex ((numbers version).getD 0 0, toLex ((numbers version).getD 1 0, (numbers version).getD 2 0))

/-- The numbers are values of `int`. -/
def FitsInt (version : String) : Prop := ∀ n ∈ numbers version, n < 2 ^ 31

instance : DecidablePred FitsInt :=
  fun version => inferInstanceAs (Decidable (∀ n ∈ numbers version, n < 2 ^ 31))

/-- Two versions compare like their triples, in both languages. -/
def ComparedRight (a b : String) : Prop :=
  (versionLess a b = true ↔ triple a < triple b) ∧
    (parseSemverKey a < parseSemverKey b ↔ triple a < triple b)

/-- The greatest of some versions is found by both programs, in any order of the versions. -/
def LatestRight (versions : List String) : Prop :=
  ∃ latest ∈ versions, (∀ version ∈ versions, triple version ≤ triple latest) ∧
    ∀ order, order.Perm versions → latestVersion order = latest ∧ latestByKey order = latest

/-- Among versions whose numbers are values of `int`, the version has its place. -/
structure PlacedRight (a : String) : Prop where
  less : ∀ b, isSemver b = true → FitsInt b → ComparedRight a b
  greater : ∀ b, isSemver b = true → FitsInt b → ComparedRight b a
  latest : ∀ versions, a ∈ versions → (∀ b ∈ versions, isSemver b = true ∧ (b ≠ a → FitsInt b)) →
    versions.Pairwise (fun b c => triple b ≠ triple c) → LatestRight versions

section Sorting

variable {α β : Type} [LinearOrder β] {key : α → β} {r : α → α → Prop} [DecidableRel r] {l : List α}

/-- The last of a list that is sorted by a key is one of the greatest. -/
theorem getLastD_insertionSort (hr : ∀ a b, r a b ↔ key a ≤ key b) (hne : l ≠ []) (d : α) :
    (l.insertionSort r).getLastD d ∈ l ∧ ∀ x ∈ l, key x ≤ key ((l.insertionSort r).getLastD d) := by
  have : Std.Total r := ⟨fun a b => by rw [hr, hr]; exact le_total _ _⟩
  have : IsTrans α r := ⟨fun a b c hab hbc => by
    rw [hr] at hab hbc ⊢
    exact hab.trans hbc⟩
  have hsorted := List.pairwise_insertionSort r l
  have hmem : ∀ x, x ∈ l.insertionSort r ↔ x ∈ l := fun x => List.mem_insertionSort r
  have hne' : l.insertionSort r ≠ [] := by
    intro hnil
    rw [← List.length_eq_zero_iff, List.length_insertionSort, List.length_eq_zero_iff] at hnil
    exact hne hnil
  have hlast : (l.insertionSort r).getLastD d = (l.insertionSort r).getLast hne' := by
    rw [List.getLastD_eq_getLast?, List.getLast?_eq_some_getLast hne', Option.getD_some]
  rw [hlast]
  refine ⟨(hmem _).mp (List.getLast_mem hne'), fun x hx => ?_⟩
  rw [← hmem, ← List.dropLast_append_getLast hne'] at hx
  rw [← List.dropLast_append_getLast hne', List.pairwise_append] at hsorted
  rcases List.mem_append.mp hx with hx | hx
  · exact (hr _ _).mp (hsorted.2.2 x hx _ (List.mem_singleton_self _))
  · rw [List.mem_singleton.mp hx]

end Sorting

section Keys

variable {a b : String} {major minor patch : List Char}

/-- A text of digits that is not empty. -/
def IsNumeral (l : List Char) : Prop := l ≠ [] ∧ ∀ c ∈ l, c.isDigit = true

instance : DecidablePred IsNumeral := fun _ => @instDecidableAnd _ _ _ (List.decidableBAll _ _)

theorem exists_parts (h : isSemver a = true) : ∃ major minor patch,
    a.toList.splitOn '.' = [major, minor, patch] ∧ IsNumeral major ∧ IsNumeral minor ∧
      IsNumeral patch := by
  unfold isSemver at h
  split at h
  · next major minor patch hparts =>
    refine ⟨major, minor, patch, hparts, ?_⟩
    simpa [IsNumeral, List.isEmpty_iff] using h
  · cases h

theorem triple_eq (h : a.toList.splitOn '.' = [major, minor, patch]) :
    triple a = toLex (Nat.ofDigitChars 10 major 0, toLex (Nat.ofDigitChars 10 minor 0,
      Nat.ofDigitChars 10 patch 0)) := by
  rw [triple, numbers, h]
  rfl

theorem parseSemverKey_eq (h : a.toList.splitOn '.' = [major, minor, patch])
    (hmajor : IsNumeral major) (hminor : IsNumeral minor) (hpatch : IsNumeral patch) :
    parseSemverKey a = toLex (Nat.ofDigitChars 10 major 0, toLex (Nat.ofDigitChars 10 minor 0,
      toLex (Nat.ofDigitChars 10 patch 0, ""))) := by
  rw [parseSemverKey, h]
  refine if_pos ?_
  simpa [IsNumeral, List.isEmpty_iff] using And.intro hmajor ⟨hminor, hpatch⟩

theorem stoi_numeral {l : List Char} (h : IsNumeral l) :
    stoi l = if Nat.ofDigitChars 10 l 0 < 2 ^ 31 then some (Nat.ofDigitChars 10 l 0 : ℤ) else none := by
  have hnumber := leadingNumber_of_digits h.1 h.2
  obtain ⟨c, l, rfl⟩ := List.exists_cons_of_ne_nil h.1
  obtain ⟨hspace, hminus, hplus⟩ := digit_plain (h.2 c List.mem_cons_self)
  have hdrop : (c :: l).dropWhile isSpace = c :: l := by simp [List.dropWhile, hspace]
  simp only [stoi, hdrop]
  split
  · simp_all
  · simp_all
  · rw [hnumber, Option.bind_some]

/-- The numbers that are read, and the suffix where one of them is no `int`. -/
theorem parseVersion_eq (h : a.toList.splitOn '.' = [major, minor, patch])
    (hmajor : IsNumeral major) (hminor : IsNumeral minor) (hpatch : IsNumeral patch) :
    parseVersion a =
      if Nat.ofDigitChars 10 major 0 < 2 ^ 31 then
        if Nat.ofDigitChars 10 minor 0 < 2 ^ 31 then
          if Nat.ofDigitChars 10 patch 0 < 2 ^ 31 then
            toLex ((Nat.ofDigitChars 10 major 0 : ℤ), toLex ((Nat.ofDigitChars 10 minor 0 : ℤ),
              toLex ((Nat.ofDigitChars 10 patch 0 : ℤ), "")))
          else toLex ((Nat.ofDigitChars 10 major 0 : ℤ), toLex ((Nat.ofDigitChars 10 minor 0 : ℤ),
            toLex ((0 : ℤ), a)))
        else toLex ((Nat.ofDigitChars 10 major 0 : ℤ), toLex ((0 : ℤ), toLex ((0 : ℤ), a)))
      else toLex ((0 : ℤ), toLex ((0 : ℤ), toLex ((0 : ℤ), a))) := by
  have hpatchStoi := stoi_numeral hpatch
  obtain ⟨c, l, rfl⟩ := List.exists_cons_of_ne_nil hpatch.1
  rw [parseVersion, h]
  simp only [parseVersionParts, stoi_numeral hmajor, stoi_numeral hminor, hpatchStoi]
  by_cases hfitsMajor : Nat.ofDigitChars 10 major 0 < 2 ^ 31
  · by_cases hfitsMinor : Nat.ofDigitChars 10 minor 0 < 2 ^ 31
    · by_cases hfitsPatch : Nat.ofDigitChars 10 (c :: l) 0 < 2 ^ 31
      · simp only [hfitsMajor, hfitsMinor, hfitsPatch, if_true]
        rfl
      · simp only [hfitsMajor, hfitsMinor, hfitsPatch, if_true, if_false]
        rfl
    · simp only [hfitsMajor, hfitsMinor, if_true, if_false]
      rfl
  · simp only [hfitsMajor, if_false]
    rfl

theorem fitsInt_iff (h : a.toList.splitOn '.' = [major, minor, patch]) : FitsInt a ↔
    Nat.ofDigitChars 10 major 0 < 2 ^ 31 ∧ Nat.ofDigitChars 10 minor 0 < 2 ^ 31 ∧
      Nat.ofDigitChars 10 patch 0 < 2 ^ 31 := by
  rw [FitsInt, numbers, h]
  simp only [List.map_cons, List.map_nil, List.forall_mem_cons, List.not_mem_nil, IsEmpty.forall_iff,
    implies_true, and_true]

/-- Python compares the triples, whatever the numbers are. -/
theorem parseSemverKey_lt_iff (ha : isSemver a = true) (hb : isSemver b = true) :
    parseSemverKey a < parseSemverKey b ↔ triple a < triple b := by
  obtain ⟨major, minor, patch, hparts, hmajor, hminor, hpatch⟩ := exists_parts ha
  obtain ⟨major', minor', patch', hparts', hmajor', hminor', hpatch'⟩ := exists_parts hb
  rw [parseSemverKey_eq hparts hmajor hminor hpatch, parseSemverKey_eq hparts' hmajor' hminor' hpatch',
    triple_eq hparts, triple_eq hparts']
  simp only [Prod.Lex.toLex_lt_toLex, lt_irrefl, and_false, or_false]

/-- The program compares the triples where the numbers are values of `int`. -/
theorem parseVersion_lt_iff (ha : isSemver a = true) (hb : isSemver b = true) (hfa : FitsInt a)
    (hfb : FitsInt b) : parseVersion a < parseVersion b ↔ triple a < triple b := by
  obtain ⟨major, minor, patch, hparts, hmajor, hminor, hpatch⟩ := exists_parts ha
  obtain ⟨major', minor', patch', hparts', hmajor', hminor', hpatch'⟩ := exists_parts hb
  obtain ⟨hx, hy, hz⟩ := (fitsInt_iff hparts).mp hfa
  obtain ⟨hx', hy', hz'⟩ := (fitsInt_iff hparts').mp hfb
  rw [parseVersion_eq hparts hmajor hminor hpatch, if_pos hx, if_pos hy, if_pos hz,
    parseVersion_eq hparts' hmajor' hminor' hpatch', if_pos hx', if_pos hy', if_pos hz',
    triple_eq hparts, triple_eq hparts']
  simp only [Prod.Lex.toLex_lt_toLex, Int.ofNat_lt, Int.ofNat_inj, lt_irrefl, and_false, or_false]

theorem comparedRight (ha : isSemver a = true) (hb : isSemver b = true) (hfa : FitsInt a)
    (hfb : FitsInt b) : ComparedRight a b := by
  refine ⟨?_, parseSemverKey_lt_iff ha hb⟩
  rw [versionLess, decide_eq_true_iff, parseVersion_lt_iff ha hb hfa hfb]

end Keys

section Lists

variable {versions order : List String} {latest : String}

/-- Of versions with different triples one is the greatest. -/
theorem eq_of_greatest {a b : String} (hdistinct : versions.Pairwise fun b c => triple b ≠ triple c)
    (ha : a ∈ versions) (hb : b ∈ versions) (hgreatest : ∀ version ∈ versions, triple version ≤ triple a)
    (hgreatest' : ∀ version ∈ versions, triple version ≤ triple b) : a = b :=
  List.inj_on_of_nodup_map (List.pairwise_map.mpr hdistinct) ha hb
    (le_antisymm (hgreatest' a ha) (hgreatest b hb))

/-- The program finds a greatest version. -/
theorem latestVersion_greatest (hne : versions ≠ [])
    (hsemver : ∀ version ∈ versions, isSemver version = true ∧ FitsInt version) :
    latestVersion versions ∈ versions ∧
      ∀ version ∈ versions, triple version ≤ triple (latestVersion versions) := by
  have hr : ∀ a b, versionLess b a = false ↔ parseVersion a ≤ parseVersion b := by
    intro a b
    rw [versionLess, decide_eq_false_iff_not, not_lt]
  obtain ⟨hmem, hgreatest⟩ : latestVersion versions ∈ versions ∧
      ∀ version ∈ versions, parseVersion version ≤ parseVersion (latestVersion versions) :=
    getLastD_insertionSort hr hne ""
  refine ⟨hmem, fun version hversion => ?_⟩
  obtain ⟨hlast, hlastFits⟩ := hsemver _ hmem
  obtain ⟨hv, hfits⟩ := hsemver version hversion
  rw [← not_lt, ← parseVersion_lt_iff hlast hv hlastFits hfits, not_lt]
  exact hgreatest version hversion

/-- Python finds a greatest version. -/
theorem latestByKey_greatest (hne : versions ≠ [])
    (hsemver : ∀ version ∈ versions, isSemver version = true) :
    latestByKey versions ∈ versions ∧
      ∀ version ∈ versions, triple version ≤ triple (latestByKey versions) := by
  obtain ⟨hmem, hgreatest⟩ : latestByKey versions ∈ versions ∧
      ∀ version ∈ versions, parseSemverKey version ≤ parseSemverKey (latestByKey versions) :=
    getLastD_insertionSort (fun _ _ => Iff.rfl) hne ""
  refine ⟨hmem, fun version hversion => ?_⟩
  rw [← not_lt, ← parseSemverKey_lt_iff (hsemver _ hmem) (hsemver version hversion), not_lt]
  exact hgreatest version hversion

theorem latestRight (hne : versions ≠ [])
    (hsemver : ∀ version ∈ versions, isSemver version = true ∧ FitsInt version)
    (hdistinct : versions.Pairwise fun b c => triple b ≠ triple c) : LatestRight versions := by
  obtain ⟨hmem, hgreatest⟩ := latestVersion_greatest hne hsemver
  refine ⟨latestVersion versions, hmem, hgreatest, fun order horder => ?_⟩
  have hne' : order ≠ [] := fun hnil => hne (List.nil_perm.mp (hnil ▸ horder))
  have hsemver' : ∀ version ∈ order, isSemver version = true ∧ FitsInt version :=
    fun version h => hsemver version (horder.mem_iff.mp h)
  obtain ⟨hmem', hgreatest'⟩ := latestVersion_greatest hne' hsemver'
  obtain ⟨hmem'', hgreatest''⟩ := latestByKey_greatest hne' fun version h => (hsemver' version h).1
  exact ⟨eq_of_greatest hdistinct (horder.mem_iff.mp hmem') hmem
      (fun version h => hgreatest' version (horder.mem_iff.mpr h)) hgreatest,
    eq_of_greatest hdistinct (horder.mem_iff.mp hmem'') hmem
      (fun version h => hgreatest'' version (horder.mem_iff.mpr h)) hgreatest⟩

end Lists

section Failures

variable {a : String} {major minor patch : List Char}

/-- A version made of numerals. -/
def versionOf (major minor patch : List Char) : String :=
  String.ofList (major ++ '.' :: (minor ++ '.' :: patch))

theorem splitOn_versionOf (hmajor : IsNumeral major) (hminor : IsNumeral minor)
    (hpatch : IsNumeral patch) :
    (versionOf major minor patch).toList.splitOn '.' = [major, minor, patch] := by
  have hdot : ∀ {l : List Char}, IsNumeral l → '.' ∉ l := fun h hmem =>
    absurd (h.2 '.' hmem) (by decide)
  rw [versionOf, String.toList_ofList, List.splitOn_append_cons_self_of_not_mem (hdot hmajor),
    List.splitOn_append_cons_self_of_not_mem (hdot hminor), List.splitOn_eq_singleton (hdot hpatch)]

theorem isSemver_of_parts (h : a.toList.splitOn '.' = [major, minor, patch])
    (hmajor : IsNumeral major) (hminor : IsNumeral minor) (hpatch : IsNumeral patch) :
    isSemver a = true := by
  rw [isSemver, h]
  simpa [IsNumeral, List.isEmpty_iff] using And.intro hmajor ⟨hminor, hpatch⟩

/-- A version with a number that is no `int` comes before a lower one. -/
theorem exists_misplaced (h : isSemver a = true) (hnot : ¬ FitsInt a) :
    ∃ b, isSemver b = true ∧ FitsInt b ∧ versionLess a b = true ∧ ¬ triple a < triple b := by
  obtain ⟨major, minor, patch, hparts, hmajor, hminor, hpatch⟩ := exists_parts h
  have hzero : IsNumeral ['0'] := by decide
  have hone : IsNumeral ['1'] := by decide
  have hzeroValue : Nat.ofDigitChars 10 ['0'] 0 = 0 := by decide
  have honeValue : Nat.ofDigitChars 10 ['1'] 0 = 1 := by decide
  have hkey := parseVersion_eq hparts hmajor hminor hpatch
  rw [fitsInt_iff hparts] at hnot
  by_cases hx : Nat.ofDigitChars 10 major 0 < 2 ^ 31
  · by_cases hy : Nat.ofDigitChars 10 minor 0 < 2 ^ 31
    · -- the patch is too large
      have hz : ¬ Nat.ofDigitChars 10 patch 0 < 2 ^ 31 := fun hz => hnot ⟨hx, hy, hz⟩
      have hb := splitOn_versionOf hmajor hminor hone
      have hfits : FitsInt (versionOf major minor ['1']) :=
        (fitsInt_iff hb).mpr ⟨hx, hy, by omega⟩
      refine ⟨_, isSemver_of_parts hb hmajor hminor hone, hfits, ?_, ?_⟩
      · rw [versionLess, decide_eq_true_iff, hkey, if_pos hx, if_pos hy, if_neg hz,
          parseVersion_eq hb hmajor hminor hone, if_pos hx, if_pos hy, if_pos (by omega), honeValue]
        simp only [Prod.Lex.toLex_lt_toLex, lt_irrefl, true_and, false_or]
        exact Or.inl (by decide)
      · rw [triple_eq hparts, triple_eq hb, honeValue]
        simp only [Prod.Lex.toLex_lt_toLex, lt_irrefl, true_and, false_or]
        omega
    · -- the minor number is too large
      have hb := splitOn_versionOf hmajor hone hzero
      have hfits : FitsInt (versionOf major ['1'] ['0']) :=
        (fitsInt_iff hb).mpr ⟨hx, by omega, by omega⟩
      refine ⟨_, isSemver_of_parts hb hmajor hone hzero, hfits, ?_, ?_⟩
      · rw [versionLess, decide_eq_true_iff, hkey, if_pos hx, if_neg hy,
          parseVersion_eq hb hmajor hone hzero, if_pos hx, if_pos (by omega), if_pos (by omega),
          honeValue, hzeroValue]
        simp only [Prod.Lex.toLex_lt_toLex, lt_irrefl, true_and, false_or]
        exact Or.inl (by decide)
      · rw [triple_eq hparts, triple_eq hb, honeValue, hzeroValue]
        simp only [Prod.Lex.toLex_lt_toLex, lt_irrefl, true_and, false_or]
        omega
  · -- the major number is too large
    have hb := splitOn_versionOf hone hzero hzero
    have hfits : FitsInt (versionOf ['1'] ['0'] ['0']) :=
      (fitsInt_iff hb).mpr ⟨by omega, by omega, by omega⟩
    refine ⟨_, isSemver_of_parts hb hone hzero hzero, hfits, ?_, ?_⟩
    · rw [versionLess, decide_eq_true_iff, hkey, if_neg hx, parseVersion_eq hb hone hzero hzero,
        if_pos (by omega), if_pos (by omega), if_pos (by omega), honeValue, hzeroValue]
      simp only [Prod.Lex.toLex_lt_toLex]
      exact Or.inl (by decide)
    · rw [triple_eq hparts, triple_eq hb, honeValue, hzeroValue]
      simp only [Prod.Lex.toLex_lt_toLex]
      omega

/-- The versions that have their place are those whose numbers are values of `int`. -/
theorem placedRight_iff (h : isSemver a = true) : PlacedRight a ↔ FitsInt a := by
  constructor
  · intro hplaced
    by_contra hnot
    obtain ⟨b, hb, hfits, hless, hgreater⟩ := exists_misplaced h hnot
    exact hgreater ((hplaced.less b hb hfits).1.mp hless)
  · intro hfits
    refine ⟨fun b hb hfits' => comparedRight h hb hfits hfits',
      fun b hb hfits' => comparedRight hb h hfits' hfits, ?_⟩
    intro versions hmem hversions hdistinct
    refine latestRight (List.ne_nil_of_mem hmem) (fun version hversion => ?_) hdistinct
    obtain ⟨hsemver, hothers⟩ := hversions version hversion
    refine ⟨hsemver, ?_⟩
    rcases eq_or_ne version a with rfl | hne
    · exact hfits
    · exact hothers hne

theorem placedRight_iff_sample :
    isSemver "1.10.0" = true ∧ (PlacedRight "1.10.0" ↔ FitsInt "1.10.0") :=
  ⟨by decide, placedRight_iff (by decide)⟩

/-- The program takes 2147483648.0.0 for a lower version than 1.0.0, and 1.0.0 for the latest of both;
Python does not. -/
theorem large_major_misplaced :
    isSemver "2147483648.0.0" = true ∧ isSemver "1.0.0" = true ∧
      versionLess "2147483648.0.0" "1.0.0" = true ∧ triple "1.0.0" < triple "2147483648.0.0" ∧
      latestVersion ["1.0.0", "2147483648.0.0"] = "1.0.0" ∧
      latestByKey ["1.0.0", "2147483648.0.0"] = "2147483648.0.0" := by
  decide +kernel

end Failures

end StyioPlatform.Registry
