import Mathlib.Data.List.Lex
import Mathlib.Data.String.Basic

/-! Decimal numerals: the readers of the C++ standard library, and numerals padded with zeros,
which read back and, within their width, are ordered as text in the way they are as numbers. -/
namespace StyioPlatform

/-- The decimal digits of `n`, with zeros in front up to the given width. -/
def paddedDigits (width n : ℕ) : List Char :=
  List.replicate (width - (Nat.toDigits 10 n).length) '0' ++ Nat.toDigits 10 n

theorem ofDigitChars_paddedDigits (width n : ℕ) :
    Nat.ofDigitChars 10 (paddedDigits width n) 0 = n := by
  rw [paddedDigits, Nat.ofDigitChars_append]
  simp

theorem paddedDigits_injective (width : ℕ) : Function.Injective (paddedDigits width) := by
  intro m n h
  rw [← ofDigitChars_paddedDigits width m, h, ofDigitChars_paddedDigits]

theorem isDigit_of_mem_paddedDigits {width n : ℕ} {c : Char} (h : c ∈ paddedDigits width n) :
    c.isDigit := by
  rcases List.mem_append.mp h with h | h
  · rw [(List.mem_replicate.mp h).2]
    rfl
  · exact Nat.isDigit_of_mem_toDigits (by decide) (by decide) h

theorem paddedDigits_ne_nil (width n : ℕ) : paddedDigits width n ≠ [] := by
  simp [paddedDigits, Nat.toDigits_ne_nil]

theorem length_paddedDigits {width n : ℕ} (hw : 0 < width) (hn : n < 10 ^ width) :
    (paddedDigits width n).length = width := by
  have := (Nat.length_toDigits_le_iff (b := 10) (by decide) hw).mpr hn
  simp only [paddedDigits, List.length_append, List.length_replicate]
  omega

theorem digit_le {c : Char} (h : c.isDigit) : '0'.toNat ≤ c.toNat ∧ c.toNat ≤ '9'.toNat := by
  simp only [Char.isDigit, Bool.and_eq_true, decide_eq_true_eq] at h
  exact ⟨by simpa using UInt32.le_iff_toNat_le.mp h.1, by simpa using UInt32.le_iff_toNat_le.mp h.2⟩

theorem ofDigitChars_lt {l : List Char} (h : ∀ c ∈ l, c.isDigit) :
    Nat.ofDigitChars 10 l 0 < 10 ^ l.length := by
  induction l with
  | nil => simp
  | cons c l ih =>
    have hl := ih (fun d hd => h d (List.mem_cons_of_mem c hd))
    have hc := digit_le (h c List.mem_cons_self)
    rw [Nat.ofDigitChars_cons, Nat.ofDigitChars_eq_ofDigitChars_zero, List.length_cons, pow_succ]
    have hd : c.toNat - '0'.toNat ≤ 9 := by
      have : '9'.toNat = '0'.toNat + 9 := rfl
      omega
    have := Nat.mul_le_mul_left (10 ^ l.length) hd
    simp only [Nat.mul_zero, Nat.zero_add]
    omega

/-- Digit strings of one length compare as the numbers they denote. -/
theorem lt_of_ofDigitChars_lt {l m : List Char} (hl : ∀ c ∈ l, c.isDigit)
    (hm : ∀ c ∈ m, c.isDigit) (hlen : l.length = m.length)
    (h : Nat.ofDigitChars 10 l 0 < Nat.ofDigitChars 10 m 0) : l < m := by
  induction l generalizing m with
  | nil =>
    obtain rfl : m = [] := List.eq_nil_of_length_eq_zero hlen.symm
    simp at h
  | cons c l ih =>
    obtain ⟨d, m, rfl⟩ := List.exists_cons_of_length_eq_add_one hlen.symm
    have hlen' : l.length = m.length := by simpa using hlen
    have hl' : ∀ c ∈ l, c.isDigit := fun e he => hl e (List.mem_cons_of_mem c he)
    have hm' : ∀ c ∈ m, c.isDigit := fun e he => hm e (List.mem_cons_of_mem d he)
    have hc := digit_le (hl c List.mem_cons_self)
    have hd := digit_le (hm d List.mem_cons_self)
    rw [Nat.ofDigitChars_cons, Nat.ofDigitChars_cons, Nat.ofDigitChars_eq_ofDigitChars_zero,
      Nat.ofDigitChars_eq_ofDigitChars_zero (l := m), ← hlen'] at h
    have hlt := ofDigitChars_lt hm'
    rw [← hlen'] at hlt
    simp only [Nat.mul_zero, Nat.zero_add] at h
    rw [List.cons_lt_cons_iff]
    rcases lt_trichotomy c.toNat d.toNat with hcd | hcd | hcd
    · exact Or.inl (Char.lt_def.mpr (UInt32.lt_iff_toNat_lt.mpr hcd))
    · refine Or.inr ⟨Char.toNat_inj.mp hcd, ih hl' hm' hlen' ?_⟩
      rw [hcd] at h
      omega
    · have hstep : d.toNat - '0'.toNat + 1 ≤ c.toNat - '0'.toNat := by omega
      have := Nat.mul_le_mul_left (10 ^ l.length) hstep
      rw [Nat.mul_add, Nat.mul_one] at this
      omega

/-- Within the width, padded numerals are ordered as text by their value. -/
theorem paddedDigits_lt {width m n : ℕ} (hw : 0 < width) (hn : n < 10 ^ width) (h : m < n) :
    paddedDigits width m < paddedDigits width n := by
  apply lt_of_ofDigitChars_lt (fun _ => isDigit_of_mem_paddedDigits)
    (fun _ => isDigit_of_mem_paddedDigits)
  · rw [length_paddedDigits hw hn, length_paddedDigits hw (h.trans hn)]
  · simpa only [ofDigitChars_paddedDigits] using h

/-- Text order is decided by the first parts when these have one length and differ. -/
theorem append_lt_append {α : Type} [LinearOrder α] {l m : List α} (hlen : l.length = m.length) (h : l < m)
    (s t : List α) : l ++ s < m ++ t := by
  induction l generalizing m with
  | nil =>
    obtain rfl : m = [] := List.eq_nil_of_length_eq_zero hlen.symm
    exact absurd h (List.not_lt_nil _)
  | cons c l ih =>
    obtain ⟨d, m, rfl⟩ := List.exists_cons_of_length_eq_add_one hlen.symm
    rw [List.cons_lt_cons_iff] at h
    rw [List.cons_append, List.cons_append, List.cons_lt_cons_iff]
    rcases h with h | ⟨rfl, h⟩
    · exact Or.inl h
    · exact Or.inr ⟨rfl, ih (by simpa using hlen) h⟩

/-- The white space that `strtol` and its relatives skip. -/
def isSpace (c : Char) : Bool :=
  c == ' ' || c == '\t' || c == '\n' || c == '\x0b' || c == '\x0c' || c == '\r'

/-- The number that the leading digits denote, if there are any. -/
def leadingNumber (l : List Char) : Option ℕ :=
  match l.takeWhile Char.isDigit with
  | [] => none
  | d :: ds => some (Nat.ofDigitChars 10 (d :: ds) 0)

/-- `std::stoi`: white space, a sign, digits, and anything after; `none` where it throws. -/
def stoi (s : List Char) : Option ℤ :=
  match s.dropWhile isSpace with
  | '-' :: l => (leadingNumber l).bind fun n => if n ≤ 2 ^ 31 then some (-(n : ℤ)) else none
  | '+' :: l => (leadingNumber l).bind fun n => if n < 2 ^ 31 then some (n : ℤ) else none
  | l => (leadingNumber l).bind fun n => if n < 2 ^ 31 then some (n : ℤ) else none

/-- `std::stoul` on 64 bits; a negative numeral wraps around. -/
def stoul (s : List Char) : Option ℕ :=
  match s.dropWhile isSpace with
  | '-' :: l => (leadingNumber l).bind fun n => if n < 2 ^ 64 then some ((2 ^ 64 - n) % 2 ^ 64) else none
  | '+' :: l => (leadingNumber l).bind fun n => if n < 2 ^ 64 then some n else none
  | l => (leadingNumber l).bind fun n => if n < 2 ^ 64 then some n else none

theorem leadingNumber_of_digits {l : List Char} (hne : l ≠ []) (h : ∀ c ∈ l, c.isDigit) :
    leadingNumber l = some (Nat.ofDigitChars 10 l 0) := by
  obtain ⟨c, l, rfl⟩ := List.exists_cons_of_ne_nil hne
  have htake : (c :: l).takeWhile Char.isDigit = c :: l := by
    rw [← List.append_nil (c :: l), List.takeWhile_append_of_pos h, List.takeWhile_nil]
  simp only [leadingNumber, htake]

/-- A digit is neither white space nor a sign. -/
theorem digit_plain {c : Char} (h : c.isDigit) : isSpace c = false ∧ c ≠ '-' ∧ c ≠ '+' := by
  have := digit_le h
  have hne : ∀ d : Char, d.toNat < '0'.toNat → c ≠ d := by
    rintro d hd rfl
    omega
  simp only [isSpace, Bool.or_eq_false_iff, beq_eq_false_iff_ne]
  exact ⟨⟨⟨⟨⟨⟨hne _ (by decide), hne _ (by decide)⟩, hne _ (by decide)⟩, hne _ (by decide)⟩,
    hne _ (by decide)⟩, hne _ (by decide)⟩, hne _ (by decide), hne _ (by decide)⟩

/-- A numeral of digits only is read as the number that it denotes. -/
theorem stoul_of_digits {l : List Char} (hne : l ≠ []) (h : ∀ c ∈ l, c.isDigit)
    (hn : Nat.ofDigitChars 10 l 0 < 2 ^ 64) : stoul l = some (Nat.ofDigitChars 10 l 0) := by
  have hnumber := leadingNumber_of_digits hne h
  obtain ⟨c, l, rfl⟩ := List.exists_cons_of_ne_nil hne
  obtain ⟨hspace, hminus, hplus⟩ := digit_plain (h c List.mem_cons_self)
  have hdrop : (c :: l).dropWhile isSpace = c :: l := by simp [List.dropWhile, hspace]
  simp only [stoul, hdrop]
  split
  · simp_all
  · simp_all
  · rw [hnumber, Option.bind_some, if_pos hn]

theorem stoul_paddedDigits {width n : ℕ} (hn : n < 2 ^ 64) :
    stoul (paddedDigits width n) = some n := by
  have hread := stoul_of_digits (paddedDigits_ne_nil width n) (fun _ => isDigit_of_mem_paddedDigits)
    (by rwa [ofDigitChars_paddedDigits])
  rwa [ofDigitChars_paddedDigits] at hread

end StyioPlatform
