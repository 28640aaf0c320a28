import Mathlib.Algebra.GroupWithZero.Nat
import Mathlib.Data.Nat.Find
import Mathlib.Order.Monotone.Basic
import StyioPlatform.Lib.Numeral

/-! The Gregorian calendar: the civil time of a second after the beginning of 1970 in UTC, and its
text. Before the year 10000 the texts are ordered as the seconds are. -/
namespace StyioPlatform

def isLeapYear (year : ℕ) : Bool := year % 4 == 0 && (year % 100 != 0 || year % 400 == 0)

def daysInYear (year : ℕ) : ℕ := if isLeapYear year then 366 else 365

/-- The days from the beginning of 1970 to the beginning of the year `1970 + n`. -/
def yearStart : ℕ → ℕ
  | 0 => 0
  | n + 1 => yearStart n + daysInYear (1970 + n)

def daysInMonths (leap : Bool) : List ℕ :=
  [31, if leap then 29 else 28, 31, 30, 31, 30, 31, 31, 30, 31, 30, 31]

/-- The days of a year before its month `n`, from 0. -/
def monthStart (leap : Bool) (n : ℕ) : ℕ := ((daysInMonths leap).take n).sum

/-- The last of the periods up to `bound` that has started by `n`. -/
def lastStarted (start : ℕ → ℕ) (bound n : ℕ) : ℕ :=
  Nat.findGreatest (fun i => start i ≤ n) bound

/-- The year of a day, counted from 1970. -/
def yearOf (day : ℕ) : ℕ := lastStarted yearStart (day / 365) day

/-- Year, month and day of the month. -/
def civilDate (day : ℕ) : List ℕ :=
  let year := yearOf day
  let dayOfYear := day - yearStart year
  let start := monthStart (isLeapYear (1970 + year))
  let month := lastStarted start 11 dayOfYear
  [1970 + year, month + 1, dayOfYear - start month + 1]

/-- Hour, minute and second. -/
def clockTime (second : ℕ) : List ℕ := [second / 3600, second % 3600 / 60, second % 60]

/-- The civil time of a second after the beginning of 1970. -/
def civilTime (t : ℕ) : List ℕ := civilDate (t / 86400) ++ clockTime (t % 86400)

/-- Numbers of the given widths, each with a character after it. -/
def fieldsText : List (ℕ × Char) → List ℕ → List Char
  | (width, mark) :: format, n :: l => paddedDigits width n ++ mark :: fieldsText format l
  | _, _ => []

/-- `%Y-%m-%dT%H:%M:%SZ` -/
def timestampFormat : List (ℕ × Char) :=
  [(4, '-'), (2, '-'), (2, 'T'), (2, ':'), (2, ':'), (2, 'Z')]

/-- The text of a second after the beginning of 1970. -/
def utcTimestamp (t : ℕ) : String := String.ofList (fieldsText timestampFormat (civilTime t))

/-- The first second of the year 10000. -/
def year10000 : ℕ := 253402300800

section periods

variable {start : ℕ → ℕ} {bound c m n : ℕ}

theorem start_lastStarted_le (h : start 0 ≤ n) : start (lastStarted start bound n) ≤ n :=
  Nat.findGreatest_spec (P := fun i => start i ≤ n) (Nat.zero_le bound) h

theorem lt_start_of_lastStarted_lt (h : lastStarted start bound n < c) (hc : c ≤ bound) :
    n < start c := by
  have hnot := Nat.findGreatest_is_greatest h hc
  omega

theorem lastStarted_le_lastStarted (hbound : bound ≤ c) (h : m ≤ n) :
    lastStarted start bound m ≤ lastStarted start c n :=
  Nat.findGreatest_mono (fun _ hi => hi.trans h) hbound

end periods

theorem strictMono_yearStart : StrictMono yearStart := by
  apply strictMono_nat_of_lt_succ
  intro n
  rw [yearStart, daysInYear]
  split <;> omega

/-- The leap years since 1970 are those divisible by 4, less the centuries that are none. -/
theorem yearStart_eq (n : ℕ) :
    yearStart n + 477 + (1969 + n) / 100 = 365 * n + (1969 + n) / 4 + (1969 + n) / 400 := by
  induction n with
  | zero => rfl
  | succ n ih =>
    rw [yearStart, daysInYear]
    simp only [isLeapYear, Bool.and_eq_true, Bool.or_eq_true, beq_iff_eq, bne_iff_ne]
    split <;> omega

theorem yearStart_yearOf_le (day : ℕ) : yearStart (yearOf day) ≤ day :=
  start_lastStarted_le (Nat.zero_le day)

theorem lt_yearStart_succ (day : ℕ) : day < yearStart (yearOf day + 1) := by
  rcases lt_or_ge (yearOf day) (day / 365) with h | h
  · exact lt_start_of_lastStarted_lt (Nat.lt_succ_self _) h
  · have hlong := yearStart_eq (yearOf day + 1)
    omega

/-- No month is longer than its number has digits for. -/
theorem dayOfMonth_lt {leap : Bool} {day : ℕ} (h : day < 366) :
    day - monthStart leap (lastStarted (monthStart leap) 11 day) < 32 := by
  have hmonth : lastStarted (monthStart leap) 11 day ≤ 11 := Nat.findGreatest_le 11
  have hlong : ∀ leap, ∀ m ≤ 11, monthStart leap (m + 1) ≤ monthStart leap m + 31 := by decide
  have hlast : ∀ leap, 366 ≤ monthStart leap 11 + 32 := by decide
  rcases hmonth.lt_or_eq with hlt | heq
  · have hnext := lt_start_of_lastStarted_lt (Nat.lt_add_one _) hlt
    have := hlong leap _ hmonth
    omega
  · have := hlast leap
    rw [heq]
    omega

/-- Months and days of the month are in the order of the days of the year. -/
theorem civilDate_lt {d e : ℕ} (h : d < e) : civilDate d < civilDate e := by
  have hyear : yearOf d ≤ yearOf e :=
    lastStarted_le_lastStarted (Nat.div_le_div_right h.le) h.le
  have hstart := yearStart_yearOf_le d
  simp only [civilDate, List.cons_lt_cons_iff]
  rcases hyear.lt_or_eq with hlt | heq
  · left
    omega
  · right
    rw [← heq]
    refine ⟨rfl, ?_⟩
    have hday : d - yearStart (yearOf d) < e - yearStart (yearOf d) := by omega
    generalize hmonths : monthStart (isLeapYear (1970 + yearOf d)) = months
    have hfirst : months 0 = 0 := by rw [← hmonths, monthStart, List.take_zero, List.sum_nil]
    have hmonth : lastStarted months 11 (d - yearStart (yearOf d)) ≤
        lastStarted months 11 (e - yearStart (yearOf d)) :=
      lastStarted_le_lastStarted (le_refl 11) hday.le
    have hbegun : months (lastStarted months 11 (d - yearStart (yearOf d))) ≤
        d - yearStart (yearOf d) := start_lastStarted_le (by omega)
    rcases hmonth.lt_or_eq with hlt | heq
    · left
      omega
    · right
      rw [← heq]
      refine ⟨rfl, Or.inl ?_⟩
      omega

theorem clockTime_lt {s t : ℕ} (h : s < t) : clockTime s < clockTime t := by
  simp only [clockTime, List.cons_lt_cons_iff, List.not_lt_nil, and_false, or_false]
  omega

theorem length_civilDate (day : ℕ) : (civilDate day).length = 3 := rfl

theorem length_civilTime (t : ℕ) : (civilTime t).length = 6 := by
  rw [civilTime, List.length_append, length_civilDate]
  rfl

theorem civilTime_lt {s t : ℕ} (h : s < t) : civilTime s < civilTime t := by
  have hday : s / 86400 ≤ t / 86400 := Nat.div_le_div_right h.le
  rcases hday.lt_or_eq with hlt | heq
  · apply append_lt_append
    · rw [length_civilDate, length_civilDate]
    · exact civilDate_lt hlt
  · rw [civilTime, civilTime, heq]
    apply List.append_left_lt
    exact clockTime_lt (by omega)

/-- The numbers fit in the widths of the format. -/
def Fits (format : List (ℕ × Char)) (l : List ℕ) : Prop :=
  List.Forall₂ (fun field n => 0 < field.1 ∧ n < 10 ^ field.1) format l

/-- Numbers that fit have texts that are ordered as they are. -/
theorem fieldsText_lt {format : List (ℕ × Char)} {l m : List ℕ} (hlen : l.length = m.length)
    (hm : Fits format m) (h : l < m) : fieldsText format l < fieldsText format m := by
  induction hm generalizing l with
  | nil => exact absurd h (List.not_lt_nil _)
  | cons hfield _ ih =>
    obtain ⟨a, l, rfl⟩ := List.exists_cons_of_length_eq_add_one hlen
    simp only [fieldsText]
    rcases List.cons_lt_cons_iff.mp h with hlt | ⟨rfl, hrest⟩
    · apply append_lt_append
      · rw [length_paddedDigits hfield.1 hfield.2, length_paddedDigits hfield.1 (hlt.trans hfield.2)]
      · exact paddedDigits_lt hfield.1 hfield.2 hlt
    · apply List.append_left_lt
      exact List.cons_lt_cons_self.mpr (ih (Nat.succ.inj hlen) hrest)

theorem yearOf_lt {day n : ℕ} (h : day < yearStart n) : yearOf day < n := by
  have hbegun := yearStart_yearOf_le day
  exact strictMono_yearStart.lt_iff_lt.mp (by omega)

theorem fits_civilTime {t : ℕ} (h : t < year10000) : Fits timestampFormat (civilTime t) := by
  have hyear : yearOf (t / 86400) < 8030 := by
    apply yearOf_lt
    generalize hn : 8030 = n
    have hlast := yearStart_eq n
    rw [year10000] at h
    omega
  have hlong : t / 86400 - yearStart (yearOf (t / 86400)) < 366 := by
    have hnext := lt_yearStart_succ (t / 86400)
    rw [yearStart, daysInYear] at hnext
    split at hnext <;> omega
  have hmonth : lastStarted (monthStart (isLeapYear (1970 + yearOf (t / 86400)))) 11
      (t / 86400 - yearStart (yearOf (t / 86400))) ≤ 11 := Nat.findGreatest_le 11
  have hday := @dayOfMonth_lt (isLeapYear (1970 + yearOf (t / 86400))) _ hlong
  simp only [Fits, timestampFormat, civilTime, civilDate, clockTime, List.cons_append,
    List.nil_append, List.forall₂_cons, List.Forall₂.nil, and_true]
  omega

/-- Before the year 10000 a later second has a greater text. -/
theorem utcTimestamp_lt {s t : ℕ} (h : s < t) (ht : t < year10000) :
    utcTimestamp s < utcTimestamp t := by
  rw [String.lt_iff_toList_lt, utcTimestamp, utcTimestamp, String.toList_ofList,
    String.toList_ofList]
  apply fieldsText_lt
  · rw [length_civilTime, length_civilTime]
  · exact fits_civilTime ht
  · exact civilTime_lt h

example : utcTimestamp 951825599 = "2000-02-29T11:59:59Z" := by decide +kernel

end StyioPlatform
