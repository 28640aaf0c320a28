import Mathlib.Data.List.Basic

/-! Lines of a text, as `std::getline` and Python's `str.splitlines` find them. -/
namespace StyioPlatform

/-- The lines of a text in which each of certain characters ends a line. -/
def linesBy (isBreak : Char → Bool) : List Char → List (List Char)
  | [] => []
  | c :: text =>
    if isBreak c then [] :: linesBy isBreak text
    else
      match linesBy isBreak text with
      | [] => [[c]]
      | line :: lines => (c :: line) :: lines

/-- The lines that `std::getline` returns in turn. -/
def newlineLines (text : List Char) : List (List Char) := linesBy (· == '\n') text

/-- The line boundaries of `str.splitlines`. -/
def isLineBoundary (c : Char) : Bool :=
  c ∈ ['\n', '\r', '\x0b', '\x0c', '\x1c', '\x1d', '\x1e', '\u0085', '\u2028', '\u2029']

/-- `str.splitlines`; a carriage return with a newline is one boundary. -/
def splitlines : List Char → List (List Char)
  | [] => []
  | '\r' :: '\n' :: text => [] :: splitlines text
  | c :: text =>
    if isLineBoundary c then [] :: splitlines text
    else
      match splitlines text with
      | [] => [[c]]
      | line :: lines => (c :: line) :: lines

/-- The newlines of a file that Python opened as a text. -/
def universalNewlines : List Char → List Char
  | [] => []
  | '\r' :: '\n' :: text => '\n' :: universalNewlines text
  | '\r' :: text => '\n' :: universalNewlines text
  | c :: text => c :: universalNewlines text

variable {isBreak : Char → Bool} {line text rest : List Char} {c : Char}

theorem linesBy_append_break (hline : ∀ d ∈ line, isBreak d = false) (hc : isBreak c = true) :
    linesBy isBreak (line ++ c :: rest) = line :: linesBy isBreak rest := by
  induction line with
  | nil => rw [List.nil_append, linesBy, if_pos hc]
  | cons d line ih =>
    have hd := hline d List.mem_cons_self
    rw [List.cons_append, linesBy, if_neg (by simp [hd]),
      ih fun e he => hline e (List.mem_cons_of_mem d he)]

/-- The lines after a break are the last lines of the whole. -/
theorem exists_linesBy_append (hc : isBreak c = true) :
    ∃ first more, linesBy isBreak (text ++ c :: rest) = first :: more ++ linesBy isBreak rest := by
  induction text with
  | nil => exact ⟨[], [], by rw [List.nil_append, linesBy, if_pos hc]; rfl⟩
  | cons d text ih =>
    obtain ⟨first, more, hlines⟩ := ih
    rw [List.cons_append, linesBy, hlines]
    split
    · exact ⟨[], first :: more, rfl⟩
    · exact ⟨d :: first, more, rfl⟩

theorem splitlines_eq_linesBy (h : '\r' ∉ text) : splitlines text = linesBy isLineBoundary text := by
  induction text with
  | nil => rfl
  | cons c text ih =>
    have hc : c ≠ '\r' := fun heq => h (heq ▸ List.mem_cons_self)
    have htext := ih fun hmem => h (List.mem_cons_of_mem c hmem)
    rw [splitlines, linesBy, htext]
    exact fun _ heq _ => hc heq

theorem universalNewlines_eq (h : '\r' ∉ text) : universalNewlines text = text := by
  induction text with
  | nil => rfl
  | cons c text ih =>
    have hc : c ≠ '\r' := fun heq => h (heq ▸ List.mem_cons_self)
    have htext := ih fun hmem => h (List.mem_cons_of_mem c hmem)
    rw [universalNewlines, htext]
    · exact fun _ heq _ => hc heq
    · exact hc

end StyioPlatform
