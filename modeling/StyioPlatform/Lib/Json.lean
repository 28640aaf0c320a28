import Mathlib.Data.List.TakeWhile
import Mathlib.Data.Rat.Defs
import Mathlib.Data.String.Basic
import StyioPlatform.Lib.KeyedList

/-! JSON values, and the ways in which a server asks for a member of one. -/
namespace StyioPlatform

/-- A JSON value; the members of an object are listed in the order of their keys. -/
inductive Json where
  | null
  | bool (b : Bool)
  | int (n : ℤ)
  | float (x : ℚ)
  | string (s : String)
  | array (l : List Json)
  | object (fields : List (String × Json))

namespace Json

instance : Inhabited Json := ⟨null⟩

/-- The member of an object; `none` where it is missing or the value is no object. -/
def get? : Json → String → Option Json
  | object fields, key => getKey fields key
  | _, _ => none

def isObject : Json → Bool
  | object _ => true
  | _ => false

def isInteger : Json → Bool
  | int _ => true
  | _ => false

/-- The text of a string. -/
def text? : Json → Option String
  | string s => some s
  | _ => none

/-- The text of a member that is a string. -/
def textField (j : Json) (key : String) : Option String := (j.get? key).bind text?

/-- The text of a member that is a non-empty string. -/
def nonEmptyField (j : Json) (key : String) : Option String :=
  (j.textField key).filter (· ≠ "")

/-- The member or a default; `none` where the value is no object or the member no string. -/
def textOr (j : Json) (key default : String) : Option String :=
  match j with
  | object fields =>
    match getKey fields key with
    | none => some default
    | some member => member.text?
  | _ => none

/-- A number converted to a signed integer of 32 bits. -/
def toInt? : Json → Option ℤ
  | int n => some (n.bmod (2 ^ 32))
  | float x => some ((x.num.tdiv x.den).bmod (2 ^ 32))
  | bool b => some (if b then 1 else 0)
  | _ => none

/-- The number of a member or a default; `none` where the value is no object or the member no
number. -/
def intOr (j : Json) (key : String) (default : ℤ) : Option ℤ :=
  match j with
  | object fields =>
    match getKey fields key with
    | none => some default
    | some member => member.toInt?
  | _ => none

/-- The truth value of a member or a default; `none` where the value is no object or the member no
truth value. -/
def boolOr (j : Json) (key : String) (default : Bool) : Option Bool :=
  match j with
  | object fields =>
    match getKey fields key with
    | none => some default
    | some (bool b) => some b
    | some _ => none
  | _ => none

/-- The object with the given members. -/
def ofFields (fields : List (String × Json)) : Json :=
  object (fields.foldl (fun l x => setKey l x.1 x.2) [])

/-- The object with one more member; other values stay as they are. -/
def setField : Json → String → Json → Json
  | object fields, key, member => object (setKey fields key member)
  | j, _, _ => j

/-- `null`, and arrays and objects without members. -/
def isEmpty : Json → Bool
  | null => true
  | array l => l.isEmpty
  | object fields => fields.isEmpty
  | _ => false

/-- The elements of an array. -/
def elements : Json → List Json
  | array l => l
  | _ => []

end Json

/-- The text has a character NUL. -/
def hasNul (s : String) : Bool := s.toList.contains '\x00'

/-- What is left of a text that is passed as a C string. -/
def cString (s : String) : String := String.ofList (s.toList.takeWhile (· ≠ '\x00'))

theorem cString_eq {s : String} (h : hasNul s = false) : cString s = s := by
  have hall : ∀ c ∈ s.toList, decide (c ≠ '\x00') = true := by
    intro c hc
    rw [decide_eq_true_eq]
    rintro rfl
    simp [hasNul, hc] at h
  rw [cString, List.takeWhile_eq_self_iff.mpr hall, String.ofList_toList]

theorem hasNul_cString (s : String) : hasNul (cString s) = false := by
  rw [hasNul, cString, String.toList_ofList, List.contains_eq_mem, decide_eq_false_iff_not]
  intro h
  simpa using List.mem_takeWhile_imp h

theorem cString_cString (s : String) : cString (cString s) = cString s := by
  simp [cString, List.takeWhile_idem]

namespace Json

mutual

/-- Some text in the value has a character NUL. -/
def anyNul : Json → Bool
  | string s => hasNul s
  | array l => anyNulElement l
  | object fields => anyNulField fields
  | _ => false

def anyNulElement : List Json → Bool
  | [] => false
  | j :: l => anyNul j || anyNulElement l

def anyNulField : List (String × Json) → Bool
  | [] => false
  | x :: l => hasNul x.1 || anyNul x.2 || anyNulField l

end

example : (object [("a", array [null, string "b"])]).anyNul = false := by decide

mutual

/-- Equality of values, as it is decided. -/
def same : Json → Json → Bool
  | null, null => true
  | bool a, bool b => a == b
  | int a, int b => a == b
  | float a, float b => a == b
  | string a, string b => a == b
  | array l, array m => sameElements l m
  | object l, object m => sameFields l m
  | _, _ => false

def sameElements : List Json → List Json → Bool
  | [], [] => true
  | a :: l, b :: m => same a b && sameElements l m
  | _, _ => false

def sameFields : List (String × Json) → List (String × Json) → Bool
  | [], [] => true
  | x :: l, y :: m => x.1 == y.1 && same x.2 y.2 && sameFields l m
  | _, _ => false

end

mutual

theorem same_iff : (a b : Json) → (same a b = true ↔ a = b)
  | array l, b => by cases b <;> simp [same, sameElements_iff l]
  | object l, b => by cases b <;> simp [same, sameFields_iff l]
  | null, b => by cases b <;> simp [same]
  | bool a, b => by cases b <;> simp [same]
  | int a, b => by cases b <;> simp [same]
  | float a, b => by cases b <;> simp [same]
  | string a, b => by cases b <;> simp [same]

theorem sameElements_iff : (l m : List Json) → (sameElements l m = true ↔ l = m)
  | [], m => by cases m <;> simp [sameElements]
  | a :: l, m => by cases m <;> simp [sameElements, same_iff a, sameElements_iff l]

theorem sameFields_iff : (l m : List (String × Json)) → (sameFields l m = true ↔ l = m)
  | [], m => by cases m <;> simp [sameFields]
  | x :: l, m => by
    cases m <;> simp [sameFields, same_iff x.2, sameFields_iff l, Prod.ext_iff]

end

instance : DecidableEq Json := fun a b => decidable_of_iff _ (same_iff a b)

end Json

end StyioPlatform
