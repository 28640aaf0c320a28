import StyioPlatform.Lib.Numeral
import Mathlib.Data.Prod.Lex
import Mathlib.Data.List.Sort

/-! Names of the package registry: packages, index paths, release keys and version order
(`RegistryIdentifiers.hpp`, `RouterSupport.hpp`). -/
namespace StyioPlatform.Registry

/-- Names from the registry root down to a file. -/
abbrev Path := List String

instance lawfulBEq_path : LawfulBEq Path := List.instLawfulBEq

/-- A byte that the sanitiser keeps. -/
def keptByte (c : Char) : Bool := c.isAlphanum || c == '-' || c == '_' || c == '.'

/-- `SanitizePathSegment`; the source works on bytes, so a wider character becomes several `_`. -/
def sanitizePathSegment (value : List Char) : List Char :=
  let out := value.flatMap fun c => if keptByte c then [c] else List.replicate c.utf8Size '_'
  if out = [] ∨ out = ['.'] ∨ out = ['.', '.'] then ['_'] else out

/-- `SplitPackageName`: the non-empty segments, sanitised. -/
def splitPackageName (package : String) : List String :=
  ((package.toList.splitOn '/').filter (· ≠ [])).map
    fun item => String.ofList (sanitizePathSegment item)

def isSafeLowercase (c : Char) : Bool := c.isLower || c.isDigit

/-- `IsSafeLowercaseIdentifier`. -/
def isSafeLowercaseIdentifier (value : List Char) : Bool :=
  match value with
  | [] => false
  | first :: _ =>
    isSafeLowercase first && value.all fun c => isSafeLowercase c || c == '-' || c == '_'

/-- `ValidatePackageName`: the error text, or `none` for a well-formed name. -/
def validatePackageName (package : String) : Option String :=
  match package.toList.splitOn '/' with
  | [space, name] =>
    if isSafeLowercaseIdentifier space && isSafeLowercaseIdentifier name then none
    else some "package must use lowercase namespace/name segments"
  | _ => some "package must use namespace/name form"

/-- `SplitPackageName(package).front()`. -/
def packageNamespace (package : String) : String := (splitPackageName package).headD ""

/-- `RegistryIndexPathForPackage`. -/
def registryIndexPathForPackage (package : String) : Path :=
  let parts := splitPackageName package
  "index" :: parts.dropLast ++ [parts.getLastD "" ++ ".jsonl"]

def registryReleaseKey (package version : String) : String := package ++ "@" ++ version

/-- `PaddedNumber`. -/
def paddedNumber (value width : ℕ) : String := String.ofList (paddedDigits width value)

/-- The tuple that `VersionLess` compares. -/
abbrev VersionKey := ℤ ×ₗ ℤ ×ₗ ℤ ×ₗ String

/-- The loop of `VersionLess`: up to three numbers, and the whole text as suffix when a part is
not a number, when there are fewer than three, or when more than one further part follows. -/
def parseVersionParts (version : String) : ℕ → List (List Char) → List ℤ → List ℤ × String
  | 3, rest, numeric => (numeric, if 2 ≤ rest.length then version else "")
  | _, [], numeric => (numeric, version)
  | _, [[]], numeric => (numeric, version)
  | index, part :: rest, numeric =>
    match stoi part with
    | none => (numeric, version)
    | some n => parseVersionParts version (index + 1) rest (numeric ++ [n])

def parseVersion (version : String) : VersionKey :=
  let r := parseVersionParts version 0 (version.toList.splitOn '.') []
  toLex (r.1.getD 0 0, toLex (r.1.getD 1 0, toLex (r.1.getD 2 0, r.2)))

/-- `VersionLess`. -/
def versionLess (left right : String) : Bool := decide (parseVersion left < parseVersion right)

/-- `std::sort(versions, VersionLess)` followed by `back()`. -/
def latestVersion (versions : List String) : String :=
  (versions.insertionSort fun a b => versionLess b a = false).getLastD ""

end StyioPlatform.Registry
