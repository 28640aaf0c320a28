import Mathlib.Data.List.SplitOn
import Mathlib.Data.String.Basic
import StyioPlatform.Lib.Fallible
import StyioPlatform.Lib.KeyedList
import StyioPlatform.Lib.Numeral
import StyioPlatform.Lib.TextSearch

/-! HTTP requests as bytes (`BeastServer.cpp`): how a request is cut out of what was read, and how
much is read from a connection. -/
namespace StyioPlatform.HttpFraming

abbrev Bytes := List UInt8

/-- The bytes as characters of the same numbers. -/
def chars (bytes : Bytes) : List Char := bytes.map fun b => Char.ofNat b.toNat

/-- `"\r\n\r\n"`. -/
def terminator : Bytes := [13, 10, 13, 10]

def isBlank (c : Char) : Bool := c == ' ' || c == '\t' || c == '\r'

/-- `TrimAscii`. -/
def trimAscii (value : List Char) : List Char :=
  ((value.dropWhile isBlank).reverse.dropWhile isBlank).reverse

/-- `LowerAscii`. -/
def lowerAscii (value : List Char) : List Char := value.map Char.toLower

/-- The lines that `std::getline` returns in turn. -/
def getlines (text : List Char) : List (List Char) :=
  let pieces := text.splitOn '\n'
  if pieces.getLast? = some [] then pieces.dropLast else pieces

/-- The words that `operator>>` returns in turn. -/
def words (line : List Char) : List (List Char) := (line.splitOnP isSpace).filter (· ≠ [])

/-- The header fields by their names in lower case. -/
abbrev Headers := List (String × String)

structure RawHttpRequest where
  method : String
  target : String
  headers : Headers
  body : Bytes
  deriving DecidableEq

/-- The name and the value of a header line, if it has a colon. -/
def splitHeader (line : List Char) : Option (String × String) :=
  if ':' ∈ line then
    let name := line.takeWhile (· ≠ ':')
    some (String.ofList (lowerAscii name),
      String.ofList (trimAscii (line.drop (name.length + 1))))
  else none

/-- The loop over the header lines of `ParseRawHttpRequest`. -/
def readHeaders : List (List Char) → Headers → Except String Headers
  | [], headers => .ok headers
  | line :: lines, headers =>
    if trimAscii line = [] then readHeaders lines headers
    else
      match splitHeader (trimAscii line) with
      | none => .error "HTTP header line is missing ':'"
      | some (name, value) => readHeaders lines (setKey headers name value)

/-- `ContentLength`. -/
def contentLength (headers : Headers) : Option ℕ :=
  match getKey headers "content-length" with
  | none => some 0
  | some value => stoul value.toList

/-- The request line and the headers. -/
def parseHead (head : List Char) : Except String (String × String × Headers) :=
  match getlines head with
  | [] => .error "HTTP request line is missing"
  | line :: lines =>
    match words (trimAscii line) with
    | method :: target :: _version :: _ => do
      let headers ← readHeaders lines []
      return (String.ofList method, String.ofList target, headers)
    | _ => .error "HTTP request line must include method, target, and version"

/-- `ParseRawHttpRequest`, on 64 bits. -/
def parseRawHttpRequest (raw : Bytes) : Except String RawHttpRequest :=
  match cutAt terminator raw with
  | none => .error "HTTP request headers are incomplete"
  | some (head, _) => do
    let (method, target, headers) ← parseHead (chars head)
    match contentLength headers with
    | none => .error "Content-Length must be an integer"
    | some n =>
      let bodyStart := head.length + 4
      if raw.length < (bodyStart + n) % 2 ^ 64 then .error "HTTP request body is incomplete"
      else return { method, target, headers, body := (raw.drop bodyStart).take n }

section Reading

/-- `kMaxRequestBytes`. -/
def maxRequestBytes : ℕ := 1024 * 1024

/-- What a reader says where the connection ends. -/
structure ReadErrors where
  headers : String
  body : String

/-- The loop that reads until the headers are there; what is left of the reads is returned. -/
def readHead (errors : ReadErrors) : List Bytes → Bytes → Except String (Bytes × List Bytes)
  | reads, raw =>
    if (cutAt terminator raw).isSome then .ok (raw, reads)
    else
      match reads with
      | [] => .error errors.headers
      | bytes :: reads =>
        let raw := raw ++ bytes
        if maxRequestBytes < raw.length then .error "HTTP request exceeds maximum size"
        else readHead errors reads raw

/-- The loop that reads until the given size is reached. -/
def readBody (errors : ReadErrors) (size : ℕ) : List Bytes → Bytes → Except String Bytes
  | reads, raw =>
    if size ≤ raw.length then .ok raw
    else
      match reads with
      | [] => .error errors.body
      | bytes :: reads =>
        let raw := raw ++ bytes
        if maxRequestBytes < raw.length then .error "HTTP request exceeds maximum size"
        else readBody errors size reads raw

/-- The second loop over the header lines; a line without a colon is passed over. -/
def scanHeaders (lines : List (List Char)) : Headers :=
  lines.foldl (fun headers line =>
    match splitHeader (trimAscii line) with
    | none => headers
    | some (name, value) => setKey headers name value) []

/-- The part before the first terminator. -/
def headOf (raw : Bytes) : Bytes := ((cutAt terminator raw).map (·.1)).getD []

/-- The size of the body that the reader waits for. -/
def awaitedLength (raw : Bytes) : Except String ℕ :=
  match parseRawHttpRequest raw with
  | .ok request => .ok request.body.length
  | .error parseError =>
    match contentLength (scanHeaders (getlines (chars (headOf raw))).tail) with
    | none => .error parseError
    | some n => .ok n

/-- `ReadSslHttpRequest` and `ReadHttpRequest`, on the reads of a connection. -/
def readRequest (errors : ReadErrors) (reads : List Bytes) : Except String Bytes := do
  let (raw, reads) ← readHead errors reads []
  let n ← awaitedLength raw
  readBody errors (((headOf raw).length + 4 + n) % 2 ^ 64) reads raw

def readSslHttpRequest : List Bytes → Except String Bytes :=
  readRequest ⟨"failed to read TLS HTTP request headers", "failed to read TLS HTTP request body"⟩

def readHttpRequest : List Bytes → Except String Bytes :=
  readRequest ⟨"failed to read HTTP request headers", "failed to read HTTP request body"⟩

end Reading

end StyioPlatform.HttpFraming
