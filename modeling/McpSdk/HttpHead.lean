import McpSdk.Bytes
import McpSdk.Lib.Dict
import McpSdk.Lib.Search
/-!
# HttpHead — one HTTP/1.1 head

`parseHead` finds the blank line, splits the lines before it and reads the start line and the headers.
-/
namespace Mcp

/-- `std::tolower` in the C locale. -/
def toLower (s : Bytes) : Bytes := s.map (fun b => if ch 'A' ≤ b && b ≤ ch 'Z' then b + 32 else b)

def isBlank (b : UInt8) : Bool := b == ch ' ' || b == ch '\t'

/-- `trim`: blanks in front; blanks and `\r` behind. -/
def trim (s : Bytes) : Bytes :=
  ((s.dropWhile isBlank).reverse.dropWhile (fun b => isBlank b || b == ch '\r')).reverse

/-- A parsed request or response head; a nonzero status makes it a response.  Header names are lowercased. -/
structure HttpHead where
  method : Bytes := []
  target : Bytes := []
  status : Int32 := 0
  reason : Bytes := []
  headers : Dict Bytes Bytes := ∅

namespace HttpHead

def header (h : HttpHead) (name : Bytes) : Bytes := (h.headers.lookup name).getD []

/-- The header contains the token, up to case. -/
def headerContains (h : HttpHead) (name token : Bytes) : Bool :=
  (Search.indexOf (toLower token) (toLower (h.header name))).isSome

end HttpHead

def crlf : Bytes := [13, 10]

inductive HeadParse where
  | incomplete
  | malformed (error : Bytes)
  | parsed (head : HttpHead) (consumed : Nat)

/-- The end of the head: after the first empty line, or after two line feeds where there is no `\r\n\r\n`. -/
def headEnd (buffer : Bytes) : Option Nat :=
  match Search.indexOf (crlf ++ crlf) buffer with
  | some i => some (i + 4)
  | none => (Search.indexOf [10, 10] buffer).map (· + 2)

/-- A line without its `\r`. -/
def stripCr (line : Bytes) : Bytes := if line.getLast? = some 13 then line.dropLast else line

/-- `METHOD SP TARGET SP VERSION`. -/
def parseRequestLine (start : Bytes) : Except Bytes HttpHead :=
  match Search.indexOf [ch ' '] start with
  | none => .error (bytes "malformed request line")
  | some sp1 =>
    let rest := start.drop (sp1 + 1)
    match Search.indexOf [ch ' '] rest with
    | none => .error (bytes "malformed request line")
    | some n =>
      if (rest.drop (n + 1)).take 7 ≠ bytes "HTTP/1." then .error (bytes "malformed request line")
      else .ok { method := start.take sp1, target := rest.take n }

/-- `VERSION SP STATUS SP REASON`. -/
def parseStatusLine (start : Bytes) : Except Bytes HttpHead :=
  if start.take 7 ≠ bytes "HTTP/1." then .error (bytes "malformed status line")
  else
    match Search.indexOf [ch ' '] start with
    | none => .error (bytes "malformed status line")
    | some sp1 =>
      if start.length < sp1 + 4 then .error (bytes "malformed status line")
      else
        let rest := start.drop (sp1 + 1)
        let status := atoi rest
        if status < 100 ∨ 599 < status then .error (bytes "invalid status code")
        else
          let reason := match Search.indexOf [ch ' '] rest with
            | none => []
            | some n => rest.drop (n + 1)
          .ok { status, reason }

/-- The header lines up to an empty one; a later header of the same name replaces an earlier one. -/
def parseHeaders : List Bytes → HttpHead → Except Bytes HttpHead
  | [], head => .ok head
  | [] :: _, head => .ok head
  | line :: lines, head =>
    match Search.indexOf [ch ':'] line with
    | none => .error (bytes "malformed header line")
    | some colon =>
      parseHeaders lines
        { head with headers := head.headers.insert (toLower (trim (line.take colon))) (trim (line.drop (colon + 1))) }

def headLines (buffer : Bytes) (consumed : Nat) : List Bytes := (Search.drain 10 (buffer.take consumed)).1.map stripCr

def parseHead (requestMode : Bool) (buffer : Bytes) : HeadParse :=
  match headEnd buffer with
  | none => .incomplete
  | some consumed =>
    match headLines buffer consumed with
    | [] => .malformed (bytes "empty start line")
    | [] :: _ => .malformed (bytes "empty start line")
    | start :: lines =>
      match (if requestMode then parseRequestLine start else parseStatusLine start) with
      | .error e => .malformed e
      | .ok head =>
        match parseHeaders lines head with
        | .error e => .malformed e
        | .ok head => .parsed head consumed

abbrev HeaderList := List (Bytes × Bytes)

def headerLine (h : Bytes × Bytes) : Bytes := h.1 ++ bytes ": " ++ h.2 ++ crlf

/-- `serialize_request`: a `Content-Length` unless there is one, and for a body or a `POST`. -/
def serializeRequest (method target : Bytes) (headers : HeaderList) (body : Bytes) : Bytes :=
  let hasLength := headers.any (fun h => toLower h.1 == bytes "content-length")
  method ++ bytes " " ++ target ++ bytes " HTTP/1.1" ++ crlf ++ headers.flatMap headerLine ++
    (if !hasLength && (!body.isEmpty || method == bytes "POST") then headerLine (bytes "Content-Length", decimal body.length)
      else []) ++ crlf ++ body

/-- `serialize_response`: `Content-Length` unless `streaming`. -/
def serializeResponse (status : Int32) (reason : Bytes) (headers : HeaderList) (body : Bytes) (streaming : Bool) : Bytes :=
  bytes "HTTP/1.1 " ++ decimalInt status.toInt ++ bytes " " ++ reason ++ crlf ++ headers.flatMap headerLine ++
    (if streaming then [] else headerLine (bytes "Content-Length", decimal body.length)) ++ crlf ++ body

/-! ## A found end stays -/

/-- **A `\r\n\r\n` that has arrived ends the head**, whatever arrives after it. -/
theorem headEnd_append {buffer : Bytes} {i : Nat} (h : Search.indexOf (crlf ++ crlf) buffer = some i) (t : Bytes) :
    headEnd (buffer ++ t) = some (i + 4) := by
  unfold headEnd
  rw [Search.indexOf_append h t]

/-- **A head is not taken for complete before its end** when no `\n\n` comes first. -/
theorem headEnd_eq_none {buffer rest : Bytes} {i : Nat} (h : Search.indexOf (crlf ++ crlf) (buffer ++ rest) = some i)
    (hlf : Search.indexOf [10, 10] (buffer ++ rest) = none) (hshort : buffer.length < i + 4) : headEnd buffer = none := by
  have hcrlf : Search.indexOf (crlf ++ crlf) buffer = none := Search.indexOf_eq_none_of_short h hshort
  have hlf : Search.indexOf [10, 10] buffer = none := Search.indexOf_eq_none_of_append hlf
  simp [headEnd, hcrlf, hlf]

/-- A complete head decides how it is parsed. -/
theorem parseHead_append {buffer : Bytes} {i : Nat} (h : Search.indexOf (crlf ++ crlf) buffer = some i) (requestMode : Bool)
    (t : Bytes) : parseHead requestMode (buffer ++ t) = parseHead requestMode buffer := by
  have hend : headEnd buffer = some (i + 4) := by simpa using headEnd_append h []
  have hlines : headLines (buffer ++ t) (i + 4) = headLines buffer (i + 4) := by
    have hle : i + 4 ≤ buffer.length := Search.indexOf_le h
    unfold headLines
    rw [List.take_append_of_le_length hle]
  unfold parseHead
  rw [headEnd_append h t, hend]
  simp only [hlines]

end Mcp
