import McpSdk.Bytes
import McpSdk.Lib.Dict
import McpSdk.Lib.Search
/-!
# UriTemplate — `detail::match_uri_template`

Level-1 templates: literals and `{var}` expressions.  A position in the template or in the URI is the rest of the text
from there.
-/
namespace Mcp

structure Segment where
  text : Bytes
  isVariable : Bool := false
  deriving DecidableEq, Repr

/-- A literal run, when it is not empty. -/
def literal (current : Bytes) : List Segment := if current = [] then [] else [{ text := current }]

/-- The scan of `tokenize`: `current` is the literal, or with `inside` the expression, read so far. -/
def tokenizeFrom (inside : Bool) (current : Bytes) : Bytes → Option (List Segment)
  | [] => if inside then none else some (literal current)
  | c :: rest =>
    if inside then
      if c = 0x7D then
        -- an empty expression is refused
        if current = [] then none
        else (tokenizeFrom false [] rest).map ({ text := current, isVariable := true } :: ·)
      else tokenizeFrom true (current ++ [c]) rest
    else if c = 0x7B then (tokenizeFrom true [] rest).map (literal current ++ ·)
    else tokenizeFrom false (current ++ [c]) rest

def tokenize (uriTemplate : Bytes) : Option (List Segment) := tokenizeFrom false [] uriTemplate

/-- Where a variable's value ends: at the next literal, or at the end of the URI.  Adjacent variables are refused. -/
def valueEnd (uri : Bytes) : List Segment → Option Nat
  | [] => some uri.length
  | next :: _ => if next.isVariable then none else Search.indexOf next.text uri

/-- The loop over the segments, at the rest of the URI. -/
def matchSegments : List Segment → Bytes → Dict Bytes Bytes → Option (Dict Bytes Bytes)
  | [], uri, vars => if uri = [] then some vars else none
  | segment :: segments, uri, vars =>
    if segment.isVariable then
      match valueEnd uri segments with
      | none => none
      | some 0 => none
      | some stop => matchSegments segments (uri.drop stop) (vars.insert segment.text (uri.take stop))
    else if startsWith uri segment.text then matchSegments segments (uri.drop segment.text.length) vars
    else none

def matchUriTemplate (uriTemplate uri : Bytes) : Option (Dict Bytes Bytes) :=
  (tokenize uriTemplate).bind (fun segments => matchSegments segments uri ∅)

end Mcp
