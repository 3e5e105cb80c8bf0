import McpSdk.LineTransport
import McpSdk.Post
/-!
# HttpClient — `HttpClientTransport::send`

`postRequest` is what `post_payload` writes, `receiveReply` what it makes of the reads of the connection: an empty chunk
is the end of the stream, no more chunks a timeout or a shutdown.
-/
namespace Mcp

/-- `HttpClientOptions`, as far as a POST reads them.  The extra headers are in key order. -/
structure HttpClientOptions where
  host : Bytes := bytes "127.0.0.1"
  port : UInt16 := 3001
  path : Bytes := bytes "/mcp"
  headers : HeaderList := []
  origin : Option Bytes := none

/-! ## Chunked bodies -/

inductive ChunkState where
  | size
  | data (remaining : Nat)
  | dataCrlf
  | trailers
  deriving DecidableEq, Repr

inductive ChunkStatus where
  | needMore
  | done
  | error
  deriving DecidableEq, Repr

def hexDigit (b : UInt8) : Option Nat :=
  if ch '0' ≤ b && b ≤ ch '9' then some (b.toNat - 48)
  else if ch 'a' ≤ b && b ≤ ch 'f' then some (b.toNat - 87)
  else if ch 'A' ≤ b && b ≤ ch 'F' then some (b.toNat - 55)
  else none

/-- The size of a chunk, up to an extension; `any` says a digit has been seen. -/
def chunkSize (size : Nat) (any : Bool) : Bytes → Option Nat
  | [] => if any then some size else none
  | b :: line =>
    if b = ch ';' then (if any then some size else none)
    else
      match hexDigit b with
      | some digit => chunkSize ((size * 16 + digit) % 2 ^ 64) true line
      | none => none

/-- `ChunkedDecoder::feed`: the status, the state, what is left of the buffer, and the output. -/
def decodeChunks (state : ChunkState) (buffer out : Bytes) : ChunkStatus × ChunkState × Bytes × Bytes :=
  match state with
  | .size =>
    match _h : Search.indexOf crlf buffer with
    | none => (.needMore, .size, buffer, out)
    | some nl =>
      match chunkSize 0 false (buffer.take nl) with
      | none => (.error, .size, buffer.drop (nl + 2), out)
      | some 0 => decodeChunks .trailers (buffer.drop (nl + 2)) out
      | some (n + 1) => decodeChunks (.data (n + 1)) (buffer.drop (nl + 2)) out
  | .data remaining =>
    let take := min remaining buffer.length
    if 0 < remaining - take then (.needMore, .data (remaining - take), buffer.drop take, out ++ buffer.take take)
    else decodeChunks .dataCrlf (buffer.drop take) (out ++ buffer.take take)
  | .dataCrlf =>
    if buffer.length < 2 then (.needMore, .dataCrlf, buffer, out)
    else if buffer.take 2 ≠ crlf then (.error, .dataCrlf, buffer, out)
    else decodeChunks .size (buffer.drop 2) out
  | .trailers =>
    match _h : Search.indexOf crlf buffer with
    | none => (.needMore, .trailers, buffer, out)
    | some nl =>
      if nl = 0 then (.done, .trailers, buffer.drop (nl + 2), out) else decodeChunks .trailers (buffer.drop (nl + 2)) out
termination_by (buffer.length, match state with | .data _ => 1 | _ => 0)
decreasing_by
  all_goals simp_wf
  · have hle := Search.indexOf_le _h
    have htwo : crlf.length = 2 := rfl
    omega
  · have hle := Search.indexOf_le _h
    have htwo : crlf.length = 2 := rfl
    omega
  · omega
  · omega
  · have hle := Search.indexOf_le _h
    have htwo : crlf.length = 2 := rfl
    omega

namespace HttpClient

/-! ## The request -/

def postHeaders (o : HttpClientOptions) (sessionId : Bytes) : HeaderList :=
  [(bytes "Host", o.host ++ bytes ":" ++ decimal o.port.toNat), (bytes "Content-Type", bytes "application/json"),
    (bytes "Accept", bytes "application/json, text/event-stream"), (bytes "MCP-Protocol-Version", kProtocolVersion),
    (bytes "Connection", bytes "close")] ++
    (o.origin.map fun origin => (bytes "Origin", origin)).toList ++
    (if sessionId.isEmpty then [] else [(bytes "Mcp-Session-Id", sessionId)]) ++ o.headers

def postRequest (o : HttpClientOptions) (sessionId body : Bytes) : Bytes :=
  serializeRequest (bytes "POST") o.path (postHeaders o sessionId) body

/-! ## The reply -/

variable {σ : Type}

def internalError (text : Bytes) : Error := Error.of .internalError text

/-- The loop that reads the head: the head, what has arrived after it and the reads to come; or the error to emit. -/
def readReplyHead (buffer : Bytes) : List Bytes → Except (Option Error) (HttpHead × Bytes × List Bytes)
  | [] => .error none
  | [] :: _ => .error (some (internalError (bytes "connection closed before HTTP response")))
  | chunk :: reads =>
    match parseHead false (buffer ++ chunk) with
    | .parsed head consumed => .ok (head, (buffer ++ chunk).drop consumed, reads)
    | .malformed e => .error (some (internalError (bytes "malformed HTTP response: " ++ e)))
    | .incomplete => readReplyHead (buffer ++ chunk) reads

inductive BodyFraming where
  | chunked (state : ChunkState) (out : Bytes)
  | length (expected : Nat)
  | untilClose

/-- The loop that reads a buffered body. -/
def readReplyBody (framing : BodyFraming) (buffer : Bytes) (reads : List Bytes) : Except (Option Error) Bytes :=
  match framing with
  | .chunked state out =>
    match decodeChunks state buffer out with
    | (.done, _, _, out) => .ok out
    | (.error, _, _, _) => .error (some (internalError (bytes "malformed chunked encoding")))
    | (.needMore, state, buffer, out) =>
      match reads with
      | [] => .error none
      | [] :: _ => .error (some (internalError (bytes "truncated HTTP response body")))
      | chunk :: reads => readReplyBody (.chunked state out) (buffer ++ chunk) reads
  | .length expected =>
    if expected ≤ buffer.length then .ok (buffer.take expected)
    else
      match reads with
      | [] => .error none
      | [] :: _ => .error (some (internalError (bytes "truncated HTTP response body")))
      | chunk :: reads => readReplyBody (.length expected) (buffer ++ chunk) reads
  | .untilClose =>
    match reads with
    | [] => .error none
    | [] :: _ => .ok buffer
    | chunk :: reads => readReplyBody .untilClose (buffer ++ chunk) reads
termination_by reads.length

/-- `deliver_frame`: the code of `process_line`. -/
def deliverFrame (text : JsonText Bytes) (handlers : Handlers σ) (payload : Bytes) : Call σ :=
  LineTransport.processLine text handlers payload

/-- A reply that is an event stream: each event as it arrives, until the stream ends. -/
def streamReply (text : JsonText Bytes) (handlers : Handlers σ) (parser : SseParser) (data : Bytes) :
    List Bytes → Call σ
  | [], s => each (fun e => deliverFrame text handlers e.data) (parser.feed data).2 s
  | [] :: _, s => each (fun e => deliverFrame text handlers e.data) (parser.feed data).2 s
  | chunk :: reads, s =>
    match each (fun e => deliverFrame text handlers e.data) (parser.feed data).2 s with
    | (s, none) => streamReply text handlers (parser.feed data).1 chunk reads s
    | (s, some x) => (s, some x)

def bodyFraming (head : HttpHead) : BodyFraming :=
  if head.headerContains (bytes "transfer-encoding") (bytes "chunked") then .chunked .size []
  else if head.header (bytes "content-length") = [] then .untilClose
  else .length (strtoull (head.header (bytes "content-length")))

def hint (head : HttpHead) (sessionId : Bytes) : Bytes :=
  if head.status = 404 ∧ sessionId ≠ [] then bytes " (session expired - reinitialize)" else []

def emit (handlers : Handlers σ) (e : Option Error) : Call σ := fun s =>
  match e with
  | some e => LineTransport.emitError handlers e s
  | none => (s, none)

/-- `post_payload` after the request: `session_id_`, and what the handlers make of the reply. -/
def receiveReply (text : JsonText Bytes) (handlers : Handlers σ) (sessionId : Bytes) (reads : List Bytes) (s : σ) :
    Bytes × σ × Option Exn :=
  match readReplyHead [] reads with
  | .error e => (sessionId, emit handlers e s)
  | .ok (head, buffer, reads) =>
    let sessionId := if head.header (bytes "mcp-session-id") = [] then sessionId else head.header (bytes "mcp-session-id")
    if head.status = 202 then (sessionId, s, none)
    else if head.status ≠ 200 then
      (if head.status = 404 then [] else sessionId,
        LineTransport.emitError handlers
          (internalError (bytes "HTTP " ++ decimalInt head.status.toInt ++ bytes " " ++ head.reason ++ hint head sessionId)) s)
    else if head.headerContains (bytes "content-type") (bytes "text/event-stream") then
      (sessionId, streamReply text handlers {} buffer reads s)
    else
      match readReplyBody (bodyFraming head) buffer reads with
      | .error e => (sessionId, emit handlers e s)
      | .ok body => (sessionId, deliverFrame text handlers body s)

end HttpClient

/-! ## What the servers answer -/

namespace HttpEndpoint

def writeSimple (status : Int32) (reason body contentType : Bytes) (extraHeaders : HeaderList) : Bytes :=
  serializeResponse status reason
    ([(bytes "Content-Type", contentType), (bytes "MCP-Protocol-Version", kProtocolVersion),
      (bytes "Connection", bytes "close")] ++ extraHeaders) body false

end HttpEndpoint

/-- The bytes of the answer to a POST; a session just created adds its id. -/
def Post.Reply.bytes (extraHeaders : HeaderList) : Post.Reply Bytes → Bytes
  | .accepted => HttpEndpoint.writeSimple 202 (Mcp.bytes "Accepted") [] (Mcp.bytes "text/plain") extraHeaders
  | .answered body => HttpEndpoint.writeSimple 200 (Mcp.bytes "OK") body (Mcp.bytes "application/json") extraHeaders
  | .badRequest body => HttpEndpoint.writeSimple 400 (Mcp.bytes "Bad Request") body (Mcp.bytes "application/json") []
  | .notFound =>
    HttpEndpoint.writeSimple 404 (Mcp.bytes "Not Found") (Mcp.bytes "unknown or expired session") (Mcp.bytes "text/plain") []
  | .failed =>
    HttpEndpoint.writeSimple 500 (Mcp.bytes "Internal Server Error") (Mcp.bytes "session factory failed")
      (Mcp.bytes "text/plain") []

end Mcp
