import McpSdk.HttpEndpoint
import McpSdk.Post
/-!
# HttpSessionServer — a session for each id

`SessionRegistry` and `HttpSessionServer::handle_request`.  What a request asks for is read from its head and body alone
(`route`); the registry is then looked at once.  A session is a number, its place among those the factory has returned.
-/
namespace Mcp

/-- `HttpSessionServerOptions`; the timeout is in milliseconds. -/
structure HttpSessionServerOptions where
  http : HttpServerOptions := {}
  sessionIdleTimeout : Int := 30 * 60 * 1000
  allowClientTermination : Bool := true

/-! ## Ids -/

def hexNibble (n : UInt32) : UInt8 := if n < 10 then 48 + n.toUInt8 else 87 + n.toUInt8

/-- `%08x`. -/
def hex8 (n : UInt32) : Bytes := (List.range 8).map fun i => hexNibble ((n >>> UInt32.ofNat (28 - 4 * i)) &&& 15)

/-- `generate_session_id`, from what `std::random_device` gives. -/
def generateSessionId (a b c d : UInt32) : Bytes := hex8 a ++ hex8 b ++ hex8 c ++ hex8 d

theorem generateSessionId_ne_nil (a b c d : UInt32) : generateSessionId a b c d ≠ [] := by
  intro h
  have hlength := congrArg List.length h
  simp [generateSessionId, hex8] at hlength

/-! ## The registry -/

structure Entry where
  session : Nat
  lastActivity : TimePoint

abbrev SessionRegistry := Dict Bytes Entry

namespace SessionRegistry

def create (registry : SessionRegistry) (id : Bytes) (entry : Entry) : SessionRegistry := registry.insert id entry

/-- Looks up and touches. -/
def find (registry : SessionRegistry) (id : Bytes) (now : TimePoint) : Option (Entry × SessionRegistry) :=
  (registry.lookup id).map fun entry =>
    ({ entry with lastActivity := now }, registry.insert id { entry with lastActivity := now })

def remove (registry : SessionRegistry) (id : Bytes) : Option (Entry × SessionRegistry) :=
  (registry.lookup id).map fun entry => (entry, registry.erase id)

/-- The entry was last active before the cutoff. -/
def isIdle (timeout : Int) (now : TimePoint) (entry : Entry) : Bool :=
  decide (0 < timeout) && decide (entry.lastActivity < now - timeout * 1000000)

def removeIdle (registry : SessionRegistry) (timeout : Int) (now : TimePoint) :
    List ((_ : Bytes) × Entry) × SessionRegistry :=
  (registry.entries.filter (fun e => isIdle timeout now e.2), registry.filter (fun _ entry => !isIdle timeout now entry))

def removeAll (registry : SessionRegistry) : List Entry × SessionRegistry := (registry.values, ∅)

end SessionRegistry

/-! ## Requests -/

/-- A request, the times at which `handle_request` reads the clock for it, and what the outside gives it. -/
structure SessionRequest where
  head : HttpHead
  body : Bytes
  sweepTime : TimePoint
  now : TimePoint
  device : UInt32 × UInt32 × UInt32 × UInt32
  /-- The factory returns a session. -/
  factory : Bool := true
  /-- What the session's handling of the `i`-th message puts into the capture, or that it throws. -/
  reaction : Nat → Except JsonException (List Json) := fun _ => .ok []

namespace HttpSessionServer

def sessionId (r : SessionRequest) : Bytes := r.head.header (bytes "mcp-session-id")

def newId (r : SessionRequest) : Bytes := generateSessionId r.device.1 r.device.2.1 r.device.2.2.1 r.device.2.2.2

inductive Event where
  /-- Idle or terminated: out of the registry, its transport closed, and `on_session_closed` called. -/
  | evicted (id : Bytes) (session : Nat)
  | terminated (id : Bytes) (session : Nat)
  | created (id : Bytes) (session : Nat)
  | attached (session : Nat) (lastEventId : Bytes)
  | delivered (session : Nat) (m : Message)
  | answered (status : Nat) (reason body : Bytes) (extraHeaders : HeaderList)

inductive Route where
  /-- An answer without a look at the registry. -/
  | refuse (status : Nat) (reason body : Bytes)
  | escape
  | terminate
  | attach
  | post (frame : ParsedFrame)
  | open (frame : ParsedFrame)

/-- `write_jsonrpc_error` of a 400. -/
def badRequest (text : JsonText Bytes) (e : Error) : Route :=
  match serializeMessage text (.response (Post.nullIdError e)) with
  | .ok body => .refuse 400 (bytes "Bad Request") body
  | .error _ => .escape

/-- `handle_request` up to the registry. -/
def route (o : HttpSessionServerOptions) (text : JsonText Bytes) (r : SessionRequest) : Route :=
  if r.head.method = bytes "DELETE" then
    if sessionId r = [] then .refuse 400 (bytes "Bad Request") (bytes "Mcp-Session-Id required")
    else if !o.allowClientTermination then
      .refuse 405 (bytes "Method Not Allowed") (bytes "session termination disabled")
    else .terminate
  else if r.head.method = bytes "GET" then
    if r.head.headerContains (bytes "accept") (bytes "text/event-stream") = false then
      .refuse 406 (bytes "Not Acceptable") (bytes "expected text/event-stream")
    else if sessionId r = [] then .refuse 400 (bytes "Bad Request") (bytes "Mcp-Session-Id required")
    else .attach
  else if r.head.method ≠ bytes "POST" then
    .refuse 405 (bytes "Method Not Allowed") (bytes "use POST, GET, or DELETE")
  else
    match parseFrame text r.body with
    | .error _ => .escape
    | .ok (.error e) => badRequest text e
    | .ok (.ok frame) =>
      if sessionId r = [] then
        if Post.frameContainsInitialize frame then .open frame else badRequest text Post.sessionIdRequired
      else .post frame

/-- What a request has done, and the registry after it. -/
structure Turn where
  registry : SessionRegistry
  events : List Event
  escaped : Bool := false

/-- The messages of a frame from the `i`-th on, and the answer. -/
def deliverAll (text : JsonText Bytes) (r : SessionRequest) (session : Nat) (frame : ParsedFrame) (extraHeaders : HeaderList) :
    Nat → List Message → List Json → List Event × Bool
  | _, [], [] => ([.answered 202 (bytes "Accepted") [] extraHeaders], false)
  | _, [], first :: rest =>
    match text.dump (Post.captureBody frame.wasBatch first rest) with
    | .ok body => ([.answered 200 (bytes "OK") body extraHeaders], false)
    | .error _ => ([], true)
  | i, m :: messages, captured =>
    match r.reaction i with
    | .error _ => ([.delivered session m], true)
    | .ok responses =>
      let (events, escaped) := deliverAll text r session frame extraHeaders (i + 1) messages (captured ++ responses)
      (.delivered session m :: events, escaped)

/-- The item errors of a batch are captured first. -/
def deliverFrame (text : JsonText Bytes) (r : SessionRequest) (session : Nat) (frame : ParsedFrame) (extraHeaders : HeaderList) :
    List Event × Bool :=
  deliverAll text r session frame extraHeaders 0 frame.messages
    (frame.itemErrors.map fun e => responseToJson (Post.nullIdError e))

/-- `handle_request` behind the sweep; `next` is the number of the session the factory makes. -/
def dispatch (o : HttpSessionServerOptions) (text : JsonText Bytes) (registry : SessionRegistry) (next : Nat)
    (r : SessionRequest) : Turn :=
  match route o text r with
  | .refuse status reason body => { registry, events := [.answered status reason body []] }
  | .escape => { registry, events := [], escaped := true }
  | .terminate =>
    match registry.remove (sessionId r) with
    | none => { registry, events := [.answered 404 (bytes "Not Found") (bytes "unknown session") []] }
    | some (entry, registry) =>
      { registry, events := [.terminated (sessionId r) entry.session, .answered 200 (bytes "OK") [] []] }
  | .attach =>
    match registry.find (sessionId r) r.now with
    | none => { registry, events := [.answered 404 (bytes "Not Found") (bytes "unknown session") []] }
    | some (entry, registry) => { registry, events := [.attached entry.session (r.head.header (bytes "last-event-id"))] }
  | .post frame =>
    match registry.find (sessionId r) r.now with
    | none => { registry, events := [.answered 404 (bytes "Not Found") (bytes "unknown or expired session") []] }
    | some (entry, registry) =>
      let (events, escaped) := deliverFrame text r entry.session frame []
      { registry, events, escaped }
  | .open frame =>
    if r.factory then
      let (events, escaped) := deliverFrame text r next frame [(bytes "Mcp-Session-Id", newId r)]
      { registry := registry.create (newId r) { session := next, lastActivity := r.now }
        events := .created (newId r) next :: events
        escaped }
    else { registry, events := [.answered 500 (bytes "Internal Server Error") (bytes "session factory failed") []] }

def handleRequest (o : HttpSessionServerOptions) (text : JsonText Bytes) (registry : SessionRegistry) (next : Nat)
    (r : SessionRequest) : Turn :=
  let (idle, registry) := registry.removeIdle o.sessionIdleTimeout r.sweepTime
  let turn := dispatch o text registry next r
  { turn with events := idle.map (fun e => .evicted e.1 e.2.session) ++ turn.events }

end HttpSessionServer
end Mcp
