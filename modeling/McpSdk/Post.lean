import McpSdk.Session
import McpSdk.Lib.Pool
import McpSdk.Lib.Run
/-!
# Post — POST requests on concurrent connection threads

`HttpServerTransport::handle_request` and the POST part of `HttpSessionServer::handle_request`, one critical section or
one call of the session a step, with `PostCapture`'s table shared by all threads.  Everything else that runs in the
process, other threads' use of a session included, may change the sessions and the handlers' state between any two steps
(`Label.other`), and may send requests and notifications (`Label.sendOther`).
-/
namespace Mcp
namespace Post

variable {ω τ : Type}

/-! ## State -/

/-- Where a POST goes: the one session of an `HttpServerTransport`; on an `HttpSessionServer` the registered session its
id names, none, or, without an id, the session the factory makes. -/
inductive Target (ω : Type) where
  | transport (index : Nat)
  | session (index : Nat)
  | unknown
  | fresh (created : Option (Session ω))

inductive Reply (τ : Type) where
  /-- 202 without a body. -/
  | accepted
  /-- 200. -/
  | answered (body : τ)
  /-- 400. -/
  | badRequest (body : τ)
  /-- 404. -/
  | notFound
  /-- 500. -/
  | failed
  deriving DecidableEq, Repr

structure State (ω τ : Type) where
  sessions : List (Session ω)
  world : ω
  /-- `capture_table()`, by thread. -/
  captureTable : Dict Nat (List Json) := ∅
  /-- What `SseChannel::enqueue` was given, by session. -/
  enqueued : List (Nat × Message) := []
  /-- The body of each POST; thread `i` serves the `i`-th. -/
  posts : List τ := []
  /-- The frames handed on to a session, the responses made for them and the HTTP answers, by thread. -/
  delivered : List (Nat × ParsedFrame) := []
  produced : List (Nat × JsonRpcResponse) := []
  replies : List (Nat × Reply τ) := []

/-- Where a connection thread stands. -/
inductive Pc (ω τ : Type) where
  | done
  /-- An exception left the thread's function. -/
  | crashed
  | parse (target : Target ω) (body : τ)
  /-- `emit_error` after a 400. -/
  | emitError (index : Nat) (e : Error)
  /-- `PostCapture()`. -/
  | construct (index : Nat) (frame : ParsedFrame)
  | itemErrors (index : Nat) (frame : ParsedFrame) (errors : List Error)
  /-- Before the next message. -/
  | deliver (index : Nat) (frame : ParsedFrame) (messages : List Message)
  | dispatch (index : Nat) (frame : ParsedFrame) (r : JsonRpcRequest) (messages : List Message)
  | send (index : Nat) (frame : ParsedFrame) (response : JsonRpcResponse) (messages : List Message)
  /-- `empty()`, `body()` and the answer. -/
  | finish (frame : ParsedFrame)
  /-- `~PostCapture()`. -/
  | destruct

inductive Label (ω τ : Type) where
  /-- A POST arrives on a thread of its own. -/
  | post (target : Target ω) (body : τ)
  /-- Any thread sends a request or a notification through a session. -/
  | sendOther (index : Nat) (m : Message)
  /-- Anything else that runs: a session and the handlers' state change. -/
  | other (index : Nat) (session : Session ω) (world : ω)
  | step (thread : Nat) (now : TimePoint)

namespace State

def setSession (s : State ω τ) (index : Nat) (session : Session ω) (world : ω) : State ω τ :=
  { s with sessions := s.sessions.set index session, world }

def enqueue (s : State ω τ) (index : Nat) (m : Message) : State ω τ := { s with enqueued := s.enqueued ++ [(index, m)] }

def reply (s : State ω τ) (i : Nat) (r : Reply τ) : State ω τ := { s with replies := s.replies ++ [(i, r)] }

/-- `PostCapture()` on thread `i`. -/
def construct (s : State ω τ) (i : Nat) (frame : ParsedFrame) : State ω τ :=
  { s with captureTable := s.captureTable.insert i [], delivered := s.delivered ++ [(i, frame)] }

/-- `~PostCapture()` on thread `i`. -/
def destruct (s : State ω τ) (i : Nat) : State ω τ := { s with captureTable := s.captureTable.erase i }

/-- `push_back` into thread `i`'s capture, where it has one. -/
def capture (s : State ω τ) (i : Nat) (j : Json) : Option (State ω τ) :=
  (s.captureTable.lookup i).map fun captured => { s with captureTable := s.captureTable.insert i (captured ++ [j]) }

def produce (s : State ω τ) (i : Nat) (response : JsonRpcResponse) : State ω τ :=
  { s with produced := s.produced ++ [(i, response)] }

end State

/-! ## Sections -/

/-- A null-id error response. -/
def nullIdError (e : Error) : JsonRpcResponse := { error := some e }

/-- `PostCapture::try_capture`. -/
def tryCapture (s : State ω τ) (i : Nat) (m : Message) : Option (State ω τ) :=
  if m.isResponse then s.capture i (messageToJson m) else none

/-- `HttpServerTransport::send` and `SessionTransport::send`, on thread `i`. -/
def send (text : JsonText τ) (s : State ω τ) (i index : Nat) (m : Message) : Except JsonException (State ω τ) :=
  match tryCapture s i m with
  | some s => .ok s
  | none => (serializeMessage text m).map (fun _ => s.enqueue index m)

/-- The `send`s among effects, in order. -/
def sendAll (text : JsonText τ) (i index : Nat) : List Effect → State ω τ → Except JsonException (State ω τ)
  | [], s => .ok s
  | .send m :: effects, s =>
    match send text s i index m with
    | .ok s => sendAll text i index effects s
    | .error e => .error e
  | _ :: effects, s => sendAll text i index effects s

/-- `write_simple` of a 400 with a null-id error. -/
def writeBadRequest (text : JsonText τ) (s : State ω τ) (i : Nat) (e : Error) (next : Pc ω τ) : State ω τ × Pc ω τ :=
  match serializeMessage text (.response (nullIdError e)) with
  | .ok t => (s.reply i (.badRequest t), next)
  | .error _ => (s, .crashed)

def frameContainsInitialize (frame : ParsedFrame) : Bool :=
  frame.messages.any fun
    | .request r => r.method == methods.kInitialize
    | _ => false

def sessionIdRequired : Error :=
  Error.of .invalidRequest (bytes "Mcp-Session-Id header required (initialize first)")

/-- From an accepted frame to its session. -/
def routeFrame (text : JsonText τ) (s : State ω τ) (i : Nat) (frame : ParsedFrame) : Target ω → State ω τ × Pc ω τ
  | .transport index => (s, .construct index frame)
  | .session index => (s, .construct index frame)
  | .unknown => (s.reply i .notFound, .done)
  | .fresh created =>
    if frameContainsInitialize frame then
      match created with
      | none => (s.reply i .failed, .done)
      | some session => ({ s with sessions := s.sessions ++ [session] }, .construct s.sessions.length frame)
    else writeBadRequest text s i sessionIdRequired .done

/-- What follows the 400 of a refused frame: only `HttpServerTransport` reports the error to its session. -/
def afterRefusal (e : Error) : Target ω → Pc ω τ
  | .transport index => .emitError index e
  | _ => .done

/-- The JSON of `PostCapture::body`. -/
def captureBody (asBatch : Bool) (first : Json) (rest : List Json) : Json :=
  if asBatch then .array (first :: rest) else first

def advance (text : JsonText τ) (i : Nat) (now : TimePoint) (s : State ω τ) : Pc ω τ → Option (State ω τ × Pc ω τ)
  | .done => none
  | .crashed => none
  | .parse target body =>
    match parseFrame text body with
    | .error _ => some (s, .crashed)
    | .ok (.error e) => some (writeBadRequest text s i e (afterRefusal e target))
    | .ok (.ok frame) => some (routeFrame text s i frame target)
  | .emitError index e =>
    (s.sessions[index]?).map fun session =>
      match sendAll text i index (session.onTransportError e) s with
      | .ok s => (s, .done)
      | .error _ => (s, .crashed)
  | .construct index frame => some (s.construct i frame, .itemErrors index frame frame.itemErrors)
  | .itemErrors index frame [] => some (s, .deliver index frame frame.messages)
  | .itemErrors index frame (e :: errors) =>
    some ((s.capture i (responseToJson (nullIdError e))).getD s, .itemErrors index frame errors)
  | .deliver _ frame [] => some (s, .finish frame)
  | .deliver index frame (.request r :: messages) =>
    (s.sessions[index]?).map fun session =>
      let s := s.setSession index (session.protectId r) s.world
      match session.checkIncomingRequest r with
      | some e => (s, .send index frame (Session.rejection r e) messages)
      | none => (s, .dispatch index frame r messages)
  | .deliver index frame (m :: messages) =>
    (s.sessions[index]?).map fun session =>
      let out := session.handleMessage now s.world m
      (s.setSession index out.session out.world,
        match out.escaped with
        | some _ => .crashed
        | none => .deliver index frame messages)
  | .dispatch index frame r messages =>
    (s.sessions[index]?).map fun session =>
      let (response, session, world, _) := session.dispatchRequest s.world r
      (s.setSession index session world, .send index frame response messages)
  | .send index frame response messages =>
    some (match send text (s.produce i response) i index (.response response) with
      | .ok s => (s, .deliver index frame messages)
      | .error _ => (s, .crashed))
  | .finish frame =>
    some (match (s.captureTable.lookup i).getD [] with
      | [] => (s.reply i .accepted, .destruct)
      | first :: rest =>
        match text.dump (captureBody frame.wasBatch first rest) with
        | .ok t => (s.reply i (.answered t), .destruct)
        | .error _ => (s, .crashed))
  | .destruct => some (s.destruct i, .done)

/-! ## Steps -/

/-- The session a POST names is there. -/
def Target.inRange (n : Nat) : Target ω → Bool
  | .transport index => decide (index < n)
  | .session index => decide (index < n)
  | _ => true

def step (text : JsonText τ) (p : Pool (State ω τ) (Pc ω τ)) : Label ω τ → Option (Pool (State ω τ) (Pc ω τ))
  | .post target body =>
    if target.inRange p.shared.sessions.length then
      some (p.spawn { p.shared with posts := p.shared.posts ++ [body] } (.parse target body))
    else none
  | .sendOther index m =>
    if m.isResponse then none
    else ((serializeMessage text m).toOption).map fun _ => { p with shared := p.shared.enqueue index m }
  | .other index session world => some { p with shared := p.shared.setSession index session world }
  | .step i now => Pool.stepAt (advance text i now) p i

def init (sessions : List (Session ω)) (world : ω) : Pool (State ω τ) (Pc ω τ) := ⟨{ sessions, world }, []⟩

end Post
end Mcp
