import McpSdk.Router
import Mathlib.Data.Finset.Card
/-!
# Session — `Session::handle_message` on one thread

The session's record, the gates of `ServerSession` and `ClientSession`, and the handling of one message.  What the
session does to the outside is a list of `Effect`s in order; an exception that leaves `handle_message` is `escaped`.

User notification handlers, response callbacks, progress callbacks and `Transport::send` do not throw; user request
handlers throw subclasses of `std::exception` only.
-/
namespace Mcp

namespace methods

def kInitialize : Bytes := bytes "initialize"
def kPing : Bytes := bytes "ping"
def kNotificationInitialized : Bytes := bytes "notifications/initialized"
def kNotificationCancelled : Bytes := bytes "notifications/cancelled"
def kNotificationProgress : Bytes := bytes "notifications/progress"

end methods

inductive SessionState
  | uninitialized
  | initializing
  | operating
  | shutdown
  deriving DecidableEq, Repr

/-- The dynamic class of a session, with its options. -/
inductive SessionClass where
  | session
  | server (options : ServerOptions)
  | client (options : ClientOptions)

/-- A session.  The peer's record is `client_info_` on a server and `server_info_` on a client. -/
structure Session (ω : Type) where
  cls : SessionClass
  state : SessionState := .uninitialized
  router : Router ω := {}
  timers : Timers := {}
  cancelledIncoming : Finset RequestId := ∅
  protectedRequestId : Option RequestId := none
  clientInfo : Option Implementation := none
  clientCapabilities : Option ClientCapabilities := none
  serverInfo : Option Implementation := none
  serverCapabilities : Option ServerCapabilities := none
  errorCallback : Option Callback := none

/-- What handling a message does outside the session. -/
inductive Effect where
  /-- `transport_->send`. -/
  | send (m : Message)
  /-- `router_.dispatch` of a request. -/
  | dispatch (method : Bytes)
  | invoke (method : Bytes)
  | complete (callback : Callback) (result : Result Json)
  | progress (callback : Callback) (note : ProgressNotification)
  | reportError (callback : Callback) (e : Error)

def kMaxTrackedCancellations : Nat := 1024

/-- The first undeclared capability whose prefix the method has. -/
def undeclaredGate (gates : List (Bytes × Bool)) (method : Bytes) : Option Error :=
  if gates.any (fun gate => startsWith method gate.1 && !gate.2) then
    some (Error.of .capabilityNotSupported (bytes "capability not supported: " ++ method))
  else none

def serverGates (c : ServerCapabilities) : List (Bytes × Bool) :=
  [(bytes "tools/", c.tools.isSome), (bytes "resources/", c.resources.isSome), (bytes "prompts/", c.prompts.isSome),
    (bytes "logging/", c.logging.isSome), (bytes "completion/", c.completions.isSome), (bytes "tasks/", c.tasks.isSome)]

def clientGates (c : ClientCapabilities) : List (Bytes × Bool) :=
  [(bytes "sampling/", c.sampling.isSome), (bytes "roots/", c.roots.isSome),
    (bytes "elicitation/", c.elicitation.isSome), (bytes "tasks/", c.tasks.isSome)]

def notInitializedError : Error := Error.of .connectionNotInitialized (bytes "session is not initialized")

namespace Session

variable {ω : Type}

/-! ## Construction -/

/-- What the constructor of `Session` registers. -/
def baseRouter : Router ω :=
  ((({} : Router ω).setRequestHandler methods.kPing (some .ping)).setNotificationHandler
    methods.kNotificationProgress (some .progress)).setNotificationHandler
    methods.kNotificationCancelled (some .cancelled)

/-- `ServerSession(transport, options)`. -/
def mkServer (options : ServerOptions) : Session ω :=
  { cls := .server options
    router := (baseRouter.setRequestHandler methods.kInitialize (some (.initializeHandler options))).setNotificationHandler
      methods.kNotificationInitialized (some .initialized) }

/-- `ClientSession(transport, options)`. -/
def mkClient (options : ClientOptions) : Session ω := { cls := .client options, router := baseRouter }

/-! ## Incoming requests -/

/-- `check_incoming_request`. -/
def checkIncomingRequest (s : Session ω) (r : JsonRpcRequest) : Option Error :=
  match s.cls with
  | .session => none
  | .server options =>
    if r.method = methods.kInitialize ∨ r.method = methods.kPing then none
    else if s.state ≠ .operating then some notInitializedError
    else undeclaredGate (serverGates options.capabilities) r.method
  | .client options =>
    if r.method = methods.kPing then none
    else if s.state ≠ .operating then some notInitializedError
    else undeclaredGate (clientGates options.capabilities) r.method

/-- The `initialize` handler of a server. -/
def runInitialize (options : ServerOptions) (s : Session ω) (params : Option Json) : Result Json × Session ω :=
  if s.state ≠ .uninitialized ∧ options.allowReinitialize = false then
    (.error (Error.of .invalidRequest (bytes "initialize already received")), s)
  else
    let s := if s.state ≠ .uninitialized then { s with clientInfo := none, clientCapabilities := none } else s
    match params with
    | none => (.error (Error.of .invalidParams (bytes "initialize requires params")), s)
    | some p =>
      match InitializeParams.fromJson p with
      | .error e => (.error (Error.of .invalidParams (bytes "invalid initialize params: " ++ e.what)), s)
      | .ok parsed =>
        let s := { s with
          clientInfo := some parsed.clientInfo
          clientCapabilities := some parsed.capabilities
          state := .initializing }
        let result : InitializeResult :=
          { protocolVersion := options.negotiate parsed.protocolVersion
            capabilities := options.capabilities
            serverInfo := options.serverInfo
            instructions := options.instructions }
        (.ok result.toJson, s)

/-- A request handler's call: what it returns or throws, and what it leaves behind. -/
def runRequestHandler (s : Session ω) (w : ω) (params : Option Json) :
    RequestHandler ω → Except Exn (Result Json) × Session ω × ω
  | .ping => (.ok (.ok (.object [])), s, w)
  | .initializeHandler options => (.ok (runInitialize options s params).1, (runInitialize options s params).2, w)
  | .user run => ((run params w).1, s, (run params w).2)

def respond (id : RequestId) : Except Exn (Result Json) → JsonRpcResponse
  | .ok (.ok result) => { id := some id, result := some result }
  | .ok (.error e) => { id := some id, error := some e }
  | .error (.mcp e) => { id := some id, error := some e }
  | .error e => { id := some id, error := some (Error.of .internalError e.what) }

/-- `MessageRouter::dispatch` of a request. -/
def dispatchRequest (s : Session ω) (w : ω) (r : JsonRpcRequest) :
    JsonRpcResponse × Session ω × ω × List Effect :=
  match s.router.findRequestHandler r.method with
  | none =>
    ({ id := some r.id, error := some (Error.of .methodNotFound (bytes "Method not found: " ++ r.method)) }, s, w,
      [.dispatch r.method])
  | some handler =>
    let out := runRequestHandler s w r.params handler
    (respond r.id out.1, out.2.1, out.2.2, [.dispatch r.method, .invoke r.method])

theorem respond_id (id : RequestId) (out : Except Exn (Result Json)) : (respond id out).id = some id := by
  rcases out with (_ | _ | _) | (_ | _) <;> rfl

theorem dispatchRequest_id (s : Session ω) (w : ω) (r : JsonRpcRequest) : (s.dispatchRequest w r).1.id = some r.id := by
  unfold dispatchRequest
  cases s.router.findRequestHandler r.method with
  | none => rfl
  | some handler => exact respond_id r.id _

/-! ## Incoming notifications and responses -/

/-- The session after a message, what it did, and the exception that left `handle_message`. -/
structure Handled (ω : Type) where
  session : Session ω
  world : ω
  effects : List Effect := []
  escaped : Option Exn := none

def handleProgress (now : TimePoint) (s : Session ω) (w : ω) (params : Option Json) : Handled ω :=
  match params with
  | none => { session := s, world := w }
  | some p =>
    match ProgressNotification.fromJson p with
    | .error e => { session := s, world := w, escaped := some (.json e) }
    | .ok (.error _) => { session := s, world := w }
    | .ok (.ok note) =>
      let (callback, timers) := s.timers.progress now note.progressToken
      { session := { s with timers }, world := w
        effects := match callback with | some c => [.progress c note] | none => [] }

def handleCancelled (s : Session ω) (w : ω) (params : Option Json) : Handled ω :=
  match params with
  | none => { session := s, world := w }
  | some p =>
    match CancelledNotification.fromJson p with
    | .error e => { session := s, world := w, escaped := some (.json e) }
    | .ok (.error _) => { session := s, world := w }
    | .ok (.ok note) =>
      if s.protectedRequestId = some note.requestId then { session := s, world := w }
      else
        let tracked := if kMaxTrackedCancellations ≤ s.cancelledIncoming.card then ∅ else s.cancelledIncoming
        { session := { s with cancelledIncoming := insert note.requestId tracked }, world := w }

/-- The handler of `notifications/initialized`. -/
def handleInitialized (s : Session ω) : Session ω :=
  if s.state = .initializing then { s with state := .operating } else s

/-- `MessageRouter::dispatch` of a notification. -/
def dispatchNotification (now : TimePoint) (s : Session ω) (w : ω) (n : JsonRpcNotification) : Handled ω :=
  match s.router.findNotificationHandler n.method with
  | none => { session := s, world := w }
  | some .progress => handleProgress now s w n.params
  | some .cancelled => handleCancelled s w n.params
  | some .initialized => { session := handleInitialized s, world := w }
  | some (.user run) => { session := s, world := run n.params w }

/-- `handle_message` of a response: `clear_tracking`, then the pending callback. -/
def handleResponse (s : Session ω) (w : ω) (r : JsonRpcResponse) : Handled ω :=
  match r.id with
  | none => { session := s, world := w }
  | some id =>
    let (callback, pending) := takePending s.router.pending id
    { session := { s with timers := s.timers.clear id, router := { s.router with pending } }, world := w
      effects := match callback with | some c => [.complete c (responseResult r)] | none => [] }

/-! ## `handle_message` -/

/-- The id of an `initialize` request is protected against cancellation. -/
def protectId (s : Session ω) (r : JsonRpcRequest) : Session ω :=
  if r.method = methods.kInitialize then { s with protectedRequestId := some r.id } else s

/-- The response that rejects a request at the gate. -/
def rejection (r : JsonRpcRequest) (e : Error) : JsonRpcResponse := { id := some r.id, error := some e }

def handleRequest (s : Session ω) (w : ω) (r : JsonRpcRequest) : Handled ω :=
  let s := s.protectId r
  match s.checkIncomingRequest r with
  | some e => { session := s, world := w, effects := [.send (.response (rejection r e))] }
  | none =>
    let (response, s, w, effects) := s.dispatchRequest w r
    { session := s, world := w, effects := effects ++ [.send (.response response)] }

def handleMessage (now : TimePoint) (s : Session ω) (w : ω) : Message → Handled ω
  | .request r => handleRequest s w r
  | .notification n => dispatchNotification now s w n
  | .response r => handleResponse s w r

/-- `on_transport_error`: a server answers parse and validation failures with a null-id error. -/
def onTransportError (s : Session ω) (e : Error) : List Effect :=
  let report := match s.errorCallback with | some c => [Effect.reportError c e] | none => []
  match s.cls with
  | .server _ =>
    if e.code = ErrorCode.parseError.toInt ∨ e.code = ErrorCode.invalidRequest.toInt then
      .send (.response { error := some e }) :: report
    else report
  | _ => report

end Session

end Mcp
