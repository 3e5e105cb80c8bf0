import McpSdk.Session
import McpSdk.Lib.Pool
import McpSdk.Lib.Run
/-!
# Requests — outgoing requests under every interleaving

One `Session` and its transport, as a pool of threads: every critical section of the router mutex or of the timer mutex
is one step, and so are the atomic stores and each call out of the session.  A label starts an activity (`send_request`,
an arriving response, a timer scan, `cancel_request`, a close, a `disconnect`) or runs the next section of a thread.

A callback is named by the number of the `send_request` call it was passed to.
-/
namespace Mcp
namespace Requests

/-! ## State -/

/-- Where a transport's reader thread (stdio reader, SSE loop) is. -/
inductive Reader
  | none
  | running
  | closing
  | exited
  deriving DecidableEq, Repr

/-- What each transport's `disconnect` and close event depend on. -/
inductive Transport
  | stdio (running : Bool) (reader : Reader)
  | httpServer (endpoint closeEmitted : Bool)
  | httpClient (openSse running closeEmitted : Bool) (reader : Reader)
  | session (closed : Bool)
  deriving DecidableEq, Repr

structure State where
  nextRequestId : Int64 := 1
  /-- The `send_request` calls so far. -/
  calls : Nat := 0
  pending : Pending := ∅
  timers : Timers := {}
  state : SessionState := .uninitialized
  transport : Transport
  now : TimePoint := 0
  /-- The id each `send_request` call drew. -/
  issued : List (Callback × RequestId) := []
  /-- The calls that got past the injection of the progress token. -/
  passed : List Callback := []
  received : List JsonRpcResponse := []
  /-- The callbacks invoked, with what they were passed. -/
  invoked : List (Callback × Result Json) := []
  progressed : List (Callback × ProgressNotification) := []
  sent : List Message := []
  /-- `fail_all_pending` has emptied the table at least once. -/
  swept : Bool := false
  /-- Some `handle_close` has finished. -/
  closeFinished : Bool := false
  /-- Some `Session::disconnect` has returned. -/
  disconnected : Bool := false

/-- Who called `handle_close`: the transport's reader thread, or its `disconnect` (`own`: called by
`Session::disconnect`). -/
inductive Closer
  | reader
  | stop (own : Bool)
  deriving DecidableEq, Repr

/-- Where a thread stands, with its locals. -/
inductive Pc where
  | done
  | sendRegister (id : RequestId) (callback : Callback) (method : Bytes) (params : Option Json) (options : RequestOptions)
  | sendTrack (id : RequestId) (method : Bytes) (params : Option Json) (options : RequestOptions)
  | sendMessage (id : RequestId) (method : Bytes) (params : Option Json)
  | responseClear (id : RequestId) (r : JsonRpcResponse)
  | responseTake (id : RequestId) (r : JsonRpcResponse)
  | responseCall (callback : Callback) (r : JsonRpcResponse)
  | progressClock (note : ProgressNotification)
  | progressCall (callback : Callback) (note : ProgressNotification)
  | cancelClear (id : RequestId) (reason : Option Bytes)
  | cancelTake (id : RequestId) (reason : Option Bytes)
  | cancelNotify (id : RequestId) (reason : Option Bytes) (callback : Callback)
  | cancelCall (callback : Callback)
  | expired (ids : List RequestId)
  | expireTake (id : RequestId) (ids : List RequestId)
  | expireCall (callback : Callback) (ids : List RequestId)
  | closeState (k : Closer)
  | closeClear (k : Closer)
  | closeSwap (k : Closer)
  | closeCalls (k : Closer) (callbacks : List Callback)
  | transportStop (own onReader : Bool)
  | transportJoin (own onReader : Bool)
  | transportReturn (own : Bool)

/-- The timer thread is between its scans. -/
def Pc.isTimer : Pc → Bool
  | expired _ => true
  | expireTake _ _ => true
  | expireCall _ _ => true
  | _ => false

/-- A `send_request` that has not returned. -/
def Pc.isSending : Pc → Bool
  | sendRegister .. => true
  | sendTrack .. => true
  | sendMessage .. => true
  | _ => false

inductive Label where
  | connect
  | sendRequest (method : Bytes) (params : Option Json) (options : RequestOptions)
  | response (r : JsonRpcResponse)
  | progress (note : ProgressNotification)
  | cancelRequest (id : RequestId) (reason : Option Bytes)
  | timerScan
  | tick (elapsed : Nat)
  /-- The reader sees the peer close, a read error or the end of its loop, and emits the close event. -/
  | readerCloses
  /-- The reader is woken by `disconnect` and returns without a close event. -/
  | readerReturns
  /-- `Session::disconnect`; `onReader`: from a callback on the transport's reader thread. -/
  | disconnect (onReader : Bool)
  /-- `transport->disconnect()` by anyone else. -/
  | transportDisconnect (onReader : Bool)
  | step (thread : Nat)

/-! ## Sections -/

def closedError : Error := Error.of .internalError (bytes "connection closed")
def cancelledError : Error := Error.of .internalError (bytes "request was cancelled")
def timedOutError : Error := Error.of .internalError (bytes "request timed out")

/-- `j[key] = v` on any value. -/
def assign (j : Json) (key : Bytes) (v : Json) : Except JsonException Json :=
  match j with
  | .object members => .ok (.object (Members.set key v members))
  | .null => .ok (.object [(key, v)])
  | j => .error (typeError 305 (bytes "cannot use operator[] with a string argument with " ++ j.typeName))

/-- `p["_meta"]["progressToken"] = token`, on `params` or an empty object. -/
def injectToken (params : Option Json) (token : ProgressToken) : Except JsonException Json := do
  let p := params.getD (.object [])
  let withMeta ← assign p (bytes "_meta") ((p.find (bytes "_meta")).getD .null)
  let inner ← assign ((withMeta.find (bytes "_meta")).getD .null) (bytes "progressToken") (requestIdToJson token)
  assign withMeta (bytes "_meta") inner

/-- The params `send_request` sends. -/
def requestParams (params : Option Json) (options : RequestOptions) : Except JsonException (Option Json) :=
  match options.progressToken with
  | some token => (injectToken params token).map some
  | none => .ok params

def cancelNote (id : RequestId) (reason : Option Bytes) : Message :=
  .notification { method := methods.kNotificationCancelled, params := some (CancelledNotification.toJson ⟨id, reason⟩) }

def Transport.reader : Transport → Reader
  | stdio _ reader => reader
  | httpClient _ _ _ reader => reader
  | _ => .none

def Transport.withReader (reader : Reader) : Transport → Transport
  | stdio running _ => stdio running reader
  | httpClient openSse running emitted _ => httpClient openSse running emitted reader
  | t => t

def Transport.connect : Transport → Transport
  | stdio false _ => stdio true .running
  | httpServer _ emitted => httpServer true emitted
  | httpClient openSse false emitted reader => httpClient openSse true emitted (if openSse then .running else reader)
  | t => t

/-- The first step of a transport's `disconnect`, and where it leads. -/
def Transport.stop (own onReader : Bool) : Transport → Transport × Pc
  | stdio _ reader => (stdio false reader, .transportJoin own onReader)
  | httpServer false emitted => (httpServer false emitted, .transportReturn own)
  | httpServer true false => (httpServer true true, .closeState (.stop own))
  | httpServer true true => (httpServer true true, .transportReturn own)
  | httpClient openSse false emitted reader => (httpClient openSse false emitted reader, .transportReturn own)
  | httpClient openSse true emitted reader => (httpClient openSse false emitted reader, .transportJoin own onReader)
  | session true => (session true, .transportReturn own)
  | session false => (session true, .closeState (.stop own))

/-- The reader of `t` emits the close event, where it still can. -/
def Transport.readerCloses : Transport → Option (Transport × Pc)
  | stdio _ .running => some (stdio false .closing, .closeState .reader)
  | httpClient openSse running false .running => some (httpClient openSse running true .closing, .closeState .reader)
  | httpClient openSse running true .running => some (httpClient openSse running true .exited, .done)
  | _ => none

/-- The reader of `t` returns silently once `disconnect` has cleared `running_`. -/
def Transport.readerReturns : Transport → Option Transport
  | stdio false .running => some (stdio false .exited)
  | httpClient openSse false emitted .running => some (httpClient openSse false emitted .exited)
  | _ => none

/-- A joined reader has ended. -/
def Reader.ended : Reader → Bool
  | none => true
  | exited => true
  | _ => false

/-- The end of `handle_close`: back to its caller. -/
def closeReturn (s : State) : Closer → State × Pc
  | .reader => ({ s with closeFinished := true, transport := s.transport.withReader .exited }, .done)
  | .stop own => ({ s with closeFinished := true }, .transportReturn own)

def advance (s : State) : Pc → Option (State × Pc)
  | .done => none
  | .sendRegister id callback method params options =>
    some ({ s with pending := registerPending s.pending id callback }, .sendTrack id method params options)
  | .sendTrack id method params options =>
    some ({ s with timers := s.timers.track s.now id options }, .sendMessage id method params)
  | .sendMessage id method params => some ({ s with sent := s.sent ++ [.request { id, method, params }] }, .done)
  | .responseClear id r => some ({ s with timers := s.timers.clear id }, .responseTake id r)
  | .responseTake id r =>
    match takePending s.pending id with
    | (some callback, pending) => some ({ s with pending }, .responseCall callback r)
    | (none, pending) => some ({ s with pending }, .done)
  | .responseCall callback r => some ({ s with invoked := s.invoked ++ [(callback, responseResult r)] }, .done)
  | .progressClock note =>
    match s.timers.progress s.now note.progressToken with
    | (some callback, timers) => some ({ s with timers }, .progressCall callback note)
    | (none, timers) => some ({ s with timers }, .done)
  | .progressCall callback note => some ({ s with progressed := s.progressed ++ [(callback, note)] }, .done)
  | .cancelClear id reason => some ({ s with timers := s.timers.clear id }, .cancelTake id reason)
  | .cancelTake id reason =>
    match takePending s.pending id with
    | (some callback, pending) => some ({ s with pending }, .cancelNotify id reason callback)
    | (none, pending) => some ({ s with pending }, .done)
  | .cancelNotify id reason callback => some ({ s with sent := s.sent ++ [cancelNote id reason] }, .cancelCall callback)
  | .cancelCall callback => some ({ s with invoked := s.invoked ++ [(callback, .error cancelledError)] }, .done)
  | .expired [] => some (s, .done)
  | .expired (id :: ids) =>
    some ({ s with sent := s.sent ++ [cancelNote id (some (bytes "request timed out"))] }, .expireTake id ids)
  | .expireTake id ids =>
    match takePending s.pending id with
    | (some callback, pending) => some ({ s with pending }, .expireCall callback ids)
    | (none, pending) => some ({ s with pending }, .expired ids)
  | .expireCall callback ids => some ({ s with invoked := s.invoked ++ [(callback, .error timedOutError)] }, .expired ids)
  | .closeState k => some ({ s with state := .shutdown }, .closeClear k)
  | .closeClear k => some ({ s with timers := {} }, .closeSwap k)
  | .closeSwap k =>
    some ({ s with pending := (takeAllPending s.pending).2, swept := true }, .closeCalls k (takeAllPending s.pending).1)
  | .closeCalls k [] => some (closeReturn s k)
  | .closeCalls k (callback :: callbacks) =>
    some ({ s with invoked := s.invoked ++ [(callback, .error closedError)] }, .closeCalls k callbacks)
  | .transportStop own onReader =>
    some ({ s with transport := (s.transport.stop own onReader).1 }, (s.transport.stop own onReader).2)
  | .transportJoin own onReader =>
    if s.transport.reader.ended || onReader then some (s, .transportReturn own) else none
  | .transportReturn own => some ({ s with disconnected := s.disconnected || own }, .done)

/-! ## Steps -/

/-- The atomic `fetch_add` of `send_request`, which names the call and draws its id. -/
def startSend (s : State) (method : Bytes) (params : Option Json) (options : RequestOptions) : State × Pc :=
  let id := RequestId.int s.nextRequestId
  let drawn := { s with
    nextRequestId := s.nextRequestId + 1
    calls := s.calls + 1
    issued := s.issued ++ [(s.calls, id)] }
  match requestParams params options with
  | .ok params => ({ drawn with passed := s.passed ++ [s.calls] }, .sendRegister id s.calls method params options)
  | .error _ => (drawn, .done)

/-- A response arrives; one without an id matches nothing. -/
def startResponse (s : State) (r : JsonRpcResponse) : State × Pc :=
  ({ s with received := s.received ++ [r] }, match r.id with | some id => .responseClear id r | none => .done)

def step (p : Pool State Pc) : Label → Option (Pool State Pc)
  | .connect => some { p with shared := { p.shared with transport := p.shared.transport.connect } }
  | .sendRequest method params options =>
    let (s, pc) := startSend p.shared method params options
    some (p.spawn s pc)
  | .response r =>
    let (s, pc) := startResponse p.shared r
    some (p.spawn s pc)
  | .progress note => some (p.spawn p.shared (.progressClock note))
  | .cancelRequest id reason => some (p.spawn p.shared (.cancelClear id reason))
  | .timerScan =>
    if p.threads.any Pc.isTimer then none
    else
      let (ids, timers) := p.shared.timers.expire p.shared.now
      some (p.spawn { p.shared with timers } (.expired ids))
  | .tick elapsed => some { p with shared := { p.shared with now := p.shared.now + elapsed } }
  | .readerCloses =>
    p.shared.transport.readerCloses.map fun (transport, pc) => p.spawn { p.shared with transport } pc
  | .readerReturns =>
    p.shared.transport.readerReturns.map fun transport => { p with shared := { p.shared with transport } }
  | .disconnect onReader => some (p.spawn { p.shared with state := .shutdown } (.transportStop true onReader))
  | .transportDisconnect onReader => some (p.spawn p.shared (.transportStop false onReader))
  | .step i => Pool.stepAt advance p i

/-- A fresh session over a transport that was never connected. -/
def init (transport : Transport) : Pool State Pc := ⟨{ transport }, []⟩

end Requests
end Mcp
