import McpSdk.Types
import McpSdk.Lib.Dict
/-!
# Router — handler tables, pending requests and request timers

The data behind the router's mutex (`Router`, `Pending`) and behind the session's timer mutex (`Timers`), with one
function for each critical section.  A `std::function` that only has an identity here (a response callback, a progress
callback) is a number; an empty one in a handler table is `none`.

User handlers run on a state `ω` of their own: whatever a request handler closes over.
-/
namespace Mcp

/-- The subclasses of `std::exception` that reach the SDK's catch clauses. -/
inductive Exn where
  | json (e : JsonException)
  | mcp (e : Error)
  | std (what : Bytes)

def Exn.what : Exn → Bytes
  | json e => e.what
  | mcp e => e.message
  | std what => what

/-! ## Handler tables -/

/-- A request handler: a built-in one, or the user's.  `initializeHandler` carries the options its closure reads. -/
inductive RequestHandler (ω : Type) where
  | ping
  | initializeHandler (options : ServerOptions)
  | user (run : Option Json → ω → Except Exn (Result Json) × ω)

inductive NotificationHandler (ω : Type) where
  | progress
  | cancelled
  | initialized
  | user (run : Option Json → ω → ω)

/-- The identity of a response callback. -/
abbrev Callback := Nat

abbrev Pending := Dict RequestId Callback

/-- `MessageRouter`. -/
structure Router (ω : Type) where
  requestHandlers : Dict Bytes (Option (RequestHandler ω)) := ∅
  notificationHandlers : Dict Bytes (Option (NotificationHandler ω)) := ∅
  wildcardRequestHandlers : List (Bytes × Option (RequestHandler ω)) := []
  wildcardNotificationHandlers : List (Bytes × Option (NotificationHandler ω)) := []
  pending : Pending := ∅

def isWildcard (method : Bytes) : Bool := method.getLast? == some (ch '*')

/-- The longest matching prefix wins, the earlier of two equal ones. -/
def matchWildcard {H : Type} (patterns : List (Bytes × Option H)) (method : Bytes) : Option H :=
  let best := patterns.foldl (fun (best : Option (Bytes × Option H)) entry =>
    if startsWith method entry.1 && best.all (fun b => decide (b.1.length < entry.1.length)) then some entry else best)
    none
  best.bind Prod.snd

namespace Router

variable {ω : Type}

def setRequestHandler (r : Router ω) (method : Bytes) (handler : Option (RequestHandler ω)) : Router ω :=
  if isWildcard method then
    { r with wildcardRequestHandlers := r.wildcardRequestHandlers ++ [(method.dropLast, handler)] }
  else { r with requestHandlers := r.requestHandlers.insert method handler }

def setNotificationHandler (r : Router ω) (method : Bytes) (handler : Option (NotificationHandler ω)) : Router ω :=
  if isWildcard method then
    { r with wildcardNotificationHandlers := r.wildcardNotificationHandlers ++ [(method.dropLast, handler)] }
  else { r with notificationHandlers := r.notificationHandlers.insert method handler }

def findRequestHandler (r : Router ω) (method : Bytes) : Option (RequestHandler ω) :=
  match r.requestHandlers.lookup method with
  | some handler => handler
  | none => matchWildcard r.wildcardRequestHandlers method

def findNotificationHandler (r : Router ω) (method : Bytes) : Option (NotificationHandler ω) :=
  match r.notificationHandlers.lookup method with
  | some handler => handler
  | none => matchWildcard r.wildcardNotificationHandlers method

end Router

/-! ## Pending requests -/

def registerPending (p : Pending) (id : RequestId) (callback : Callback) : Pending := p.insert id callback

/-- `take_pending`: removes the callback without invoking it. -/
def takePending (p : Pending) (id : RequestId) : Option Callback × Pending := (p.lookup id, p.erase id)

/-- The swap of `fail_all_pending`: every callback, and the emptied table. -/
def takeAllPending (p : Pending) : List Callback × Pending := (Dict.values p, ∅)

/-- What a response passes to its callback. -/
def responseResult (r : JsonRpcResponse) : Result Json :=
  match r.error with
  | some e => .error e
  | none => .ok (r.result.getD .null)

/-! ## Request timers -/

/-- A time point of the steady clock, in nanoseconds. -/
abbrev TimePoint := Int

/-- `Session::RequestOptions`; the timeout is in milliseconds. -/
structure RequestOptions where
  timeout : Option Int := none
  progressToken : Option ProgressToken := none
  onProgress : Option Callback := none

structure Deadline where
  at_ : TimePoint
  timeout : Int
  progressToken : Option ProgressToken

/-- `now + timeout`. -/
def deadlineAt (now : TimePoint) (timeout : Int) : TimePoint := now + timeout * 1000000

/-- What the timer mutex guards. -/
structure Timers where
  deadlines : Dict RequestId Deadline := ∅
  progressCallbacks : Dict ProgressToken Callback := ∅

namespace Timers

/-- A timeout above zero. -/
def timeoutOf (o : RequestOptions) : Option Int := o.timeout.filter (fun t => decide (0 < t))

/-- The timer section of `send_request`. -/
def track (t : Timers) (now : TimePoint) (id : RequestId) (o : RequestOptions) : Timers :=
  { deadlines := match timeoutOf o with
      | some timeout => t.deadlines.insert id ⟨deadlineAt now timeout, timeout, o.progressToken⟩
      | none => t.deadlines
    progressCallbacks := match o.progressToken, o.onProgress with
      | some token, some callback => t.progressCallbacks.insert token callback
      | _, _ => t.progressCallbacks }

def eraseToken (callbacks : Dict ProgressToken Callback) : Option ProgressToken → Dict ProgressToken Callback
  | some token => callbacks.erase token
  | none => callbacks

/-- `clear_tracking`. -/
def clear (t : Timers) (id : RequestId) : Timers :=
  match t.deadlines.lookup id with
  | some d =>
    { deadlines := t.deadlines.erase id, progressCallbacks := eraseToken t.progressCallbacks d.progressToken }
  | none => t

/-- The scan of `timer_loop` at `now`: the expired ids leave, with their progress callbacks. -/
def expire (t : Timers) (now : TimePoint) : List RequestId × Timers :=
  let expired := t.deadlines.filter (fun _ d => decide (d.at_ ≤ now))
  (expired.keys,
    { deadlines := t.deadlines.filter (fun _ d => !decide (d.at_ ≤ now))
      progressCallbacks := (Dict.values expired).foldl (fun cs d => eraseToken cs d.progressToken) t.progressCallbacks })

/-- The timer section of `handle_progress`: the clocks of the token restart, and its callback is looked up. -/
def progress (t : Timers) (now : TimePoint) (token : ProgressToken) : Option Callback × Timers :=
  (t.progressCallbacks.lookup token,
    { t with deadlines := t.deadlines.mapValues (fun _ d =>
        if d.progressToken = some token then { d with at_ := deadlineAt now d.timeout } else d) })

end Timers

end Mcp
