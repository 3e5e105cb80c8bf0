import McpSdk.Requests
import McpSdk.Server
/-!
# Attached — one server, its sessions, and everything that reaches them

A step is a message a session receives and handles, the sending of one of its replies, a section of a call of the
server's API, or a call of a session's own API.  A call of the server's API has two sections: the registry or the logger
decides what to announce, and the broadcast runs under the session mutex.  Any number of calls may stand between the two.

Handlers and callbacks do not call back into the server within a step; what they call afterwards is a step of its own.
-/
namespace Mcp
namespace Attached

/-! ## State -/

/-- A session and its transport.  `inHand` are the replies its handled messages have yet to send. -/
structure Peer (α : Type) where
  session : Session (Server α)
  nextRequestId : Int64 := 1
  inHand : List Message := []
  sent : List Message := []

/-- The server, `sessions_`, every session by its name, and what each API call so far has yet to broadcast. -/
structure State (ι α : Type) where
  server : Server α
  sessions : List ι := []
  peer : ι → Peer α
  calls : List (Option Message) := []

inductive ApiCall (α : Type) where
  | registerTool (tool : Tool) (handler : Option (ToolHandler α))
  | removeTool (name : Bytes)
  | setToolPageSize (pageSize : UInt64)
  | addPrompt (prompt : Prompt) (handler : Option (PromptHandler α))
  | removePrompt (name : Bytes)
  | setPromptCompletion (promptName argument : Bytes) (callback : Option (CompletionCallback α))
  | setPromptPageSize (pageSize : UInt64)
  | addResource (resource : Resource) (handler : Option (ReadHandler α))
  | addResourceTemplate (template : ResourceTemplate)
  | removeResource (uri : Bytes)
  | setReadHandler (handler : Option (ReadHandler α))
  | setResourceCompletion (uriTemplate argument : Bytes) (callback : Option (CompletionCallback α))
  | setResourcePageSize (pageSize : UInt64)
  | subscribe (uri : Bytes)
  | unsubscribe (uri : Bytes)
  | notifyResourceUpdated (uri : Bytes)
  | setInstructions (instructions : Bytes)
  | setReinitialization (allow : Bool)
  | setLevel (level : LoggingLevel)
  | log (level : LoggingLevel) (data : Json) (loggerName : Option Bytes)
  /-- The application changes what its callbacks read. -/
  | application (act : α → α)

/-- The calls of a session's API; `timerScan` is a round of its timer thread, `close` its `handle_close`. -/
inductive SessionCall where
  | sendRequest (now : TimePoint) (method : Bytes) (params : Option Json) (options : RequestOptions)
      (callback : Callback)
  | sendNotification (method : Bytes) (params : Option Json)
  | sendProgress (note : ProgressNotification)
  | cancelRequest (id : RequestId) (reason : Option Bytes)
  | timerScan (now : TimePoint)
  | close

inductive Label (ι α : Type) where
  | receive (i : ι) (now : TimePoint) (m : Message)
  /-- Session `i` sends the `k`th reply it has in hand. -/
  | transmit (i : ι) (k : Nat)
  /-- The first section of an API call. -/
  | call (c : ApiCall α)
  /-- The second section of the `k`th API call. -/
  | finish (k : Nat)
  | session (i : ι) (c : SessionCall)
  | attach (i : ι)
  | detach (i : ι)

/-! ## Calls -/

/-- A notification without params. -/
def changed (method : Bytes) : Option Message := some (.notification { method })

def updatedNote (uri : Bytes) : Message :=
  .notification
    { method := methods.kNotificationResourcesUpdated, params := some (.object [(bytes "uri", .string uri)]) }

/-- The first section of a call: the server after it, and what is left to broadcast. -/
def applyCall {α : Type} (w : Server α) : ApiCall α → Server α × Option Message
  | .registerTool tool handler =>
    match w.tools.registerTool tool handler with
    | .ok tools => ({ w with tools }, changed methods.kNotificationToolsListChanged)
    | .error _ => (w, none)
  | .removeTool name =>
    match w.tools.removeTool name with
    | some tools => ({ w with tools }, changed methods.kNotificationToolsListChanged)
    | none => (w, none)
  | .setToolPageSize pageSize => ({ w with tools := w.tools.setPageSize pageSize }, none)
  | .addPrompt prompt handler =>
    match w.prompts.addPrompt prompt handler with
    | .ok prompts => ({ w with prompts }, changed methods.kNotificationPromptsListChanged)
    | .error _ => (w, none)
  | .removePrompt name =>
    match w.prompts.removePrompt name with
    | some prompts => ({ w with prompts }, changed methods.kNotificationPromptsListChanged)
    | none => (w, none)
  | .setPromptCompletion promptName argument callback =>
    ({ w with prompts := w.prompts.setCompletion promptName argument callback }, none)
  | .setPromptPageSize pageSize => ({ w with prompts := w.prompts.setPageSize pageSize }, none)
  | .addResource resource handler =>
    match w.resources.addResource resource handler with
    | .ok resources => ({ w with resources }, changed methods.kNotificationResourcesListChanged)
    | .error _ => (w, none)
  | .addResourceTemplate template =>
    match w.resources.addResourceTemplate template with
    | .ok resources => ({ w with resources }, changed methods.kNotificationResourcesListChanged)
    | .error _ => (w, none)
  | .removeResource uri =>
    match w.resources.removeResource uri with
    | some resources => ({ w with resources }, changed methods.kNotificationResourcesListChanged)
    | none => (w, none)
  | .setReadHandler handler => ({ w with resources := w.resources.setReadHandler handler }, none)
  | .setResourceCompletion uriTemplate argument callback =>
    ({ w with resources := w.resources.setCompletion uriTemplate argument callback }, none)
  | .setResourcePageSize pageSize => ({ w with resources := w.resources.setPageSize pageSize }, none)
  | .subscribe uri =>
    match w.resources.subscribe uri with
    | .ok resources => ({ w with resources }, none)
    | .error _ => (w, none)
  | .unsubscribe uri => ({ w with resources := w.resources.unsubscribe uri }, none)
  | .notifyResourceUpdated uri => (w, if w.resources.isSubscribed uri then some (updatedNote uri) else none)
  | .setInstructions instructions => ({ w with instructions := some instructions }, none)
  | .setReinitialization allow => ({ w with allowReinitialize := allow }, none)
  | .setLevel level => ({ w with logger := { level } }, none)
  | .log level data loggerName =>
    (w, (w.logger.log level data loggerName).map fun params =>
      .notification { method := methods.kNotificationMessage, params := some params })
  | .application act => ({ w with app := act w.app }, none)

variable {ω : Type}

/-- The expired ids of a timer scan: each is cancelled at the peer and leaves the pending table. -/
def expireAll (pending : Pending) (ids : List RequestId) : Pending × List Message :=
  (ids.foldl (fun pending id => (takePending pending id).2) pending,
    ids.map (fun id => Requests.cancelNote id (some (bytes "request timed out"))))

/-- A call of a session's API: the session, its id counter, and what it sends. -/
def applySessionCall (s : Session ω) (next : Int64) : SessionCall → Session ω × Int64 × List Message
  | .sendRequest now method params options callback =>
    match Requests.requestParams params options with
    | .error _ => (s, next + 1, [])
    | .ok params =>
      let id := RequestId.int next
      let router := { s.router with pending := registerPending s.router.pending id callback }
      ({ s with router, timers := s.timers.track now id options }, next + 1, [.request { id, method, params }])
  | .sendNotification method params => (s, next, [.notification { method, params }])
  | .sendProgress note =>
    (s, next, [.notification { method := methods.kNotificationProgress, params := some note.toJson }])
  | .cancelRequest id reason =>
    let (callback, pending) := takePending s.router.pending id
    ({ s with timers := s.timers.clear id, router := { s.router with pending } }, next,
      if callback.isSome then [Requests.cancelNote id reason] else [])
  | .timerScan now =>
    let (ids, timers) := s.timers.expire now
    let (pending, messages) := expireAll s.router.pending ids
    ({ s with timers, router := { s.router with pending } }, next, messages)
  | .close =>
    ({ s with state := .shutdown, timers := {}, router := { s.router with pending := (takeAllPending s.router.pending).2 } },
      next, [])

/-! ## Steps -/

section Steps

variable {ι α : Type} [DecidableEq ι]

def State.setPeer (s : State ι α) (i : ι) (p : Peer α) : State ι α := { s with peer := Function.update s.peer i p }

/-- `send_notification_if_operating`, the loop under the session mutex. -/
def State.broadcast (s : State ι α) (note : Option Message) : State ι α :=
  { s with peer := fun i =>
      if i ∈ s.sessions ∧ (s.peer i).session.state = .operating then
        { s.peer i with sent := (s.peer i).sent ++ note.toList }
      else s.peer i }

@[simp] theorem setPeer_self (s : State ι α) (i : ι) (p : Peer α) : (s.setPeer i p).peer i = p := by
  simp [State.setPeer]

@[simp] theorem setPeer_of_ne (s : State ι α) {i j : ι} (h : j ≠ i) (p : Peer α) : (s.setPeer i p).peer j = s.peer j := by
  simp [State.setPeer, h]

@[simp] theorem broadcast_session (s : State ι α) (note : Option Message) (i : ι) :
    ((s.broadcast note).peer i).session = (s.peer i).session := by
  simp only [State.broadcast]
  split <;> rfl

@[simp] theorem broadcast_nextRequestId (s : State ι α) (note : Option Message) (i : ι) :
    ((s.broadcast note).peer i).nextRequestId = (s.peer i).nextRequestId := by
  simp only [State.broadcast]
  split <;> rfl

@[simp] theorem broadcast_inHand (s : State ι α) (note : Option Message) (i : ι) :
    ((s.broadcast note).peer i).inHand = (s.peer i).inHand := by
  simp only [State.broadcast]
  split <;> rfl

theorem broadcast_sent (s : State ι α) (note : Option Message) (i : ι) :
    ((s.broadcast note).peer i).sent =
      (s.peer i).sent ++ if i ∈ s.sessions ∧ (s.peer i).session.state = .operating then note.toList else [] := by
  simp only [State.broadcast]
  split <;> simp

/-- The messages among the effects of a handled message. -/
def replies (effects : List Effect) : List Message :=
  effects.filterMap fun
    | .send m => some m
    | _ => none

/-- `handle_message` on session `i`; the run ends with an exception that leaves it. -/
def State.receive (s : State ι α) (i : ι) (now : TimePoint) (m : Message) : Option (State ι α) :=
  let out := (s.peer i).session.handleMessage now s.server m
  match out.escaped with
  | some _ => none
  | none =>
    some ({ s with server := out.world }.setPeer i
      { s.peer i with session := out.session, inHand := (s.peer i).inHand ++ replies out.effects })

def State.transmit (s : State ι α) (i : ι) (k : Nat) : Option (State ι α) :=
  (s.peer i).inHand[k]?.map fun m =>
    s.setPeer i { s.peer i with inHand := (s.peer i).inHand.eraseIdx k, sent := (s.peer i).sent ++ [m] }

def State.sessionCall (s : State ι α) (i : ι) (c : SessionCall) : State ι α :=
  let out := applySessionCall (s.peer i).session (s.peer i).nextRequestId c
  s.setPeer i { s.peer i with session := out.1, nextRequestId := out.2.1, sent := (s.peer i).sent ++ out.2.2 }

def State.attach (text : JsonText Bytes) (s : State ι α) (i : ι) : State ι α :=
  let session := { (s.peer i).session with router := Server.attachRouter text (s.peer i).session.router }
  { s with sessions := if i ∈ s.sessions then s.sessions else s.sessions ++ [i] }.setPeer i { s.peer i with session }

def State.detach (s : State ι α) (i : ι) : State ι α := { s with sessions := s.sessions.filter (· ≠ i) }

def step (text : JsonText Bytes) (s : State ι α) : Label ι α → Option (State ι α)
  | .receive i now m => s.receive i now m
  | .transmit i k => s.transmit i k
  | .call c => some { s with server := (applyCall s.server c).1, calls := s.calls ++ [(applyCall s.server c).2] }
  | .finish k => s.calls[k]?.map fun note => { s with calls := s.calls.set k none }.broadcast note
  | .session i c => some (s.sessionCall i c)
  | .attach i => some (s.attach text i)
  | .detach i => some (s.detach i)

/-- A server whose sessions were constructed with the given options. -/
def start (server : Server α) (options : ι → ServerOptions) : State ι α :=
  { server, peer := fun i => { session := Session.mkServer (options i) } }

end Steps

end Attached
end Mcp
