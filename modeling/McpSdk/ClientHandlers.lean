import McpSdk.Client
import McpSdk.Elicitation
import McpSdk.HandlerTables
import McpSdk.RootsProvider
import McpSdk.SamplingLoop
import McpSdk.Schema
/-!
# ClientHandlers — the features of a client, and the handlers `wire_session` registers

One `Client` serves its session: the handlers close over it, so it is the state `ω` they run on.  It carries the
application's state `α`, on which the sampling and elicitation handlers and the notification callbacks run.  What a
client declares is derived from what is configured when it connects (`capabilities`).
-/
namespace Mcp

namespace methods

def kRootsList : Bytes := bytes "roots/list"
def kNotificationRootsListChanged : Bytes := bytes "notifications/roots/list_changed"

end methods

def Root.toJson (r : Root) : Json :=
  .object ([] |> Members.set (bytes "uri") (.string r.uri) |> setOptional (bytes "name") .string r.name)

def Root.fromJson (j : Json) : Except JsonException Root := do
  let uri ← (← j.at_ (bytes "uri")).getString
  let name ← getOptional j (bytes "name") Json.getString
  return { uri, name }

/-- **A root comes back.** -/
theorem Root.fromJson_toJson (r : Root) : Root.fromJson r.toJson = .ok r := by
  have huri : r.toJson.find (bytes "uri") = some (.string r.uri) := by
    unfold Root.toJson
    simp (disch := decide) only [find_setOptional_of_ne, find_set_self]
  have hname : r.toJson.find (bytes "name") = r.name.map .string := by
    unfold Root.toJson
    simp (disch := decide) only [find_setOptional_or, find_set_of_ne, find_nil, Option.or_none]
  unfold Root.fromJson
  rw [at_of_find huri, getOptional_string hname]
  rfl

abbrev SamplingHandler (α : Type) := CreateMessageParams → α → Except Exn (Result CreateMessageResult) × α

abbrev ElicitationHandler (α : Type) := ElicitRequest → α → Except Exn (Result ElicitResult) × α

/-! ## The client -/

structure Client (α : Type) where
  info : Implementation
  roots : RootsProvider := {}
  rootsEnabled : Bool := false
  samplingHandler : Option (SamplingHandler α) := none
  elicitationHandler : Option (ElicitationHandler α) := none
  toolsChanged : Option (α → α) := none
  resourcesChanged : Option (α → α) := none
  promptsChanged : Option (α → α) := none
  resourceUpdated : Option (Bytes → α → α) := none
  logMessage : Option (Json → α → α) := none
  app : α

namespace Client

variable {α : Type}

def capabilities (w : Client α) : ClientCapabilities where
  roots := if w.rootsEnabled = true ∨ 0 < w.roots.size then some { listChanged := some true } else none
  sampling := if w.samplingHandler.isSome then some { tools := some true, context := some true } else none
  elicitation := if w.elicitationHandler.isSome then some { form := some true, url := some true } else none

def clientOptions (w : Client α) : ClientOptions where
  clientInfo := w.info
  capabilities := w.capabilities

/-! ## Request handlers -/

abbrev Feature (α : Type) := Option Json → Client α → Except Exn (Result Json) × Client α

def rootsJson (roots : List Root) : Json := .object [(bytes "roots", .array (roots.map Root.toJson))]

def rootsList : Feature α := fun _ w => (.ok (.ok (rootsJson w.roots.listRoots)), w)

/-- The `catch` clause of `parse_response`, around what may throw anything. -/
def caughtJson (out : Except Exn (Result Json)) : Except Exn (Result Json) :=
  match out with
  | .error (.json e) => .ok (.error (Error.of .internalError (bytes "malformed server response: " ++ e.what)))
  | out => out

def samplingCreateMessage : Feature α := fun params w =>
  match w.samplingHandler, params with
  | none, _ => (.ok (.error (Error.of .capabilityNotSupported (bytes "no sampling handler configured"))), w)
  | some _, none => (.ok (.error (Error.of .invalidParams (bytes "createMessage requires params"))), w)
  | some handler, some params =>
    match CreateMessageParams.fromJson params with
    | .error e => (caughtJson (.error e), w)
    | .ok request =>
      let (result, app) := handler request w.app
      (caughtJson (result.map fun result => result.map CreateMessageResult.toJson), { w with app })

def mismatch (e : Error) : Error :=
  Error.of .invalidParams (bytes "elicitation content does not match the requested schema: " ++ e.message)

/-- What an answer with a schema and content to check is turned into. -/
def checkContent (text : JsonText Bytes) (result : ElicitResult) (content schema : Json) : Except Exn (Result Json) :=
  match validateSchema text content schema with
  | .error e => .error (.json e)
  | .ok (.error e) => .ok (.error (mismatch e))
  | .ok (.ok ()) => .ok (.ok result.toJson)

/-- Accepted content must satisfy the requested schema. -/
def elicitAnswer (text : JsonText Bytes) (request : ElicitRequest) : Result ElicitResult → Except Exn (Result Json)
  | .error e => .ok (.error e)
  | .ok result =>
    match result.action, request.requestedSchema, result.content with
    | .accept, some schema, some content => checkContent text result content schema
    | _, _, _ => .ok (.ok result.toJson)

def elicitationCreate (text : JsonText Bytes) : Feature α := fun params w =>
  match w.elicitationHandler, params with
  | none, _ => (.ok (.error (Error.of .capabilityNotSupported (bytes "no elicitation handler configured"))), w)
  | some _, none => (.ok (.error (Error.of .invalidParams (bytes "elicitation requires params"))), w)
  | some handler, some params =>
    match ElicitRequest.fromJson params with
    | .error e => (.error (.json e), w)
    | .ok (.error e) => (.ok (.error e), w)
    | .ok (.ok request) =>
      let (result, app) := handler request w.app
      (result.bind (elicitAnswer text request), { w with app })

def features (text : JsonText Bytes) : List (Bytes × Feature α) :=
  [(methods.kRootsList, rootsList), (methods.kSamplingCreateMessage, samplingCreateMessage),
    (methods.kElicitationCreate, elicitationCreate text)]

/-! ## Notification callbacks -/

/-- A callback that takes nothing; it is registered only where there is one. -/
def onChanged (callback : Client α → Option (α → α)) : Option Json → Client α → Client α := fun _ w =>
  match callback w with
  | some callback => { w with app := callback w.app }
  | none => w

def onResourceUpdated : Option Json → Client α → Client α := fun params w =>
  match params.bind (fun p => p.find (bytes "uri")), w.resourceUpdated with
  | some (.string uri), some callback => { w with app := callback uri w.app }
  | _, _ => w

def onLogMessage : Option Json → Client α → Client α := fun params w =>
  match params, w.logMessage with
  | some params, some callback => { w with app := callback params w.app }
  | _, _ => w

/-- The notification handlers `wire_session` registers: one for each callback that is set. -/
def callbacks (w : Client α) : List (Bytes × (Option Json → Client α → Client α)) :=
  (if w.toolsChanged.isSome then [(methods.kNotificationToolsListChanged, onChanged toolsChanged)] else []) ++
    (if w.resourcesChanged.isSome then [(methods.kNotificationResourcesListChanged, onChanged resourcesChanged)] else []) ++
    (if w.promptsChanged.isSome then [(methods.kNotificationPromptsListChanged, onChanged promptsChanged)] else []) ++
    (if w.resourceUpdated.isSome then [(methods.kNotificationResourcesUpdated, onResourceUpdated)] else []) ++
    if w.logMessage.isSome then [(methods.kNotificationMessage, onLogMessage)] else []

/-- The registrations of `wire_session`. -/
def wireRouter (text : JsonText Bytes) (w : Client α) (r : Router (Client α)) : Router (Client α) :=
  w.callbacks.foldl (fun r h => r.setNotificationHandler h.1 (some (.user h.2)))
    ((features text).foldl (fun r h => r.setRequestHandler h.1 (some (.user h.2))) r)

/-- The session that `connect` makes. -/
def wiredSession (text : JsonText Bytes) (w : Client α) : Session (Client α) :=
  { (Session.mkClient w.clientOptions : Session (Client α)) with router := wireRouter text w Session.baseRouter }

/-! ## A session that was wired -/

open Router (Every)

/-- The callbacks change the application's state only. -/
def Keeps (w w' : Client α) : Prop := w' = { w with app := w'.app }

/-- What a client's router may hold: its own handlers, and no handler of a server's handshake. -/
def OwnRequest : RequestHandler (Client α) → Prop
  | .ping => True
  | .initializeHandler _ => False
  | .user run => ∀ params w, Keeps w (run params w).2

def OwnNote : NotificationHandler (Client α) → Prop
  | .progress => True
  | .cancelled => True
  | .initialized => False
  | .user run => ∀ params w, Keeps w (run params w)

theorem keeps_features (text : JsonText Bytes) : ∀ h ∈ features (α := α) text, OwnRequest (.user h.2) := by
  simp only [features, List.forall_mem_cons, List.not_mem_nil, false_imp_iff, implies_true, and_true]
  refine ⟨fun params w => rfl, fun params w => ?_, fun params w => ?_⟩
  · unfold samplingCreateMessage
    (repeat' split) <;> rfl
  · unfold elicitationCreate
    (repeat' split) <;> rfl

theorem keeps_onChanged (callback : Client α → Option (α → α)) : OwnNote (.user (onChanged callback)) := by
  intro params w
  unfold onChanged
  split <;> rfl

theorem keeps_onResourceUpdated : OwnNote (.user (onResourceUpdated (α := α))) := by
  intro params w
  unfold onResourceUpdated
  split <;> rfl

theorem keeps_onLogMessage : OwnNote (.user (onLogMessage (α := α))) := by
  intro params w
  unfold onLogMessage
  split <;> rfl

theorem keeps_callbacks (w : Client α) : ∀ h ∈ w.callbacks, OwnNote (.user h.2) := by
  intro h hmem
  unfold callbacks at hmem
  simp only [List.mem_append, List.mem_ite_nil_right, List.mem_singleton] at hmem
  rcases hmem with (((⟨-, rfl⟩ | ⟨-, rfl⟩) | ⟨-, rfl⟩) | ⟨-, rfl⟩) | ⟨-, rfl⟩
  · exact keeps_onChanged toolsChanged
  · exact keeps_onChanged resourcesChanged
  · exact keeps_onChanged promptsChanged
  · exact keeps_onResourceUpdated
  · exact keeps_onLogMessage

/-- A session of a client with its features under their names, and no handler of a server's handshake. -/
structure Featured (text : JsonText Bytes) (options : ClientOptions) (s : Session (Client α)) : Prop where
  cls : s.cls = .client options
  handlers : ∀ h ∈ features text, s.router.findRequestHandler h.1 = some (.user h.2)
  own : Every OwnRequest OwnNote s.router

theorem foldl_setNotificationHandler_find {ω : Type} (method : Bytes) :
    ∀ (hs : List (Bytes × (Option Json → ω → ω))) (r : Router ω),
      (hs.foldl (fun r h => r.setNotificationHandler h.1 (some (.user h.2))) r).findRequestHandler method =
        r.findRequestHandler method
  | [], _ => rfl
  | h :: hs, r => by
    rw [List.foldl_cons, foldl_setNotificationHandler_find method hs]
    unfold Router.setNotificationHandler
    split <;> rfl

/-- **The session that `connect` makes** has the client's features. -/
theorem featured_wiredSession (text : JsonText Bytes) (w : Client α) :
    Featured text w.clientOptions (wiredSession text w) where
  cls := rfl
  handlers := by
    intro h hmem
    unfold wiredSession wireRouter
    rw [foldl_setNotificationHandler_find]
    have hwildcards : isWildcard methods.kRootsList = false ∧ isWildcard methods.kSamplingCreateMessage = false ∧
        isWildcard methods.kElicitationCreate = false := by decide
    have hdistinct : methods.kRootsList ≠ methods.kSamplingCreateMessage ∧ methods.kRootsList ≠ methods.kElicitationCreate ∧
        methods.kSamplingCreateMessage ≠ methods.kElicitationCreate := by decide
    simp only [features, List.mem_cons, List.not_mem_nil, or_false] at hmem
    simp only [features, List.foldl_cons, List.foldl_nil, find_setRequestHandler hwildcards.1,
      find_setRequestHandler hwildcards.2.1, find_setRequestHandler hwildcards.2.2]
    rcases hmem with rfl | rfl | rfl
    · simp only [if_neg hdistinct.1, if_neg hdistinct.2.1, if_true]
    · simp only [if_neg hdistinct.2.2, if_true]
    · simp only [if_true]
  own := Every.foldl_notes (Every.foldl_requests (Router.every_baseRouter trivial trivial trivial) (keeps_features text))
    (keeps_callbacks w)

/-- Only the class and the handler tables count. -/
theorem Featured.of_sameTables {text : JsonText Bytes} {options : ClientOptions} {s t : Session (Client α)}
    (h : Featured text options s) (hs : Session.SameTables s t) : Featured text options t where
  cls := hs.cls.trans h.cls
  handlers := by
    intro g hmem
    unfold Router.findRequestHandler
    rw [hs.requests, hs.wildcardRequests]
    exact h.handlers g hmem
  own := h.own.of_sameTables hs

/-- **A message leaves the state of a client's session, and the client's configuration.** -/
theorem Featured.handleMessage {text : JsonText Bytes} {options : ClientOptions} {s : Session (Client α)}
    (h : Featured text options s) (now : TimePoint) (w : Client α) (m : Message) :
    (s.handleMessage now w m).session.state = s.state ∧ Keeps w (s.handleMessage now w m).world := by
  cases m with
  | request r =>
    show (s.handleRequest w r).session.state = s.state ∧ Keeps w (s.handleRequest w r).world
    cases Session.handleRequest_answered s w r with
    | rejected e gate out_eq =>
      rw [out_eq]
      exact ⟨(Session.protectId_same s r).2, rfl⟩
    | missing gate find out_eq =>
      rw [out_eq]
      exact ⟨(Session.protectId_same s r).2, rfl⟩
    | handled handler gate find out_eq =>
      have hown := h.own.request find
      rw [out_eq]
      cases handler with
      | ping => exact ⟨(Session.protectId_same s r).2, rfl⟩
      | initializeHandler options => exact hown.elim
      | user run => exact ⟨(Session.protectId_same s r).2, hown r.params w⟩
  | notification n =>
    show (s.dispatchNotification now w n).session.state = s.state ∧ Keeps w (s.dispatchNotification now w n).world
    cases find : s.router.findNotificationHandler n.method with
    | none =>
      simp only [Session.dispatchNotification, find]
      exact ⟨trivial, rfl⟩
    | some handler =>
      have hown := h.own.note find
      simp only [Session.dispatchNotification, find]
      cases handler with
      | progress =>
        refine ⟨(Session.handleProgress_same now s w n.params).2, ?_⟩
        simp only [Session.handleProgress]
        (repeat' split) <;> rfl
      | cancelled =>
        refine ⟨(Session.handleCancelled_same s w n.params).2, ?_⟩
        simp only [Session.handleCancelled]
        (repeat' split) <;> rfl
      | initialized => exact hown.elim
      | user run => exact ⟨rfl, hown n.params w⟩
  | response r =>
    refine ⟨(Session.handleResponse_same s w r).2, ?_⟩
    simp only [Session.handleMessage, Session.handleResponse]
    split <;> rfl

/-! ## What a request comes to -/

/-- The capability that the method of a feature belongs to. -/
def declares (c : ClientCapabilities) (method : Bytes) : Bool := (undeclaredGate (clientGates c) method).isNone

/-- The error of the capability gate. -/
def undeclared (method : Bytes) : Error := Error.of .capabilityNotSupported (bytes "capability not supported: " ++ method)

/-- **The answer to a request for a feature**: the session's state, then what the options declare, decide whether the
handler is asked. -/
def answer (state : SessionState) (c : ClientCapabilities) (run : Feature α) (r : JsonRpcRequest) (w : Client α) :
    JsonRpcResponse × Client α :=
  if state ≠ .operating then (Session.rejection r notInitializedError, w)
  else if declares c r.method then (Session.respond r.id (run r.params w).1, (run r.params w).2)
  else (Session.rejection r (undeclared r.method), w)

theorem Featured.handleRequest {text : JsonText Bytes} {options : ClientOptions} {s : Session (Client α)}
    (h : Featured text options s) {r : JsonRpcRequest} {run : Feature α} (hmem : (r.method, run) ∈ features text) (w : Client α) :
    (Session.handleRequest s w r).session = s ∧
      (Session.handleRequest s w r).world = (answer s.state options.capabilities run r w).2 ∧
      Attached.replies (Session.handleRequest s w r).effects =
        [.response (answer s.state options.capabilities run r w).1] := by
  have hother : ∀ g ∈ features (α := α) text, g.1 ≠ methods.kInitialize ∧ g.1 ≠ methods.kPing := by
    simp only [features, List.forall_mem_cons, List.not_mem_nil, false_imp_iff, implies_true, and_true]
    decide
  obtain ⟨hinit, hping⟩ := hother _ hmem
  have hprotect : s.protectId r = s := if_neg hinit
  have hfind : s.router.findRequestHandler r.method = some (.user run) := h.handlers _ hmem
  simp only [Session.handleRequest, hprotect, Session.checkIncomingRequest, h.cls, if_neg hping]
  by_cases hstate : s.state = .operating
  · have hpast : ¬ s.state ≠ .operating := not_not.2 hstate
    unfold answer declares
    rw [if_neg hpast, if_neg hpast]
    cases hgate : undeclaredGate (clientGates options.capabilities) r.method with
    | none =>
      simp only [Session.dispatchRequest, hfind, Session.runRequestHandler]
      exact ⟨trivial, rfl, rfl⟩
    | some e =>
      have he : e = undeclared r.method := by
        unfold undeclaredGate at hgate
        split at hgate
        · exact (Option.some.inj hgate).symm
        · cases hgate
      subst he
      exact ⟨rfl, rfl, rfl⟩
  · unfold answer
    rw [if_pos hstate, if_pos hstate]
    exact ⟨rfl, rfl, rfl⟩

end Client

end Mcp
