import McpSdk.RegistryCodec
import McpSdk.Attached
import McpSdk.Handshake
/-!
# Client — the typed wrappers, from the call to the registry and back

A client's session and the server's session it is joined to, over a channel that loses nothing and carries each message's
JSON as it was written.  A wrapper sends its request, waits for the response and parses the result; what it returns is
what the registry's function returned (`wrappers_return`).
-/
namespace Mcp
namespace Client

/-! ## Typed parses -/

structure ListResult (T : Type) where
  items : List T
  nextCursor : Option Bytes := none

/-- A typed parse, its exceptions mapped to an error. -/
def parseResponse {T : Type} : Except JsonException (Result T) → Result T
  | .ok r => r
  | .error e => .error (Error.of .internalError (bytes "malformed server response: " ++ e.what))

def cursorParams (cursor : Option Bytes) : Option Json := cursor.map fun cursor => .object [(bytes "cursor", .string cursor)]

def parseList {T : Type} (fromJson : Json → Except JsonException T) (key : Bytes) (j : Json) : Result (ListResult T) :=
  parseResponse do
    let items ← Json.getArray fromJson (← j.at_ key)
    let nextCursor ← getOptional j (bytes "nextCursor") Json.getString
    return .ok { items, nextCursor }

def parseCallTool (j : Json) : Result CallToolResult :=
  parseResponse do
    match contentListFromJson (← j.value (bytes "content") (.array [])) with
    | .error e => return .error e
    | .ok content => return .ok { content, isError := ← j.valueAs (bytes "isError") Json.getBool false }

def parseReadResource (j : Json) : Result ReadResourceResult :=
  parseResponse do
    let contents ← Json.getArray ResourceContents.fromJson (← j.at_ (bytes "contents"))
    return .ok { contents }

/-- What a range-for over a value visits. -/
def elements : Json → List Json
  | .array items => items
  | .object members => members.map Prod.snd
  | .null => []
  | j => [j]

/-- The loop of `get_prompt`. -/
def promptMessages : List Json → Except JsonException (Result (List PromptMessage))
  | [] => .ok (.ok [])
  | message :: messages => do
    match contentFromJson (← message.at_ (bytes "content")) with
    | .error e => return .error e
    | .ok content =>
      let role := roleFromString (← message.valueAs (bytes "role") Json.getString (bytes "user"))
      return (← promptMessages messages).map ({ role := role.getD .user, content } :: ·)

def parseGetPrompt (j : Json) : Result GetPromptResult :=
  parseResponse do
    let description ← getOptional j (bytes "description") Json.getString
    let messages ← promptMessages (elements (← j.value (bytes "messages") (.array [])))
    return messages.map fun messages => { description, messages }

def parseCompletion (j : Json) : Result CompleteResult :=
  parseResponse do
    let completion ← j.at_ (bytes "completion")
    let values ← Json.getArray Json.getString (← completion.at_ (bytes "values"))
    let total ← getOptional completion (bytes "total") Json.getInt32
    let hasMore ← getOptional completion (bytes "hasMore") Json.getBool
    return .ok { values, total, hasMore }

/-! ## A client joined to a server -/

/-- A client's session and the server's session at the other end.  `calls` numbers the client's requests, and with them
their callbacks. -/
structure Link (γ α : Type) where
  client : Session γ
  /-- What the client's own handlers run on. -/
  clientWorld : γ
  nextRequestId : Int64 := 1
  calls : Nat := 0
  timeout : Int := 30000
  now : TimePoint := 0
  session : Session (Server α)
  server : Server α

/-- A message's JSON, read by the other end. -/
def deliver (m : Message) : Except JsonException (Result Message) := parseMessage (messageToJson m)

/-- The messages of one end, handled by the other in order. -/
def handleDelivered {ω : Type} (now : TimePoint) (s : Session ω) (w : ω) : List Message → Session ω × ω × List Effect
  | [] => (s, w, [])
  | m :: messages =>
    match deliver m with
    | .error _ => (s, w, [])
    | .ok (.error e) =>
      let (s', w', effects) := handleDelivered now s w messages
      (s', w', s.onTransportError e ++ effects)
    | .ok (.ok m) =>
      let out := s.handleMessage now w m
      let (s', w', effects) := handleDelivered now out.session out.world messages
      (s', w', out.effects ++ effects)

/-- What the slot of a request is set to. -/
def completed (slot : Callback) (effects : List Effect) : Option (Result Json) :=
  effects.findSome? fun
    | .complete callback result => if callback = slot then some result else none
    | _ => none

namespace Link

variable {γ α : Type}

/-- `Client::request`: what `send_request_sync` returns, `none` while its slot is empty. -/
def request (k : Link γ α) (method : Bytes) (params : Option Json) : Option (Result Json) × Link γ α :=
  let (client, nextRequestId, sent) := Attached.applySessionCall k.client k.nextRequestId
    (.sendRequest k.now method params { timeout := some k.timeout } k.calls)
  let (session, server, served) := handleDelivered k.now k.session k.server sent
  let (client, clientWorld, effects) := handleDelivered k.now client k.clientWorld (Attached.replies served)
  (completed k.calls effects, { k with client, clientWorld, nextRequestId, calls := k.calls + 1, session, server })

/-- A wrapper: the request, and the parse of a result. -/
def call {T : Type} (k : Link γ α) (method : Bytes) (params : Option Json) (parse : Json → Result T) :
    Option (Result T) × Link γ α :=
  let (response, k) := k.request method params
  (response.map fun response => response.bind parse, k)

def listTools (k : Link γ α) (cursor : Option Bytes) : Option (Result (ListResult Tool)) × Link γ α :=
  k.call methods.kToolsList (cursorParams cursor) (parseList Tool.fromJson (bytes "tools"))

/-- The params of a call by name. -/
def namedParams (name : Bytes) (arguments : Json) : Json :=
  .object ([] |> Members.set (bytes "name") (.string name) |> Members.set (bytes "arguments") arguments)

def callTool (k : Link γ α) (name : Bytes) (arguments : Json) : Option (Result CallToolResult) × Link γ α :=
  k.call methods.kToolsCall (some (namedParams name arguments)) parseCallTool

def listResources (k : Link γ α) (cursor : Option Bytes) : Option (Result (ListResult Resource)) × Link γ α :=
  k.call methods.kResourcesList (cursorParams cursor) (parseList Resource.fromJson (bytes "resources"))

def listResourceTemplates (k : Link γ α) (cursor : Option Bytes) :
    Option (Result (ListResult ResourceTemplate)) × Link γ α :=
  k.call methods.kResourcesTemplatesList (cursorParams cursor)
    (parseList ResourceTemplate.fromJson (bytes "resourceTemplates"))

def readResource (k : Link γ α) (uri : Bytes) : Option (Result ReadResourceResult) × Link γ α :=
  k.call methods.kResourcesRead (some (.object [(bytes "uri", .string uri)])) parseReadResource

def listPrompts (k : Link γ α) (cursor : Option Bytes) : Option (Result (ListResult Prompt)) × Link γ α :=
  k.call methods.kPromptsList (cursorParams cursor) (parseList Prompt.fromJson (bytes "prompts"))

def getPrompt (k : Link γ α) (name : Bytes) (arguments : Json) : Option (Result GetPromptResult) × Link γ α :=
  k.call methods.kPromptsGet (some (namedParams name arguments)) parseGetPrompt

/-- The params of `completion/complete`, for a reference of a type with its one member. -/
def completionParams (type key reference argument value : Bytes) : Json :=
  .object ([] |> Members.set (bytes "ref")
      (.object ([] |> Members.set (bytes "type") (.string type) |> Members.set key (.string reference)))
    |> Members.set (bytes "argument")
      (.object ([] |> Members.set (bytes "name") (.string argument) |> Members.set (bytes "value") (.string value))))

def completePrompt (k : Link γ α) (promptName argument value : Bytes) : Option (Result CompleteResult) × Link γ α :=
  k.call methods.kCompletionComplete
    (some (completionParams (bytes "ref/prompt") (bytes "name") promptName argument value)) parseCompletion

def completeResource (k : Link γ α) (uriTemplate argument value : Bytes) : Option (Result CompleteResult) × Link γ α :=
  k.call methods.kCompletionComplete
    (some (completionParams (bytes "ref/resource") (bytes "uri") uriTemplate argument value)) parseCompletion

end Link

/-! ## The property -/

variable {γ α : Type}

/-- A session the server is attached to, past its handshake. -/
structure Serves (text : JsonText Bytes) (options : ServerOptions) (s : Session (Server α)) : Prop where
  cls : s.cls = .server options
  state : s.state = .operating
  handlers : ∀ h ∈ Server.handlers text, s.router.findRequestHandler h.1 = some (.user h.2)

/-- What may come back: a value that is `good`, or an error whose data is no null. -/
structure Plain {T : Type} (good : T → Prop) (r : Result T) : Prop where
  value : ∀ v, r = .ok v → good v
  data : ∀ e, r = .error e → noNull e.data = true

/-- **A wrapper returns** a result, and leaves the server as given. -/
def Returns {T : Type} (out : Option (Result T) × Link γ α) (r : Result T) (server : Server α) : Prop :=
  out.1 = some r ∧ out.2.server = server

def listResult {T : Type} (page : Page T) : ListResult T := { items := page.items, nextCursor := page.nextCursor }

/-- A tool whose optional JSON fields hold no null. -/
def noNulls (tool : Tool) : Prop := noNull tool.outputSchema = true ∧ noNull tool.execution = true

/-- What `completion/complete` answers with: an empty result when there is no callback. -/
def completion (out : Except Exn (Option CompleteResult)) : Result CompleteResult := (caught (out.map .ok)).map (·.getD {})

/-- **Every wrapper returns what the registry's function returned**, or the error it returned or threw, and the server is
left as that function leaves it. -/
structure WrappersReturn (text : JsonText Bytes) (c : ServerCapabilities) (k : Link γ α) : Prop where
  listTools : c.tools.isSome = true → ∀ cursor,
    Plain (fun page => ∀ tool ∈ page.items, noNulls tool) (caught (k.server.tools.listTools cursor)) →
    Returns (k.listTools cursor) ((caught (k.server.tools.listTools cursor)).map listResult) k.server
  callTool : c.tools.isSome = true → ∀ name arguments,
    Plain (fun _ => True) (caught (k.server.tools.callTool text name arguments k.server.app).1) →
    Returns (k.callTool name arguments) (caught (k.server.tools.callTool text name arguments k.server.app).1)
      { k.server with app := (k.server.tools.callTool text name arguments k.server.app).2 }
  listResources : c.resources.isSome = true → ∀ cursor,
    Plain (fun _ => True) (caught (k.server.resources.listResources cursor)) →
    Returns (k.listResources cursor) ((caught (k.server.resources.listResources cursor)).map listResult) k.server
  listResourceTemplates : c.resources.isSome = true → ∀ cursor,
    Plain (fun _ => True) (caught (k.server.resources.listResourceTemplates cursor)) →
    Returns (k.listResourceTemplates cursor)
      ((caught (k.server.resources.listResourceTemplates cursor)).map listResult) k.server
  readResource : c.resources.isSome = true → ∀ uri,
    Plain (fun _ => True) (k.server.resources.readResource uri k.server.app).1 →
    Returns (k.readResource uri) (k.server.resources.readResource uri k.server.app).1
      { k.server with app := (k.server.resources.readResource uri k.server.app).2 }
  listPrompts : c.prompts.isSome = true → ∀ cursor,
    Plain (fun _ => True) (caught (k.server.prompts.listPrompts cursor)) →
    Returns (k.listPrompts cursor) ((caught (k.server.prompts.listPrompts cursor)).map listResult) k.server
  getPrompt : c.prompts.isSome = true → ∀ name arguments,
    Plain (fun _ => True) (k.server.prompts.getPrompt name arguments k.server.app).1 →
    Returns (k.getPrompt name arguments) (k.server.prompts.getPrompt name arguments k.server.app).1
      { k.server with app := (k.server.prompts.getPrompt name arguments k.server.app).2 }
  completePrompt : c.completions.isSome = true → ∀ promptName argument value,
    Plain (fun r => r.values.length ≤ 100) (completion (k.server.prompts.complete promptName argument value k.server.app).1) →
    Returns (k.completePrompt promptName argument value)
      (completion (k.server.prompts.complete promptName argument value k.server.app).1)
      { k.server with app := (k.server.prompts.complete promptName argument value k.server.app).2 }
  completeResource : c.completions.isSome = true → ∀ uriTemplate argument value,
    Plain (fun r => r.values.length ≤ 100)
      (completion (k.server.resources.complete uriTemplate argument value k.server.app).1) →
    Returns (k.completeResource uriTemplate argument value)
      (completion (k.server.resources.complete uriTemplate argument value k.server.app).1)
      { k.server with app := (k.server.resources.complete uriTemplate argument value k.server.app).2 }

/-! ## An attached session -/

theorem find_setRequestHandler {ω : Type} {r : Router ω} {method : Bytes} (hw : isWildcard method = false)
    (handler : RequestHandler ω) (key : Bytes) :
    (r.setRequestHandler method (some handler)).findRequestHandler key =
      if key = method then some handler else r.findRequestHandler key := by
  unfold Router.findRequestHandler Router.setRequestHandler
  rw [if_neg (by simp [hw])]
  simp only [Dict.lookup_insert_ite]
  by_cases h : key = method
  · simp only [h, if_true]
  · simp only [h, if_false]

/-- Handlers under other names leave what is found under a name. -/
theorem find_foldl_of_notMem {key : Bytes} : ∀ {hs : List (Bytes × Server.Handler α)} {r : Router (Server α)},
    (∀ g ∈ hs, isWildcard g.1 = false ∧ g.1 ≠ key) →
    (hs.foldl (fun r g => r.setRequestHandler g.1 (some (.user g.2))) r).findRequestHandler key = r.findRequestHandler key
  | [], _, _ => rfl
  | g :: hs, r, h => by
    obtain ⟨hw, hne⟩ := h g List.mem_cons_self
    rw [List.foldl_cons, find_foldl_of_notMem fun x hx => h x (List.mem_cons_of_mem g hx), find_setRequestHandler hw,
      if_neg (Ne.symm hne)]

theorem find_foldl : ∀ {hs : List (Bytes × Server.Handler α)} {r : Router (Server α)}, (hs.map Prod.fst).Nodup →
    (∀ g ∈ hs, isWildcard g.1 = false) → ∀ g ∈ hs,
    (hs.foldl (fun r g => r.setRequestHandler g.1 (some (.user g.2))) r).findRequestHandler g.1 = some (.user g.2)
  | [], _, _, _, _, hmem => by cases hmem
  | x :: hs, r, hnodup, hw, g, hmem => by
    obtain ⟨hnot, hnodup⟩ := List.nodup_cons.1 hnodup
    have hrest : ∀ y ∈ hs, isWildcard y.1 = false := fun y hy => hw y (List.mem_cons_of_mem x hy)
    have hother : ∀ y ∈ hs, isWildcard y.1 = false ∧ y.1 ≠ x.1 := fun y hy => by
      refine ⟨hrest y hy, fun heq => hnot ?_⟩
      rw [← heq]
      exact List.mem_map_of_mem hy
    rw [List.foldl_cons]
    rcases List.mem_cons.1 hmem with heq | hmem
    · rw [heq, find_foldl_of_notMem hother, find_setRequestHandler (hw x List.mem_cons_self), if_pos rfl]
    · exact find_foldl hnodup hrest g hmem

/-- **A session that was attached serves** once its handshake is done. -/
theorem serves_of_attach (text : JsonText Bytes) {options : ServerOptions} {s : Session (Server α)} {r : Router (Server α)}
    (hcls : s.cls = .server options) (hstate : s.state = .operating) (hrouter : s.router = Server.attachRouter text r) :
    Serves text options s where
  cls := hcls
  state := hstate
  handlers := by
    rw [hrouter]
    refine find_foldl ?_ ?_
    · simp only [Server.handlers, List.map_cons, List.map_nil]
      decide
    · simp only [Server.handlers, List.forall_mem_cons, List.not_mem_nil, false_imp_iff, implies_true, and_true]
      decide

/-! ## Over the channel -/

theorem deliver_wellFormed {m : Message} (h : m.WellFormed) : deliver m = .ok (.ok m) := by
  have hread := parseMessage_messageToJson reading_id h
  rwa [Message.read_id] at hread

/-- One message that comes through is handled. -/
theorem handleDelivered_one {ω : Type} {m : Message} (h : m.WellFormed) (now : TimePoint) (s : Session ω) (w : ω) :
    handleDelivered now s w [m] =
      ((s.handleMessage now w m).session, (s.handleMessage now w m).world, (s.handleMessage now w m).effects) := by
  simp only [handleDelivered, deliver_wellFormed h, List.append_nil]

theorem responseResult_respond (id : RequestId) (out : Except Exn (Result Json)) :
    responseResult (Session.respond id out) = caught out := by
  rcases out with (_ | _ | _) | (_ | _) <;> rfl

/-- A response is well formed when its error's data is no null. -/
theorem wellFormed_respond {id : RequestId} {out : Except Exn (Result Json)} (h : ∀ e, caught out = .error e → noNull e.data = true) :
    (Message.response (Session.respond id out)).WellFormed := by
  rcases out with (e | e | what) | (e | result)
  · exact ⟨by simp [Session.respond], fun e' he => by cases he; rfl⟩
  · exact ⟨by simp [Session.respond], fun e' he => by cases he; exact h _ rfl⟩
  · exact ⟨by simp [Session.respond], fun e' he => by cases he; rfl⟩
  · exact ⟨by simp [Session.respond], fun e' he => by cases he; exact h _ rfl⟩
  · exact ⟨by simp [Session.respond], fun e' he => by cases he⟩

/-- The session handles a request with its server's handler. -/
theorem Serves.handleRequest {text : JsonText Bytes} {options : ServerOptions} {s : Session (Server α)}
    (h : Serves text options s) {method : Bytes} {run : Server.Handler α} (hmem : (method, run) ∈ Server.handlers text)
    (hdeclared : undeclaredGate (serverGates options.capabilities) method = none) (w : Server α) (id : RequestId)
    (params : Option Json) :
    (Session.handleRequest s w { id, method, params }).world = (run params w).2 ∧
      Attached.replies (Session.handleRequest s w { id, method, params }).effects =
        [.response (Session.respond id (run params w).1)] := by
  have hother : ∀ g ∈ Server.handlers (α := α) text, g.1 ≠ methods.kInitialize := by
    simp only [Server.handlers, List.forall_mem_cons, List.not_mem_nil, false_imp_iff, implies_true, and_true]
    decide
  have hprotect : s.protectId { id, method, params } = s := if_neg (hother _ hmem)
  have hgate : s.checkIncomingRequest { id, method, params } = none := by
    simp only [Session.checkIncomingRequest, h.cls, h.state, ne_eq, not_true_eq_false, if_false, hdeclared, ite_self]
  have hfind : s.router.findRequestHandler method = some (.user run) := h.handlers _ hmem
  simp only [Session.handleRequest, hprotect, hgate, Session.dispatchRequest, hfind, Session.runRequestHandler]
  exact ⟨trivial, rfl⟩

/-- **A request comes back with what its handler returned.** -/
theorem request_returns {text : JsonText Bytes} {options : ServerOptions} {k : Link γ α} (h : Serves text options k.session)
    {method : Bytes} {run : Server.Handler α} (hmem : (method, run) ∈ Server.handlers text)
    (hdeclared : undeclaredGate (serverGates options.capabilities) method = none) {params : Option Json}
    (hparams : params.all validParams = true)
    (hdata : ∀ e, caught (run params k.server).1 = .error e → noNull e.data = true) :
    Returns (k.request method params) (caught (run params k.server).1) (run params k.server).2 := by
  obtain ⟨hworld, hreplies⟩ := h.handleRequest hmem hdeclared k.server (.int k.nextRequestId) params
  have hrequest : (Message.request { id := .int k.nextRequestId, method, params }).WellFormed := hparams
  unfold Returns Link.request
  simp only [Attached.applySessionCall, Requests.requestParams, handleDelivered_one hrequest, Session.handleMessage, hreplies,
    handleDelivered_one (wellFormed_respond hdata), Session.handleResponse, Session.respond_id, takePending,
    registerPending, AList.lookup_insert, responseResult_respond, hworld]
  simp [completed]

/-! ## The parses -/

theorem parseList_pageToJson {T : Type} {toJson : T → Json} {fromJson : Json → Except JsonException T} {key : Bytes}
    (hkey : key ≠ bytes "nextCursor") {page : Page T} (h : ∀ x ∈ page.items, fromJson (toJson x) = .ok x) :
    parseList fromJson key (pageToJson toJson key page) = .ok (listResult page) := by
  have hitems : (pageToJson toJson key page).find key = some (.array (page.items.map toJson)) := by
    unfold pageToJson
    rw [find_setOptional_of_ne hkey, find_singleton]
  have hcursor : (pageToJson toJson key page).find (bytes "nextCursor") = page.nextCursor.map .string := by
    unfold pageToJson
    rw [find_setOptional_or, find_singleton_of_ne (Ne.symm hkey), Option.or_none]
  unfold parseList
  rw [at_of_find hitems, getOptional_string hcursor]
  simp only [bind, Except.bind, getArray_map h]
  rfl

theorem parseCallTool_toJson (r : CallToolResult) : parseCallTool r.toJson = .ok r := by
  have hcontent : r.toJson.find (bytes "content") = some (contentListToJson r.content) := by
    unfold CallToolResult.toJson
    simp (disch := decide) only [find_set_of_ne, find_set_self]
  have hisError : r.toJson.find (bytes "isError") = some (.boolean r.isError) := by
    unfold CallToolResult.toJson
    simp (disch := decide) only [find_set_self]
  unfold parseCallTool
  rw [value_of_find hcontent, valueAs_of_find hisError]
  simp only [bind, Except.bind, contentListFromJson_toJson]
  rfl

theorem parseReadResource_toJson (r : ReadResourceResult) : parseReadResource r.toJson = .ok r := by
  have hcontents : r.toJson.find (bytes "contents") = some (.array (r.contents.map ResourceContents.toJson)) :=
    find_singleton _ _
  unfold parseReadResource
  rw [at_of_find hcontents]
  simp only [bind, Except.bind, getArray_map (fun rc _ => ResourceContents.fromJson_toJson rc)]
  rfl

theorem promptMessages_toJson : ∀ messages : List PromptMessage,
    promptMessages (messages.map PromptMessage.toJson) = .ok (.ok messages)
  | [] => rfl
  | m :: messages => by
    have hcontent : m.toJson.find (bytes "content") = some (contentToJson m.content) := by
      unfold PromptMessage.toJson
      simp (disch := decide) only [find_set_self]
    have hrole : m.toJson.find (bytes "role") = some (.string (roleToString m.role)) := by
      unfold PromptMessage.toJson
      simp (disch := decide) only [find_set_of_ne, find_set_self]
    rw [List.map_cons, promptMessages, at_of_find hcontent, valueAs_of_find hrole, promptMessages_toJson messages]
    simp only [bind, Except.bind, contentFromJson_toJson, Json.getString, roleFromString_toString]
    rfl

theorem parseGetPrompt_toJson (r : GetPromptResult) : parseGetPrompt r.toJson = .ok r := by
  have hmessages : r.toJson.find (bytes "messages") = some (.array (r.messages.map PromptMessage.toJson)) := by
    unfold GetPromptResult.toJson
    simp (disch := decide) only [find_setOptional_of_ne, find_singleton]
  have hdescription : r.toJson.find (bytes "description") = r.description.map .string := by
    unfold GetPromptResult.toJson
    simp (disch := decide) only [find_setOptional_or, find_singleton_of_ne, Option.or_none]
  unfold parseGetPrompt
  rw [value_of_find hmessages, getOptional_string hdescription]
  simp only [bind, Except.bind, elements, promptMessages_toJson]
  rfl

/-- **A completion of at most 100 values comes back.** -/
theorem parseCompletion_toJson {r : CompleteResult} (h : r.values.length ≤ 100) : parseCompletion r.toJson = .ok r := by
  obtain ⟨completion, hcompletion, hvalues, htotal, hhasMore⟩ : ∃ completion,
      r.toJson.find (bytes "completion") = some completion ∧
        completion.find (bytes "values") = some (.array (r.values.map .string)) ∧
        completion.find (bytes "total") = r.total.map (fun n => .numberInteger n.toInt64) ∧
        completion.find (bytes "hasMore") = r.hasMore.map .boolean := by
    refine ⟨_, find_singleton _ _, ?_⟩
    rw [List.take_of_length_le h]
    simp (disch := decide) only [find_setOptional_of_ne, find_setOptional_or, find_singleton, find_singleton_of_ne,
      Option.or_none, and_self]
  have hvaluesRead : Json.getArray Json.getString (.array (r.values.map .string)) = .ok r.values :=
    getArray_map fun _ _ => rfl
  have htotalRead : getOptional completion (bytes "total") Json.getInt32 = .ok r.total :=
    getOptional_of_map htotal (fun _ _ => rfl) (fun n _ => by simp [Json.getInt32])
  unfold parseCompletion
  rw [at_of_find hcompletion]
  simp only [bind, Except.bind, at_of_find hvalues, hvaluesRead, htotalRead, getOptional_boolean hhasMore]
  rfl

/-! ## The wrappers -/

theorem caught_map {S T : Type} (f : S → T) (out : Except Exn (Result S)) :
    caught (out.map (Except.map f)) = (caught out).map f := by
  rcases out with _ | _ | _ <;> rfl

/-- **A wrapper returns** what its handler's registry call returned, when the parse undoes the handler's encoding. -/
theorem call_returns {text : JsonText Bytes} {options : ServerOptions} {k : Link γ α} (h : Serves text options k.session)
    {method : Bytes} {run : Server.Handler α} (hmem : (method, run) ∈ Server.handlers text)
    (hdeclared : undeclaredGate (serverGates options.capabilities) method = none) {params : Option Json}
    (hparams : params.all validParams = true) {S T : Type} {out : Except Exn (Result S)} {server : Server α} {toJson : S → Json}
    (hrun : run params k.server = (out.map (Except.map toJson), server)) {good : S → Prop} (hplain : Plain good (caught out))
    {parse : Json → Result T} {f : S → T} (hparse : ∀ v, good v → parse (toJson v) = .ok (f v)) :
    Returns (k.call method params parse) ((caught out).map f) server := by
  have hcaught : caught (run params k.server).1 = (caught out).map toJson := by rw [hrun, caught_map]
  have hdata : ∀ e, caught (run params k.server).1 = .error e → noNull e.data = true := by
    intro e he
    rw [hcaught] at he
    cases hout : caught out with
    | error e' =>
      rw [hout] at he
      cases he
      exact hplain.data e hout
    | ok v =>
      rw [hout] at he
      cases he
  obtain ⟨hresponse, hserver⟩ := request_returns h hmem hdeclared hparams hdata
  refine ⟨?_, hserver.trans (by rw [hrun])⟩
  show (k.request method params).1.map (fun response => response.bind parse) = some ((caught out).map f)
  rw [hresponse, hcaught]
  cases hout : caught out with
  | error e => rfl
  | ok v => exact congrArg some (hparse v (hplain.value v hout))

/-- And its value unchanged when the parse gives back what was encoded. -/
theorem call_returns_same {text : JsonText Bytes} {options : ServerOptions} {k : Link γ α} (h : Serves text options k.session)
    {method : Bytes} {run : Server.Handler α} (hmem : (method, run) ∈ Server.handlers text)
    (hdeclared : undeclaredGate (serverGates options.capabilities) method = none) {params : Option Json}
    (hparams : params.all validParams = true) {T : Type} {out : Except Exn (Result T)} {server : Server α} {toJson : T → Json}
    (hrun : run params k.server = (out.map (Except.map toJson), server)) {good : T → Prop} (hplain : Plain good (caught out))
    {parse : Json → Result T} (hparse : ∀ v, good v → parse (toJson v) = .ok v) :
    Returns (k.call method params parse) (caught out) server := by
  have hmap : (caught out).map (fun v => v) = caught out := by
    cases caught out <;> rfl
  have hreturns := call_returns h hmem hdeclared hparams hrun hplain hparse
  rwa [hmap] at hreturns

/-- A method is let through when each capability whose prefix it has is declared; `hits` are the prefixes it has. -/
theorem declared_of_hits {c : ServerCapabilities} {method : Bytes} (hits : List Bool)
    (hhits : (serverGates {}).map (fun gate => startsWith method gate.1) = hits)
    (h : ((hits.zip ((serverGates c).map Prod.snd)).all fun gate => !gate.1 || gate.2) = true) :
    undeclaredGate (serverGates c) method = none := by
  refine if_neg fun hany => ?_
  subst hhits
  simp only [serverGates, List.map_cons, List.map_nil, List.zip_cons_cons, List.zip_nil_right, List.all_cons, List.all_nil,
    List.any_cons, List.any_nil, Bool.and_true, Bool.or_false] at h hany
  grind

theorem parseCursor_cursorParams (cursor : Option Bytes) : Server.parseCursor (cursorParams cursor) = .ok cursor := by
  cases cursor <;> rfl

theorem validParams_cursorParams (cursor : Option Bytes) : (cursorParams cursor).all validParams = true := by
  cases cursor <;> rfl

/-- The listing of a page. -/
theorem listPage_cursorParams {T : Type} (list : Option Bytes → Except Exn (Result (Page T))) (toJson : T → Json) (key : Bytes)
    (cursor : Option Bytes) : Server.listPage list toJson key (cursorParams cursor) =
      (list cursor).map (Except.map (pageToJson toJson key)) := by
  unfold Server.listPage
  rw [parseCursor_cursorParams]

theorem requireString_name (name : Bytes) (arguments : Json) :
    Server.requireString (some (Link.namedParams name arguments)) (bytes "name") = .ok name := by
  have hfind : (Link.namedParams name arguments).find (bytes "name") = some (.string name) := by
    unfold Link.namedParams
    simp (disch := decide) only [find_set_of_ne, find_set_self]
  simp only [Server.requireString, Option.bind_some, hfind]

theorem argumentsOf_namedParams (name : Bytes) (arguments : Json) :
    Server.argumentsOf (some (Link.namedParams name arguments)) = arguments := by
  have hfind : (Link.namedParams name arguments).find (bytes "arguments") = some arguments := by
    unfold Link.namedParams
    simp (disch := decide) only [find_set_self]
  simp only [Server.argumentsOf, Option.bind_some, hfind, Option.getD_some]

theorem parseCompletion_completionParams (reference argument value : Bytes) :
    Server.parseCompletion (some (Link.completionParams (bytes "ref/prompt") (bytes "name") reference argument value)) =
        .ok (.ok (.prompt reference, argument, value)) ∧
      Server.parseCompletion (some (Link.completionParams (bytes "ref/resource") (bytes "uri") reference argument value)) =
        .ok (.ok (.resource reference, argument, value)) := by
  constructor
  · rfl
  · rfl

section Wrappers

variable {text : JsonText Bytes} {options : ServerOptions} {k : Link γ α}

/-- **A listing returns** the page, when each of its items comes back. -/
theorem list_returns {T : Type} (h : Serves text options k.session) {method key : Bytes} {run : Server.Handler α}
    (hmem : (method, run) ∈ Server.handlers text)
    (hdeclared : undeclaredGate (serverGates options.capabilities) method = none) (hkey : key ≠ bytes "nextCursor")
    {list : Option Bytes → Except Exn (Result (Page T))} {toJson : T → Json} {fromJson : Json → Except JsonException T}
    {cursor : Option Bytes}
    (hrun : run (cursorParams cursor) k.server = (Server.listPage list toJson key (cursorParams cursor), k.server))
    {good : T → Prop} (hplain : Plain (fun page => ∀ x ∈ page.items, good x) (caught (list cursor)))
    (hcodec : ∀ x, good x → fromJson (toJson x) = .ok x) :
    Returns (k.call method (cursorParams cursor) (parseList fromJson key)) ((caught (list cursor)).map listResult) k.server := by
  rw [listPage_cursorParams] at hrun
  exact call_returns h hmem hdeclared (validParams_cursorParams cursor) hrun hplain
    (fun page hpage => parseList_pageToJson hkey fun x hx => hcodec x (hpage x hx))

theorem listTools_returns (h : Serves text options k.session) (hdeclared : options.capabilities.tools.isSome = true)
    (cursor : Option Bytes)
    (hplain : Plain (fun page => ∀ tool ∈ page.items, noNulls tool) (caught (k.server.tools.listTools cursor))) :
    Returns (k.listTools cursor) ((caught (k.server.tools.listTools cursor)).map listResult) k.server := by
  have hmem : (methods.kToolsList, Server.toolsList) ∈ Server.handlers (α := α) text := by simp [Server.handlers]
  have hgate : undeclaredGate (serverGates options.capabilities) methods.kToolsList = none :=
    declared_of_hits [true, false, false, false, false, false] (by decide) (by simp [serverGates, hdeclared])
  exact list_returns h hmem hgate (by decide) rfl hplain (fun _ hnull => Tool.fromJson_toJson hnull.1 hnull.2)

theorem callTool_returns (h : Serves text options k.session) (hdeclared : options.capabilities.tools.isSome = true)
    (name : Bytes) (arguments : Json)
    (hplain : Plain (fun _ => True) (caught (k.server.tools.callTool text name arguments k.server.app).1)) :
    Returns (k.callTool name arguments) (caught (k.server.tools.callTool text name arguments k.server.app).1)
      { k.server with app := (k.server.tools.callTool text name arguments k.server.app).2 } := by
  have hmem : (methods.kToolsCall, Server.toolsCall text) ∈ Server.handlers (α := α) text := by simp [Server.handlers]
  have hgate : undeclaredGate (serverGates options.capabilities) methods.kToolsCall = none :=
    declared_of_hits [true, false, false, false, false, false] (by decide) (by simp [serverGates, hdeclared])
  have hrun : Server.toolsCall text (some (Link.namedParams name arguments)) k.server =
      ((k.server.tools.callTool text name arguments k.server.app).1.map (Except.map CallToolResult.toJson),
        { k.server with app := (k.server.tools.callTool text name arguments k.server.app).2 }) := by
    unfold Server.toolsCall
    rw [requireString_name, argumentsOf_namedParams]
  exact call_returns_same h hmem hgate rfl hrun hplain (fun r _ => parseCallTool_toJson r)

/-- No item of a page has to meet anything. -/
theorem Plain.items {T : Type} {r : Result (Page T)} (h : Plain (fun _ => True) r) :
    Plain (fun page => ∀ x ∈ page.items, (fun _ => True) x) r :=
  ⟨fun _ _ _ _ => trivial, h.data⟩

theorem listResources_returns (h : Serves text options k.session) (hdeclared : options.capabilities.resources.isSome = true)
    (cursor : Option Bytes) (hplain : Plain (fun _ => True) (caught (k.server.resources.listResources cursor))) :
    Returns (k.listResources cursor) ((caught (k.server.resources.listResources cursor)).map listResult) k.server := by
  have hmem : (methods.kResourcesList, Server.resourcesList) ∈ Server.handlers (α := α) text := by simp [Server.handlers]
  have hgate : undeclaredGate (serverGates options.capabilities) methods.kResourcesList = none :=
    declared_of_hits [false, true, false, false, false, false] (by decide) (by simp [serverGates, hdeclared])
  exact list_returns h hmem hgate (by decide) rfl hplain.items (fun r _ => r.fromJson_toJson)

theorem listResourceTemplates_returns (h : Serves text options k.session)
    (hdeclared : options.capabilities.resources.isSome = true) (cursor : Option Bytes)
    (hplain : Plain (fun _ => True) (caught (k.server.resources.listResourceTemplates cursor))) :
    Returns (k.listResourceTemplates cursor)
      ((caught (k.server.resources.listResourceTemplates cursor)).map listResult) k.server := by
  have hmem : (methods.kResourcesTemplatesList, Server.resourcesTemplatesList) ∈ Server.handlers (α := α) text := by
    simp [Server.handlers]
  have hgate : undeclaredGate (serverGates options.capabilities) methods.kResourcesTemplatesList = none :=
    declared_of_hits [false, true, false, false, false, false] (by decide) (by simp [serverGates, hdeclared])
  exact list_returns h hmem hgate (by decide) rfl hplain.items (fun t _ => t.fromJson_toJson)

theorem readResource_returns (h : Serves text options k.session) (hdeclared : options.capabilities.resources.isSome = true)
    (uri : Bytes) (hplain : Plain (fun _ => True) (k.server.resources.readResource uri k.server.app).1) :
    Returns (k.readResource uri) (k.server.resources.readResource uri k.server.app).1
      { k.server with app := (k.server.resources.readResource uri k.server.app).2 } := by
  have hmem : (methods.kResourcesRead, Server.resourcesRead) ∈ Server.handlers (α := α) text := by simp [Server.handlers]
  have hgate : undeclaredGate (serverGates options.capabilities) methods.kResourcesRead = none :=
    declared_of_hits [false, true, false, false, false, false] (by decide) (by simp [serverGates, hdeclared])
  have hrun : Server.resourcesRead (some (.object [(bytes "uri", .string uri)])) k.server =
      (Except.map (Except.map ReadResourceResult.toJson) (.ok (k.server.resources.readResource uri k.server.app).1),
        { k.server with app := (k.server.resources.readResource uri k.server.app).2 }) := rfl
  exact call_returns_same h hmem hgate rfl hrun hplain (fun r _ => parseReadResource_toJson r)

theorem listPrompts_returns (h : Serves text options k.session) (hdeclared : options.capabilities.prompts.isSome = true)
    (cursor : Option Bytes) (hplain : Plain (fun _ => True) (caught (k.server.prompts.listPrompts cursor))) :
    Returns (k.listPrompts cursor) ((caught (k.server.prompts.listPrompts cursor)).map listResult) k.server := by
  have hmem : (methods.kPromptsList, Server.promptsList) ∈ Server.handlers (α := α) text := by simp [Server.handlers]
  have hgate : undeclaredGate (serverGates options.capabilities) methods.kPromptsList = none :=
    declared_of_hits [false, false, true, false, false, false] (by decide) (by simp [serverGates, hdeclared])
  exact list_returns h hmem hgate (by decide) rfl hplain.items (fun p _ => p.fromJson_toJson)

theorem getPrompt_returns (h : Serves text options k.session) (hdeclared : options.capabilities.prompts.isSome = true)
    (name : Bytes) (arguments : Json)
    (hplain : Plain (fun _ => True) (k.server.prompts.getPrompt name arguments k.server.app).1) :
    Returns (k.getPrompt name arguments) (k.server.prompts.getPrompt name arguments k.server.app).1
      { k.server with app := (k.server.prompts.getPrompt name arguments k.server.app).2 } := by
  have hmem : (methods.kPromptsGet, Server.promptsGet) ∈ Server.handlers (α := α) text := by simp [Server.handlers]
  have hgate : undeclaredGate (serverGates options.capabilities) methods.kPromptsGet = none :=
    declared_of_hits [false, false, true, false, false, false] (by decide) (by simp [serverGates, hdeclared])
  have hrun : Server.promptsGet (some (Link.namedParams name arguments)) k.server =
      (Except.map (Except.map GetPromptResult.toJson) (.ok (k.server.prompts.getPrompt name arguments k.server.app).1),
        { k.server with app := (k.server.prompts.getPrompt name arguments k.server.app).2 }) := by
    unfold Server.promptsGet
    rw [requireString_name, argumentsOf_namedParams]
    rfl
  exact call_returns_same h hmem hgate rfl hrun hplain (fun r _ => parseGetPrompt_toJson r)

/-- **A completion returns** what the provider its reference names completes with. -/
theorem complete_returns (h : Serves text options k.session) (hdeclared : options.capabilities.completions.isSome = true)
    {params : Json} (hparams : validParams params = true) {out : Except Exn (Option CompleteResult)} {app : α}
    (hrun : Server.completionComplete (some params) k.server =
      (out.map (fun r => .ok (r.getD {}).toJson), { k.server with app }))
    (hplain : Plain (fun r => r.values.length ≤ 100) (completion out)) :
    Returns (k.call methods.kCompletionComplete (some params) parseCompletion) (completion out) { k.server with app } := by
  have hmem : (methods.kCompletionComplete, Server.completionComplete) ∈ Server.handlers (α := α) text := by
    simp [Server.handlers]
  have hgate : undeclaredGate (serverGates options.capabilities) methods.kCompletionComplete = none :=
    declared_of_hits [false, false, false, false, true, false] (by decide) (by simp [serverGates, hdeclared])
  have hout : completion out = caught (out.map fun r => .ok (r.getD {})) := by
    cases out <;> rfl
  have hencode : out.map (fun r => .ok (r.getD {}).toJson) =
      (out.map fun r => (.ok (r.getD {}) : Result CompleteResult)).map (Except.map CompleteResult.toJson) := by
    cases out <;> rfl
  rw [hencode] at hrun
  rw [hout] at hplain ⊢
  have hvalid : (some params).all validParams = true := hparams
  exact call_returns_same h hmem hgate hvalid hrun hplain (fun r hr => parseCompletion_toJson hr)

theorem completePrompt_returns (h : Serves text options k.session) (hdeclared : options.capabilities.completions.isSome = true)
    (promptName argument value : Bytes)
    (hplain : Plain (fun r => r.values.length ≤ 100)
      (completion (k.server.prompts.complete promptName argument value k.server.app).1)) :
    Returns (k.completePrompt promptName argument value)
      (completion (k.server.prompts.complete promptName argument value k.server.app).1)
      { k.server with app := (k.server.prompts.complete promptName argument value k.server.app).2 } := by
  refine complete_returns h hdeclared rfl ?_ hplain
  unfold Server.completionComplete
  rw [(parseCompletion_completionParams promptName argument value).1]

theorem completeResource_returns (h : Serves text options k.session)
    (hdeclared : options.capabilities.completions.isSome = true) (uriTemplate argument value : Bytes)
    (hplain : Plain (fun r => r.values.length ≤ 100)
      (completion (k.server.resources.complete uriTemplate argument value k.server.app).1)) :
    Returns (k.completeResource uriTemplate argument value)
      (completion (k.server.resources.complete uriTemplate argument value k.server.app).1)
      { k.server with app := (k.server.resources.complete uriTemplate argument value k.server.app).2 } := by
  refine complete_returns h hdeclared rfl ?_ hplain
  unfold Server.completionComplete
  rw [(parseCompletion_completionParams uriTemplate argument value).2]

/-- **Every wrapper returns what the server's registry returned**, for every state of the server and of the client. -/
theorem wrappers_return (h : Serves text options k.session) : WrappersReturn text options.capabilities k where
  listTools := listTools_returns h
  callTool := callTool_returns h
  listResources := listResources_returns h
  listResourceTemplates := listResourceTemplates_returns h
  readResource := readResource_returns h
  listPrompts := listPrompts_returns h
  getPrompt := getPrompt_returns h
  completePrompt := completePrompt_returns h
  completeResource := completeResource_returns h

end Wrappers

/-! ## A tool listed and called -/

/-- A tool with an output schema and an icon. -/
def echoTool : Tool where
  name := bytes "echo"
  icons := some [{ src := bytes "e.svg", sizes := some (bytes "any") }]
  outputSchema := some objectSchema

/-- What it returns: a result within a result. -/
def echoed : CallToolResult where
  content := [.toolResult (bytes "t1") [.text (bytes "hello") (some { audience := some [bytes "user"] })] true]

def echoText : JsonText Bytes := tableText (fun _ => []) []

def echoServer : Server Unit where
  info := { name := bytes "s", version := bytes "1" }
  tools := { tools := [(echoTool, fun _ app => (.ok echoed, app))] }
  app := ()

def echoFresh : Session (Server Unit) := Session.mkServer echoServer.serverOptions

def echoSession : Session (Server Unit) :=
  { echoFresh with state := .operating, router := Server.attachRouter echoText echoFresh.router }

def echoLink : Link Unit Unit where
  client := { Session.mkClient { clientInfo := { name := bytes "c", version := bytes "1" } } with state := .operating }
  clientWorld := ()
  session := echoSession
  server := echoServer

theorem wrappers_return_echo :
    (echoLink.listTools none).1 = some (.ok { items := [echoTool] }) ∧
      (echoLink.callTool (bytes "echo") (.object [])).1 = some (.ok echoed) := by
  have hserves : Serves echoText echoServer.serverOptions echoSession := serves_of_attach _ rfl rfl rfl
  have hreturn := wrappers_return (k := echoLink) hserves
  refine ⟨(hreturn.listTools rfl none ⟨fun page hpage => ?_, fun e he => by cases he⟩).1,
    (hreturn.callTool rfl (bytes "echo") (.object []) ⟨fun _ _ => trivial, fun e he => by cases he⟩).1⟩
  have hitems : page.items = [echoTool] := by
    cases hpage
    rfl
  rw [hitems]
  exact fun tool htool => by rw [List.mem_singleton.1 htool]; exact ⟨rfl, rfl⟩

end Client
end Mcp
