import McpSdk.ResourceProvider
import McpSdk.Session
/-!
# Server — the registries, the logger, and the handlers `attach` registers

One `Server` serves every session attached to it: the handlers close over it, so it is the state `ω` they run on.  It
carries the application's state `α`, on which the user's tool, prompt, read and completion callbacks run.
-/
namespace Mcp

namespace methods

def kToolsList : Bytes := bytes "tools/list"
def kToolsCall : Bytes := bytes "tools/call"
def kResourcesList : Bytes := bytes "resources/list"
def kResourcesRead : Bytes := bytes "resources/read"
def kResourcesTemplatesList : Bytes := bytes "resources/templates/list"
def kResourcesSubscribe : Bytes := bytes "resources/subscribe"
def kResourcesUnsubscribe : Bytes := bytes "resources/unsubscribe"
def kPromptsList : Bytes := bytes "prompts/list"
def kPromptsGet : Bytes := bytes "prompts/get"
def kCompletionComplete : Bytes := bytes "completion/complete"
def kLoggingSetLevel : Bytes := bytes "logging/setLevel"
def kNotificationMessage : Bytes := bytes "notifications/message"
def kNotificationToolsListChanged : Bytes := bytes "notifications/tools/list_changed"
def kNotificationResourcesListChanged : Bytes := bytes "notifications/resources/list_changed"
def kNotificationResourcesUpdated : Bytes := bytes "notifications/resources/updated"
def kNotificationPromptsListChanged : Bytes := bytes "notifications/prompts/list_changed"

end methods

/-! ## Logging -/

/-- RFC 5424 severities in increasing order. -/
inductive LoggingLevel
  | debug
  | info
  | notice
  | warning
  | error
  | critical
  | alert
  | emergency
  deriving DecidableEq, Repr

def LoggingLevel.toNat : LoggingLevel → Nat
  | debug => 0
  | info => 1
  | notice => 2
  | warning => 3
  | error => 4
  | critical => 5
  | alert => 6
  | emergency => 7

def loggingLevelToString : LoggingLevel → Bytes
  | .debug => bytes "debug"
  | .info => bytes "info"
  | .notice => bytes "notice"
  | .warning => bytes "warning"
  | .error => bytes "error"
  | .critical => bytes "critical"
  | .alert => bytes "alert"
  | .emergency => bytes "emergency"

def loggingLevelFromString (name : Bytes) : Option LoggingLevel :=
  [LoggingLevel.debug, .info, .notice, .warning, .error, .critical, .alert, .emergency].find?
    (fun level => loggingLevelToString level == name)

/-- A level reads back from its name. -/
theorem loggingLevelFromString_toString (level : LoggingLevel) :
    loggingLevelFromString (loggingLevelToString level) = some level := by
  cases level <;> decide

structure Logger where
  level : LoggingLevel := .info

/-- What `log` passes to the emitter: nothing below the threshold. -/
def Logger.log (l : Logger) (level : LoggingLevel) (data : Json) (loggerName : Option Bytes) : Option Json :=
  if level.toNat < l.level.toNat then none
  else
    some (.object ([] |> Members.set (bytes "level") (.string (loggingLevelToString level))
      |> Members.set (bytes "data") data |> setOptional (bytes "logger") .string loggerName))

/-- The threshold decides whether an event is emitted, and nothing about it. -/
theorem Logger.log_congr {l l' : Logger} {level : LoggingLevel}
    (h : l.level.toNat ≤ level.toNat ↔ l'.level.toNat ≤ level.toNat) (data : Json) (loggerName : Option Bytes) :
    l.log level data loggerName = l'.log level data loggerName := by
  have hlt : level.toNat < l.level.toNat ↔ level.toNat < l'.level.toNat := by omega
  simp only [log, hlt]

/-! ## The server -/

structure Server (α : Type) where
  info : Implementation
  instructions : Option Bytes := none
  allowReinitialize : Bool := false
  tools : ToolRegistry α := {}
  resources : ResourceProvider α := {}
  prompts : PromptProvider α := {}
  logger : Logger := {}
  app : α

namespace Server

variable {α : Type}

def capabilities (w : Server α) : ServerCapabilities where
  tools := if 0 < w.tools.size then some { listChanged := some true } else none
  resources :=
    if 0 < w.resources.resourceCount ∨ 0 < w.resources.templateCount then
      some { subscribe := some true, listChanged := some true }
    else none
  prompts := if 0 < w.prompts.size then some { listChanged := some true } else none
  logging := some {}
  completions := if w.prompts.hasCompletions || w.resources.hasCompletions then some {} else none

def serverOptions (w : Server α) : ServerOptions where
  serverInfo := w.info
  capabilities := w.capabilities
  instructions := w.instructions
  allowReinitialize := w.allowReinitialize

/-! ## Reading params -/

def parseCursor (params : Option Json) : Result (Option Bytes) :=
  match params.bind (fun p => p.find (bytes "cursor")) with
  | none => .ok none
  | some (.string cursor) => .ok (some cursor)
  | some _ => .error (Error.of .paginationError (bytes "cursor must be a string"))

def requireString (params : Option Json) (key : Bytes) : Result Bytes :=
  match params.bind (fun p => p.find key) with
  | some (.string s) => .ok s
  | _ => .error (Error.of .invalidParams (bytes "missing required string param '" ++ key ++ bytes "'"))

/-- The `arguments` of a call, an empty object by default. -/
def argumentsOf (params : Option Json) : Json :=
  (params.bind (fun p => p.find (bytes "arguments"))).getD (.object [])

/-! ## Handlers -/

abbrev Handler (α : Type) := Option Json → Server α → Except Exn (Result Json) × Server α

/-- A listing's handler: the cursor, the page, the page's JSON. -/
def listPage {T : Type} (list : Option Bytes → Except Exn (Result (Page T))) (toJson : T → Json) (itemsKey : Bytes)
    (params : Option Json) : Except Exn (Result Json) :=
  match parseCursor params with
  | .error e => .ok (.error e)
  | .ok cursor => (list cursor).map (fun page => page.map (pageToJson toJson itemsKey))

def toolsList : Handler α := fun params w => (listPage w.tools.listTools Tool.toJson (bytes "tools") params, w)

def toolsCall (text : JsonText Bytes) : Handler α := fun params w =>
  match requireString params (bytes "name") with
  | .error e => (.ok (.error e), w)
  | .ok name =>
    let (result, app) := w.tools.callTool text name (argumentsOf params) w.app
    (result.map (fun r => r.map CallToolResult.toJson), { w with app })

def resourcesList : Handler α := fun params w =>
  (listPage w.resources.listResources Resource.toJson (bytes "resources") params, w)

def resourcesTemplatesList : Handler α := fun params w =>
  (listPage w.resources.listResourceTemplates ResourceTemplate.toJson (bytes "resourceTemplates") params, w)

def resourcesRead : Handler α := fun params w =>
  match requireString params (bytes "uri") with
  | .error e => (.ok (.error e), w)
  | .ok uri =>
    let (result, app) := w.resources.readResource uri w.app
    (.ok (result.map ReadResourceResult.toJson), { w with app })

def resourcesSubscribe : Handler α := fun params w =>
  match requireString params (bytes "uri") with
  | .error e => (.ok (.error e), w)
  | .ok uri =>
    match w.resources.subscribe uri with
    | .error e => (.ok (.error e), w)
    | .ok resources => (.ok (.ok (.object [])), { w with resources })

def resourcesUnsubscribe : Handler α := fun params w =>
  match requireString params (bytes "uri") with
  | .error e => (.ok (.error e), w)
  | .ok uri => (.ok (.ok (.object [])), { w with resources := w.resources.unsubscribe uri })

def promptsList : Handler α := fun params w =>
  (listPage w.prompts.listPrompts Prompt.toJson (bytes "prompts") params, w)

def promptsGet : Handler α := fun params w =>
  match requireString params (bytes "name") with
  | .error e => (.ok (.error e), w)
  | .ok name =>
    let (result, app) := w.prompts.getPrompt name (argumentsOf params) w.app
    (.ok (result.map GetPromptResult.toJson), { w with app })

def loggingSetLevel : Handler α := fun params w =>
  match requireString params (bytes "level") with
  | .error e => (.ok (.error e), w)
  | .ok name =>
    match loggingLevelFromString name with
    | none => (.ok (.error (Error.of .invalidParams (bytes "unknown logging level: " ++ name))), w)
    | some level => (.ok (.ok (.object [])), { w with logger := { level } })

/-- What a completion is asked of. -/
inductive CompletionRef
  | prompt (name : Bytes)
  | resource (uri : Bytes)

/-- The checks and reads of `completion/complete`: the reference, the argument's name and its partial value. -/
def parseCompletion (params : Option Json) : Except JsonException (Result (CompletionRef × Bytes × Bytes)) :=
  match params.bind (fun p => p.find (bytes "ref")), params.bind (fun p => p.find (bytes "argument")) with
  | some ref, some argument =>
    if !ref.isObject || !argument.isObject || !ref.contains (bytes "type") || !argument.contains (bytes "name") ||
        !argument.contains (bytes "value") then
      .ok (.error (Error.of .invalidParams (bytes "malformed completion reference or argument")))
    else do
      let type ← (← ref.at_ (bytes "type")).getString
      let name ← (← argument.at_ (bytes "name")).getString
      let value ← (← argument.at_ (bytes "value")).getString
      if type = bytes "ref/prompt" ∧ ref.contains (bytes "name") then
        return .ok (.prompt (← (← ref.at_ (bytes "name")).getString), name, value)
      else if type = bytes "ref/resource" ∧ ref.contains (bytes "uri") then
        return .ok (.resource (← (← ref.at_ (bytes "uri")).getString), name, value)
      else return .error (Error.of .invalidParams (bytes "unknown completion reference type: " ++ type))
  | _, _ => .ok (.error (Error.of .invalidParams (bytes "completion/complete requires ref and argument")))

/-- The provider a reference names answers; no callback answers with no values. -/
def completionComplete : Handler α := fun params w =>
  match parseCompletion params with
  | .error e => (.error (.json e), w)
  | .ok (.error e) => (.ok (.error e), w)
  | .ok (.ok (ref, argument, value)) =>
    let (result, app) := match ref with
      | .prompt name => w.prompts.complete name argument value w.app
      | .resource uri => w.resources.complete uri argument value w.app
    (result.map (fun r => .ok (r.getD {}).toJson), { w with app })

/-- What `attach` registers on a session's router. -/
def handlers (text : JsonText Bytes) : List (Bytes × Handler α) :=
  [(methods.kToolsList, toolsList), (methods.kToolsCall, toolsCall text), (methods.kResourcesList, resourcesList),
    (methods.kResourcesTemplatesList, resourcesTemplatesList), (methods.kResourcesRead, resourcesRead),
    (methods.kResourcesSubscribe, resourcesSubscribe), (methods.kResourcesUnsubscribe, resourcesUnsubscribe),
    (methods.kPromptsList, promptsList), (methods.kPromptsGet, promptsGet),
    (methods.kLoggingSetLevel, loggingSetLevel), (methods.kCompletionComplete, completionComplete)]

/-- The registrations of `attach`. -/
def attachRouter (text : JsonText Bytes) (r : Router (Server α)) : Router (Server α) :=
  (handlers text).foldl (fun r h => r.setRequestHandler h.1 (some (.user h.2))) r

end Server

end Mcp
