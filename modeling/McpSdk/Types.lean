import McpSdk.Message
/-!
# Types — capabilities and the initialize handshake's records

Feature flags go out as booleans and come in leniently: a present object counts as enabled (`getCapabilityFlag`).
-/
namespace Mcp

def kProtocolVersion : Bytes := bytes "2025-11-25"

/-! ## Capabilities -/

structure LoggingCapability where

structure CompletionsCapability where

structure TasksCapability where

structure PromptsCapability where
  listChanged : Option Bool := none

structure ResourcesCapability where
  subscribe : Option Bool := none
  listChanged : Option Bool := none

structure ToolsCapability where
  listChanged : Option Bool := none

structure ExperimentalCapability where
  value : Json := .object []

structure RootsCapability where
  listChanged : Option Bool := none

structure SamplingCapability where
  tools : Option Bool := none
  context : Option Bool := none

structure ElicitationCapability where
  form : Option Bool := none
  url : Option Bool := none

structure ServerCapabilities where
  logging : Option LoggingCapability := none
  prompts : Option PromptsCapability := none
  resources : Option ResourcesCapability := none
  tools : Option ToolsCapability := none
  completions : Option CompletionsCapability := none
  tasks : Option TasksCapability := none
  experimental : Option ExperimentalCapability := none

structure ClientCapabilities where
  roots : Option RootsCapability := none
  sampling : Option SamplingCapability := none
  elicitation : Option ElicitationCapability := none
  tasks : Option TasksCapability := none
  experimental : Option ExperimentalCapability := none

def getCapabilityFlag (j : Json) (key : Bytes) : Option Bool :=
  match j.find key with
  | none => none
  | some .null => none
  | some (.boolean b) => some b
  | some _ => some true

/-- An object of boolean flags, absent ones left out. -/
def flagsToJson (flags : List (Bytes × Option Bool)) : Json :=
  .object (flags.foldl (fun ms f => setOptional f.1 .boolean f.2 ms) [])

def PromptsCapability.toJson (c : PromptsCapability) : Json := flagsToJson [(bytes "listChanged", c.listChanged)]

def PromptsCapability.fromJson (j : Json) : PromptsCapability := ⟨getCapabilityFlag j (bytes "listChanged")⟩

def ResourcesCapability.toJson (c : ResourcesCapability) : Json :=
  flagsToJson [(bytes "subscribe", c.subscribe), (bytes "listChanged", c.listChanged)]

def ResourcesCapability.fromJson (j : Json) : ResourcesCapability :=
  ⟨getCapabilityFlag j (bytes "subscribe"), getCapabilityFlag j (bytes "listChanged")⟩

def ToolsCapability.toJson (c : ToolsCapability) : Json := flagsToJson [(bytes "listChanged", c.listChanged)]

def ToolsCapability.fromJson (j : Json) : ToolsCapability := ⟨getCapabilityFlag j (bytes "listChanged")⟩

def RootsCapability.toJson (c : RootsCapability) : Json := flagsToJson [(bytes "listChanged", c.listChanged)]

def RootsCapability.fromJson (j : Json) : RootsCapability := ⟨getCapabilityFlag j (bytes "listChanged")⟩

def SamplingCapability.toJson (c : SamplingCapability) : Json :=
  flagsToJson [(bytes "tools", c.tools), (bytes "context", c.context)]

def SamplingCapability.fromJson (j : Json) : SamplingCapability :=
  ⟨getCapabilityFlag j (bytes "tools"), getCapabilityFlag j (bytes "context")⟩

def ElicitationCapability.toJson (c : ElicitationCapability) : Json :=
  flagsToJson [(bytes "form", c.form), (bytes "url", c.url)]

def ElicitationCapability.fromJson (j : Json) : ElicitationCapability :=
  ⟨getCapabilityFlag j (bytes "form"), getCapabilityFlag j (bytes "url")⟩

def ServerCapabilities.toJson (c : ServerCapabilities) : Json :=
  .object ([] |> setOptional (bytes "logging") (fun _ => .object []) c.logging
    |> setOptional (bytes "prompts") PromptsCapability.toJson c.prompts
    |> setOptional (bytes "resources") ResourcesCapability.toJson c.resources
    |> setOptional (bytes "tools") ToolsCapability.toJson c.tools
    |> setOptional (bytes "completions") (fun _ => .object []) c.completions
    |> setOptional (bytes "tasks") (fun _ => .object []) c.tasks
    |> setOptional (bytes "experimental") ExperimentalCapability.value c.experimental)

def ServerCapabilities.fromJson (j : Json) : Except JsonException ServerCapabilities := do
  let logging ← getOptional j (bytes "logging") (fun _ => .ok {})
  let prompts ← getOptional j (bytes "prompts") (fun v => .ok (PromptsCapability.fromJson v))
  let resources ← getOptional j (bytes "resources") (fun v => .ok (ResourcesCapability.fromJson v))
  let tools ← getOptional j (bytes "tools") (fun v => .ok (ToolsCapability.fromJson v))
  let completions ← getOptional j (bytes "completions") (fun _ => .ok {})
  let tasks ← getOptional j (bytes "tasks") (fun _ => .ok {})
  let experimental ← getOptional j (bytes "experimental") (fun v => .ok ⟨v⟩)
  return { logging, prompts, resources, tools, completions, tasks, experimental }

def ClientCapabilities.toJson (c : ClientCapabilities) : Json :=
  .object ([] |> setOptional (bytes "roots") RootsCapability.toJson c.roots
    |> setOptional (bytes "sampling") SamplingCapability.toJson c.sampling
    |> setOptional (bytes "elicitation") ElicitationCapability.toJson c.elicitation
    |> setOptional (bytes "tasks") (fun _ => .object []) c.tasks
    |> setOptional (bytes "experimental") ExperimentalCapability.value c.experimental)

def ClientCapabilities.fromJson (j : Json) : Except JsonException ClientCapabilities := do
  let roots ← getOptional j (bytes "roots") (fun v => .ok (RootsCapability.fromJson v))
  let sampling ← getOptional j (bytes "sampling") (fun v => .ok (SamplingCapability.fromJson v))
  let elicitation ← getOptional j (bytes "elicitation") (fun v => .ok (ElicitationCapability.fromJson v))
  let tasks ← getOptional j (bytes "tasks") (fun _ => .ok {})
  let experimental ← getOptional j (bytes "experimental") (fun v => .ok ⟨v⟩)
  return { roots, sampling, elicitation, tasks, experimental }

/-! ## The handshake -/

structure Implementation where
  name : Bytes
  title : Option Bytes := none
  version : Bytes

def Implementation.toJson (i : Implementation) : Json :=
  .object (setOptional (bytes "title") .string i.title
    ([] |> Members.set (bytes "name") (.string i.name) |> Members.set (bytes "version") (.string i.version)))

def Implementation.fromJson (j : Json) : Except JsonException Implementation := do
  let name ← (← j.at_ (bytes "name")).getString
  let version ← (← j.at_ (bytes "version")).getString
  let title ← getOptional j (bytes "title") Json.getString
  return { name, title, version }

structure InitializeParams where
  protocolVersion : Bytes
  capabilities : ClientCapabilities
  clientInfo : Implementation

def InitializeParams.toJson (p : InitializeParams) : Json :=
  .object ([] |> Members.set (bytes "protocolVersion") (.string p.protocolVersion)
    |> Members.set (bytes "capabilities") p.capabilities.toJson |> Members.set (bytes "clientInfo") p.clientInfo.toJson)

def InitializeParams.fromJson (j : Json) : Except JsonException InitializeParams := do
  let protocolVersion ← (← j.at_ (bytes "protocolVersion")).getString
  let capabilities ← ClientCapabilities.fromJson (← j.value (bytes "capabilities") (.object []))
  let clientInfo ← Implementation.fromJson (← j.at_ (bytes "clientInfo"))
  return { protocolVersion, capabilities, clientInfo }

structure InitializeResult where
  protocolVersion : Bytes
  capabilities : ServerCapabilities
  serverInfo : Implementation
  instructions : Option Bytes := none

def InitializeResult.toJson (r : InitializeResult) : Json :=
  .object (setOptional (bytes "instructions") .string r.instructions
    ([] |> Members.set (bytes "protocolVersion") (.string r.protocolVersion)
      |> Members.set (bytes "capabilities") r.capabilities.toJson |> Members.set (bytes "serverInfo") r.serverInfo.toJson))

def InitializeResult.fromJson (j : Json) : Except JsonException InitializeResult := do
  let protocolVersion ← (← j.at_ (bytes "protocolVersion")).getString
  let capabilities ← ServerCapabilities.fromJson (← j.value (bytes "capabilities") (.object []))
  let serverInfo ← Implementation.fromJson (← j.at_ (bytes "serverInfo"))
  let instructions ← getOptional j (bytes "instructions") Json.getString
  return { protocolVersion, capabilities, serverInfo, instructions }

/-! ## Session configuration -/

/-- `ServerOptions`.  The first supported version is the preferred one. -/
structure ServerOptions where
  serverInfo : Implementation
  capabilities : ServerCapabilities := {}
  instructions : Option Bytes := none
  supportedVersions : List Bytes := [kProtocolVersion]
  allowReinitialize : Bool := false

/-- `ClientOptions`; the timeout is in milliseconds. -/
structure ClientOptions where
  clientInfo : Implementation
  capabilities : ClientCapabilities := {}
  supportedVersions : List Bytes := [kProtocolVersion]
  initializeTimeout : Int := 10000

/-- The loop of the initialize handler: the requested version when it is supported, else `front()`. -/
def ServerOptions.negotiate (o : ServerOptions) (requested : Bytes) : Bytes :=
  if o.supportedVersions.contains requested then requested else o.supportedVersions.headD []

/-! ## Progress and cancellation -/

structure ProgressNotification where
  progressToken : ProgressToken
  progress : Double := ⟨0, 0⟩
  total : Option Double := none
  message : Option Bytes := none

def ProgressNotification.toJson (n : ProgressNotification) : Json :=
  .object ([] |> Members.set (bytes "progressToken") (requestIdToJson n.progressToken)
    |> Members.set (bytes "progress") (.numberFloat n.progress)
    |> setOptional (bytes "total") .numberFloat n.total |> setOptional (bytes "message") .string n.message)

def ProgressNotification.fromJson (j : Json) : Except JsonException (Result ProgressNotification) :=
  if !j.isObject || !j.contains (bytes "progressToken") || !(j.find (bytes "progress")).any Json.isNumber then
    .ok (.error (Error.of .invalidParams (bytes "malformed progress notification")))
  else
    match (j.find (bytes "progressToken")).bind requestIdFromJson with
    | none => .ok (.error (Error.of .invalidParams (bytes "progressToken must be a string or integer")))
    | some progressToken => do
      let progress ← (← j.at_ (bytes "progress")).getDouble
      let total ← getOptional j (bytes "total") Json.getDouble
      let message ← getOptional j (bytes "message") Json.getString
      return .ok { progressToken, progress, total, message }

structure CancelledNotification where
  requestId : RequestId
  reason : Option Bytes := none

def CancelledNotification.toJson (n : CancelledNotification) : Json :=
  .object (setOptional (bytes "reason") .string n.reason
    ([] |> Members.set (bytes "requestId") (requestIdToJson n.requestId)))

def CancelledNotification.fromJson (j : Json) : Except JsonException (Result CancelledNotification) :=
  if !j.isObject || !j.contains (bytes "requestId") then
    .ok (.error (Error.of .invalidParams (bytes "malformed cancelled notification")))
  else
    match (j.find (bytes "requestId")).bind requestIdFromJson with
    | none => .ok (.error (Error.of .invalidParams (bytes "requestId must be a string or integer")))
    | some requestId => do
      let reason ← getOptional j (bytes "reason") Json.getString
      return .ok { requestId, reason }

end Mcp
