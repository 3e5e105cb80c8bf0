import McpSdk.Json
/-!
# Message — JSON-RPC errors, ids, messages and frames

`parseMessage` and `parseFrame` return a `Result` where the source does, inside the exceptions that escape it: an error
object whose `code` or `message` has the wrong type throws out of `Error.fromJson`, and so out of both.
-/
namespace Mcp

/-- JSON-RPC 2.0 and MCP error codes. -/
inductive ErrorCode
  | parseError
  | invalidRequest
  | methodNotFound
  | invalidParams
  | internalError
  | connectionNotInitialized
  | requestAlreadyInProgress
  | capabilityNotSupported
  | resourceNotFound
  | toolExecutionFailed
  | invalidUri
  | paginationError
  deriving DecidableEq, Repr

def ErrorCode.toInt : ErrorCode → Int32
  | parseError => -32700
  | invalidRequest => -32600
  | methodNotFound => -32601
  | invalidParams => -32602
  | internalError => -32603
  | connectionNotInitialized => -32000
  | requestAlreadyInProgress => -32001
  | capabilityNotSupported => -32002
  | resourceNotFound => -32003
  | toolExecutionFailed => -32004
  | invalidUri => -32005
  | paginationError => -32006

structure Error where
  code : Int32
  message : Bytes
  data : Option Json := none

/-- `Error(ErrorCode, message)`. -/
def Error.of (code : ErrorCode) (message : Bytes) : Error := { code := code.toInt, message := message }

abbrev Result (α : Type) := Except Error α

def Error.toJson (e : Error) : Json :=
  .object (setOptional (bytes "data") id e.data
    ([] |> Members.set (bytes "code") (.numberInteger e.code.toInt64) |> Members.set (bytes "message") (.string e.message)))

def Error.fromJson (j : Json) : Except JsonException Error := do
  let code ← (← j.at_ (bytes "code")).getInt32
  let message ← (← j.at_ (bytes "message")).getString
  let data ← getOptional j (bytes "data") .ok
  return { code, message, data }

/-! ## Ids -/

/-- `std::variant<std::int64_t, std::string>`: request ids and progress tokens. -/
inductive RequestId where
  | int (n : Int64)
  | str (s : Bytes)
  deriving DecidableEq, Repr

abbrev ProgressToken := RequestId

def requestIdToJson : RequestId → Json
  | .int n => .numberInteger n
  | .str s => .string s

/-- An unsigned literal above `2 ^ 63 - 1` goes through the cast of `get<std::int64_t>()`. -/
def requestIdFromJson : Json → Option RequestId
  | .numberInteger n => some (.int n)
  | .numberUnsigned n => some (.int n.toInt64)
  | .string s => some (.str s)
  | _ => none

/-! ## Messages -/

structure JsonRpcRequest where
  id : RequestId
  method : Bytes
  params : Option Json := none

structure JsonRpcNotification where
  method : Bytes
  params : Option Json := none

/-- A null wire id is `none`. -/
structure JsonRpcResponse where
  id : Option RequestId := none
  result : Option Json := none
  error : Option Error := none

def JsonRpcResponse.isError (r : JsonRpcResponse) : Bool := r.error.isSome

inductive Message where
  | request (r : JsonRpcRequest)
  | notification (n : JsonRpcNotification)
  | response (r : JsonRpcResponse)

def Message.isResponse : Message → Bool
  | response _ => true
  | _ => false

def requestToJson (r : JsonRpcRequest) : Json :=
  .object (setOptional (bytes "params") id r.params
    ([] |> Members.set (bytes "jsonrpc") (.string (bytes "2.0")) |> Members.set (bytes "id") (requestIdToJson r.id)
      |> Members.set (bytes "method") (.string r.method)))

def notificationToJson (n : JsonRpcNotification) : Json :=
  .object (setOptional (bytes "params") id n.params
    ([] |> Members.set (bytes "jsonrpc") (.string (bytes "2.0")) |> Members.set (bytes "method") (.string n.method)))

def responseToJson (r : JsonRpcResponse) : Json :=
  let head := [] |> Members.set (bytes "jsonrpc") (.string (bytes "2.0"))
    |> Members.set (bytes "id") (match r.id with | some id => requestIdToJson id | none => .null)
  .object (match r.error with
    | some e => head |> Members.set (bytes "error") e.toJson
    | none => head |> Members.set (bytes "result") (r.result.getD .null))

def messageToJson : Message → Json
  | .request r => requestToJson r
  | .notification n => notificationToJson n
  | .response r => responseToJson r

/-! ## Parsing -/

def validParams (j : Json) : Bool := j.isObject || j.isArray

/-- The `jsonrpc` member is the string `2.0`. -/
def validVersion (j : Json) : Bool :=
  match j.find (bytes "jsonrpc") with
  | some (.string v) => v == bytes "2.0"
  | _ => false

/-- An InvalidRequest error, returned (not thrown). -/
def refuse {α : Type} (text : String) : Except JsonException (Result α) :=
  .ok (.error (Error.of .invalidRequest (bytes text)))

/-- `parse_message` once `method` is found. -/
def parseCall (j method : Json) : Except JsonException (Result Message) :=
  match method with
  | .string method =>
    let paramsIn := (j.find (bytes "params")).filter (fun p => !p.isNull)
    if paramsIn.any (fun p => !validParams p) then refuse "params must be an object or array"
    else
      match j.find (bytes "id") with
      | none => .ok (.ok (.notification { method, params := paramsIn }))
      | some idJson =>
        match requestIdFromJson idJson with
        | none => refuse "request id must be a string or integer"
        | some id => .ok (.ok (.request { id, method, params := paramsIn }))
  | _ => refuse "method must be a string"

/-- `parse_message` without `method`: the message must be a response. -/
def parseResponse (j : Json) : Except JsonException (Result Message) :=
  if j.contains (bytes "result") = j.contains (bytes "error") then
    refuse "response must contain exactly one of result/error"
  else
    match j.find (bytes "id") with
    | none => refuse "response is missing id"
    | some idJson =>
      if !idJson.isNull && (requestIdFromJson idJson).isNone then refuse "response id must be a string, integer, or null"
      else
        let id := if idJson.isNull then none else requestIdFromJson idJson
        match j.find (bytes "error") with
        | some e =>
          if !e.isObject || !e.contains (bytes "code") || !e.contains (bytes "message") then
            refuse "malformed error object"
          else (Error.fromJson e).map (fun error => .ok (.response { id, error := some error }))
        | none => (j.at_ (bytes "result")).map (fun result => .ok (.response { id, result := some result }))

/-- Parses one JSON value already decoded from the wire. -/
def parseMessage (j : Json) : Except JsonException (Result Message) :=
  if !j.isObject then refuse "message is not a JSON object"
  else if !validVersion j then refuse "missing or invalid jsonrpc version"
  else
    match j.find (bytes "method") with
    | some method => parseCall j method
    | none => parseResponse j

/-! ## Frames -/

/-- One wire frame: a message, or a batch with its invalid elements reported apart. -/
structure ParsedFrame where
  messages : List Message := []
  itemErrors : List Error := []
  wasBatch : Bool := false

/-- The loop over the elements of a batch. -/
def parseItems : List Json → ParsedFrame → Except JsonException ParsedFrame
  | [], frame => .ok frame
  | item :: items, frame => do
    match ← parseMessage item with
    | .ok m => parseItems items { frame with messages := frame.messages ++ [m] }
    | .error e => parseItems items { frame with itemErrors := frame.itemErrors ++ [e] }

/-- JSON text: `json::parse(text, nullptr, false)`, with `none` for a discarded value, and `dump()`, which throws on a
string that is not UTF-8. -/
structure JsonText (τ : Type) where
  parse : τ → Option Json
  dump : Json → Except JsonException τ

variable {τ : Type}

def serializeMessage (text : JsonText τ) (m : Message) : Except JsonException τ := text.dump (messageToJson m)

def serializeBatch (text : JsonText τ) (ms : List Message) : Except JsonException τ :=
  text.dump (.array (ms.map messageToJson))

def parseFrame (text : JsonText τ) (t : τ) : Except JsonException (Result ParsedFrame) :=
  match text.parse t with
  | none => .ok (.error (Error.of .parseError (bytes "invalid JSON")))
  | some (.array []) => refuse "batch must not be empty"
  | some (.array items) => (parseItems items { wasBatch := true }).map .ok
  | some j => do
    match ← parseMessage j with
    | .ok m => return .ok { messages := [m] }
    | .error e => return .error e

end Mcp
