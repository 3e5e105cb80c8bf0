import McpSdk.Content
import McpSdk.Pagination
import McpSdk.Schema
/-!
# ToolRegistry — tools in registration order

Handlers run on the application's state `α`.  An operation that registers or removes returns the new registry, or why it
changed nothing; the changed callback runs exactly in the first case.
-/
namespace Mcp

/-- The default input schema, `{"type": "object"}`. -/
def objectSchema : Json := .object [(bytes "type", .string (bytes "object"))]

structure Tool where
  name : Bytes
  title : Option Bytes := none
  description : Option Bytes := none
  icons : Option (List Icon) := none
  inputSchema : Json := objectSchema
  outputSchema : Option Json := none
  annotations : Option Annotations := none
  execution : Option Json := none

def Tool.toJson (tool : Tool) : Json :=
  .object ([] |> Members.set (bytes "name") (.string tool.name) |> Members.set (bytes "inputSchema") tool.inputSchema
    |> setOptional (bytes "title") .string tool.title |> setOptional (bytes "description") .string tool.description
    |> setOptional (bytes "icons") iconsToJson tool.icons |> setOptional (bytes "outputSchema") id tool.outputSchema
    |> setAnnotations tool.annotations |> setOptional (bytes "execution") id tool.execution)

def Tool.fromJson (j : Json) : Except JsonException Tool := do
  let name ← (← j.at_ (bytes "name")).getString
  let inputSchema ← j.value (bytes "inputSchema") objectSchema
  let title ← getOptional j (bytes "title") Json.getString
  let description ← getOptional j (bytes "description") Json.getString
  let icons ← getOptional j (bytes "icons") (Json.getArray Icon.fromJson)
  let outputSchema ← getOptional j (bytes "outputSchema") .ok
  let annotations ← getOptional j (bytes "annotations") Annotations.fromJson
  let execution ← getOptional j (bytes "execution") .ok
  return { name, title, description, icons, inputSchema, outputSchema, annotations, execution }

structure CallToolResult where
  content : List Content
  isError : Bool := false

def CallToolResult.toJson (r : CallToolResult) : Json :=
  .object ([] |> Members.set (bytes "content") (contentListToJson r.content)
    |> Members.set (bytes "isError") (.boolean r.isError))

abbrev ToolHandler (α : Type) := Json → α → Except Exn CallToolResult × α

def isAlpha (b : UInt8) : Bool := (ch 'A' ≤ b && b ≤ ch 'Z') || (ch 'a' ≤ b && b ≤ ch 'z')

def isValidToolName (name : Bytes) : Bool :=
  !name.isEmpty && decide (name.length ≤ 128) &&
    name.all (fun c => isAlpha c || isDigit c || c == ch '.' || c == ch '_' || c == ch '-')

structure ToolRegistry (α : Type) where
  tools : List (Tool × ToolHandler α) := []
  pageSize : UInt64 := 100

namespace ToolRegistry

variable {α : Type}

def registerTool (r : ToolRegistry α) (tool : Tool) (handler : Option (ToolHandler α)) : Result (ToolRegistry α) :=
  if !isValidToolName tool.name then
    .error (Error.of .invalidParams
      (bytes "invalid tool name: '" ++ tool.name ++ bytes "' (1-128 chars from [A-Za-z0-9._-])"))
  else
    match handler with
    | none => .error (Error.of .invalidParams (bytes "tool '" ++ tool.name ++ bytes "' requires a handler"))
    | some handler =>
      if r.tools.any (fun entry => entry.1.name == tool.name) then
        .error (Error.of .invalidParams (bytes "tool already registered: " ++ tool.name))
      else .ok { r with tools := r.tools ++ [(tool, handler)] }

def removeTool (r : ToolRegistry α) (name : Bytes) : Option (ToolRegistry α) :=
  if r.tools.any (fun entry => entry.1.name == name) then
    some { r with tools := r.tools.eraseP (fun entry => entry.1.name == name) }
  else none

def size (r : ToolRegistry α) : Nat := r.tools.length

def listTools (r : ToolRegistry α) (cursor : Option Bytes) : Except Exn (Result (Page Tool)) :=
  paginate (r.tools.map Prod.fst) cursor r.pageSize

/-- The arguments are checked first; what the handler throws is a result. -/
def callTool (text : JsonText Bytes) (r : ToolRegistry α) (name : Bytes) (arguments : Json) (app : α) :
    Except Exn (Result CallToolResult) × α :=
  match r.tools.find? (fun entry => entry.1.name == name) with
  | none => (.ok (.error (Error.of .invalidParams (bytes "unknown tool: " ++ name))), app)
  | some (tool, handler) =>
    match validateSchema text arguments tool.inputSchema with
    | .error e => (.error (.json e), app)
    | .ok (.error e) =>
      (.ok (.error (Error.of .invalidParams (bytes "invalid arguments for tool '" ++ name ++ bytes "': " ++ e.message))),
        app)
    | .ok (.ok ()) =>
      match handler arguments app with
      | (.ok result, app) => (.ok (.ok result), app)
      | (.error e, app) => (.ok (.ok { content := [textContent e.what], isError := true }), app)

def setPageSize (r : ToolRegistry α) (pageSize : UInt64) : ToolRegistry α := { r with pageSize := clampPageSize pageSize }

end ToolRegistry

end Mcp
