import McpSdk.Content
import McpSdk.Pagination
/-!
# PromptProvider — prompts in registration order, and argument completion

The completion tables of prompts and of resource templates are the same code.  Handlers run on the application's state
`α`.
-/
namespace Mcp

/-- The two catch clauses around a user handler. -/
def Exn.toError : Exn → Error
  | .mcp e => e
  | e => Error.of .internalError e.what

/-- What a provider returns for a handler's return or throw. -/
def caught {T : Type} : Except Exn (Result T) → Result T
  | .ok r => r
  | .error e => .error e.toError

/-! ## Completion -/

structure CompleteResult where
  values : List Bytes := []
  total : Option Int32 := none
  hasMore : Option Bool := none

/-- At most 100 values go on the wire. -/
def CompleteResult.toJson (r : CompleteResult) : Json :=
  .object [(bytes "completion", .object ([(bytes "values", .array ((r.values.take 100).map .string))]
    |> setOptional (bytes "total") (fun n : Int32 => .numberInteger n.toInt64) r.total
    |> setOptional (bytes "hasMore") .boolean r.hasMore))]

/-- A callback gets the partial value typed so far. -/
abbrev CompletionCallback (α : Type) := Bytes → α → Except Exn CompleteResult × α

/-- `completions_`, keyed by the prompt or template and the argument. -/
abbrev Completions (α : Type) := Dict (Bytes × Bytes) (Option (CompletionCallback α))

/-- An empty callback throws when it is called. -/
def Completions.complete {α : Type} (completions : Completions α) (key argument value : Bytes) (app : α) :
    Except Exn (Option CompleteResult) × α :=
  match completions.lookup (key, argument) with
  | none => (.ok none, app)
  | some none => (.error (.std (bytes "bad_function_call")), app)
  | some (some callback) => ((callback value app).1.map some, (callback value app).2)

/-! ## Prompts -/

structure PromptArgument where
  name : Bytes
  title : Option Bytes := none
  description : Option Bytes := none
  required : Option Bool := none

def PromptArgument.toJson (a : PromptArgument) : Json :=
  .object ([(bytes "name", .string a.name)] |> setOptional (bytes "title") .string a.title
    |> setOptional (bytes "description") .string a.description |> setOptional (bytes "required") .boolean a.required)

def PromptArgument.fromJson (j : Json) : Except JsonException PromptArgument := do
  let name ← (← j.at_ (bytes "name")).getString
  let title ← getOptional j (bytes "title") Json.getString
  let description ← getOptional j (bytes "description") Json.getString
  let required ← getOptional j (bytes "required") Json.getBool
  return { name, title, description, required }

structure Prompt where
  name : Bytes
  title : Option Bytes := none
  description : Option Bytes := none
  icons : Option (List Icon) := none
  arguments : Option (List PromptArgument) := none

def Prompt.toJson (p : Prompt) : Json :=
  .object ([(bytes "name", .string p.name)] |> setOptional (bytes "title") .string p.title
    |> setOptional (bytes "description") .string p.description |> setOptional (bytes "icons") iconsToJson p.icons
    |> setOptional (bytes "arguments") (fun arguments => .array (arguments.map PromptArgument.toJson)) p.arguments)

def Prompt.fromJson (j : Json) : Except JsonException Prompt := do
  let name ← (← j.at_ (bytes "name")).getString
  let title ← getOptional j (bytes "title") Json.getString
  let description ← getOptional j (bytes "description") Json.getString
  let icons ← getOptional j (bytes "icons") (Json.getArray Icon.fromJson)
  let arguments ← getOptional j (bytes "arguments") (Json.getArray PromptArgument.fromJson)
  return { name, title, description, icons, arguments }

structure PromptMessage where
  role : Role := .user
  content : Content := textContent []

def PromptMessage.toJson (m : PromptMessage) : Json :=
  .object ([] |> Members.set (bytes "role") (.string (roleToString m.role))
    |> Members.set (bytes "content") (contentToJson m.content))

structure GetPromptResult where
  description : Option Bytes := none
  messages : List PromptMessage := []

def GetPromptResult.toJson (r : GetPromptResult) : Json :=
  .object ([(bytes "messages", .array (r.messages.map PromptMessage.toJson))]
    |> setOptional (bytes "description") .string r.description)

abbrev PromptHandler (α : Type) := Json → α → Except Exn (Result GetPromptResult) × α

structure PromptProvider (α : Type) where
  prompts : List (Prompt × PromptHandler α) := []
  completions : Completions α := ∅
  pageSize : UInt64 := 100

namespace PromptProvider

variable {α : Type}

def addPrompt (p : PromptProvider α) (prompt : Prompt) (handler : Option (PromptHandler α)) : Result (PromptProvider α) :=
  if prompt.name.isEmpty then .error (Error.of .invalidParams (bytes "prompt name must not be empty"))
  else
    match handler with
    | none => .error (Error.of .invalidParams (bytes "prompt '" ++ prompt.name ++ bytes "' requires a handler"))
    | some handler =>
      if p.prompts.any (fun entry => entry.1.name == prompt.name) then
        .error (Error.of .invalidParams (bytes "prompt already registered: " ++ prompt.name))
      else .ok { p with prompts := p.prompts ++ [(prompt, handler)] }

def removePrompt (p : PromptProvider α) (name : Bytes) : Option (PromptProvider α) :=
  if p.prompts.any (fun entry => entry.1.name == name) then
    some { p with prompts := p.prompts.eraseP (fun entry => entry.1.name == name) }
  else none

def size (p : PromptProvider α) : Nat := p.prompts.length

def hasCompletions (p : PromptProvider α) : Bool := !p.completions.entries.isEmpty

def listPrompts (p : PromptProvider α) (cursor : Option Bytes) : Except Exn (Result (Page Prompt)) :=
  paginate (p.prompts.map Prod.fst) cursor p.pageSize

def missingArgument (prompt : Prompt) (arguments : Json) : Option PromptArgument :=
  (prompt.arguments.getD []).find? (fun argument => argument.required.getD false && !arguments.contains argument.name)

def getPrompt (p : PromptProvider α) (name : Bytes) (arguments : Json) (app : α) : Result GetPromptResult × α :=
  match p.prompts.find? (fun entry => entry.1.name == name) with
  | none => (.error (Error.of .invalidParams (bytes "unknown prompt: " ++ name)), app)
  | some (prompt, handler) =>
    match missingArgument prompt arguments with
    | some argument =>
      (.error (Error.of .invalidParams
        (bytes "prompt '" ++ name ++ bytes "' is missing required argument '" ++ argument.name ++ bytes "'")), app)
    | none => (caught (handler arguments app).1, (handler arguments app).2)

def setCompletion (p : PromptProvider α) (promptName argument : Bytes) (callback : Option (CompletionCallback α)) :
    PromptProvider α :=
  { p with completions := p.completions.insert (promptName, argument) callback }

def complete (p : PromptProvider α) (promptName argument value : Bytes) (app : α) :
    Except Exn (Option CompleteResult) × α :=
  p.completions.complete promptName argument value app

def setPageSize (p : PromptProvider α) (pageSize : UInt64) : PromptProvider α :=
  { p with pageSize := clampPageSize pageSize }

end PromptProvider

end Mcp
