import McpSdk.Message
/-!
# Content — the content variants and the display records

What tools, prompts and resources carry, how it goes out and how it is read.  Absent fields are left out of the JSON.
-/
namespace Mcp

structure Annotations where
  audience : Option (List Bytes) := none
  priority : Option Double := none
  lastModified : Option Bytes := none

def Annotations.toJson (a : Annotations) : Json :=
  .object ([] |> setOptional (bytes "audience") (fun names => .array (names.map .string)) a.audience
    |> setOptional (bytes "priority") .numberFloat a.priority
    |> setOptional (bytes "lastModified") .string a.lastModified)

def Annotations.fromJson (j : Json) : Except JsonException Annotations := do
  let audience ← getOptional j (bytes "audience") (Json.getArray Json.getString)
  let priority ← getOptional j (bytes "priority") Json.getDouble
  let lastModified ← getOptional j (bytes "lastModified") Json.getString
  return { audience, priority, lastModified }

structure Icon where
  src : Bytes
  mimeType : Option Bytes := none
  sizes : Option Bytes := none

def Icon.toJson (icon : Icon) : Json :=
  .object ([(bytes "src", .string icon.src)] |> setOptional (bytes "mimeType") .string icon.mimeType
    |> setOptional (bytes "sizes") .string icon.sizes)

def Icon.fromJson (j : Json) : Except JsonException Icon := do
  let src ← (← j.at_ (bytes "src")).getString
  let mimeType ← getOptional j (bytes "mimeType") Json.getString
  let sizes ← getOptional j (bytes "sizes") Json.getString
  return { src, mimeType, sizes }

def iconsToJson (icons : List Icon) : Json := .array (icons.map Icon.toJson)

structure ResourceContents where
  uri : Bytes
  mimeType : Option Bytes := none
  text : Option Bytes := none
  blob : Option Bytes := none

def ResourceContents.toJson (rc : ResourceContents) : Json :=
  .object ([(bytes "uri", .string rc.uri)] |> setOptional (bytes "mimeType") .string rc.mimeType
    |> setOptional (bytes "text") .string rc.text |> setOptional (bytes "blob") .string rc.blob)

def ResourceContents.fromJson (j : Json) : Except JsonException ResourceContents := do
  let uri ← (← j.at_ (bytes "uri")).getString
  let mimeType ← getOptional j (bytes "mimeType") Json.getString
  let text ← getOptional j (bytes "text") Json.getString
  let blob ← getOptional j (bytes "blob") Json.getString
  return { uri, mimeType, text, blob }

/-- `Content`, with the fields of each alternative. -/
inductive Content where
  | text (text : Bytes) (annotations : Option Annotations)
  | image (data mimeType : Bytes) (annotations : Option Annotations)
  | audio (data mimeType : Bytes) (annotations : Option Annotations)
  | resource (resource : ResourceContents) (annotations : Option Annotations)
  | toolUse (id name : Bytes) (input : Json)
  | toolResult (toolUseId : Bytes) (content : List Content) (isError : Bool)

def textContent (text : Bytes) : Content := .text text none

def setAnnotations (annotations : Option Annotations) (ms : Members) : Members :=
  setOptional (bytes "annotations") Annotations.toJson annotations ms

mutual

def contentToJson : Content → Json
  | .text text annotations =>
    .object ([] |> Members.set (bytes "type") (.string (bytes "text")) |> Members.set (bytes "text") (.string text)
      |> setAnnotations annotations)
  | .image data mimeType annotations =>
    .object ([] |> Members.set (bytes "type") (.string (bytes "image")) |> Members.set (bytes "data") (.string data)
      |> Members.set (bytes "mimeType") (.string mimeType) |> setAnnotations annotations)
  | .audio data mimeType annotations =>
    .object ([] |> Members.set (bytes "type") (.string (bytes "audio")) |> Members.set (bytes "data") (.string data)
      |> Members.set (bytes "mimeType") (.string mimeType) |> setAnnotations annotations)
  | .resource resource annotations =>
    .object ([] |> Members.set (bytes "type") (.string (bytes "resource"))
      |> Members.set (bytes "resource") resource.toJson |> setAnnotations annotations)
  | .toolUse id name input =>
    .object ([] |> Members.set (bytes "type") (.string (bytes "tool_use")) |> Members.set (bytes "id") (.string id)
      |> Members.set (bytes "name") (.string name) |> Members.set (bytes "input") input)
  | .toolResult toolUseId content isError =>
    .object ([] |> Members.set (bytes "type") (.string (bytes "tool_result"))
      |> Members.set (bytes "toolUseId") (.string toolUseId)
      |> Members.set (bytes "content") (.array (contentItemsToJson content))
      |> Members.set (bytes "isError") (.boolean isError))

def contentItemsToJson : List Content → List Json
  | [] => []
  | c :: contents => contentToJson c :: contentItemsToJson contents

end

def contentListToJson (contents : List Content) : Json := .array (contentItemsToJson contents)

/-! ## Reading -/

def getAnnotations (j : Json) : Except JsonException (Option Annotations) :=
  getOptional j (bytes "annotations") Annotations.fromJson

/-- The catch clause of `content_from_json`. -/
def malformedContent {T : Type} : Except JsonException T → Result T
  | .ok x => .ok x
  | .error e => .error (Error.of .invalidParams (bytes "malformed content: " ++ e.what))

/-- The try block of `content_from_json`; `nested` is what the content list of a tool result gives. -/
def contentOfType (j : Json) (type : Bytes) (nested : Result (List Content)) : Result Content :=
  if type = bytes "text" then malformedContent do
    let text ← (← j.at_ (bytes "text")).getString
    return .text text (← getAnnotations j)
  else if type = bytes "image" then malformedContent do
    let data ← (← j.at_ (bytes "data")).getString
    let mimeType ← (← j.at_ (bytes "mimeType")).getString
    return .image data mimeType (← getAnnotations j)
  else if type = bytes "audio" then malformedContent do
    let data ← (← j.at_ (bytes "data")).getString
    let mimeType ← (← j.at_ (bytes "mimeType")).getString
    return .audio data mimeType (← getAnnotations j)
  else if type = bytes "resource" then malformedContent do
    let resource ← ResourceContents.fromJson (← j.at_ (bytes "resource"))
    return .resource resource (← getAnnotations j)
  else if type = bytes "tool_use" then malformedContent do
    let id ← (← j.at_ (bytes "id")).getString
    let name ← (← j.at_ (bytes "name")).getString
    return .toolUse id name (← j.value (bytes "input") (.object []))
  else if type = bytes "tool_result" then
    match nested with
    | .error e => .error e
    | .ok content => malformedContent do
      let toolUseId ← (← j.at_ (bytes "toolUseId")).getString
      return .toolResult toolUseId content (← j.valueAs (bytes "isError") Json.getBool false)
  else .error (Error.of .invalidParams (bytes "unknown content type: " ++ type))

def missingType : Error := Error.of .invalidParams (bytes "content is missing a type")

mutual

def contentFromJson : Json → Result Content
  | .object members =>
    match (Json.object members).find (bytes "type") with
    | some (.string type) => contentOfType (.object members) type (nestedContent members)
    | _ => .error missingType
  | _ => .error missingType

/-- `content_list_from_json` of the member `content`, an empty list by default. -/
def nestedContent : List (Bytes × Json) → Result (List Content)
  | [] => .ok []
  | (k, v) :: members => if k = bytes "content" then contentListFromJson v else nestedContent members

def contentListFromJson : Json → Result (List Content)
  | .array items => contentItemsFromJson items
  | _ => .error (Error.of .invalidParams (bytes "content must be an array"))

def contentItemsFromJson : List Json → Result (List Content)
  | [] => .ok []
  | item :: items =>
    match contentFromJson item with
    | .error e => .error e
    | .ok c => (contentItemsFromJson items).map (c :: ·)

end

inductive Role
  | user
  | assistant
  deriving DecidableEq, Repr

def roleToString : Role → Bytes
  | .assistant => bytes "assistant"
  | .user => bytes "user"

def roleFromString (name : Bytes) : Option Role :=
  if name = bytes "user" then some .user else if name = bytes "assistant" then some .assistant else none

end Mcp
