import McpSdk.ContentCodec
import McpSdk.Router
/-!
# Sampling — the records of `sampling/createMessage`

What a server asks and what a client answers.  The params come back as they were sent (`CreateMessageParams.fromJson_toJson`),
the answer too.  The answer's decoder checks that its members are there and leaves their types to the accessors, which
throw (`CreateMessageResult.fromJson_returns_iff`).
-/
namespace Mcp

/-- An exception of the JSON library among those that may be thrown. -/
def raised {α : Type} : Except JsonException α → Except Exn α := Except.mapError Exn.json

/-! ## Params -/

structure SamplingMessage where
  role : Role := .user
  content : Content := textContent []

def SamplingMessage.toJson (m : SamplingMessage) : Json :=
  .object ([] |> Members.set (bytes "role") (.string (roleToString m.role))
    |> Members.set (bytes "content") (contentToJson m.content))

/-- Content that cannot be read is thrown on as a `JsonRpcError`. -/
def SamplingMessage.fromJson (j : Json) : Except Exn SamplingMessage := do
  let role ← raised (do (← j.at_ (bytes "role")).getString)
  match ← raised (do readContent (← j.at_ (bytes "content"))) with
  | .error e => throw (.mcp e)
  | .ok content => return { role := (roleFromString role).getD .user, content }

structure ModelHint where
  name : Bytes

def ModelHint.toJson (h : ModelHint) : Json := .object [(bytes "name", .string h.name)]

def ModelHint.fromJson (j : Json) : Except JsonException ModelHint := do
  return { name := ← (← j.at_ (bytes "name")).getString }

structure ModelPreferences where
  hints : Option (List ModelHint) := none
  costPriority : Option Double := none
  speedPriority : Option Double := none
  intelligencePriority : Option Double := none

def ModelPreferences.toJson (p : ModelPreferences) : Json :=
  .object ([] |> setOptional (bytes "hints") (fun hints => .array (hints.map ModelHint.toJson)) p.hints
    |> setOptional (bytes "costPriority") .numberFloat p.costPriority
    |> setOptional (bytes "speedPriority") .numberFloat p.speedPriority
    |> setOptional (bytes "intelligencePriority") .numberFloat p.intelligencePriority)

def ModelPreferences.fromJson (j : Json) : Except JsonException ModelPreferences := do
  let hints ← getOptional j (bytes "hints") (Json.getArray ModelHint.fromJson)
  let costPriority ← getOptional j (bytes "costPriority") Json.getDouble
  let speedPriority ← getOptional j (bytes "speedPriority") Json.getDouble
  let intelligencePriority ← getOptional j (bytes "intelligencePriority") Json.getDouble
  return { hints, costPriority, speedPriority, intelligencePriority }

structure CreateMessageParams where
  messages : List SamplingMessage := []
  modelPreferences : Option ModelPreferences := none
  systemPrompt : Option Bytes := none
  includeContext : Option Bytes := none
  temperature : Option Double := none
  maxTokens : Int64 := 1024
  stopSequences : Option (List Bytes) := none
  metadata : Option Json := none
  tools : Option Json := none
  toolChoice : Option Json := none

def CreateMessageParams.toJson (p : CreateMessageParams) : Json :=
  .object ([] |> Members.set (bytes "messages") (.array (p.messages.map SamplingMessage.toJson))
    |> Members.set (bytes "maxTokens") (.numberInteger p.maxTokens)
    |> setOptional (bytes "modelPreferences") ModelPreferences.toJson p.modelPreferences
    |> setOptional (bytes "systemPrompt") .string p.systemPrompt
    |> setOptional (bytes "includeContext") .string p.includeContext
    |> setOptional (bytes "temperature") .numberFloat p.temperature
    |> setOptional (bytes "stopSequences") (fun sequences => .array (sequences.map .string)) p.stopSequences
    |> setOptional (bytes "metadata") id p.metadata
    |> setOptional (bytes "tools") id p.tools
    |> setOptional (bytes "toolChoice") id p.toolChoice)

/-- `get<std::vector<SamplingMessage>>()`. -/
def getMessages : Json → Except Exn (List SamplingMessage)
  | .array items => items.mapM SamplingMessage.fromJson
  | j => .error (.json (Json.wrongType (bytes "array") j))

/-- The members after `messages`. -/
def CreateMessageParams.readRest (messages : List SamplingMessage) (j : Json) : Except JsonException CreateMessageParams := do
  let maxTokens ← j.valueAs (bytes "maxTokens") Json.getInt64 1024
  let modelPreferences ← getOptional j (bytes "modelPreferences") ModelPreferences.fromJson
  let systemPrompt ← getOptional j (bytes "systemPrompt") Json.getString
  let includeContext ← getOptional j (bytes "includeContext") Json.getString
  let temperature ← getOptional j (bytes "temperature") Json.getDouble
  let stopSequences ← getOptional j (bytes "stopSequences") (Json.getArray Json.getString)
  let metadata ← getOptional j (bytes "metadata") .ok
  let tools ← getOptional j (bytes "tools") .ok
  let toolChoice ← getOptional j (bytes "toolChoice") .ok
  return { messages, modelPreferences, systemPrompt, includeContext, temperature, maxTokens, stopSequences, metadata, tools,
           toolChoice }

def CreateMessageParams.fromJson (j : Json) : Except Exn CreateMessageParams := do
  let messages ← getMessages (← raised (j.at_ (bytes "messages")))
  raised (readRest messages j)

/-! ## The answer -/

structure CreateMessageResult where
  role : Role := .assistant
  content : List Content := []
  model : Bytes := []
  stopReason : Option Bytes := none

/-- Exactly one block goes out as an object, and any other number as an array. -/
def CreateMessageResult.toJson (r : CreateMessageResult) : Json :=
  .object ([] |> Members.set (bytes "role") (.string (roleToString r.role)) |> Members.set (bytes "model") (.string r.model)
    |> Members.set (bytes "content") (match r.content with
      | [block] => contentToJson block
      | content => contentListToJson content)
    |> setOptional (bytes "stopReason") .string r.stopReason)

/-- The content of an answer, in either form. -/
def readAnswerContent (content : Json) : Except JsonException (Result (List Content)) :=
  if content.isArray then readContentList content else do return (← readContent content).map ([·])

def CreateMessageResult.fromJson (j : Json) : Except JsonException (Result CreateMessageResult) :=
  if !j.isObject || !j.contains (bytes "role") || !j.contains (bytes "content") || !j.contains (bytes "model") then
    .ok (.error (Error.of .invalidParams (bytes "malformed createMessage result")))
  else do
    let role ← (← j.at_ (bytes "role")).getString
    let model ← (← j.at_ (bytes "model")).getString
    let stopReason ← getOptional j (bytes "stopReason") Json.getString
    let content ← readAnswerContent (← j.at_ (bytes "content"))
    return content.map fun content => { role := (roleFromString role).getD .assistant, content, model, stopReason }

/-! ## What is sent comes back -/

theorem SamplingMessage.fromJson_toJson (m : SamplingMessage) : SamplingMessage.fromJson m.toJson = .ok m := by
  have hrole : m.toJson.find (bytes "role") = some (.string (roleToString m.role)) := by
    unfold SamplingMessage.toJson
    simp (disch := decide) only [find_set_of_ne, find_set_self]
  have hcontent : m.toJson.find (bytes "content") = some (contentToJson m.content) := by
    unfold SamplingMessage.toJson
    simp (disch := decide) only [find_set_self]
  unfold SamplingMessage.fromJson
  rw [at_of_find hrole, at_of_find hcontent]
  simp only [bind, Except.bind, readContent_eq, contentFromJson_toJson, Json.getString, raised, Except.mapError,
    roleFromString_toString]
  rfl

theorem ModelHint.fromJson_toJson (h : ModelHint) : ModelHint.fromJson h.toJson = .ok h := by
  unfold ModelHint.fromJson ModelHint.toJson
  rw [at_of_find (find_singleton _ _)]
  rfl

theorem getOptional_double {j : Json} {key : Bytes} {value : Option Double} (h : j.find key = value.map .numberFloat) :
    getOptional j key Json.getDouble = .ok value :=
  getOptional_of_map h (fun _ _ => rfl) (fun _ _ => rfl)

theorem ModelPreferences.find_toJson (p : ModelPreferences) :
    p.toJson.find (bytes "hints") = p.hints.map (fun hints => .array (hints.map ModelHint.toJson)) ∧
      p.toJson.find (bytes "costPriority") = p.costPriority.map .numberFloat ∧
      p.toJson.find (bytes "speedPriority") = p.speedPriority.map .numberFloat ∧
      p.toJson.find (bytes "intelligencePriority") = p.intelligencePriority.map .numberFloat := by
  unfold ModelPreferences.toJson
  simp (disch := decide) only [find_setOptional_of_ne, find_setOptional_or, find_nil, Option.or_none, and_self]

theorem ModelPreferences.fromJson_toJson (p : ModelPreferences) : ModelPreferences.fromJson p.toJson = .ok p := by
  obtain ⟨hhints, hcost, hspeed, hintelligence⟩ := p.find_toJson
  unfold ModelPreferences.fromJson
  rw [getOptional_array hhints ModelHint.fromJson_toJson, getOptional_double hcost, getOptional_double hspeed,
    getOptional_double hintelligence]
  rfl

theorem getMessages_map : ∀ messages : List SamplingMessage,
    (messages.map SamplingMessage.toJson).mapM SamplingMessage.fromJson = .ok messages
  | [] => rfl
  | m :: messages => by
    rw [List.map_cons, List.mapM_cons, m.fromJson_toJson, getMessages_map messages]
    rfl

theorem CreateMessageParams.find_toJson (p : CreateMessageParams) :
    p.toJson.find (bytes "messages") = some (.array (p.messages.map SamplingMessage.toJson)) ∧
      p.toJson.find (bytes "maxTokens") = some (.numberInteger p.maxTokens) ∧
      p.toJson.find (bytes "modelPreferences") = p.modelPreferences.map ModelPreferences.toJson ∧
      p.toJson.find (bytes "systemPrompt") = p.systemPrompt.map .string ∧
      p.toJson.find (bytes "includeContext") = p.includeContext.map .string ∧
      p.toJson.find (bytes "temperature") = p.temperature.map .numberFloat ∧
      p.toJson.find (bytes "stopSequences") = p.stopSequences.map (fun sequences => .array (sequences.map .string)) ∧
      p.toJson.find (bytes "metadata") = p.metadata ∧ p.toJson.find (bytes "tools") = p.tools ∧
      p.toJson.find (bytes "toolChoice") = p.toolChoice := by
  unfold CreateMessageParams.toJson
  simp (disch := decide) only [find_setOptional_of_ne, find_setOptional_or, find_set_of_ne, find_set_self, find_nil,
    Option.or_none, Option.map_id_apply, and_self]

/-- The optional JSON fields hold no null. -/
structure CreateMessageParams.NoNulls (p : CreateMessageParams) : Prop where
  metadata : noNull p.metadata = true
  tools : noNull p.tools = true
  toolChoice : noNull p.toolChoice = true

/-- **The params come back** when their optional JSON fields hold no null. -/
theorem CreateMessageParams.fromJson_toJson {p : CreateMessageParams} (hp : p.NoNulls) :
    CreateMessageParams.fromJson p.toJson = .ok p := by
  obtain ⟨hmessages, hmaxTokens, hpreferences, hsystem, hinclude, htemperature, hstop, hmetadata, htools, hchoice⟩ :=
    p.find_toJson
  have hpreferences : getOptional p.toJson (bytes "modelPreferences") ModelPreferences.fromJson = .ok p.modelPreferences :=
    getOptional_of_map hpreferences (fun _ _ => rfl) (fun v _ => v.fromJson_toJson)
  have hrest : readRest p.messages p.toJson = .ok p := by
    unfold readRest
    rw [valueAs_of_find hmaxTokens, hpreferences, getOptional_string hsystem, getOptional_string hinclude,
      getOptional_double htemperature, getOptional_array hstop (fun _ => rfl), getOptional_json hmetadata hp.metadata,
      getOptional_json htools hp.tools, getOptional_json hchoice hp.toolChoice]
    rfl
  unfold CreateMessageParams.fromJson
  rw [at_of_find hmessages]
  simp only [bind, Except.bind, raised, Except.mapError, getMessages, getMessages_map, hrest]

theorem CreateMessageResult.find_toJson (r : CreateMessageResult) :
    r.toJson.find (bytes "role") = some (.string (roleToString r.role)) ∧
      r.toJson.find (bytes "model") = some (.string r.model) ∧
      r.toJson.find (bytes "content") = some (match r.content with
        | [block] => contentToJson block
        | content => contentListToJson content) ∧
      r.toJson.find (bytes "stopReason") = r.stopReason.map .string := by
  unfold CreateMessageResult.toJson
  simp (disch := decide) only [find_setOptional_of_ne, find_setOptional_or, find_set_of_ne, find_set_self, find_nil,
    Option.or_none, and_self]

theorem isArray_contentToJson (c : Content) : (contentToJson c).isArray = false := by
  cases c <;> rfl

/-- One block or a list of blocks: the form tells them apart. -/
theorem readAnswerContent_toJson (content : List Content) :
    readAnswerContent (match content with
      | [block] => contentToJson block
      | content => contentListToJson content) = .ok (.ok content) := by
  unfold readAnswerContent
  match content with
  | [block] =>
    rw [isArray_contentToJson, if_neg Bool.false_ne_true, readContent_eq, contentFromJson_toJson]
    rfl
  | [] => rfl
  | first :: second :: rest =>
    show (if true = true then readContentList (contentListToJson (first :: second :: rest)) else _) = _
    rw [if_pos rfl, readContentList_eq, contentListFromJson_toJson]

/-- **The answer comes back.** -/
theorem CreateMessageResult.fromJson_toJson (r : CreateMessageResult) :
    CreateMessageResult.fromJson r.toJson = .ok (.ok r) := by
  obtain ⟨hrole, hmodel, hcontent, hstop⟩ := r.find_toJson
  unfold CreateMessageResult.fromJson Json.contains
  rw [hrole, hmodel, hcontent, isObject_of_find hrole, if_neg (by simp), at_of_find hrole, at_of_find hmodel,
    getOptional_string hstop, at_of_find hcontent]
  simp only [bind, Except.bind, Json.getString, readAnswerContent_toJson, roleFromString_toString]
  rfl

/-! ## Answers that are not well-formed -/

namespace CreateMessageResult

/-- The members that `from_json` checks for. -/
def complete (j : Json) : Bool :=
  j.isObject && j.contains (bytes "role") && j.contains (bytes "content") && j.contains (bytes "model")

/-- The members it reads as strings without a check. -/
def wellTyped (j : Json) : Bool :=
  (j.find (bytes "role")).all Json.isString && (j.find (bytes "model")).all Json.isString &&
    !wrongOptional j (bytes "stopReason") Json.isString

theorem readAnswerContent_returns (content : Json) : ∃ r, readAnswerContent content = .ok r := by
  unfold readAnswerContent
  rw [readContentList_eq, readContent_eq]
  split
  · exact ⟨_, rfl⟩
  · exact ⟨_, rfl⟩

/-- Once its members are there, only the strings can throw. -/
theorem isOk_fromJson_of_complete {j : Json} (hcomplete : complete j = true) : (fromJson j).isOk = wellTyped j := by
  unfold complete Json.contains at hcomplete
  simp only [Bool.and_eq_true] at hcomplete
  obtain ⟨⟨⟨hobject, hrole⟩, hcontent⟩, hmodel⟩ := hcomplete
  obtain ⟨role, hrole⟩ := Option.isSome_iff_exists.1 hrole
  obtain ⟨content, hcontent⟩ := Option.isSome_iff_exists.1 hcontent
  obtain ⟨model, hmodel⟩ := Option.isSome_iff_exists.1 hmodel
  have hstop := isOk_getOptional j (bytes "stopReason") Json.getString
  simp only [isOk_getString] at hstop
  obtain ⟨read, hread⟩ := readAnswerContent_returns content
  unfold fromJson wellTyped Json.contains
  rw [hobject, hrole, hcontent, hmodel, if_neg (by simp), at_of_find hrole, at_of_find hmodel, at_of_find hcontent, ← hstop,
    Option.all_some, Option.all_some, ← isOk_getString, ← isOk_getString]
  simp only [bind, Except.bind, hread]
  cases role.getString with
  | error x => rfl
  | ok name =>
    cases model.getString with
    | error x => rfl
    | ok text => cases getOptional j (bytes "stopReason") Json.getString <;> rfl

/-- **When `from_json` returns**: unless the members are all there and one that it reads as a string is none. -/
theorem fromJson_returns_iff (j : Json) : (∃ r, fromJson j = .ok r) ↔ (complete j = true → wellTyped j = true) := by
  cases hcomplete : complete j with
  | true =>
    rw [← isOk_fromJson_of_complete hcomplete]
    cases fromJson j with
    | error x => simp [Except.isOk, Except.toBool]
    | ok r => simp [Except.isOk, Except.toBool]
  | false =>
    refine iff_of_true ⟨.error (Error.of .invalidParams (bytes "malformed createMessage result")), ?_⟩ fun h => by cases h
    unfold fromJson
    unfold complete at hcomplete
    rw [if_pos]
    rw [← Bool.not_and, ← Bool.not_and, ← Bool.not_and, hcomplete]
    rfl

end CreateMessageResult

end Mcp
