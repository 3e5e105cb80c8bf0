import McpSdk.RegistryCodec
/-!
# ContentCodec — content with the exceptions of its decoder

`readContent` is `content_from_json` with every exception of the JSON library where it is raised.  The `catch` clause
gets them all: what comes out is `contentFromJson`'s result (`readContent_eq`), and its errors are `InvalidParams`.
-/
namespace Mcp

/-- The `try` block; `nested` is the call of `content_list_from_json`. -/
def contentBlock (j : Json) (type : Bytes) (nested : Except JsonException (Result (List Content))) :
    Except JsonException (Result Content) := do
  if type = bytes "text" then
    let text ← (← j.at_ (bytes "text")).getString
    return .ok (.text text (← getAnnotations j))
  else if type = bytes "image" then
    let data ← (← j.at_ (bytes "data")).getString
    let mimeType ← (← j.at_ (bytes "mimeType")).getString
    return .ok (.image data mimeType (← getAnnotations j))
  else if type = bytes "audio" then
    let data ← (← j.at_ (bytes "data")).getString
    let mimeType ← (← j.at_ (bytes "mimeType")).getString
    return .ok (.audio data mimeType (← getAnnotations j))
  else if type = bytes "resource" then
    let resource ← ResourceContents.fromJson (← j.at_ (bytes "resource"))
    return .ok (.resource resource (← getAnnotations j))
  else if type = bytes "tool_use" then
    let id ← (← j.at_ (bytes "id")).getString
    let name ← (← j.at_ (bytes "name")).getString
    return .ok (.toolUse id name (← j.value (bytes "input") (.object [])))
  else if type = bytes "tool_result" then
    match ← nested with
    | .error e => return .error e
    | .ok content =>
      let toolUseId ← (← j.at_ (bytes "toolUseId")).getString
      return .ok (.toolResult toolUseId content (← j.valueAs (bytes "isError") Json.getBool false))
  else return .error (Error.of .invalidParams (bytes "unknown content type: " ++ type))

/-- The `catch` clause. -/
def catchMalformed {T : Type} : Except JsonException (Result T) → Except JsonException (Result T)
  | .ok r => .ok r
  | .error e => .ok (.error (Error.of .invalidParams (bytes "malformed content: " ++ e.what)))

mutual

def readContent : Json → Except JsonException (Result Content)
  | .object members => do
    let j := Json.object members
    if !j.contains (bytes "type") then return .error missingType
    if !(← j.at_ (bytes "type")).isString then return .error missingType
    let type ← (← j.at_ (bytes "type")).getString
    catchMalformed (contentBlock j type (readNested members))
  | _ => .ok (.error missingType)

/-- `content_list_from_json(j.value("content", json::array()))`. -/
def readNested : List (Bytes × Json) → Except JsonException (Result (List Content))
  | [] => .ok (.ok [])
  | (k, v) :: members => if k = bytes "content" then readContentList v else readNested members

def readContentList : Json → Except JsonException (Result (List Content))
  | .array items => readItems items
  | _ => .ok (.error (Error.of .invalidParams (bytes "content must be an array")))

def readItems : List Json → Except JsonException (Result (List Content))
  | [] => .ok (.ok [])
  | item :: items => do
    match ← readContent item with
    | .error e => return .error e
    | .ok c => return (← readItems items).map (c :: ·)

end

/-! ## No exception gets out -/

theorem catch_bind {α T : Type} (x : Except JsonException α) {f : α → Except JsonException (Result T)}
    {g : α → Except JsonException T} (h : ∀ a, catchMalformed (f a) = .ok (malformedContent (g a))) :
    catchMalformed (x >>= f) = .ok (malformedContent (x >>= g)) := by
  cases x with
  | error e => rfl
  | ok a => exact h a

/-- **The block and its `catch` clause give a result**, whatever raises an exception in between. -/
theorem catch_contentBlock (j : Json) (type : Bytes) (nested : Result (List Content)) :
    catchMalformed (contentBlock j type (.ok nested)) = .ok (contentOfType j type nested) := by
  unfold contentBlock contentOfType
  by_cases htext : type = bytes "text"
  · simp only [if_pos htext]
    exact catch_bind _ fun v => catch_bind _ fun text => catch_bind _ fun annotations => rfl
  · simp only [if_neg htext]
    by_cases himage : type = bytes "image"
    · simp only [if_pos himage]
      exact catch_bind _ fun v => catch_bind _ fun data => catch_bind _ fun v' => catch_bind _ fun mimeType =>
        catch_bind _ fun annotations => rfl
    · simp only [if_neg himage]
      by_cases haudio : type = bytes "audio"
      · simp only [if_pos haudio]
        exact catch_bind _ fun v => catch_bind _ fun data => catch_bind _ fun v' => catch_bind _ fun mimeType =>
          catch_bind _ fun annotations => rfl
      · simp only [if_neg haudio]
        by_cases hresource : type = bytes "resource"
        · simp only [if_pos hresource]
          exact catch_bind _ fun v => catch_bind _ fun resource => catch_bind _ fun annotations => rfl
        · simp only [if_neg hresource]
          by_cases huse : type = bytes "tool_use"
          · simp only [if_pos huse]
            exact catch_bind _ fun v => catch_bind _ fun id => catch_bind _ fun v' => catch_bind _ fun name =>
              catch_bind _ fun input => rfl
          · simp only [if_neg huse]
            by_cases hresult : type = bytes "tool_result"
            · simp only [if_pos hresult]
              cases nested with
              | error e => rfl
              | ok content => exact catch_bind _ fun v => catch_bind _ fun toolUseId => catch_bind _ fun isError => rfl
            · simp only [if_neg hresult]
              rfl

mutual

/-- **`content_from_json` returns**: no exception of the JSON library gets out. -/
theorem readContent_eq : ∀ j : Json, readContent j = .ok (contentFromJson j)
  | .object members => by
    rw [readContent, contentFromJson, readNested_eq members]
    unfold Json.contains
    cases htype : (Json.object members).find (bytes "type") with
    | none => rfl
    | some t =>
      rw [at_of_find htype]
      cases t with
      | string type => exact catch_contentBlock (.object members) type (nestedContent members)
      | _ => rfl
  | .null => rfl
  | .boolean _ => rfl
  | .numberInteger _ => rfl
  | .numberUnsigned _ => rfl
  | .numberFloat _ => rfl
  | .string _ => rfl
  | .array _ => rfl

theorem readNested_eq : ∀ members : List (Bytes × Json), readNested members = .ok (nestedContent members)
  | [] => rfl
  | (k, v) :: members => by
    rw [readNested, nestedContent, readContentList_eq v, readNested_eq members]
    by_cases hk : k = bytes "content"
    · rw [if_pos hk, if_pos hk]
    · rw [if_neg hk, if_neg hk]

theorem readContentList_eq : ∀ j : Json, readContentList j = .ok (contentListFromJson j)
  | .array items => by rw [readContentList, contentListFromJson, readItems_eq items]
  | .null => rfl
  | .boolean _ => rfl
  | .numberInteger _ => rfl
  | .numberUnsigned _ => rfl
  | .numberFloat _ => rfl
  | .string _ => rfl
  | .object _ => rfl

theorem readItems_eq : ∀ items : List Json, readItems items = .ok (contentItemsFromJson items)
  | [] => rfl
  | item :: items => by
    rw [readItems, contentItemsFromJson, readContent_eq item, readItems_eq items]
    cases contentFromJson item with
    | error e => rfl
    | ok c => rfl

end

/-! ## Errors -/

/-- The error is an `InvalidParams`. -/
def OrInvalidParams {T : Type} (r : Result T) : Prop := ∀ e, r = .error e → e.code = ErrorCode.invalidParams.toInt

theorem invalidParams_of {T : Type} (text : Bytes) : OrInvalidParams (.error (Error.of .invalidParams text) : Result T) := by
  rintro e ⟨⟩
  rfl

theorem invalidParams_malformed {T : Type} (x : Except JsonException T) : OrInvalidParams (malformedContent x) := by
  cases x with
  | error e => exact invalidParams_of _
  | ok t =>
    rintro e ⟨⟩

theorem invalidParams_ofType (j : Json) (type : Bytes) {nested : Result (List Content)} (h : OrInvalidParams nested) :
    OrInvalidParams (contentOfType j type nested) := by
  unfold contentOfType
  split
  · exact invalidParams_malformed _
  · split
    · exact invalidParams_malformed _
    · split
      · exact invalidParams_malformed _
      · split
        · exact invalidParams_malformed _
        · split
          · exact invalidParams_malformed _
          · split
            · cases nested with
              | error e =>
                rintro _ ⟨⟩
                exact h e rfl
              | ok content => exact invalidParams_malformed _
            · exact invalidParams_of _

mutual

theorem invalidParams_content : ∀ j : Json, OrInvalidParams (contentFromJson j)
  | .object members => by
    rw [contentFromJson]
    cases (Json.object members).find (bytes "type") with
    | none => exact invalidParams_of _
    | some t =>
      cases t with
      | string type => exact invalidParams_ofType (.object members) type (invalidParams_nested members)
      | _ => exact invalidParams_of _
  | .null => invalidParams_of _
  | .boolean _ => invalidParams_of _
  | .numberInteger _ => invalidParams_of _
  | .numberUnsigned _ => invalidParams_of _
  | .numberFloat _ => invalidParams_of _
  | .string _ => invalidParams_of _
  | .array _ => invalidParams_of _

theorem invalidParams_nested : ∀ members : List (Bytes × Json), OrInvalidParams (nestedContent members)
  | [] => by
    rintro e ⟨⟩
  | (k, v) :: members => by
    rw [nestedContent]
    split
    · exact invalidParams_contentList v
    · exact invalidParams_nested members

theorem invalidParams_contentList : ∀ j : Json, OrInvalidParams (contentListFromJson j)
  | .array items => by
    rw [contentListFromJson]
    exact invalidParams_items items
  | .null => invalidParams_of _
  | .boolean _ => invalidParams_of _
  | .numberInteger _ => invalidParams_of _
  | .numberUnsigned _ => invalidParams_of _
  | .numberFloat _ => invalidParams_of _
  | .string _ => invalidParams_of _
  | .object _ => invalidParams_of _

theorem invalidParams_items : ∀ items : List Json, OrInvalidParams (contentItemsFromJson items)
  | [] => by
    rintro e ⟨⟩
  | item :: items => by
    have hitem := invalidParams_content item
    have hitems := invalidParams_items items
    rw [contentItemsFromJson]
    cases hfirst : contentFromJson item with
    | error e =>
      rintro _ ⟨⟩
      exact hitem e hfirst
    | ok c =>
      cases hrest : contentItemsFromJson items with
      | error e =>
        rintro _ ⟨⟩
        exact hitems e hrest
      | ok contents => rintro e ⟨⟩

end

/-- **Content comes back, and whatever is read gives content or an `InvalidParams` error**: no exception gets out. -/
theorem content_codec :
    (∀ c : Content, readContent (contentToJson c) = .ok (.ok c)) ∧
      (∀ contents : List Content, readContentList (contentListToJson contents) = .ok (.ok contents)) ∧
      (∀ j : Json, ∃ r, readContent j = .ok r ∧ OrInvalidParams r) ∧
      ∀ j : Json, ∃ r, readContentList j = .ok r ∧ OrInvalidParams r := by
  refine ⟨fun c => ?_, fun contents => ?_, fun j => ?_, fun j => ?_⟩
  · rw [readContent_eq, contentFromJson_toJson]
  · rw [readContentList_eq, contentListFromJson_toJson]
  · exact ⟨contentFromJson j, readContent_eq j, invalidParams_content j⟩
  · exact ⟨contentListFromJson j, readContentList_eq j, invalidParams_contentList j⟩

end Mcp
