import McpSdk.InitializeCodec
import McpSdk.ResourceProvider
/-!
# RegistryCodec — what the registries list and return comes back as it was sent

A decoder for each encoder, field by field.  The only values that do not come back are optional JSON fields that hold a
null, which reads as an absent one.
-/
namespace Mcp

/-! ## Lists and optional members -/

theorem mapM_map {α β : Type} {toJson : α → β} {get : β → Except JsonException α} : ∀ {items : List α},
    (∀ x ∈ items, get (toJson x) = .ok x) → (items.map toJson).mapM get = .ok items
  | [], _ => rfl
  | x :: items, h => by
    rw [List.map_cons, List.mapM_cons, h x List.mem_cons_self, mapM_map (fun y hy => h y (List.mem_cons_of_mem x hy))]
    rfl

/-- **A list comes back** when each of its items does. -/
theorem getArray_map {α : Type} {toJson : α → Json} {get : Json → Except JsonException α} {items : List α}
    (h : ∀ x ∈ items, get (toJson x) = .ok x) : Json.getArray get (.array (items.map toJson)) = .ok items := mapM_map h

theorem getOptional_string {j : Json} {key : Bytes} {value : Option Bytes} (h : j.find key = value.map .string) :
    getOptional j key Json.getString = .ok value :=
  getOptional_of_map h (fun _ _ => rfl) (fun _ _ => rfl)

theorem getOptional_boolean {j : Json} {key : Bytes} {value : Option Bool} (h : j.find key = value.map .boolean) :
    getOptional j key Json.getBool = .ok value :=
  getOptional_of_map h (fun _ _ => rfl) (fun _ _ => rfl)

theorem getOptional_array {α : Type} {j : Json} {key : Bytes} {toJson : α → Json} {get : Json → Except JsonException α}
    {value : Option (List α)} (h : j.find key = value.map (fun items => .array (items.map toJson)))
    (hget : ∀ x, get (toJson x) = .ok x) : getOptional j key (Json.getArray get) = .ok value :=
  getOptional_of_map h (fun _ _ => rfl) (fun _ _ => getArray_map fun x _ => hget x)

theorem value_of_find {j v fallback : Json} {key : Bytes} (h : j.find key = some v) : j.value key fallback = .ok v := by
  unfold Json.value
  rw [if_pos (isObject_of_find h), h]
  rfl

theorem valueAs_of_find {α : Type} {j v : Json} {key : Bytes} {get : Json → Except JsonException α} {fallback : α}
    (h : j.find key = some v) : j.valueAs key get fallback = get v := by
  unfold Json.valueAs
  rw [if_pos (isObject_of_find h), h]

/-- The value is no null. -/
def noNull (value : Option Json) : Bool := value.all fun v => !v.isNull

/-- An optional JSON field comes back unless it holds a null. -/
theorem getOptional_json {j : Json} {key : Bytes} {value : Option Json} (h : j.find key = value) (hnull : noNull value = true) :
    getOptional j key .ok = .ok value := by
  have hmap : j.find key = value.map id := by rw [h, Option.map_id_apply]
  refine getOptional_of_map hmap (fun v hv => ?_) (fun _ _ => rfl)
  rw [hv] at hnull
  simpa [noNull] using hnull

theorem find_singleton (key : Bytes) (v : Json) : (Json.object [(key, v)]).find key = some v := find_set_self key v []

theorem find_singleton_of_ne {key k : Bytes} (h : k ≠ key) (v : Json) : (Json.object [(key, v)]).find k = none :=
  find_set_of_ne h v []

theorem find_setAnnotations (annotations : Option Annotations) (ms : Members) :
    (Json.object (setAnnotations annotations ms)).find (bytes "annotations") =
      (annotations.map Annotations.toJson).or ((Json.object ms).find (bytes "annotations")) :=
  find_setOptional_or _ _ annotations ms

theorem find_setAnnotations_of_ne {k : Bytes} (h : k ≠ bytes "annotations") (annotations : Option Annotations) (ms : Members) :
    (Json.object (setAnnotations annotations ms)).find k = (Json.object ms).find k :=
  find_setOptional_of_ne h _ annotations ms

/-! ## Display records -/

theorem Annotations.find_toJson (a : Annotations) :
    a.toJson.find (bytes "audience") = a.audience.map (fun names => .array (names.map .string)) ∧
      a.toJson.find (bytes "priority") = a.priority.map .numberFloat ∧
      a.toJson.find (bytes "lastModified") = a.lastModified.map .string := by
  unfold Annotations.toJson
  simp (disch := decide) only [find_setOptional_of_ne, find_setOptional_or, find_nil, Option.or_none, and_self]

theorem Annotations.fromJson_toJson (a : Annotations) : Annotations.fromJson a.toJson = .ok a := by
  obtain ⟨haudience, hpriority, hlastModified⟩ := a.find_toJson
  have hpriority : getOptional a.toJson (bytes "priority") Json.getDouble = .ok a.priority :=
    getOptional_of_map hpriority (fun _ _ => rfl) (fun _ _ => rfl)
  unfold Annotations.fromJson
  rw [getOptional_array haudience (fun _ => rfl), hpriority, getOptional_string hlastModified]
  rfl

theorem getOptional_annotations {j : Json} {value : Option Annotations}
    (h : j.find (bytes "annotations") = value.map Annotations.toJson) :
    getOptional j (bytes "annotations") Annotations.fromJson = .ok value :=
  getOptional_of_map h (fun _ _ => rfl) (fun a _ => a.fromJson_toJson)

theorem Icon.find_toJson (icon : Icon) :
    icon.toJson.find (bytes "src") = some (.string icon.src) ∧
      icon.toJson.find (bytes "mimeType") = icon.mimeType.map .string ∧
      icon.toJson.find (bytes "sizes") = icon.sizes.map .string := by
  unfold Icon.toJson
  simp (disch := decide) only [find_setOptional_of_ne, find_setOptional_or, find_singleton, find_singleton_of_ne,
    Option.or_none, and_self]

theorem Icon.fromJson_toJson (icon : Icon) : Icon.fromJson icon.toJson = .ok icon := by
  obtain ⟨hsrc, hmimeType, hsizes⟩ := icon.find_toJson
  unfold Icon.fromJson
  rw [at_of_find hsrc, getOptional_string hmimeType, getOptional_string hsizes]
  rfl

theorem getOptional_icons {j : Json} {value : Option (List Icon)} (h : j.find (bytes "icons") = value.map iconsToJson) :
    getOptional j (bytes "icons") (Json.getArray Icon.fromJson) = .ok value :=
  getOptional_array h Icon.fromJson_toJson

theorem ResourceContents.find_toJson (rc : ResourceContents) :
    rc.toJson.find (bytes "uri") = some (.string rc.uri) ∧ rc.toJson.find (bytes "mimeType") = rc.mimeType.map .string ∧
      rc.toJson.find (bytes "text") = rc.text.map .string ∧ rc.toJson.find (bytes "blob") = rc.blob.map .string := by
  unfold ResourceContents.toJson
  simp (disch := decide) only [find_setOptional_of_ne, find_setOptional_or, find_singleton, find_singleton_of_ne,
    Option.or_none, and_self]

theorem ResourceContents.fromJson_toJson (rc : ResourceContents) : ResourceContents.fromJson rc.toJson = .ok rc := by
  obtain ⟨huri, hmimeType, htext, hblob⟩ := rc.find_toJson
  unfold ResourceContents.fromJson
  rw [at_of_find huri, getOptional_string hmimeType, getOptional_string htext, getOptional_string hblob]
  rfl

/-! ## Definitions -/

theorem Tool.find_toJson (tool : Tool) :
    tool.toJson.find (bytes "name") = some (.string tool.name) ∧
      tool.toJson.find (bytes "inputSchema") = some tool.inputSchema ∧
      tool.toJson.find (bytes "title") = tool.title.map .string ∧
      tool.toJson.find (bytes "description") = tool.description.map .string ∧
      tool.toJson.find (bytes "icons") = tool.icons.map iconsToJson ∧
      tool.toJson.find (bytes "outputSchema") = tool.outputSchema ∧
      tool.toJson.find (bytes "annotations") = tool.annotations.map Annotations.toJson ∧
      tool.toJson.find (bytes "execution") = tool.execution := by
  unfold Tool.toJson
  simp (disch := decide) only [find_setOptional_of_ne, find_setOptional_or, find_setAnnotations, find_setAnnotations_of_ne,
    find_set_of_ne, find_set_self, find_nil, Option.or_none, Option.map_id_apply, and_self]

/-- **A tool comes back** when its optional JSON fields hold no null. -/
theorem Tool.fromJson_toJson {tool : Tool} (houtput : noNull tool.outputSchema = true) (hexecution : noNull tool.execution = true) :
    Tool.fromJson tool.toJson = .ok tool := by
  obtain ⟨hname, hinput, htitle, hdescription, hicons, houtputSchema, hannotations, hexec⟩ := tool.find_toJson
  unfold Tool.fromJson
  rw [at_of_find hname, value_of_find hinput, getOptional_string htitle, getOptional_string hdescription, getOptional_icons hicons,
    getOptional_json houtputSchema houtput, getOptional_annotations hannotations, getOptional_json hexec hexecution]
  rfl

theorem Resource.find_toJson (r : Resource) :
    r.toJson.find (bytes "uri") = some (.string r.uri) ∧ r.toJson.find (bytes "name") = some (.string r.name) ∧
      r.toJson.find (bytes "title") = r.title.map .string ∧
      r.toJson.find (bytes "description") = r.description.map .string ∧
      r.toJson.find (bytes "mimeType") = r.mimeType.map .string ∧
      r.toJson.find (bytes "icons") = r.icons.map iconsToJson ∧
      r.toJson.find (bytes "annotations") = r.annotations.map Annotations.toJson := by
  unfold Resource.toJson
  simp (disch := decide) only [find_setOptional_of_ne, find_setOptional_or, find_setAnnotations, find_setAnnotations_of_ne,
    find_set_of_ne, find_set_self, find_nil, Option.or_none, and_self]

theorem Resource.fromJson_toJson (r : Resource) : Resource.fromJson r.toJson = .ok r := by
  obtain ⟨huri, hname, htitle, hdescription, hmimeType, hicons, hannotations⟩ := r.find_toJson
  unfold Resource.fromJson
  rw [at_of_find huri, at_of_find hname, getOptional_string htitle, getOptional_string hdescription,
    getOptional_string hmimeType, getOptional_icons hicons, getOptional_annotations hannotations]
  rfl

theorem ResourceTemplate.find_toJson (t : ResourceTemplate) :
    t.toJson.find (bytes "uriTemplate") = some (.string t.uriTemplate) ∧
      t.toJson.find (bytes "name") = some (.string t.name) ∧ t.toJson.find (bytes "title") = t.title.map .string ∧
      t.toJson.find (bytes "description") = t.description.map .string ∧
      t.toJson.find (bytes "mimeType") = t.mimeType.map .string ∧
      t.toJson.find (bytes "icons") = t.icons.map iconsToJson ∧
      t.toJson.find (bytes "annotations") = t.annotations.map Annotations.toJson := by
  unfold ResourceTemplate.toJson
  simp (disch := decide) only [find_setOptional_of_ne, find_setOptional_or, find_setAnnotations, find_setAnnotations_of_ne,
    find_set_of_ne, find_set_self, find_nil, Option.or_none, and_self]

theorem ResourceTemplate.fromJson_toJson (t : ResourceTemplate) : ResourceTemplate.fromJson t.toJson = .ok t := by
  obtain ⟨huri, hname, htitle, hdescription, hmimeType, hicons, hannotations⟩ := t.find_toJson
  unfold ResourceTemplate.fromJson
  rw [at_of_find huri, at_of_find hname, getOptional_string htitle, getOptional_string hdescription,
    getOptional_string hmimeType, getOptional_icons hicons, getOptional_annotations hannotations]
  rfl

theorem PromptArgument.find_toJson (a : PromptArgument) :
    a.toJson.find (bytes "name") = some (.string a.name) ∧ a.toJson.find (bytes "title") = a.title.map .string ∧
      a.toJson.find (bytes "description") = a.description.map .string ∧
      a.toJson.find (bytes "required") = a.required.map .boolean := by
  unfold PromptArgument.toJson
  simp (disch := decide) only [find_setOptional_of_ne, find_setOptional_or, find_singleton, find_singleton_of_ne,
    Option.or_none, and_self]

theorem PromptArgument.fromJson_toJson (a : PromptArgument) : PromptArgument.fromJson a.toJson = .ok a := by
  obtain ⟨hname, htitle, hdescription, hrequired⟩ := a.find_toJson
  unfold PromptArgument.fromJson
  rw [at_of_find hname, getOptional_string htitle, getOptional_string hdescription, getOptional_boolean hrequired]
  rfl

theorem Prompt.find_toJson (p : Prompt) :
    p.toJson.find (bytes "name") = some (.string p.name) ∧ p.toJson.find (bytes "title") = p.title.map .string ∧
      p.toJson.find (bytes "description") = p.description.map .string ∧
      p.toJson.find (bytes "icons") = p.icons.map iconsToJson ∧
      p.toJson.find (bytes "arguments") = p.arguments.map (fun arguments => .array (arguments.map PromptArgument.toJson)) := by
  unfold Prompt.toJson
  simp (disch := decide) only [find_setOptional_of_ne, find_setOptional_or, find_singleton, find_singleton_of_ne,
    Option.or_none, and_self]

theorem Prompt.fromJson_toJson (p : Prompt) : Prompt.fromJson p.toJson = .ok p := by
  obtain ⟨hname, htitle, hdescription, hicons, harguments⟩ := p.find_toJson
  unfold Prompt.fromJson
  rw [at_of_find hname, getOptional_string htitle, getOptional_string hdescription, getOptional_icons hicons,
    getOptional_array harguments PromptArgument.fromJson_toJson]
  rfl

/-! ## Content -/

theorem nestedContent_eq : ∀ members : List (Bytes × Json), nestedContent members =
    match (Json.object members).find (bytes "content") with
    | some v => contentListFromJson v
    | none => .ok [] := by
  intro members
  induction members with
  | nil => rfl
  | cons member members ih =>
    obtain ⟨k, v⟩ := member
    rw [nestedContent, ih]
    by_cases hk : k = bytes "content"
    · simp [Json.find, hk]
    · simp [Json.find, List.lookup_cons, beq_eq_false_iff_ne.2 (Ne.symm hk), hk]

/-- The type is read, and what it asks for. -/
theorem contentFromJson_of_type {j : Json} {type : Bytes} (htype : j.find (bytes "type") = some (.string type)) :
    contentFromJson j = contentOfType j type
      (match j.find (bytes "content") with
      | some v => contentListFromJson v
      | none => .ok []) := by
  cases j with
  | object members => rw [contentFromJson, htype, nestedContent_eq]
  | _ => cases htype

theorem getAnnotations_eq {j : Json} {value : Option Annotations}
    (h : j.find (bytes "annotations") = value.map Annotations.toJson) : getAnnotations j = .ok value :=
  getOptional_annotations h

theorem find_textToJson (text : Bytes) (annotations : Option Annotations) :
    (contentToJson (.text text annotations)).find (bytes "type") = some (.string (bytes "text")) ∧
      (contentToJson (.text text annotations)).find (bytes "text") = some (.string text) ∧
      (contentToJson (.text text annotations)).find (bytes "annotations") = annotations.map Annotations.toJson := by
  unfold contentToJson
  simp (disch := decide) only [find_setAnnotations, find_setAnnotations_of_ne, find_set_of_ne, find_set_self, find_nil,
    Option.or_none, and_self]

/-- Images and audio differ in their type only. -/
theorem find_media {type data mimeType : Bytes} {annotations : Option Annotations} {j : Json}
    (hj : j = .object ([] |> Members.set (bytes "type") (.string type) |> Members.set (bytes "data") (.string data)
      |> Members.set (bytes "mimeType") (.string mimeType) |> setAnnotations annotations)) :
    j.find (bytes "type") = some (.string type) ∧ j.find (bytes "data") = some (.string data) ∧
      j.find (bytes "mimeType") = some (.string mimeType) ∧
      j.find (bytes "annotations") = annotations.map Annotations.toJson := by
  rw [hj]
  simp (disch := decide) only [find_setAnnotations, find_setAnnotations_of_ne, find_set_of_ne, find_set_self, find_nil,
    Option.or_none, and_self]

theorem find_resourceToJson (resource : ResourceContents) (annotations : Option Annotations) :
    (contentToJson (.resource resource annotations)).find (bytes "type") = some (.string (bytes "resource")) ∧
      (contentToJson (.resource resource annotations)).find (bytes "resource") = some resource.toJson ∧
      (contentToJson (.resource resource annotations)).find (bytes "annotations") =
        annotations.map Annotations.toJson := by
  unfold contentToJson
  simp (disch := decide) only [find_setAnnotations, find_setAnnotations_of_ne, find_set_of_ne, find_set_self, find_nil,
    Option.or_none, and_self]

theorem find_toolUseToJson (id name : Bytes) (input : Json) :
    (contentToJson (.toolUse id name input)).find (bytes "type") = some (.string (bytes "tool_use")) ∧
      (contentToJson (.toolUse id name input)).find (bytes "id") = some (.string id) ∧
      (contentToJson (.toolUse id name input)).find (bytes "name") = some (.string name) ∧
      (contentToJson (.toolUse id name input)).find (bytes "input") = some input := by
  unfold contentToJson
  simp (disch := decide) only [find_set_of_ne, find_set_self, and_self]

theorem find_toolResultToJson (toolUseId : Bytes) (content : List Content) (isError : Bool) :
    (contentToJson (.toolResult toolUseId content isError)).find (bytes "type") = some (.string (bytes "tool_result")) ∧
      (contentToJson (.toolResult toolUseId content isError)).find (bytes "toolUseId") = some (.string toolUseId) ∧
      (contentToJson (.toolResult toolUseId content isError)).find (bytes "content") =
        some (contentListToJson content) ∧
      (contentToJson (.toolResult toolUseId content isError)).find (bytes "isError") = some (.boolean isError) := by
  rw [contentToJson]
  simp (disch := decide) only [find_set_of_ne, find_set_self, contentListToJson, and_self]

mutual

/-- **Content comes back**, to any depth. -/
theorem contentFromJson_toJson : ∀ c : Content, contentFromJson (contentToJson c) = .ok c
  | .text text annotations => by
    obtain ⟨htype, htext, hannotations⟩ := find_textToJson text annotations
    rw [contentFromJson_of_type htype]
    unfold contentOfType
    rw [if_pos rfl, at_of_find htext, getAnnotations_eq hannotations]
    rfl
  | .image data mimeType annotations => by
    obtain ⟨htype, hdata, hmimeType, hannotations⟩ := find_media (contentToJson.eq_def (.image data mimeType annotations))
    rw [contentFromJson_of_type htype]
    unfold contentOfType
    rw [if_neg (by decide), if_pos rfl, at_of_find hdata,
      at_of_find hmimeType, getAnnotations_eq hannotations]
    rfl
  | .audio data mimeType annotations => by
    obtain ⟨htype, hdata, hmimeType, hannotations⟩ := find_media (contentToJson.eq_def (.audio data mimeType annotations))
    rw [contentFromJson_of_type htype]
    unfold contentOfType
    rw [if_neg (by decide), if_neg (by decide), if_pos rfl, at_of_find hdata,
      at_of_find hmimeType, getAnnotations_eq hannotations]
    rfl
  | .resource resource annotations => by
    obtain ⟨htype, hresource, hannotations⟩ := find_resourceToJson resource annotations
    rw [contentFromJson_of_type htype]
    unfold contentOfType
    rw [if_neg (by decide), if_neg (by decide), if_neg (by decide), if_pos rfl,
      at_of_find hresource, getAnnotations_eq hannotations]
    simp only [bind, Except.bind, resource.fromJson_toJson]
    rfl
  | .toolUse id name input => by
    obtain ⟨htype, hid, hname, hinput⟩ := find_toolUseToJson id name input
    rw [contentFromJson_of_type htype]
    unfold contentOfType
    rw [if_neg (by decide), if_neg (by decide), if_neg (by decide),
      if_neg (by decide), if_pos rfl, at_of_find hid, at_of_find hname, value_of_find hinput]
    rfl
  | .toolResult toolUseId content isError => by
    obtain ⟨htype, htoolUseId, hcontent, hisError⟩ := find_toolResultToJson toolUseId content isError
    rw [contentFromJson_of_type htype]
    unfold contentOfType
    rw [if_neg (by decide), if_neg (by decide), if_neg (by decide),
      if_neg (by decide), if_neg (by decide), if_pos rfl, hcontent, contentListToJson]
    simp only [contentListFromJson, contentItemsFromJson_toJson content]
    rw [at_of_find htoolUseId, valueAs_of_find hisError]
    rfl

theorem contentItemsFromJson_toJson : ∀ contents : List Content, contentItemsFromJson (contentItemsToJson contents) = .ok contents
  | [] => rfl
  | c :: contents => by
    rw [contentItemsToJson, contentItemsFromJson, contentFromJson_toJson c, contentItemsFromJson_toJson contents]
    rfl

end

theorem contentListFromJson_toJson (contents : List Content) : contentListFromJson (contentListToJson contents) = .ok contents := by
  rw [contentListToJson, contentListFromJson, contentItemsFromJson_toJson]

theorem roleFromString_toString (role : Role) : roleFromString (roleToString role) = some role := by
  cases role <;> decide

end Mcp
