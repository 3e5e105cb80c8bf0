import McpSdk.Wire
/-!
# InitializeCodec — the handshake's records come back as they were sent

Every member is found under its own key, whatever optional members stand beside it.  The one value that does not come
back is an experimental capability of JSON null, which reads as an absent one.
-/
namespace Mcp

/-! ## Optional members -/

/-- The key that was set last shows the value, or what stood there before. -/
theorem find_setOptional_or {α : Type} (key : Bytes) (toJson : α → Json) (value : Option α) (ms : Members) :
    (Json.object (setOptional key toJson value ms)).find key = (value.map toJson).or ((Json.object ms).find key) := by
  cases value with
  | none => rfl
  | some v => exact find_set_self key _ ms

/-- **An optional member comes back**, when its value does and is not null. -/
theorem getOptional_of_map {α : Type} {j : Json} {key : Bytes} {toJson : α → Json} {get : Json → Except JsonException α}
    {value : Option α} (hfind : j.find key = value.map toJson) (hnull : ∀ v, value = some v → (toJson v).isNull = false)
    (hget : ∀ v, value = some v → get (toJson v) = .ok v) : getOptional j key get = .ok value := by
  cases hvalue : value with
  | none =>
    rw [hvalue] at hfind
    exact getOptional_of_missing hfind
  | some v =>
    rw [hvalue] at hfind
    rw [getOptional_of_find hfind (hnull v hvalue), hget v hvalue]
    rfl

theorem getCapabilityFlag_of_map {j : Json} {key : Bytes} {flag : Option Bool} (h : j.find key = flag.map .boolean) :
    getCapabilityFlag j key = flag := by
  unfold getCapabilityFlag
  rw [h]
  cases flag <;> rfl

theorem find_flagsToJson_one (key : Bytes) (flag : Option Bool) :
    (flagsToJson [(key, flag)]).find key = flag.map .boolean :=
  find_setOptional_self (find_nil key) Json.boolean flag

theorem find_flagsToJson_two (key key' : Bytes) (hne : key ≠ key') (flag flag' : Option Bool) :
    (flagsToJson [(key, flag), (key', flag')]).find key = flag.map .boolean ∧
      (flagsToJson [(key, flag), (key', flag')]).find key' = flag'.map .boolean := by
  have hfirst := find_setOptional_self (find_nil key) Json.boolean flag
  have hmissing : (Json.object (setOptional key Json.boolean flag [])).find key' = none := by
    rw [find_setOptional_of_ne (Ne.symm hne), find_nil]
  constructor
  · exact (find_setOptional_of_ne hne Json.boolean flag' _).trans hfirst
  · exact find_setOptional_self hmissing Json.boolean flag'

/-! ## Capabilities -/

theorem PromptsCapability.fromJson_toJson (c : PromptsCapability) : PromptsCapability.fromJson c.toJson = c := by
  unfold PromptsCapability.fromJson PromptsCapability.toJson
  rw [getCapabilityFlag_of_map (find_flagsToJson_one _ _)]

theorem ToolsCapability.fromJson_toJson (c : ToolsCapability) : ToolsCapability.fromJson c.toJson = c := by
  unfold ToolsCapability.fromJson ToolsCapability.toJson
  rw [getCapabilityFlag_of_map (find_flagsToJson_one _ _)]

theorem RootsCapability.fromJson_toJson (c : RootsCapability) : RootsCapability.fromJson c.toJson = c := by
  unfold RootsCapability.fromJson RootsCapability.toJson
  rw [getCapabilityFlag_of_map (find_flagsToJson_one _ _)]

theorem ResourcesCapability.fromJson_toJson (c : ResourcesCapability) : ResourcesCapability.fromJson c.toJson = c := by
  unfold ResourcesCapability.fromJson ResourcesCapability.toJson
  obtain ⟨hsubscribe, hlist⟩ := find_flagsToJson_two (bytes "subscribe") (bytes "listChanged") (by decide)
    c.subscribe c.listChanged
  rw [getCapabilityFlag_of_map hsubscribe, getCapabilityFlag_of_map hlist]

theorem SamplingCapability.fromJson_toJson (c : SamplingCapability) : SamplingCapability.fromJson c.toJson = c := by
  unfold SamplingCapability.fromJson SamplingCapability.toJson
  obtain ⟨htools, hcontext⟩ := find_flagsToJson_two (bytes "tools") (bytes "context") (by decide)
    c.tools c.context
  rw [getCapabilityFlag_of_map htools, getCapabilityFlag_of_map hcontext]

theorem ElicitationCapability.fromJson_toJson (c : ElicitationCapability) :
    ElicitationCapability.fromJson c.toJson = c := by
  unfold ElicitationCapability.fromJson ElicitationCapability.toJson
  obtain ⟨hform, hurl⟩ := find_flagsToJson_two (bytes "form") (bytes "url") (by decide) c.form c.url
  rw [getCapabilityFlag_of_map hform, getCapabilityFlag_of_map hurl]

theorem ServerCapabilities.find_toJson (c : ServerCapabilities) :
    c.toJson.find (bytes "logging") = c.logging.map (fun _ => .object []) ∧
      c.toJson.find (bytes "prompts") = c.prompts.map PromptsCapability.toJson ∧
      c.toJson.find (bytes "resources") = c.resources.map ResourcesCapability.toJson ∧
      c.toJson.find (bytes "tools") = c.tools.map ToolsCapability.toJson ∧
      c.toJson.find (bytes "completions") = c.completions.map (fun _ => .object []) ∧
      c.toJson.find (bytes "tasks") = c.tasks.map (fun _ => .object []) ∧
      c.toJson.find (bytes "experimental") = c.experimental.map ExperimentalCapability.value := by
  unfold ServerCapabilities.toJson
  simp (disch := decide) only [find_setOptional_of_ne, find_setOptional_or, find_nil, Option.or_none, and_self]

theorem ClientCapabilities.find_toJson (c : ClientCapabilities) :
    c.toJson.find (bytes "roots") = c.roots.map RootsCapability.toJson ∧
      c.toJson.find (bytes "sampling") = c.sampling.map SamplingCapability.toJson ∧
      c.toJson.find (bytes "elicitation") = c.elicitation.map ElicitationCapability.toJson ∧
      c.toJson.find (bytes "tasks") = c.tasks.map (fun _ => .object []) ∧
      c.toJson.find (bytes "experimental") = c.experimental.map ExperimentalCapability.value := by
  unfold ClientCapabilities.toJson
  simp (disch := decide) only [find_setOptional_of_ne, find_setOptional_or, find_nil, Option.or_none, and_self]

/-- **A server's capabilities come back.** -/
theorem ServerCapabilities.fromJson_toJson {c : ServerCapabilities}
    (h : ∀ e, c.experimental = some e → e.value.isNull = false) : ServerCapabilities.fromJson c.toJson = .ok c := by
  obtain ⟨hlogging, hprompts, hresources, htools, hcompletions, htasks, hexperimental⟩ := c.find_toJson
  have hlogging : getOptional c.toJson (bytes "logging") (fun _ => .ok {}) = .ok c.logging :=
    getOptional_of_map hlogging (fun _ _ => rfl) (fun _ _ => rfl)
  have hprompts : getOptional c.toJson (bytes "prompts") (fun v => .ok (PromptsCapability.fromJson v)) = .ok c.prompts :=
    getOptional_of_map hprompts (fun _ _ => rfl) (fun v _ => congrArg _ v.fromJson_toJson)
  have hresources : getOptional c.toJson (bytes "resources") (fun v => .ok (ResourcesCapability.fromJson v)) =
      .ok c.resources :=
    getOptional_of_map hresources (fun _ _ => rfl) (fun v _ => congrArg _ v.fromJson_toJson)
  have htools : getOptional c.toJson (bytes "tools") (fun v => .ok (ToolsCapability.fromJson v)) = .ok c.tools :=
    getOptional_of_map htools (fun _ _ => rfl) (fun v _ => congrArg _ v.fromJson_toJson)
  have hcompletions : getOptional c.toJson (bytes "completions") (fun _ => .ok {}) = .ok c.completions :=
    getOptional_of_map hcompletions (fun _ _ => rfl) (fun _ _ => rfl)
  have htasks : getOptional c.toJson (bytes "tasks") (fun _ => .ok {}) = .ok c.tasks :=
    getOptional_of_map htasks (fun _ _ => rfl) (fun _ _ => rfl)
  have hexperimental : getOptional c.toJson (bytes "experimental") (fun v => .ok ⟨v⟩) = .ok c.experimental :=
    getOptional_of_map hexperimental h (fun _ _ => rfl)
  unfold ServerCapabilities.fromJson
  rw [hlogging, hprompts, hresources, htools, hcompletions, htasks, hexperimental]
  rfl

/-- **A client's capabilities come back.** -/
theorem ClientCapabilities.fromJson_toJson {c : ClientCapabilities}
    (h : ∀ e, c.experimental = some e → e.value.isNull = false) : ClientCapabilities.fromJson c.toJson = .ok c := by
  obtain ⟨hroots, hsampling, helicitation, htasks, hexperimental⟩ := c.find_toJson
  have hroots : getOptional c.toJson (bytes "roots") (fun v => .ok (RootsCapability.fromJson v)) = .ok c.roots :=
    getOptional_of_map hroots (fun _ _ => rfl) (fun v _ => congrArg _ v.fromJson_toJson)
  have hsampling : getOptional c.toJson (bytes "sampling") (fun v => .ok (SamplingCapability.fromJson v)) =
      .ok c.sampling :=
    getOptional_of_map hsampling (fun _ _ => rfl) (fun v _ => congrArg _ v.fromJson_toJson)
  have helicitation : getOptional c.toJson (bytes "elicitation") (fun v => .ok (ElicitationCapability.fromJson v)) =
      .ok c.elicitation :=
    getOptional_of_map helicitation (fun _ _ => rfl) (fun v _ => congrArg _ v.fromJson_toJson)
  have htasks : getOptional c.toJson (bytes "tasks") (fun _ => .ok {}) = .ok c.tasks :=
    getOptional_of_map htasks (fun _ _ => rfl) (fun _ _ => rfl)
  have hexperimental : getOptional c.toJson (bytes "experimental") (fun v => .ok ⟨v⟩) = .ok c.experimental :=
    getOptional_of_map hexperimental h (fun _ _ => rfl)
  unfold ClientCapabilities.fromJson
  rw [hroots, hsampling, helicitation, htasks, hexperimental]
  rfl

/-! ## The handshake -/

theorem Implementation.fromJson_toJson (i : Implementation) : Implementation.fromJson i.toJson = .ok i := by
  have hname : i.toJson.at_ (bytes "name") = .ok (.string i.name) := by
    apply at_of_find
    unfold Implementation.toJson
    simp (disch := decide) only [find_setOptional_of_ne, find_set_of_ne, find_set_self]
  have hversion : i.toJson.at_ (bytes "version") = .ok (.string i.version) := by
    apply at_of_find
    unfold Implementation.toJson
    simp (disch := decide) only [find_setOptional_of_ne, find_set_self]
  have htitle : i.toJson.find (bytes "title") = i.title.map .string := by
    unfold Implementation.toJson
    simp (disch := decide) only [find_setOptional_or, find_set_of_ne, find_nil, Option.or_none]
  have htitle : getOptional i.toJson (bytes "title") Json.getString = .ok i.title :=
    getOptional_of_map htitle (fun _ _ => rfl) (fun _ _ => rfl)
  unfold Implementation.fromJson
  rw [hname, hversion, htitle]
  rfl

/-- **The params of `initialize` come back.** -/
theorem InitializeParams.fromJson_toJson {p : InitializeParams}
    (h : ∀ e, p.capabilities.experimental = some e → e.value.isNull = false) :
    InitializeParams.fromJson p.toJson = .ok p := by
  have hversion : p.toJson.at_ (bytes "protocolVersion") = .ok (.string p.protocolVersion) := by
    apply at_of_find
    unfold InitializeParams.toJson
    simp (disch := decide) only [find_set_of_ne, find_set_self]
  have hcapabilities : p.toJson.value (bytes "capabilities") (.object []) = .ok p.capabilities.toJson := by
    have hfind : p.toJson.find (bytes "capabilities") = some p.capabilities.toJson := by
      unfold InitializeParams.toJson
      simp (disch := decide) only [find_set_of_ne, find_set_self]
    unfold Json.value
    rw [hfind]
    rfl
  have hinfo : p.toJson.at_ (bytes "clientInfo") = .ok p.clientInfo.toJson := by
    apply at_of_find
    unfold InitializeParams.toJson
    simp (disch := decide) only [find_set_self]
  unfold InitializeParams.fromJson
  rw [hversion, hcapabilities, hinfo]
  simp only [bind, Except.bind, Json.getString, ClientCapabilities.fromJson_toJson h, Implementation.fromJson_toJson]
  rfl

/-- **And its result.** -/
theorem InitializeResult.fromJson_toJson {r : InitializeResult}
    (h : ∀ e, r.capabilities.experimental = some e → e.value.isNull = false) :
    InitializeResult.fromJson r.toJson = .ok r := by
  have hversion : r.toJson.at_ (bytes "protocolVersion") = .ok (.string r.protocolVersion) := by
    apply at_of_find
    unfold InitializeResult.toJson
    simp (disch := decide) only [find_setOptional_of_ne, find_set_of_ne, find_set_self]
  have hcapabilities : r.toJson.value (bytes "capabilities") (.object []) = .ok r.capabilities.toJson := by
    have hfind : r.toJson.find (bytes "capabilities") = some r.capabilities.toJson := by
      unfold InitializeResult.toJson
      simp (disch := decide) only [find_setOptional_of_ne, find_set_of_ne, find_set_self]
    unfold Json.value
    rw [hfind]
    rfl
  have hinfo : r.toJson.at_ (bytes "serverInfo") = .ok r.serverInfo.toJson := by
    apply at_of_find
    unfold InitializeResult.toJson
    simp (disch := decide) only [find_setOptional_of_ne, find_set_self]
  have hinstructions : r.toJson.find (bytes "instructions") = r.instructions.map .string := by
    unfold InitializeResult.toJson
    simp (disch := decide) only [find_setOptional_or, find_set_of_ne, find_nil, Option.or_none]
  have hinstructions : getOptional r.toJson (bytes "instructions") Json.getString = .ok r.instructions :=
    getOptional_of_map hinstructions (fun _ _ => rfl) (fun _ _ => rfl)
  unfold InitializeResult.fromJson
  rw [hversion, hcapabilities, hinfo, hinstructions]
  simp only [bind, Except.bind, Json.getString, ServerCapabilities.fromJson_toJson h, Implementation.fromJson_toJson]
  rfl

end Mcp
