import McpSdk.Escape
/-!
# Reading — messages through a change of values

`dump()` followed by `parse()` gives back a value up to the type of its numbers.  A `Reading` is any such change that the
accesses of the parser do not see; a well-formed message comes through it.
-/
namespace Mcp

/-- What a value may become between `dump()` and `parse()`: its shape, ids, strings and error codes stay. -/
structure Reading (read : Json → Json) : Prop where
  find : ∀ j key, (read j).find key = (j.find key).map read
  isNull : ∀ j, (read j).isNull = j.isNull
  isObject : ∀ j, (read j).isObject = j.isObject
  validParams : ∀ j, validParams (read j) = validParams j
  string : ∀ s, read (.string s) = .string s
  array : ∀ items, read (.array items) = .array (items.map read)
  id : ∀ id, requestIdFromJson (read (requestIdToJson id)) = some id
  code : ∀ c : Int32, (read (.numberInteger c.toInt64)).getInt32 = .ok c

def Error.read (read : Json → Json) (e : Error) : Error := { e with data := e.data.map read }

/-- An error after serialization and parsing: null data is dropped. -/
def Error.heard (read : Json → Json) (e : Error) : Error := { e with data := (e.data.filter (fun d => !d.isNull)).map read }

/-- A response after serialization and parsing: an error, or a result, null when there is none. -/
def JsonRpcResponse.heard (read : Json → Json) (r : JsonRpcResponse) : JsonRpcResponse :=
  match r.error with
  | some e => { id := r.id, error := some (e.heard read) }
  | none => { id := r.id, result := some (read (r.result.getD .null)) }

/-- A message after serialization and parsing. -/
def Message.read (read : Json → Json) : Message → Message
  | request r => .request { r with params := r.params.map read }
  | notification n => .notification { n with params := n.params.map read }
  | response r => .response { r with result := r.result.map read, error := r.error.map (Error.read read) }

/-- Params are absent, an object or an array; a response has one of result and error, and the error's data is not null. -/
def Message.WellFormed : Message → Prop
  | request r => r.params.all validParams = true
  | notification n => n.params.all validParams = true
  | response r => r.result.isSome ≠ r.error.isSome ∧ ∀ e, r.error = some e → e.data.all (fun d => !d.isNull) = true

theorem isNull_requestIdToJson (id : RequestId) : (requestIdToJson id).isNull = false := by
  cases id <;> rfl

theorem getOptional_of_find {α : Type} {j v : Json} {key : Bytes} {get : Json → Except JsonException α}
    (hfind : j.find key = some v) (hnull : v.isNull = false) : getOptional j key get = (get v).map some := by
  simp [getOptional, hfind, hnull]

theorem getOptional_of_missing {α : Type} {j : Json} {key : Bytes} {get : Json → Except JsonException α}
    (hfind : j.find key = none) : getOptional j key get = .ok none := by
  simp [getOptional, hfind]

theorem find_nil (key : Bytes) : (Json.object []).find key = none := rfl

theorem find_set_self (key : Bytes) (v : Json) (ms : Members) : (Json.object (Members.set key v ms)).find key = some v := by
  rw [find_set, if_pos rfl]

theorem find_set_of_ne {key k : Bytes} (h : k ≠ key) (v : Json) (ms : Members) :
    (Json.object (Members.set key v ms)).find k = (Json.object ms).find k := by
  rw [find_set, if_neg h]

theorem find_setOptional_of_ne {α : Type} {key k : Bytes} (h : k ≠ key) (toJson : α → Json) (value : Option α)
    (ms : Members) : (Json.object (setOptional key toJson value ms)).find k = (Json.object ms).find k := by
  cases value with
  | none => rfl
  | some v => exact find_set_of_ne h _ ms

theorem find_setOptional_self {α : Type} {key : Bytes} {ms : Members} (h : (Json.object ms).find key = none)
    (toJson : α → Json) (value : Option α) :
    (Json.object (setOptional key toJson value ms)).find key = value.map toJson := by
  cases value with
  | none => exact h
  | some v => exact find_set_self key _ ms

theorem Error.find_toJson (e : Error) :
    e.toJson.find (bytes "code") = some (.numberInteger e.code.toInt64) ∧
      e.toJson.find (bytes "message") = some (.string e.message) ∧ e.toJson.find (bytes "data") = e.data := by
  unfold Error.toJson
  refine ⟨?_, ?_, ?_⟩
  · simp (disch := decide) only [find_setOptional_of_ne, find_set_of_ne, find_set_self]
  · simp (disch := decide) only [find_setOptional_of_ne, find_set_self]
  · rw [find_setOptional_self, Option.map_id_apply]
    simp (disch := decide) only [find_set_of_ne, find_nil]

/-- The identity is a reading. -/
theorem reading_id : Reading id where
  find := fun j key => by simp
  isNull := fun _ => rfl
  isObject := fun _ => rfl
  validParams := fun _ => rfl
  string := fun _ => rfl
  array := fun items => by simp
  id := fun id => by cases id <;> rfl
  code := fun c => by simp [Json.getInt32]

theorem Error.read_id : Error.read id = id := by
  funext e
  simp [Error.read]

theorem Message.read_id : Message.read id = id := by
  funext m
  cases m with
  | request r => simp [Message.read]
  | notification n => simp [Message.read]
  | response r => simp [Message.read, Error.read_id]

section

variable {read : Json → Json}

theorem filter_params (hread : Reading read) {params : Option Json} (h : params.all validParams = true) :
    (params.map read).filter (fun p => !p.isNull) = params.map read ∧
      (params.map read).any (fun p => !validParams p) = false := by
  cases params with
  | none => exact ⟨rfl, rfl⟩
  | some p =>
    have hp : validParams p = true := h
    have hnull : p.isNull = false := by
      cases p with
      | null => cases hp
      | _ => rfl
    simp [hread.isNull, hread.validParams, hnull, hp, Option.filter]

theorem Error.fromJson_read (hread : Reading read) (e : Error) : Error.fromJson (read e.toJson) = .ok (e.heard read) := by
  obtain ⟨hcode, hmessage, hdata⟩ := e.find_toJson
  have hcode' : (read e.toJson).at_ (bytes "code") = .ok (read (.numberInteger e.code.toInt64)) :=
    at_of_find (by simp [hread.find, hcode])
  have hmessage' : (read e.toJson).at_ (bytes "message") = .ok (.string e.message) :=
    at_of_find (by simp [hread.find, hmessage, hread.string])
  have hdata' : getOptional (read e.toJson) (bytes "data") .ok = .ok (e.heard read).data := by
    unfold Error.heard
    cases hd : e.data with
    | none => exact getOptional_of_missing (by simp [hread.find, hdata, hd])
    | some d =>
      by_cases hnull : d.isNull = true
      · simp [getOptional, hread.find, hread.isNull, hdata, hd, hnull, Option.filter]
      · rw [getOptional_of_find (v := read d) (by simp [hread.find, hdata, hd]) (by simp [hread.isNull, hnull])]
        simp [hnull, Option.filter, Except.map]
  unfold Error.fromJson
  simp [hcode', hmessage', hdata', hread.code, Json.getString, bind, Except.bind, pure, Except.pure, Error.heard]

theorem Error.heard_eq_read {e : Error} (h : e.data.all (fun d => !d.isNull) = true) : e.heard read = e.read read := by
  unfold Error.heard Error.read
  cases hd : e.data with
  | none => rfl
  | some d =>
    have hnull : d.isNull = false := by simpa [hd] using h
    simp [hnull, Option.filter]

/-! ## Round trips -/

theorem parseMessage_requestToJson (hread : Reading read) {r : JsonRpcRequest} (h : (Message.request r).WellFormed) :
    parseMessage (read (requestToJson r)) = .ok (.ok ((Message.request r).read read)) := by
  obtain ⟨hparams, hvalid⟩ := filter_params hread h
  have hversion : (requestToJson r).find (bytes "jsonrpc") = some (.string (bytes "2.0")) := by
    unfold requestToJson
    simp (disch := decide) only [find_setOptional_of_ne, find_set_of_ne, find_set_self]
  have hmethod : (requestToJson r).find (bytes "method") = some (.string r.method) := by
    unfold requestToJson
    simp (disch := decide) only [find_setOptional_of_ne, find_set_self]
  have hid : (requestToJson r).find (bytes "id") = some (requestIdToJson r.id) := by
    unfold requestToJson
    simp (disch := decide) only [find_setOptional_of_ne, find_set_of_ne, find_set_self]
  have hfind : (requestToJson r).find (bytes "params") = r.params := by
    unfold requestToJson
    rw [find_setOptional_self, Option.map_id_apply]
    simp (disch := decide) only [find_set_of_ne, find_nil]
  have hobject : (requestToJson r).isObject = true := rfl
  unfold parseMessage
  simp only [hread.isObject, hobject, validVersion, hread.find, hversion, hmethod, Option.map_some, hread.string, parseCall,
    hfind, hid, hparams, hvalid, hread.id]
  simp [Message.read]

theorem parseMessage_notificationToJson (hread : Reading read) {n : JsonRpcNotification}
    (h : (Message.notification n).WellFormed) :
    parseMessage (read (notificationToJson n)) = .ok (.ok ((Message.notification n).read read)) := by
  obtain ⟨hparams, hvalid⟩ := filter_params hread h
  have hversion : (notificationToJson n).find (bytes "jsonrpc") = some (.string (bytes "2.0")) := by
    unfold notificationToJson
    simp (disch := decide) only [find_setOptional_of_ne, find_set_of_ne, find_set_self]
  have hmethod : (notificationToJson n).find (bytes "method") = some (.string n.method) := by
    unfold notificationToJson
    simp (disch := decide) only [find_setOptional_of_ne, find_set_self]
  have hid : (notificationToJson n).find (bytes "id") = none := by
    unfold notificationToJson
    simp (disch := decide) only [find_setOptional_of_ne, find_set_of_ne, find_nil]
  have hfind : (notificationToJson n).find (bytes "params") = n.params := by
    unfold notificationToJson
    rw [find_setOptional_self, Option.map_id_apply]
    simp (disch := decide) only [find_set_of_ne, find_nil]
  have hobject : (notificationToJson n).isObject = true := rfl
  unfold parseMessage
  simp only [hread.isObject, hobject, validVersion, hread.find, hversion, hmethod, Option.map_some, hread.string, parseCall,
    hfind, hid, Option.map_none, hparams, hvalid]
  simp [Message.read]

theorem responseToJson_head (r : JsonRpcResponse) :
    (responseToJson r).find (bytes "jsonrpc") = some (.string (bytes "2.0")) ∧
      (responseToJson r).find (bytes "method") = none ∧
      (responseToJson r).find (bytes "id") = some (match r.id with | some id => requestIdToJson id | none => .null) := by
  unfold responseToJson
  cases r.error with
  | some e =>
    simp (disch := decide) only [find_set_of_ne, find_set_self, find_nil]
    exact ⟨by trivial, by trivial, by trivial⟩
  | none =>
    simp (disch := decide) only [find_set_of_ne, find_set_self, find_nil]
    exact ⟨by trivial, by trivial, by trivial⟩

theorem responseToJson_error {r : JsonRpcResponse} {e : Error} (h : r.error = some e) :
    (responseToJson r).find (bytes "result") = none ∧ (responseToJson r).find (bytes "error") = some e.toJson := by
  unfold responseToJson
  rw [h]
  simp (disch := decide) only [find_set_of_ne, find_set_self, find_nil, and_self]

theorem responseToJson_result {r : JsonRpcResponse} (h : r.error = none) :
    (responseToJson r).find (bytes "result") = some (r.result.getD .null) ∧
      (responseToJson r).find (bytes "error") = none := by
  unfold responseToJson
  rw [h]
  simp (disch := decide) only [find_set_of_ne, find_set_self, find_nil, and_self]

/-- **Any response comes through** as a response. -/
theorem parseMessage_responseToJson (hread : Reading read) (r : JsonRpcResponse) :
    parseMessage (read (responseToJson r)) = .ok (.ok (.response (r.heard read))) := by
  obtain ⟨hversion, hmethod, hid⟩ := responseToJson_head r
  have hobject : (responseToJson r).isObject = true := by
    unfold responseToJson
    cases r.error <;> rfl
  have hparse : parseMessage (read (responseToJson r)) = parseResponse (read (responseToJson r)) := by
    unfold parseMessage
    simp only [hread.isObject, hobject, validVersion, hread.find, hversion, hmethod, Option.map_some, Option.map_none,
      hread.string]
    simp
  have hidNull : ∀ id : RequestId, (read (requestIdToJson id)).isNull = false := by
    intro id
    rw [hread.isNull, isNull_requestIdToJson]
  have hnull : (read .null).isNull = true := hread.isNull _
  rw [hparse]
  unfold parseResponse JsonRpcResponse.heard
  cases he : r.error with
  | some e =>
    obtain ⟨hresult, herror⟩ := responseToJson_error he
    obtain ⟨hcode, hmessage, -⟩ := e.find_toJson
    have hfields : e.toJson.isObject = true := rfl
    have hfrom := Error.fromJson_read hread e
    cases hi : r.id with
    | none =>
      simp [Json.contains, hread.find, hread.isObject, hresult, herror, hid, hi, hnull, hfields, hcode, hmessage, hfrom,
        Except.map]
    | some id =>
      simp [Json.contains, hread.find, hread.isObject, hresult, herror, hid, hi, hidNull, hread.id, hfields, hcode, hmessage,
        hfrom, Except.map]
  | none =>
    obtain ⟨hresult, herror⟩ := responseToJson_result he
    have hat : (read (responseToJson r)).at_ (bytes "result") = .ok (read (r.result.getD .null)) :=
      at_of_find (by simp [hread.find, hresult])
    cases hi : r.id with
    | none => simp [Json.contains, hread.find, hresult, herror, hid, hi, hnull, hat, Except.map]
    | some id => simp [Json.contains, hread.find, hresult, herror, hid, hi, hidNull, hread.id, hat, Except.map]

theorem heard_eq_read {r : JsonRpcResponse} (h : (Message.response r).WellFormed) :
    Message.response (r.heard read) = (Message.response r).read read := by
  obtain ⟨hone, hdata⟩ := h
  unfold JsonRpcResponse.heard Message.read
  cases he : r.error with
  | some e =>
    have hr : r.result = none := by
      cases hr : r.result with
      | none => rfl
      | some v => simp [he, hr] at hone
    simp [he, hr, Error.heard_eq_read (hdata e he)]
  | none =>
    obtain ⟨v, hr⟩ : ∃ v, r.result = some v := by
      cases hr : r.result with
      | none => simp [he, hr] at hone
      | some v => exact ⟨v, rfl⟩
    simp [he, hr]

/-- **A well-formed message comes through.** -/
theorem parseMessage_messageToJson (hread : Reading read) {m : Message} (h : m.WellFormed) :
    parseMessage (read (messageToJson m)) = .ok (.ok (m.read read)) := by
  cases m with
  | request r => exact parseMessage_requestToJson hread h
  | notification n => exact parseMessage_notificationToJson hread h
  | response r => exact (parseMessage_responseToJson hread r).trans (by rw [heard_eq_read h])

theorem parseItems_messageToJson (hread : Reading read) : ∀ (ms : List Message) (frame : ParsedFrame),
    (∀ m ∈ ms, m.WellFormed) → parseItems ((ms.map messageToJson).map read) frame =
      .ok { frame with messages := frame.messages ++ ms.map (Message.read read) }
  | [], frame, _ => by simp [parseItems]
  | m :: ms, frame, h => by
    have hm := parseMessage_messageToJson hread (h m List.mem_cons_self)
    have ih := parseItems_messageToJson hread ms { frame with messages := frame.messages ++ [m.read read] }
      (fun x hx => h x (List.mem_cons_of_mem m hx))
    rw [List.map_map] at ih
    simp [parseItems, bind, Except.bind, hm, ih]

/-! ## Frames -/

theorem messageToJson_object (m : Message) : ∃ members, messageToJson m = .object members := by
  cases m with
  | request r => exact ⟨_, rfl⟩
  | notification n => exact ⟨_, rfl⟩
  | response r =>
    simp only [messageToJson, responseToJson]
    exact ⟨_, rfl⟩

theorem isObject_messageToJson (m : Message) : (messageToJson m).isObject = true := by
  obtain ⟨members, h⟩ := messageToJson_object m
  rw [h]
  rfl

variable {τ : Type} {text : JsonText τ} {t : τ}

theorem parseFrame_object {j : Json} {m : Message} (ht : text.parse t = some j) (hobject : j.isObject = true)
    (hparse : parseMessage j = .ok (.ok m)) : parseFrame text t = .ok (.ok { messages := [m] }) := by
  unfold parseFrame
  rw [ht]
  cases j with
  | object members => simp [hparse, bind, Except.bind, pure, Except.pure]
  | _ => cases hobject

/-- **A serialized message is a frame of that message.** -/
theorem parseFrame_message (hread : Reading read) {m : Message} (hm : m.WellFormed)
    (ht : text.parse t = some (read (messageToJson m))) : parseFrame text t = .ok (.ok { messages := [m.read read] }) :=
  parseFrame_object ht ((hread.isObject _).trans (isObject_messageToJson m)) (parseMessage_messageToJson hread hm)

/-- **A serialized batch is a frame of its messages**, in order. -/
theorem parseFrame_batch (hread : Reading read) {ms : List Message} (hne : ms ≠ []) (hms : ∀ m ∈ ms, m.WellFormed)
    (ht : text.parse t = some (read (.array (ms.map messageToJson)))) :
    parseFrame text t = .ok (.ok { messages := ms.map (Message.read read), wasBatch := true }) := by
  have hitems := parseItems_messageToJson hread _ { wasBatch := true } hms
  obtain ⟨m, rest, rfl⟩ := List.exists_cons_of_ne_nil hne
  unfold parseFrame
  rw [ht, hread.array]
  rw [List.map_cons, List.map_cons] at hitems ⊢
  dsimp only
  rw [hitems]
  rfl

end

end Mcp
