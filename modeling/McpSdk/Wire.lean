import McpSdk.Reading
import McpSdk.Schema
import McpSdk.JsonDump
/-!
# Wire — what `parse()` gives back for a dumped message

A non-negative C++ integer is dumped like an unsigned one and comes back as one; everything else comes back as it was.
`Json.wire` is that change, `==` does not see it, and a message comes through it.
-/
namespace Mcp

/-! ## Values -/

mutual

/-- A value after `dump()` and `parse()`. -/
def Json.wire : Json → Json
  | .numberInteger n => if 0 ≤ n.toInt then .numberUnsigned n.toUInt64 else .numberInteger n
  | .array items => .array (wireItems items)
  | .object members => .object (wireMembers members)
  | j => j

def wireItems : List Json → List Json
  | [] => []
  | j :: items => j.wire :: wireItems items

def wireMembers : List (Bytes × Json) → List (Bytes × Json)
  | [] => []
  | (k, j) :: members => (k, j.wire) :: wireMembers members

end

theorem wireItems_eq_map : ∀ items : List Json, wireItems items = items.map Json.wire
  | [] => rfl
  | j :: items => by rw [wireItems, wireItems_eq_map items, List.map_cons]

theorem wire_of_nonneg {n : Int64} (hn : 0 ≤ n.toInt) : (Json.numberInteger n).wire = .numberUnsigned n.toUInt64 := by
  rw [Json.wire, if_pos hn]

theorem wire_of_neg {n : Int64} (hn : ¬ 0 ≤ n.toInt) : (Json.numberInteger n).wire = .numberInteger n := by
  rw [Json.wire, if_neg hn]

theorem equal_wire_integer (n : Int64) : (Json.numberInteger n).equal (Json.numberInteger n).wire = true := by
  by_cases hn : 0 ≤ n.toInt
  · rw [wire_of_nonneg hn, Json.equal]
    simp
  · rw [wire_of_neg hn, Json.equal]
    simp

mutual

/-- **The way over the wire keeps a value equal** in the sense of `==`. -/
theorem Json.equal_wire : ∀ j : Json, j.equal j.wire = true
  | .null => by rw [Json.wire, Json.equal] <;> simp
  | .boolean b => by rw [Json.wire, Json.equal] <;> simp
  | .numberInteger n => equal_wire_integer n
  | .numberUnsigned n => by rw [Json.wire, Json.equal] <;> simp
  | .numberFloat x => by rw [Json.wire, Json.equal] <;> simp [Double.equal]
  | .string s => by rw [Json.wire, Json.equal] <;> simp
  | .array items => by
    rw [Json.wire, Json.equal]
    exact equalItems_wire items
  | .object members => by
    rw [Json.wire, Json.equal]
    exact equalMembers_wire members

theorem equalItems_wire : ∀ items : List Json, equalItems items (wireItems items) = true
  | [] => rfl
  | j :: items => by
    have hj := Json.equal_wire j
    have hitems := equalItems_wire items
    simp [wireItems, equalItems, hj, hitems]

theorem equalMembers_wire : ∀ members : List (Bytes × Json), equalMembers members (wireMembers members) = true
  | [] => rfl
  | (k, j) :: members => by
    have hj := Json.equal_wire j
    have hmembers := equalMembers_wire members
    simp [wireMembers, equalMembers, hj, hmembers]

end

theorem lookup_wireMembers (key : Bytes) : ∀ members : List (Bytes × Json),
    (wireMembers members).lookup key = (members.lookup key).map Json.wire
  | [] => rfl
  | (k, j) :: members => by
    rw [wireMembers, List.lookup_cons, List.lookup_cons, lookup_wireMembers key members]
    by_cases hk : key = k
    · simp [hk]
    · simp [beq_eq_false_iff_ne.2 hk]

@[simp] theorem Json.find_wire (j : Json) (key : Bytes) : j.wire.find key = (j.find key).map Json.wire := by
  cases j with
  | object members => exact lookup_wireMembers key members
  | numberInteger n =>
    by_cases hn : 0 ≤ n.toInt
    · simp [Json.wire, hn, Json.find]
    · simp [Json.wire, hn, Json.find]
  | _ => rfl

@[simp] theorem Json.contains_wire (j : Json) (key : Bytes) : j.wire.contains key = j.contains key := by
  simp [Json.contains]

@[simp] theorem Json.isNull_wire (j : Json) : j.wire.isNull = j.isNull := by
  cases j with
  | numberInteger n =>
    by_cases hn : 0 ≤ n.toInt
    · simp [Json.wire, hn, Json.isNull]
    · simp [Json.wire, hn]
  | _ => rfl

@[simp] theorem Json.isObject_wire (j : Json) : j.wire.isObject = j.isObject := by
  cases j with
  | numberInteger n =>
    by_cases hn : 0 ≤ n.toInt
    · simp [Json.wire, hn, Json.isObject]
    · simp [Json.wire, hn]
  | _ => rfl

@[simp] theorem validParams_wire (j : Json) : validParams j.wire = validParams j := by
  cases j with
  | numberInteger n =>
    by_cases hn : 0 ≤ n.toInt
    · simp [Json.wire, hn, validParams, Json.isObject, Json.isArray]
    · simp [Json.wire, hn]
  | _ => rfl

@[simp] theorem Json.wire_string (s : Bytes) : (Json.string s).wire = .string s := rfl

/-- **The way over the wire is a reading.** -/
theorem reading_wire : Reading Json.wire where
  find := Json.find_wire
  isNull := Json.isNull_wire
  isObject := Json.isObject_wire
  validParams := validParams_wire
  string := Json.wire_string
  array := fun items => by rw [Json.wire, wireItems_eq_map]
  id := fun id => by
    cases id with
    | str s => rfl
    | int n =>
      by_cases hn : 0 ≤ n.toInt
      · simp [requestIdToJson, wire_of_nonneg hn, requestIdFromJson]
      · simp [requestIdToJson, wire_of_neg hn, requestIdFromJson]
  code := fun c => by
    by_cases hn : 0 ≤ c.toInt64.toInt
    · rw [wire_of_nonneg hn, Json.getInt32]
      simp
    · rw [wire_of_neg hn, Json.getInt32]
      simp

/-! ## Messages -/

/-- An error after serialization and parsing: null data is dropped. -/
def Error.received (e : Error) : Error := { e with data := (e.data.filter (fun d => !d.isNull)).map Json.wire }

/-- A response after serialization and parsing: an error, or a result, null when there is none. -/
def JsonRpcResponse.received (r : JsonRpcResponse) : JsonRpcResponse :=
  match r.error with
  | some e => { id := r.id, error := some e.received }
  | none => { id := r.id, result := some (r.result.getD .null).wire }

def Error.wire (e : Error) : Error := { e with data := e.data.map Json.wire }

/-- A message after serialization and parsing. -/
def Message.wire : Message → Message
  | request r => .request { r with params := r.params.map Json.wire }
  | notification n => .notification { n with params := n.params.map Json.wire }
  | response r => .response { r with result := r.result.map Json.wire, error := r.error.map Error.wire }

theorem parseMessage_response_wire (r : JsonRpcResponse) :
    parseMessage (responseToJson r).wire = .ok (.ok (.response r.received)) := parseMessage_responseToJson reading_wire r

theorem read_wire : Message.read Json.wire = Message.wire := by
  funext m
  cases m <;> rfl

/-! ## Frames -/

/-- What the SDK relies on for one value: `dump()` prints it without control characters, and `parse()` reads it back. -/
structure JsonText.Prints (text : JsonText Bytes) (j : Json) (t : Bytes) : Prop where
  dump : text.dump j = .ok t
  parse : text.parse t = some j.wire
  printable : ∀ b ∈ t, 32 ≤ b

def noDouble (_ : Double) : Bytes := bytes "0.0"

/-- A text that reads back what it dumps of some values. -/
def readsBack (values : List Json) : JsonText Bytes :=
  tableText noDouble (values.map fun j => (j.compact noDouble, j.wire))

theorem readsBack_prints {values : List Json} {j : Json} (hvalid : j.validUtf8 = true) (hwire : j.wire.validUtf8 = true)
    (hlookup : (values.map fun j => (j.compact noDouble, j.wire)).lookup (j.compact noDouble) = some j.wire) :
    (readsBack values).Prints j (j.compact noDouble) where
  dump := if_pos hvalid
  parse := by
    show Option.filter Json.validUtf8 _ = _
    rw [hlookup, Option.filter_some, if_pos hwire]
  printable := compact_printable (fun _ => by show ∀ b ∈ bytes "0.0", 32 ≤ b; decide +kernel) j

/-- **A serialized message is a frame of that message.** -/
theorem parseFrame_serializeMessage {text : JsonText Bytes} {m : Message} {t : Bytes} (hm : m.WellFormed)
    (ht : text.Prints (messageToJson m) t) : parseFrame text t = .ok (.ok { messages := [m.wire] }) := by
  rw [parseFrame_message reading_wire hm ht.parse, read_wire]

/-- **A serialized batch is a frame of its messages**, in order. -/
theorem parseFrame_serializeBatch {text : JsonText Bytes} {ms : List Message} {t : Bytes} (hne : ms ≠ [])
    (hms : ∀ m ∈ ms, m.WellFormed) (ht : text.Prints (.array (ms.map messageToJson)) t) :
    parseFrame text t = .ok (.ok { messages := ms.map Message.wire, wasBatch := true }) := by
  rw [parseFrame_batch reading_wire hne hms ht.parse, read_wire]

/-- **Messages come back unchanged**: from their value, from a frame, and from a batch, in order.  A text that reads back
the value it printed gives the messages themselves; over the wire only the types of the numbers in their payloads change. -/
theorem messages_come_back {τ : Type} (text : JsonText τ) :
    (∀ m : Message, m.WellFormed → parseMessage (messageToJson m) = .ok (.ok m)) ∧
    (∀ (m : Message) (t : τ), m.WellFormed → serializeMessage text m = .ok t →
      (text.parse t = some (messageToJson m) → parseFrame text t = .ok (.ok { messages := [m] })) ∧
      (text.parse t = some (messageToJson m).wire → parseFrame text t = .ok (.ok { messages := [m.wire] }))) ∧
    (∀ (ms : List Message) (t : τ), ms ≠ [] → (∀ m ∈ ms, m.WellFormed) → serializeBatch text ms = .ok t →
      (text.parse t = some (.array (ms.map messageToJson)) →
        parseFrame text t = .ok (.ok { messages := ms, wasBatch := true })) ∧
      (text.parse t = some (Json.array (ms.map messageToJson)).wire →
        parseFrame text t = .ok (.ok { messages := ms.map Message.wire, wasBatch := true }))) := by
  refine ⟨fun m hm => ?_, fun m t hm _ => ⟨fun ht => ?_, fun ht => ?_⟩, fun ms t hne hms _ => ⟨fun ht => ?_, fun ht => ?_⟩⟩
  · have h := parseMessage_messageToJson reading_id hm
    rwa [Message.read_id] at h
  · rw [parseFrame_message reading_id hm ht, Message.read_id, id]
  · rw [parseFrame_message reading_wire hm ht, read_wire]
  · rw [parseFrame_batch reading_id hne hms ht, Message.read_id, List.map_id]
  · rw [parseFrame_batch reading_wire hne hms ht, read_wire]

def pingNamed : Message := .request { id := .str (bytes "a"), method := bytes "ping" }

def pongNumbered : Message := .response { id := some (.int 7), result := some (.object []) }

/-- The ping alone and in a batch; the pong over the wire, its id an unsigned number there. -/
theorem messages_come_back_ping :
    let ping := (messageToJson pingNamed).compact noDouble
    let pong := (messageToJson pongNumbered).compact noDouble
    let batch := (Json.array [messageToJson pingNamed]).compact noDouble
    let text := tableText noDouble [(ping, messageToJson pingNamed), (pong, (messageToJson pongNumbered).wire),
      (batch, .array [messageToJson pingNamed])]
    parseFrame text ping = .ok (.ok { messages := [pingNamed] }) ∧
      parseFrame text pong = .ok (.ok { messages := [pongNumbered.wire] }) ∧
      parseFrame text batch = .ok (.ok { messages := [pingNamed], wasBatch := true }) := by
  intro ping pong batch text
  have hping : pingNamed.WellFormed := rfl
  have hpong : pongNumbered.WellFormed := ⟨Bool.noConfusion, fun e he => (by cases he)⟩
  obtain ⟨-, hframe, hbatch⟩ := messages_come_back text
  exact ⟨(hframe pingNamed ping hping (by rfl)).1 (by rfl), (hframe pongNumbered pong hpong (by rfl)).2 (by rfl),
    (hbatch [pingNamed] batch (List.cons_ne_nil _ _) (fun m hm => List.mem_singleton.1 hm ▸ hping) (by rfl)).1 (by rfl)⟩

end Mcp
