import McpSdk.Message
/-!
# Encoding — what a frame lets in, and which messages `dump()` accepts

`dump()` throws on a string that is not UTF-8, and `parse()` discards one.  So what came in on the wire may go out again:
ids and methods of parsed requests, and the errors the parser itself makes.
-/
namespace Mcp

/-! ## Values -/

theorem validUtf8Members_lookup : ∀ {ms : Members} {key : Bytes} {v : Json}, validUtf8Members ms = true →
    ms.lookup key = some v → v.validUtf8 = true
  | [], _, _, _, h => by cases h
  | (k, j) :: ms, key, v, hms, h => by
    simp only [validUtf8Members, Bool.and_eq_true] at hms
    by_cases hk : key = k
    · simp only [List.lookup_cons, hk, beq_self_eq_true] at h
      rw [← Option.some.inj h]
      exact hms.1.2
    · simp only [List.lookup_cons, beq_eq_false_iff_ne.2 hk] at h
      exact validUtf8Members_lookup hms.2 h

theorem Json.validUtf8_find {j v : Json} {key : Bytes} (hj : j.validUtf8 = true) (h : j.find key = some v) :
    v.validUtf8 = true := by
  cases j with
  | object members =>
    rw [Json.validUtf8] at hj
    exact validUtf8Members_lookup hj h
  | _ => cases h

theorem validUtf8Members_set {key : Bytes} {v : Json} (hkey : Utf8.valid key = true) (hv : v.validUtf8 = true) :
    ∀ {ms : Members}, validUtf8Members ms = true → validUtf8Members (Members.set key v ms) = true
  | [], _ => by simp [Members.set, validUtf8Members, hkey, hv]
  | (k, w) :: ms, h => by
    have h' := h
    simp only [validUtf8Members, Bool.and_eq_true] at h'
    unfold Members.set
    split
    · simp [validUtf8Members, hkey, hv, h'.1.1, h'.1.2, h'.2]
    · split
      · simp [validUtf8Members, hkey, hv, h'.2]
      · simp [validUtf8Members, h'.1.1, h'.1.2, validUtf8Members_set hkey hv h'.2]

theorem validUtf8Members_setOptional {α : Type} {key : Bytes} {toJson : α → Json} {value : Option α} {ms : Members}
    (hkey : Utf8.valid key = true) (hv : ∀ a, value = some a → (toJson a).validUtf8 = true)
    (hms : validUtf8Members ms = true) : validUtf8Members (setOptional key toJson value ms) = true := by
  cases value with
  | none => exact hms
  | some a => exact validUtf8Members_set hkey (hv a rfl) hms

theorem validUtf8Items_of_forall : ∀ {items : List Json}, (∀ j ∈ items, j.validUtf8 = true) → validUtf8Items items = true
  | [], _ => rfl
  | j :: items, h => by
    simp only [validUtf8Items, Bool.and_eq_true]
    exact ⟨h j List.mem_cons_self, validUtf8Items_of_forall (fun x hx => h x (List.mem_cons_of_mem j hx))⟩

theorem validUtf8_of_mem_items : ∀ {items : List Json}, validUtf8Items items = true → ∀ j ∈ items, j.validUtf8 = true
  | _ :: items, h, j, hj => by
    simp only [validUtf8Items, Bool.and_eq_true] at h
    rcases List.mem_cons.1 hj with rfl | hj
    · exact h.1
    · exact validUtf8_of_mem_items h.2 j hj

/-! ## Messages -/

def RequestId.validUtf8 : RequestId → Bool
  | int _ => true
  | str s => Utf8.valid s

def Error.validUtf8 (e : Error) : Bool := Utf8.valid e.message && e.data.all Json.validUtf8

def JsonRpcRequest.validUtf8 (r : JsonRpcRequest) : Bool := r.id.validUtf8 && Utf8.valid r.method

def JsonRpcResponse.validUtf8 (r : JsonRpcResponse) : Bool :=
  r.id.all RequestId.validUtf8 && r.result.all Json.validUtf8 && r.error.all Error.validUtf8

theorem requestIdToJson_validUtf8 (id : RequestId) : (requestIdToJson id).validUtf8 = id.validUtf8 := by
  cases id <;> rfl

theorem requestIdFromJson_validUtf8 {j : Json} {id : RequestId} (hj : j.validUtf8 = true)
    (h : requestIdFromJson j = some id) : id.validUtf8 = true := by
  cases j with
  | numberInteger n | numberUnsigned n =>
    rw [← Option.some.inj h]
    rfl
  | string s =>
    rw [← Option.some.inj h]
    exact hj
  | _ => cases h

theorem Error.toJson_validUtf8 {e : Error} (h : e.validUtf8 = true) : e.toJson.validUtf8 = true := by
  simp only [Error.validUtf8, Bool.and_eq_true] at h
  simp only [Error.toJson, Json.validUtf8]
  have hmessage : (Json.string e.message).validUtf8 = true := h.1
  refine validUtf8Members_setOptional (by decide) (fun d hd => ?_) ?_
  · rw [hd] at h
    exact h.2
  · exact validUtf8Members_set (by decide) hmessage (validUtf8Members_set (by decide) rfl rfl)

/-- The head of a response: its version and its id, null without one. -/
theorem responseHead_validUtf8 (id : Option RequestId) : id.all RequestId.validUtf8 = true →
    validUtf8Members ([] |> Members.set (bytes "jsonrpc") (.string (bytes "2.0"))
      |> Members.set (bytes "id") (match id with | some id => requestIdToJson id | none => .null)) = true := by
  intro h
  refine validUtf8Members_set (by decide) ?_ (validUtf8Members_set (by decide) (by decide) rfl)
  cases id with
  | none => rfl
  | some id => exact (requestIdToJson_validUtf8 id).trans h

/-- **A response of valid parts can be dumped.** -/
theorem responseToJson_validUtf8 {r : JsonRpcResponse} (h : r.validUtf8 = true) : (responseToJson r).validUtf8 = true := by
  simp only [JsonRpcResponse.validUtf8, Bool.and_eq_true] at h
  obtain ⟨⟨hid, hresult⟩, herror⟩ := h
  have hhead := responseHead_validUtf8 r.id hid
  unfold responseToJson
  cases he : r.error with
  | some e =>
    rw [he] at herror
    exact validUtf8Members_set (by decide) (Error.toJson_validUtf8 herror) hhead
  | none =>
    refine validUtf8Members_set (by decide) ?_ hhead
    cases hr : r.result with
    | none => rfl
    | some v =>
      rw [hr] at hresult
      exact hresult

/-! ## Parsed frames -/

/-- An error of the parser itself: InvalidRequest with an ASCII text. -/
structure Error.Refused (e : Error) : Prop where
  code : e.code = ErrorCode.invalidRequest.toInt
  valid : e.validUtf8 = true

theorem refused_of_refuse {α : Type} {text : String} (htext : Utf8.valid (bytes text) = true) {e : Error}
    (h : (refuse text : Except JsonException (Result α)) = .ok (.error e)) : e.Refused := by
  unfold refuse at h
  injection h with h
  injection h with h
  subst h
  exact ⟨rfl, by simp [Error.validUtf8, Error.of, htext]⟩

theorem refuse_ne_ok {α : Type} {text : String} {a : α} : (refuse text : Except JsonException (Result α)) ≠ .ok (.ok a) := by
  intro h
  unfold refuse at h
  injection h with h
  cases h

theorem parseCall_spec (j method : Json) :
    (∀ e, parseCall j method = .ok (.error e) → e.Refused) ∧
      ∀ r, j.validUtf8 = true → method.validUtf8 = true → parseCall j method = .ok (.ok (.request r)) →
        r.validUtf8 = true := by
  unfold parseCall
  split
  swap
  · exact ⟨fun e h => refused_of_refuse (by decide) h, fun r _ _ h => absurd h refuse_ne_ok⟩
  dsimp only
  split
  · exact ⟨fun e h => refused_of_refuse (by decide) h, fun r _ _ h => absurd h refuse_ne_ok⟩
  cases hid : j.find (bytes "id") with
  | none => exact ⟨fun e h => (by cases h), fun r _ _ h => (by cases h)⟩
  | some idJson =>
    dsimp only
    cases hfrom : requestIdFromJson idJson with
    | none => exact ⟨fun e h => refused_of_refuse (by decide) h, fun r _ _ h => absurd h refuse_ne_ok⟩
    | some id =>
      refine ⟨fun e h => (by cases h), fun r hj hm h => ?_⟩
      cases h
      simp only [JsonRpcRequest.validUtf8, Bool.and_eq_true]
      exact ⟨requestIdFromJson_validUtf8 (Json.validUtf8_find hj hid) hfrom, hm⟩

theorem map_ok_ne_error {α : Type} {r : Except JsonException α} {f : α → Message} {e : Error} :
    r.map (fun a => (.ok (f a) : Result Message)) ≠ .ok (.error e) := by
  cases r with
  | error x => intro h; cases h
  | ok a => intro h; cases h

theorem map_response_ne_request {α : Type} {r : Except JsonException α} {f : α → JsonRpcResponse} {q : JsonRpcRequest} :
    r.map (fun a => (.ok (.response (f a)) : Result Message)) ≠ .ok (.ok (.request q)) := by
  cases r with
  | error x => intro h; cases h
  | ok a => intro h; cases h

theorem parseResponse_spec (j : Json) :
    (∀ e, parseResponse j = .ok (.error e) → e.Refused) ∧ ∀ r, parseResponse j ≠ .ok (.ok (.request r)) := by
  unfold parseResponse
  split
  · exact ⟨fun e h => refused_of_refuse (by decide) h, fun r => refuse_ne_ok⟩
  cases j.find (bytes "id") with
  | none => exact ⟨fun e h => refused_of_refuse (by decide) h, fun r => refuse_ne_ok⟩
  | some idJson =>
    dsimp only
    split
    · exact ⟨fun e h => refused_of_refuse (by decide) h, fun r => refuse_ne_ok⟩
    cases j.find (bytes "error") with
    | some e =>
      dsimp only
      split
      · exact ⟨fun e h => refused_of_refuse (by decide) h, fun r => refuse_ne_ok⟩
      · exact ⟨fun e h => absurd h map_ok_ne_error, fun r => map_response_ne_request⟩
    | none => exact ⟨fun e h => absurd h map_ok_ne_error, fun r => map_response_ne_request⟩

/-- **What `parse_message` refuses, and what it lets in.** -/
theorem parseMessage_spec (j : Json) :
    (∀ e, parseMessage j = .ok (.error e) → e.Refused) ∧
      ∀ r, j.validUtf8 = true → parseMessage j = .ok (.ok (.request r)) → r.validUtf8 = true := by
  unfold parseMessage
  split
  · exact ⟨fun e h => refused_of_refuse (by decide) h, fun r _ h => absurd h refuse_ne_ok⟩
  split
  · exact ⟨fun e h => refused_of_refuse (by decide) h, fun r _ h => absurd h refuse_ne_ok⟩
  cases hm : j.find (bytes "method") with
  | some method =>
    obtain ⟨herror, hrequest⟩ := parseCall_spec j method
    exact ⟨herror, fun r hj h => hrequest r hj (Json.validUtf8_find hj hm) h⟩
  | none =>
    obtain ⟨herror, hrequest⟩ := parseResponse_spec j
    exact ⟨herror, fun r _ h => absurd h (hrequest r)⟩

def requests (messages : List Message) : List JsonRpcRequest :=
  messages.filterMap fun
    | .request r => some r
    | _ => none

/-- **A frame as `parse_frame` delivers it**: the parser's own errors, valid requests, and one message unless it was a
batch. -/
structure ParsedFrame.Sound (frame : ParsedFrame) : Prop where
  errors : ∀ e ∈ frame.itemErrors, e.Refused
  requests : ∀ r ∈ requests frame.messages, r.validUtf8 = true
  single : frame.wasBatch = false → frame.itemErrors = [] ∧ frame.messages.length = 1

theorem requests_append (a b : List Message) : requests (a ++ b) = requests a ++ requests b := List.filterMap_append

theorem mem_requests {messages : List Message} {r : JsonRpcRequest} : r ∈ requests messages ↔ .request r ∈ messages := by
  unfold requests
  rw [List.mem_filterMap]
  constructor
  · rintro ⟨m, hm, h⟩
    cases m <;> cases h
    exact hm
  · intro h
    exact ⟨.request r, h, rfl⟩

theorem ParsedFrame.Sound.message {frame : ParsedFrame} (hf : frame.Sound) (hb : frame.wasBatch = true) {m : Message}
    (hm : ∀ r, m = .request r → r.validUtf8 = true) :
    ParsedFrame.Sound { frame with messages := frame.messages ++ [m] } where
  errors := hf.errors
  requests := by
    intro r hr
    rw [requests_append] at hr
    rcases List.mem_append.1 hr with hr | hr
    · exact hf.requests r hr
    · exact hm r (List.mem_singleton.1 (mem_requests.1 hr)).symm
  single := fun hs => absurd (hb.symm.trans hs) Bool.noConfusion

theorem ParsedFrame.Sound.error {frame : ParsedFrame} (hf : frame.Sound) (hb : frame.wasBatch = true) {e : Error}
    (he : e.Refused) : ParsedFrame.Sound { frame with itemErrors := frame.itemErrors ++ [e] } where
  errors := by
    intro x hx
    rcases List.mem_append.1 hx with hx | hx
    · exact hf.errors x hx
    · rw [List.mem_singleton.1 hx]
      exact he
  requests := hf.requests
  single := fun hs => absurd (hb.symm.trans hs) Bool.noConfusion

theorem parseItems_sound : ∀ {items : List Json} {frame out : ParsedFrame}, validUtf8Items items = true →
    frame.Sound → frame.wasBatch = true → parseItems items frame = .ok out → out.Sound
  | [], frame, out, _, hf, _, h => by
    cases h
    exact hf
  | item :: items, frame, out, hv, hf, hb, h => by
    simp only [validUtf8Items, Bool.and_eq_true] at hv
    obtain ⟨herror, hrequest⟩ := parseMessage_spec item
    simp only [parseItems, bind, Except.bind] at h
    cases hp : parseMessage item with
    | error x =>
      rw [hp] at h
      cases h
    | ok parsed =>
      rw [hp] at h
      dsimp only at h
      cases parsed with
      | ok m => exact parseItems_sound hv.2 (hf.message hb (fun r hr => hrequest r hv.1 (hr ▸ hp))) hb h
      | error e => exact parseItems_sound hv.2 (hf.error hb (herror e hp)) hb h

def itemError (item : Json) : Option Error :=
  match parseMessage item with
  | .ok (.error e) => some e
  | _ => none

/-- **A batch has one error for each invalid item**, in order. -/
theorem parseItems_itemErrors : ∀ {items : List Json} {frame out : ParsedFrame}, parseItems items frame = .ok out →
    out.itemErrors = frame.itemErrors ++ items.filterMap itemError
  | [], frame, out, h => by
    cases h
    exact (List.append_nil _).symm
  | item :: items, frame, out, h => by
    simp only [parseItems, bind, Except.bind] at h
    cases hp : parseMessage item with
    | error x =>
      rw [hp] at h
      cases h
    | ok parsed =>
      rw [hp] at h
      cases parsed with
      | ok m =>
        rw [parseItems_itemErrors h, List.filterMap_cons_none (by rw [itemError, hp])]
      | error e =>
        rw [parseItems_itemErrors h, List.filterMap_cons_some (b := e) (by rw [itemError, hp]), List.append_assoc]
        rfl

theorem parseFrame_itemErrors {τ : Type} {text : JsonText τ} {t : τ} {frame : ParsedFrame}
    (h : parseFrame text t = .ok (.ok frame)) {items : List Json} (hp : text.parse t = some (.array items)) :
    frame.itemErrors = items.filterMap itemError := by
  unfold parseFrame at h
  rw [hp] at h
  cases items with
  | nil => exact absurd h refuse_ne_ok
  | cons item items =>
    cases hi : parseItems (item :: items) { wasBatch := true } with
    | error x =>
      simp only [hi] at h
      cases h
    | ok out =>
      simp only [hi] at h
      cases h
      exact parseItems_itemErrors hi

/-- What the SDK relies on: `parse` discards what is not UTF-8, and `dump()` throws on nothing else. -/
structure JsonText.Lawful {τ : Type} (text : JsonText τ) : Prop where
  parse : ∀ t j, text.parse t = some j → j.validUtf8 = true
  dump : ∀ j, j.validUtf8 = true → ∃ t, text.dump j = .ok t

/-- **What `parse_frame` delivers and refuses.** -/
theorem parseFrame_spec {τ : Type} {text : JsonText τ} (htext : text.Lawful) (t : τ) :
    (∀ frame, parseFrame text t = .ok (.ok frame) → frame.Sound) ∧
      ∀ e, parseFrame text t = .ok (.error e) → e.validUtf8 = true := by
  unfold parseFrame
  split
  · refine ⟨fun frame h => (by cases h), fun e h => ?_⟩
    cases h
    rfl
  · exact ⟨fun frame h => absurd h refuse_ne_ok, fun e h => (refused_of_refuse (by decide) h).valid⟩
  · rename_i items _ hp
    have hv : validUtf8Items items = true := htext.parse t _ hp
    refine ⟨fun frame h => ?_, fun e h => ?_⟩
    · cases hi : parseItems items { wasBatch := true } with
      | error x =>
        rw [hi] at h
        cases h
      | ok out =>
        rw [hi] at h
        cases h
        exact parseItems_sound hv ⟨fun e he => (by cases he), fun r hr => (by cases hr), fun hs => (by cases hs)⟩ rfl hi
    · cases hi : parseItems items { wasBatch := true } with
      | error x =>
        rw [hi] at h
        cases h
      | ok out =>
        rw [hi] at h
        cases h
  · rename_i j _ _ hp
    obtain ⟨herror, hrequest⟩ := parseMessage_spec j
    cases hm : parseMessage j with
    | error x => exact ⟨fun frame h => (by cases h), fun e h => (by cases h)⟩
    | ok parsed =>
      cases parsed with
      | error e' =>
        refine ⟨fun frame h => (by cases h), fun e h => ?_⟩
        cases h
        exact (herror e' hm).valid
      | ok m =>
        refine ⟨fun frame h => ?_, fun e h => (by cases h)⟩
        cases h
        refine ⟨fun e he => (by cases he), fun r hr => ?_, fun _ => ⟨rfl, rfl⟩⟩
        obtain rfl : .request r = m := List.mem_singleton.1 (mem_requests.1 hr)
        exact hrequest r (htext.parse t j hp) hm

end Mcp
