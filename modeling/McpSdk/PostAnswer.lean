import McpSdk.PostReply
import McpSdk.Escape
import McpSdk.JsonDump
/-!
# PostAnswer — every frame handed to a session is answered with its own responses

`handles` is what keeps an exception out of the connection threads, and `Calm` what a thread needs to go on: whatever it
may still have to dump is UTF-8.  Under it no thread crashes, each serving thread can run its next section, and what it
answers in the end is the `Answer` its frame calls for.
-/
namespace Mcp
namespace Post

open Pool (madeBy)

variable {ω τ : Type} {text : JsonText τ}

/-! ## The condition -/

/-- **No exception leaves this section**: `parse_frame` returns, the notification is not a malformed built-in one, and
what the handler returns or throws is UTF-8. -/
def handles (text : JsonText τ) (s : State ω τ) : Pc ω τ → Bool
  | .parse _ body => (parseFrame text body).toOption.isSome
  | .deliver index _ (m :: _) => (s.sessions[index]?).all fun session => !session.malformedBuiltin m
  | .dispatch index _ r _ =>
    (s.sessions[index]?).all fun session => (session.router.findRequestHandler r.method).all fun handler =>
      (Session.respond r.id (session.runRequestHandler s.world r.params handler).1).validUtf8
  | _ => true

/-- What a thread is about to send is UTF-8. -/
def Pc.Sendable : Pc ω τ → Prop
  | .send _ _ response _ => response.validUtf8 = true
  | .emitError _ e => e.validUtf8 = true
  | .crashed => False
  | _ => True

theorem nullIdError_validUtf8 {e : Error} (h : e.validUtf8 = true) : (nullIdError e).validUtf8 = true := by
  simp [nullIdError, JsonRpcResponse.validUtf8, h]

theorem sessionIdRequired_validUtf8 : sessionIdRequired.validUtf8 = true := by decide

theorem methodNotFound_validUtf8 {r : JsonRpcRequest} (h : r.validUtf8 = true) :
    JsonRpcResponse.validUtf8
      { id := some r.id, error := some (Error.of .methodNotFound (bytes "Method not found: " ++ r.method)) } = true := by
  simp only [JsonRpcRequest.validUtf8, Bool.and_eq_true] at h
  have hmessage : Utf8.valid (bytes "Method not found: " ++ r.method) = true := Utf8.valid_append (by decide) h.2
  simp [JsonRpcResponse.validUtf8, Error.validUtf8, Error.of, h.1, hmessage]

theorem undeclaredGate_validUtf8 {gates : List (Bytes × Bool)} {method : Bytes} {e : Error}
    (hm : Utf8.valid method = true) (h : undeclaredGate gates method = some e) : e.validUtf8 = true := by
  have hmessage : Utf8.valid (bytes "capability not supported: " ++ method) = true := Utf8.valid_append (by decide) hm
  unfold undeclaredGate at h
  split at h
  · rw [← Option.some.inj h]
    simp [Error.validUtf8, Error.of, hmessage]
  · cases h

theorem rejection_validUtf8 {session : Session ω} {r : JsonRpcRequest} {e : Error} (hr : r.validUtf8 = true)
    (h : session.checkIncomingRequest r = some e) : (Session.rejection r e).validUtf8 = true := by
  simp only [JsonRpcRequest.validUtf8, Bool.and_eq_true] at hr
  have he : e.validUtf8 = true := by
    unfold Session.checkIncomingRequest at h
    split at h
    · cases h
    all_goals
      split at h
      · cases h
      · split at h
        · rw [← Option.some.inj h]
          rfl
        · exact undeclaredGate_validUtf8 hr.2 h
  simp [Session.rejection, JsonRpcResponse.validUtf8, hr.1, he]

theorem sound_of_carries (htext : text.Lawful) {v : View τ} {frame : ParsedFrame} (h : v.Carries text frame) :
    frame.Sound := by
  obtain ⟨body, -, hp⟩ := h
  exact (parseFrame_spec htext body).1 frame hp

/-- The next request of a frame in service is one `parse_frame` let in. -/
theorem request_valid (htext : text.Lawful) {v : View τ} {frame : ParsedFrame} {handled messages : List Message}
    {r : JsonRpcRequest} (hs : Serving text v frame handled) (hf : frame.messages = handled ++ .request r :: messages) :
    r.validUtf8 = true :=
  (sound_of_carries htext hs.carries).requests r (mem_requests.2 (by rw [hf]; simp))

/-- Sections a serving thread still has to run before its answer, at most. -/
def Pc.remaining : Pc ω τ → Nat
  | .itemErrors _ frame errors => errors.length + 3 * frame.messages.length + 3
  | .dispatch _ _ _ messages => 3 * messages.length + 4
  | .send _ _ _ messages => 3 * messages.length + 3
  | .deliver _ _ messages => 3 * messages.length + 2
  | .finish _ => 1
  | _ => 0

theorem isArray_responseToJson (r : JsonRpcResponse) : (responseToJson r).isArray = false := by
  unfold responseToJson
  cases r.error <;> rfl

/-- **The answer a frame calls for**: one response a request, in order and under its id; 202 when there is no request
and no invalid item, else 200 with the InvalidRequest errors of the invalid items and the responses, in an array exactly
when the frame was a batch. -/
structure Answer (text : JsonText τ) (body : τ) (frame : ParsedFrame) (responses : List JsonRpcResponse)
    (reply : Reply τ) : Prop where
  ids : responses.map JsonRpcResponse.id = (requests frame.messages).map (fun r => some r.id)
  errors : ∀ items, text.parse body = some (.array items) → frame.itemErrors = items.filterMap itemError
  invalidRequest : ∀ e ∈ frame.itemErrors, e.code = ErrorCode.invalidRequest.toInt
  accepted : reply = .accepted ↔ requests frame.messages = [] ∧ frame.itemErrors = []
  answered : ¬ (requests frame.messages = [] ∧ frame.itemErrors = []) →
    ∃ j t, reply = .answered t ∧ text.dump j = .ok t ∧ j.isArray = frame.wasBatch ∧
      (if frame.wasBatch then j = .array (errorJsons frame.itemErrors ++ responses.map responseToJson)
        else [j] = errorJsons frame.itemErrors ++ responses.map responseToJson)

theorem answers_eq_nil_iff {frame : ParsedFrame} {responses : List JsonRpcResponse}
    (hids : responses.map JsonRpcResponse.id = (requests frame.messages).map (fun r => some r.id)) :
    errorJsons frame.itemErrors ++ responses.map responseToJson = [] ↔
      requests frame.messages = [] ∧ frame.itemErrors = [] := by
  have hlength : responses.length = (requests frame.messages).length := by simpa using congrArg List.length hids
  rw [List.append_eq_nil_iff, errorJsons, List.map_eq_nil_iff, List.map_eq_nil_iff, ← List.length_eq_zero_iff (l := responses),
    hlength, List.length_eq_zero_iff, and_comm]

/-- What was captured for a single message is at most one response. -/
theorem single_answer {frame : ParsedFrame} (hs : frame.Sound) (hb : frame.wasBatch = false)
    {responses : List JsonRpcResponse}
    (hids : responses.map JsonRpcResponse.id = (requests frame.messages).map (fun r => some r.id)) {first : Json}
    {rest : List Json} (h : errorJsons frame.itemErrors ++ responses.map responseToJson = first :: rest) :
    rest = [] ∧ first.isArray = false := by
  obtain ⟨herrors, hone⟩ := hs.single hb
  have hlength : responses.length = (requests frame.messages).length := by simpa using congrArg List.length hids
  have hle : (requests frame.messages).length ≤ 1 := hone ▸ List.length_filterMap_le _ _
  rw [herrors] at h
  rcases responses with _ | ⟨r, _ | ⟨r', rs⟩⟩
  · cases h
  · cases h
    exact ⟨rfl, isArray_responseToJson r⟩
  · simp only [List.length_cons] at hlength
    omega

theorem Replied.answer (htext : text.Lawful) {body : τ} {frame : ParsedFrame}
    (hp : parseFrame text body = .ok (.ok frame)) {responses : List JsonRpcResponse} {reply : Reply τ}
    (h : Replied text frame responses reply) : Answer text body frame responses reply := by
  have hs : frame.Sound := (parseFrame_spec htext body).1 frame hp
  have hnil := answers_eq_nil_iff h.ids
  have hreply := h.reply
  cases hj : errorJsons frame.itemErrors ++ responses.map responseToJson with
  | nil =>
    rw [hj] at hreply hnil
    exact ⟨h.ids, fun items => parseFrame_itemErrors hp, fun e he => (hs.errors e he).code,
      ⟨fun _ => hnil.1 rfl, fun _ => hreply⟩, fun hn => absurd (hnil.1 rfl) hn⟩
  | cons first rest =>
    rw [hj] at hreply hnil
    obtain ⟨t, rfl, ht⟩ := hreply
    refine ⟨h.ids, fun items => parseFrame_itemErrors hp, fun e he => (hs.errors e he).code,
      ⟨fun ha => (by cases ha), fun he => absurd (hnil.2 he) (List.cons_ne_nil _ _)⟩, fun _ => ⟨_, t, rfl, ht, ?_⟩⟩
    cases hb : frame.wasBatch with
    | true => exact ⟨rfl, if_pos rfl ▸ congrArg Json.array hj.symm⟩
    | false =>
      obtain ⟨rfl, harray⟩ := single_answer hs hb h.ids hj
      exact ⟨harray, hj.symm⟩

/-- A thread that was handed a frame is still serving it, or has answered it with what it made. -/
theorem ThreadInv.delivered {n : Nat} {v : View τ} {pc : Pc ω τ} {frame : ParsedFrame} (h : ThreadInv text n v pc)
    (hp : pc.Sendable) (hd : frame ∈ v.delivered) :
    v.Carries text frame ∧ (v.replies = [] ∨ ∃ reply, v.replies = [reply] ∧ Replied text frame v.produced reply) := by
  have hone : ∀ {frame'}, v.delivered = [frame'] → frame = frame' := fun he => List.mem_singleton.1 (he ▸ hd)
  have hfresh : ¬ v.Fresh := fun hf => List.not_mem_nil (hf.delivered ▸ hd)
  have hserving : ∀ {frame' handled}, Serving text v frame' handled → v.Carries text frame ∧ v.replies = [] :=
    fun hs => by
      rw [hone hs.delivered]
      exact ⟨hs.carries, hs.replies⟩
  have hsettled : Settled text v → v.Carries text frame ∧ ∃ reply, v.replies = [reply] ∧ Replied text frame v.produced reply := by
    rintro ⟨reply, hr, ⟨frame', he, hc, hw⟩ | ⟨he, -, -⟩⟩
    · rw [hone he]
      exact ⟨hc, reply, hr, hw⟩
    · exact absurd (he ▸ hd) List.not_mem_nil
  cases pc with
  | done | destruct => exact (hsettled h).imp_right .inr
  | emitError index e => exact (hsettled h.1).imp_right .inr
  | crashed => exact absurd hp not_false
  | parse target body => exact absurd h.1 hfresh
  | construct index frame' => exact absurd h.1 hfresh
  | itemErrors index frame' errors =>
    rw [hone h.1]
    exact ⟨h.2.2.2.1, .inl h.2.1⟩
  | deliver index frame' messages =>
    obtain ⟨-, handled, -, hs⟩ := h
    exact (hserving hs).imp_right .inl
  | dispatch index frame' q messages =>
    obtain ⟨-, handled, -, hs⟩ := h
    exact (hserving hs).imp_right .inl
  | send index frame' response messages =>
    obtain ⟨-, handled, q, -, -, hs⟩ := h
    exact (hserving hs).imp_right .inl
  | finish frame' => exact (hserving (h : Serving text v frame' frame'.messages)).imp_right .inl

def pingCall (id : Json) : Json :=
  .object [(bytes "id", id), (bytes "jsonrpc", .string (bytes "2.0")), (bytes "method", .string methods.kPing)]

def bodyText (j : Json) : Bytes := j.compact (fun _ => [])

/-- A `ping`, an invalid item and another `ping`. -/
def mixedBatch : Json := .array [pingCall (.numberUnsigned 1), .numberUnsigned 7, pingCall (.string (bytes "b"))]

def singlePing : Json := pingCall (.string (bytes "a"))

/-- A `ping` and a malformed progress notification. -/
def malformedBatch : Json := .array [pingCall (.numberUnsigned 1), Session.textTotal]

def sampleText : JsonText Bytes :=
  tableText (fun _ => []) ([mixedBatch, singlePing, malformedBatch].map fun j => (bodyText j, j))

def sampleServer : Session Unit := .mkServer { serverInfo := { name := bytes "s", version := bytes "1" } }

def Pc.isCrashed : Pc ω τ → Bool
  | .crashed => true
  | _ => false

end Post
end Mcp
