import McpSdk.PostAnswer
import McpSdk.LineTransport
import McpSdk.Reading
/-!
# Encodable — responses that `dump()` refuses

The router catches what a handler throws, but what the handler returned is encoded later: in `send_message`, or, over
HTTP, in `PostCapture::body` for all responses of a POST at once.  There a string that is not UTF-8 makes `dump()` throw,
and nothing catches it: the request is not answered.
-/
namespace Mcp

variable {ω τ : Type}

/-- What `dump()` does in its strict mode: it throws on a string that is not UTF-8, and on nothing else. -/
structure JsonText.Strict (text : JsonText τ) : Prop extends text.Lawful where
  refuses : ∀ j : Json, j.validUtf8 = false → ∃ x, text.dump j = .error x

theorem tableText_strict (double : Double → Bytes) (table : List (Bytes × Json)) : (tableText double table).Strict where
  toLawful := tableText_lawful double table
  refuses := fun _ h => ⟨_, if_neg (Bool.eq_false_iff.1 h)⟩

theorem JsonText.Strict.dump_iff {text : JsonText τ} (htext : text.Strict) (j : Json) :
    (∃ t, text.dump j = .ok t) ↔ j.validUtf8 = true := by
  constructor
  · rintro ⟨t, ht⟩
    by_contra hj
    obtain ⟨x, hx⟩ := htext.refuses j (by simpa using hj)
    rw [hx] at ht
    cases ht
  · exact htext.dump j

/-! ## A response and its parts -/

/-- The strings of what a handler returned or threw are UTF-8. -/
def encodable : Except Exn (Result Json) → Bool
  | .ok (.ok result) => result.validUtf8
  | .ok (.error e) => e.validUtf8
  | .error (.mcp e) => e.validUtf8
  | .error e => Utf8.valid e.what

theorem respond_validUtf8 (id : RequestId) (out : Except Exn (Result Json)) :
    (Session.respond id out).validUtf8 = (id.validUtf8 && encodable out) := by
  rcases out with (x | x | x) | (x | x) <;>
    simp [Session.respond, JsonRpcResponse.validUtf8, encodable, Error.validUtf8, Error.of]

theorem Error.validUtf8_of_toJson {e : Error} (h : e.toJson.validUtf8 = true) : e.validUtf8 = true := by
  obtain ⟨-, hmessage, hdata⟩ := e.find_toJson
  have hm : (Json.string e.message).validUtf8 = true := Json.validUtf8_find h hmessage
  simp only [Error.validUtf8, Bool.and_eq_true]
  refine ⟨hm, ?_⟩
  cases hd : e.data with
  | none => rfl
  | some d => exact Json.validUtf8_find h (hdata.trans hd)

/-- A response with one of result and error is UTF-8 exactly when its JSON is. -/
theorem validUtf8_responseToJson {r : JsonRpcResponse} (hone : r.error.isSome = true → r.result = none) :
    (responseToJson r).validUtf8 = r.validUtf8 := by
  rw [Bool.eq_iff_iff]
  refine ⟨fun h => ?_, responseToJson_validUtf8⟩
  obtain ⟨-, -, hid⟩ := responseToJson_head r
  have hidValid : r.id.all RequestId.validUtf8 = true := by
    cases hi : r.id with
    | none => rfl
    | some id =>
      rw [hi] at hid
      rw [Option.all_some, ← requestIdToJson_validUtf8]
      exact Json.validUtf8_find h hid
  cases he : r.error with
  | some e =>
    have hr : r.result = none := hone (by rw [he]; rfl)
    have herror := Error.validUtf8_of_toJson (Json.validUtf8_find h (responseToJson_error he).2)
    simp [JsonRpcResponse.validUtf8, hidValid, hr, he, herror]
  | none =>
    have hresult := Json.validUtf8_find h (responseToJson_result he).1
    cases hr : r.result with
    | none => simp [JsonRpcResponse.validUtf8, hidValid, hr, he]
    | some v =>
      rw [hr, Option.getD_some] at hresult
      simp [JsonRpcResponse.validUtf8, hidValid, hr, he, hresult]

theorem respond_one (id : RequestId) (out : Except Exn (Result Json)) :
    (Session.respond id out).error.isSome = true → (Session.respond id out).result = none := by
  rcases out with (x | x | x) | (x | x) <;> simp [Session.respond]

/-! ## Over `send_message` -/

namespace Session

/-- What answers a request: the error of the gate, of a missing handler, or what the handler returned or threw. -/
def outcome (s : Session ω) (w : ω) (r : JsonRpcRequest) : Except Exn (Result Json) :=
  let s := s.protectId r
  match s.checkIncomingRequest r with
  | some e => .ok (.error e)
  | none =>
    match s.router.findRequestHandler r.method with
    | none => .ok (.error (Error.of .methodNotFound (bytes "Method not found: " ++ r.method)))
    | some handler => (s.runRequestHandler w r.params handler).1

/-- `send_message` over a transport that writes what `serialize_message` makes. -/
def sendMessage (text : JsonText τ) (m : Message) : Call (List τ) := fun wire =>
  match serializeMessage text m with
  | .ok t => (wire ++ [t], none)
  | .error x => (wire, some (.json x))

def perform (text : JsonText τ) (effect : Effect) : Call (List τ) := fun wire =>
  match effect with
  | .send m => sendMessage text m wire
  | _ => (wire, none)

/-- What `handle_message` of a request puts on the wire, and the exception that leaves it. -/
def serveRequest (text : JsonText τ) (s : Session ω) (w : ω) (r : JsonRpcRequest) : List τ × Option Exn :=
  match each (perform text) (s.handleRequest w r).effects [] with
  | (wire, some x) => (wire, some x)
  | (wire, none) => (wire, (s.handleRequest w r).escaped)

/-- One response with the request's id is on the wire, and no exception has left `handle_message`. -/
def Answers (text : JsonText τ) (s : Session ω) (w : ω) (r : JsonRpcRequest) : Prop :=
  ∃ response t, serveRequest text s w r = ([t], none) ∧ response.id = some r.id ∧
    text.dump (responseToJson response) = .ok t

theorem handleRequest_effects (s : Session ω) (w : ω) (r : JsonRpcRequest) :
    (s.handleRequest w r).escaped = none ∧
      ((s.handleRequest w r).effects = [.send (.response (respond r.id (s.outcome w r)))] ∨
        (s.handleRequest w r).effects = [.dispatch r.method, .send (.response (respond r.id (s.outcome w r)))] ∨
        (s.handleRequest w r).effects =
          [.dispatch r.method, .invoke r.method, .send (.response (respond r.id (s.outcome w r)))]) := by
  unfold handleRequest outcome
  dsimp only
  cases (s.protectId r).checkIncomingRequest r with
  | some e => exact ⟨rfl, .inl rfl⟩
  | none =>
    unfold dispatchRequest
    cases (s.protectId r).router.findRequestHandler r.method with
    | none => exact ⟨rfl, .inr (.inl rfl)⟩
    | some handler => exact ⟨rfl, .inr (.inr rfl)⟩

/-- A request's response is sent once, and nothing else. -/
theorem serveRequest_eq (text : JsonText τ) (s : Session ω) (w : ω) (r : JsonRpcRequest) :
    serveRequest text s w r =
      match text.dump (responseToJson (respond r.id (s.outcome w r))) with
      | .ok t => ([t], none)
      | .error x => ([], some (.json x)) := by
  obtain ⟨hescaped, heffects⟩ := handleRequest_effects s w r
  have hwire : each (perform text) (s.handleRequest w r).effects [] =
      each (perform text) [.send (.response (respond r.id (s.outcome w r)))] [] := by
    rcases heffects with h | h | h
    · rw [h]
    · rw [h]
      rfl
    · rw [h]
      rfl
  unfold serveRequest
  rw [hescaped, hwire]
  simp only [each, perform, sendMessage, serializeMessage, messageToJson]
  cases text.dump (responseToJson (respond r.id (s.outcome w r))) with
  | ok t => rfl
  | error x => rfl

theorem answers_iff {text : JsonText τ} (htext : text.Strict) (s : Session ω) (w : ω) (r : JsonRpcRequest) :
    Answers text s w r ↔ r.id.validUtf8 = true ∧ encodable (s.outcome w r) = true := by
  rw [← Bool.and_eq_true, ← respond_validUtf8, ← validUtf8_responseToJson (respond_one _ _), ← htext.dump_iff]
  unfold Answers
  rw [serveRequest_eq]
  constructor
  · rintro ⟨response, t, hserve, -, -⟩
    cases ht : text.dump (responseToJson (respond r.id (s.outcome w r))) with
    | ok t => exact ⟨t, rfl⟩
    | error x =>
      rw [ht] at hserve
      cases hserve
  · rintro ⟨t, ht⟩
    exact ⟨respond r.id (s.outcome w r), t, by rw [ht], respond_id r.id _, ht⟩

end Session

/-! ## Over HTTP -/

namespace Post

open Pool (madeBy)

/-- What the handler of a `dispatch` section returns or throws is UTF-8. -/
def returnsText (s : State ω τ) : Pc ω τ → Bool
  | .dispatch index _ r _ =>
    (s.sessions[index]?).all fun session => (session.router.findRequestHandler r.method).all fun handler =>
      encodable (session.runRequestHandler s.world r.params handler).1
  | _ => true

/-- `returnsText` of the sections of thread `i`. -/
def stepReturnsText (i : Nat) (p : Pool (State ω τ) (Pc ω τ)) : Label ω τ → Bool
  | .step j _ => j != i || (p.threads[i]?).all (returnsText p.shared)
  | _ => true

def Pc.sending : Pc ω τ → List JsonRpcResponse
  | .send _ _ response _ => [response]
  | _ => []

/-- The responses thread `i` has made, the one it is about to send included. -/
def made (p : Pool (State ω τ) (Pc ω τ)) (i : Nat) : List JsonRpcResponse :=
  madeBy i p.shared.produced ++ (p.threads[i]?).elim [] Pc.sending

def AllText (responses : List JsonRpcResponse) : Prop := ∀ r ∈ responses, (responseToJson r).validUtf8 = true

variable {text : JsonText τ}

theorem allText_snoc {responses : List JsonRpcResponse} {r : JsonRpcResponse} :
    AllText (responses ++ [r]) ↔ AllText responses ∧ (responseToJson r).validUtf8 = true := by
  simp [AllText, or_imp, forall_and]

theorem writeBadRequest_made (s : State ω τ) (i : Nat) (e : Error) {next : Pc ω τ} (h : next.sending = []) :
    (writeBadRequest text s i e next).1.produced = s.produced ∧ (writeBadRequest text s i e next).2.sending = [] := by
  unfold writeBadRequest
  cases serializeMessage text (.response (nullIdError e)) with
  | error x => exact ⟨rfl, rfl⟩
  | ok t => exact ⟨rfl, h⟩

theorem routeFrame_made (s : State ω τ) (i : Nat) (frame : ParsedFrame) (target : Target ω) :
    (routeFrame text s i frame target).1.produced = s.produced ∧ (routeFrame text s i frame target).2.sending = [] := by
  cases target with
  | transport index | session index | unknown => exact ⟨rfl, rfl⟩
  | fresh created =>
    unfold routeFrame
    dsimp only
    split
    · cases created <;> exact ⟨rfl, rfl⟩
    · exact writeBadRequest_made s i _ rfl

/-- The next request of a frame in service makes `respond` of what answers it. -/
theorem responseToJson_respond {r : JsonRpcRequest} (hr : r.validUtf8 = true) (out : Except Exn (Result Json)) :
    (responseToJson (Session.respond r.id out)).validUtf8 = encodable out := by
  simp only [JsonRpcRequest.validUtf8, Bool.and_eq_true] at hr
  rw [validUtf8_responseToJson (respond_one _ _), respond_validUtf8, hr.1, Bool.true_and]

theorem dispatch_made {session : Session ω} {w : ω} {r : JsonRpcRequest} (hr : r.validUtf8 = true) :
    (responseToJson (session.dispatchRequest w r).1).validUtf8 =
      (session.router.findRequestHandler r.method).all (fun handler => encodable (session.runRequestHandler w r.params handler).1) := by
  unfold Session.dispatchRequest
  cases session.router.findRequestHandler r.method with
  | none => exact responseToJson_validUtf8 (methodNotFound_validUtf8 hr)
  | some handler => exact responseToJson_respond hr _

/-- **What a section adds to the responses of thread `i`**: a `dispatch` of a request adds one, UTF-8 exactly when its
handler returned so; a rejection at the gate is always UTF-8; no other section adds any. -/
def Adds (i : Nat) (s : State ω τ) (pc : Pc ω τ) (r : State ω τ × Pc ω τ) : Prop :=
  AllText (madeBy i r.1.produced ++ r.2.sending) ↔ AllText (madeBy i s.produced ++ pc.sending) ∧ returnsText s pc = true

/-- A section that makes no response. -/
theorem Adds.nothing {i : Nat} {s : State ω τ} {pc : Pc ω τ} {r : State ω τ × Pc ω τ} (hproduced : r.1.produced = s.produced)
    (hsending : r.2.sending = []) (hbefore : pc.sending = []) (hreturns : returnsText s pc = true) : Adds i s pc r := by
  unfold Adds
  rw [hproduced, hsending, hbefore, hreturns]
  simp

section Sections

variable {s : State ω τ} {i index : Nat} {now : TimePoint} {frame : ParsedFrame} {r : State ω τ × Pc ω τ}

theorem parse_made {target : Target ω} {body : τ} (ha : advance text i now s (.parse target body) = some r) :
    Adds i s (.parse target body) r := by
  simp only [advance] at ha
  cases hparse : parseFrame text body with
  | error x =>
    rw [hparse] at ha
    cases ha
    exact .nothing rfl rfl rfl rfl
  | ok parsed =>
    rw [hparse] at ha
    cases parsed with
    | error e =>
      cases ha
      have hnext : (afterRefusal e target : Pc ω τ).sending = [] := by cases target <;> rfl
      exact .nothing (writeBadRequest_made s i e hnext).1 (writeBadRequest_made s i e hnext).2 rfl rfl
    | ok frame =>
      cases ha
      exact .nothing (routeFrame_made s i frame target).1 (routeFrame_made s i frame target).2 rfl rfl

theorem emitError_made {e : Error} (ha : advance text i now s (.emitError index e) = some r) :
    Adds i s (.emitError index e) r := by
  obtain ⟨session, -, hr⟩ := Option.map_eq_some_iff.1 ha
  cases hs : sendAll text i index (session.onTransportError e) s with
  | error x =>
    rw [hs] at hr
    cases hr
    exact .nothing rfl rfl rfl rfl
  | ok s' =>
    rw [hs] at hr
    cases hr
    exact .nothing (sendAll_logs hs).1 rfl rfl rfl

theorem itemErrors_made {errors : List Error} (ha : advance text i now s (.itemErrors index frame errors) = some r) :
    Adds i s (.itemErrors index frame errors) r := by
  cases errors with
  | nil =>
    cases ha
    exact .nothing rfl rfl rfl rfl
  | cons e errors =>
    cases ha
    apply Adds.nothing _ rfl rfl rfl
    cases hcap : s.capture i (responseToJson (nullIdError e)) with
    | none => rfl
    | some s' =>
      obtain ⟨captured, -, rfl⟩ := Option.map_eq_some_iff.1 hcap
      rfl

theorem deliver_made (htext : text.Lawful) {messages : List Message}
    (hinv : ThreadInv (ω := ω) text s.sessions.length (s.view i) (.deliver index frame messages))
    (ha : advance text i now s (.deliver index frame messages) = some r) : Adds i s (.deliver index frame messages) r := by
  obtain ⟨-, handled, hframe, hserving⟩ := hinv
  cases messages with
  | nil =>
    cases ha
    exact .nothing rfl rfl rfl rfl
  | cons m messages =>
    cases m with
    | notification n | response x =>
      obtain ⟨session, -, hr⟩ := Option.map_eq_some_iff.1 ha
      dsimp only at hr
      subst hr
      apply Adds.nothing rfl _ rfl rfl
      dsimp only
      split <;> rfl
    | request q =>
      obtain ⟨session, -, hr⟩ := Option.map_eq_some_iff.1 ha
      dsimp only at hr
      cases hg : session.checkIncomingRequest q with
      | none =>
        rw [hg] at hr
        cases hr
        exact .nothing rfl rfl rfl rfl
      | some e =>
        rw [hg] at hr
        cases hr
        have hvalid := responseToJson_validUtf8 (rejection_validUtf8 (request_valid htext hserving hframe) hg)
        simp only [Adds, Pc.sending, State.setSession, List.append_nil, returnsText, and_true]
        rw [allText_snoc, and_iff_left hvalid]

theorem dispatchSection_made (htext : text.Lawful) {q : JsonRpcRequest} {messages : List Message}
    (hinv : ThreadInv (ω := ω) text s.sessions.length (s.view i) (.dispatch index frame q messages))
    (ha : advance text i now s (.dispatch index frame q messages) = some r) :
    Adds i s (.dispatch index frame q messages) r := by
  obtain ⟨-, handled, hframe, hserving⟩ := hinv
  obtain ⟨session, hsession, hr⟩ := Option.map_eq_some_iff.1 ha
  cases hr
  simp only [Adds, Pc.sending, State.setSession, List.append_nil, returnsText, hsession, Option.all_some]
  rw [allText_snoc, dispatch_made (request_valid htext hserving hframe)]

theorem send_made {response : JsonRpcResponse} {messages : List Message}
    (hinv : ThreadInv (ω := ω) text s.sessions.length (s.view i) (.send index frame response messages))
    (ha : advance text i now s (.send index frame response messages) = some r) :
    Adds i s (.send index frame response messages) r := by
  obtain ⟨-, handled, q, -, -, hserving⟩ := hinv
  obtain ⟨s', hs, -, -⟩ := send_response text (hserving.captured_produce response) index response
  simp only [advance, hs, Option.some.injEq] at ha
  subst ha
  simp only [Adds, Pc.sending, (send_logs hs).1, State.produce, Pool.madeBy_append_self, List.append_nil, returnsText, and_true]

theorem finish_made (ha : advance text i now s (.finish frame) = some r) : Adds i s (.finish frame) r := by
  simp only [advance] at ha
  split at ha
  · cases ha
    exact .nothing rfl rfl rfl rfl
  · cases ha
    apply Adds.nothing _ _ rfl rfl
    · split <;> rfl
    · split <;> rfl

theorem advance_made (htext : text.Lawful) {pc : Pc ω τ} (hinv : ThreadInv text s.sessions.length (s.view i) pc)
    (ha : advance text i now s pc = some r) : Adds i s pc r := by
  cases pc with
  | done | crashed => cases ha
  | parse target body => exact parse_made ha
  | emitError index e => exact emitError_made ha
  | construct index frame =>
    cases ha
    exact .nothing rfl rfl rfl rfl
  | itemErrors index frame errors => exact itemErrors_made ha
  | deliver index frame messages => exact deliver_made htext hinv ha
  | dispatch index frame q messages => exact dispatchSection_made htext hinv ha
  | send index frame response messages => exact send_made hinv ha
  | finish frame => exact finish_made ha
  | destruct =>
    cases ha
    exact .nothing rfl rfl rfl rfl

end Sections

theorem step_made (htext : text.Lawful) {p q : Pool (State ω τ) (Pc ω τ)} {label : Label ω τ} (h : Served text p)
    (hs : step text p label = some q) (i : Nat) :
    AllText (made q i) ↔ AllText (made p i) ∧ stepReturnsText i p label = true := by
  cases label with
  | post target body =>
    simp only [step] at hs
    split at hs
    · cases hs
      have hmade : made (p.spawn { p.shared with posts := p.shared.posts ++ [body] } (.parse target body)) i = made p i := by
        unfold made Pool.spawn
        dsimp only
        congr 1
        by_cases hi : i < p.threads.length
        · rw [List.getElem?_append_left hi]
        · rw [List.getElem?_append_right (Nat.le_of_not_lt hi), List.getElem?_eq_none (Nat.le_of_not_lt hi)]
          cases i - p.threads.length <;> rfl
      rw [hmade]
      simp [stepReturnsText]
    · cases hs
  | sendOther index m =>
    simp only [step] at hs
    split at hs
    · cases hs
    · obtain ⟨t, -, rfl⟩ := Option.map_eq_some_iff.1 hs
      simp [stepReturnsText, made, State.enqueue]
  | other index session world =>
    cases hs
    simp [stepReturnsText, made, State.setSession]
  | step j now =>
    obtain ⟨pc, s', pc', hpc, ha, rfl⟩ := Pool.stepAt_eq_some.1 hs
    by_cases hij : j = i
    · subst hij
      have hj : j < p.threads.length := (List.getElem?_eq_some_iff.1 hpc).1
      have hmade := advance_made htext (h.thread j pc hpc) ha
      simpa [Adds, made, stepReturnsText, hpc, List.getElem?_set_self hj] using hmade
    · have hview := (advance_kept (h.thread j pc hpc) ha).own.view i (Ne.symm hij)
      have hproduced : madeBy i s'.produced = madeBy i p.shared.produced := congrArg View.produced hview
      simp [made, stepReturnsText, hij, hproduced, List.getElem?_set_ne hij]

/-- **The responses a thread has made are UTF-8 exactly when its handlers returned so**, whatever ran in between. -/
theorem run_made (htext : text.Lawful) {i : Nat} : ∀ {l : List (Label ω τ)} {p q : Pool (State ω τ) (Pc ω τ)}, Served text p →
    Lts.run (step text) p l = some q →
    (AllText (made q i) ↔
      AllText (made p i) ∧ Lts.Meets (step text) (fun p label => stepReturnsText i p label = true) p l)
  | [], p, q, _, hr => by
    cases hr
    simp [Lts.Meets]
  | label :: l, p, q, h, hr => by
    obtain ⟨t, ht, hr⟩ := Lts.run_cons_eq_some.1 hr
    rw [run_made htext (served_step h ht) hr, step_made htext h ht, Lts.Meets, and_assoc]
    simp [ht]

/-- **The answer of a served frame**: the thread has gone on, and its one answer carries one response a request, in order
and under its id. -/
def Served.Answers (text : JsonText τ) (p q : Pool (State ω τ) (Pc ω τ)) (i : Nat) (frame : ParsedFrame) : Prop :=
  q.threads[i]? = some .destruct ∧
    ∃ reply, madeBy i q.shared.replies = [reply] ∧ Replied text frame (madeBy i p.shared.produced) reply

/-- The body of an answer is UTF-8 exactly when the responses in it are. -/
theorem captureBody_validUtf8 {frame : ParsedFrame} (hs : frame.Sound) {responses : List JsonRpcResponse}
    (hids : responses.map JsonRpcResponse.id = (requests frame.messages).map (fun r => some r.id)) {first : Json}
    {rest : List Json} (h : errorJsons frame.itemErrors ++ responses.map responseToJson = first :: rest) :
    (captureBody frame.wasBatch first rest).validUtf8 = true ↔ AllText responses := by
  have hall : (∀ j ∈ first :: rest, j.validUtf8 = true) ↔ AllText responses := by
    rw [← h]
    constructor
    · intro hj r hr
      exact hj _ (List.mem_append_right _ (List.mem_map_of_mem hr))
    · intro hr j hj
      rcases List.mem_append.1 hj with hj | hj
      · obtain ⟨e, he, rfl⟩ := List.mem_map.1 hj
        exact responseToJson_validUtf8 (nullIdError_validUtf8 (hs.errors e he).valid)
      · obtain ⟨r, hmem, rfl⟩ := List.mem_map.1 hj
        exact hr r hmem
  rw [← hall, captureBody]
  cases hb : frame.wasBatch with
  | true => exact ⟨fun hv => validUtf8_of_mem_items hv, fun hv => validUtf8Items_of_forall hv⟩
  | false =>
    obtain ⟨rfl, -⟩ := single_answer hs hb hids h
    simp

theorem finish_answers_iff (htext : text.Strict) {p q : Pool (State ω τ) (Pc ω τ)} (h : Served text p) {i : Nat}
    {frame : ParsedFrame} (hpc : p.threads[i]? = some (.finish frame)) {now : TimePoint}
    (hs : step text p (.step i now) = some q) : Served.Answers text p q i frame ↔ AllText (made p i) := by
  obtain ⟨pc, s', pc', hpc', ha, rfl⟩ := Pool.stepAt_eq_some.1 hs
  rw [hpc] at hpc'
  cases hpc'
  have hi : i < p.threads.length := (List.getElem?_eq_some_iff.1 hpc).1
  have hserving : Serving text (p.shared.view i) frame frame.messages := h.thread i _ hpc
  have hcaptured : p.shared.captureTable.lookup i = _ := hserving.captured
  have hmade : made p i = (p.shared.view i).produced := by simp [made, hpc, Pc.sending, State.view]
  have hwritten : ∀ reply : Reply τ, (s', pc') = (p.shared.reply i reply, .destruct) →
      Replied text frame (p.shared.view i).produced reply → Served.Answers text p ⟨s', p.threads.set i pc'⟩ i frame := by
    intro reply heq hreplied
    cases heq
    refine ⟨List.getElem?_set_self hi, reply, ?_, hreplied⟩
    have hreplies : madeBy i p.shared.replies = [] := hserving.replies
    simp [State.reply, hreplies]
  rw [hmade]
  simp only [advance] at ha
  rw [hcaptured, Option.getD_some, Option.some.injEq] at ha
  cases hc : errorJsons frame.itemErrors ++ (p.shared.view i).produced.map responseToJson with
  | nil =>
    rw [hc] at ha
    have hreplied : Replied text frame (p.shared.view i).produced .accepted := ⟨hserving.ids, by rw [hc]⟩
    obtain ⟨-, hproduced⟩ := List.append_eq_nil_iff.1 hc
    rw [List.map_eq_nil_iff.1 hproduced]
    exact ⟨fun _ r hr => (by cases hr), fun _ => hwritten _ ha.symm hreplied⟩
  | cons first rest =>
    rw [hc] at ha
    have hbody := captureBody_validUtf8 (sound_of_carries htext.toLawful hserving.carries) hserving.ids hc
    rw [← hbody, ← htext.dump_iff]
    simp only at ha
    constructor
    · rintro ⟨hdestruct, -⟩
      cases ht : text.dump (captureBody frame.wasBatch first rest) with
      | ok t => exact ⟨t, rfl⟩
      | error x =>
        rw [ht] at ha
        cases ha
        rw [List.getElem?_set_self hi] at hdestruct
        cases hdestruct
    · rintro ⟨t, ht⟩
      rw [ht] at ha
      exact hwritten _ ha.symm ⟨hserving.ids, by rw [hc]; exact ⟨t, rfl, ht⟩⟩

end Post

/-- **A request is answered exactly when what answers it is UTF-8.**  Over `send_message`: one response with its id is
written and no exception leaves.  Over HTTP: a POST whose messages have been handled is answered with one response a request
exactly when the handlers it ran, in any interleaving with other threads, returned UTF-8. -/
theorem responses_encoded_iff {text : JsonText τ} (htext : text.Strict) :
    (∀ (s : Session ω) (w : ω) (r : JsonRpcRequest),
      s.Answers text w r ↔ r.id.validUtf8 = true ∧ encodable (s.outcome w r) = true) ∧
    ∀ (sessions : List (Session ω)) (world : ω) (l : List (Post.Label ω τ)) (p q : Pool (Post.State ω τ) (Post.Pc ω τ))
      (i : Nat) (frame : ParsedFrame) (now : TimePoint),
      Lts.run (Post.step text) (Post.init sessions world) l = some p → p.threads[i]? = some (.finish frame) →
      Post.step text p (.step i now) = some q →
      (Post.Served.Answers text p q i frame ↔
        Lts.Meets (Post.step text) (fun p label => Post.stepReturnsText i p label = true) (Post.init sessions world) l) := by
  refine ⟨fun s w r => Session.answers_iff htext s w r, fun sessions world l p q i frame now hr hpc hs => ?_⟩
  have hinit : Post.Served text (Post.init sessions world) := Post.served_init sessions world
  have hserved : Post.Served text p := Lts.run_invariant (fun _ _ _ h hst => Post.served_step h hst) hinit hr
  rw [Post.finish_answers_iff htext hserved hpc hs, Post.run_made htext.toLawful hinit hr]
  exact and_iff_right (fun x hx => by cases hx)

/-! ## One handler, two values -/

namespace Post

/-- A server in operation whose handler of `read` returns `content`. -/
def reader (content : Bytes) : Session Unit :=
  { sampleServer with
    state := .operating
    router := sampleServer.router.setRequestHandler (bytes "read") (some (.user fun _ w => (.ok (.ok (.string content)), w))) }

def readRequest : JsonRpcRequest := { id := .int 1, method := bytes "read" }

def readCall : Json :=
  .object [(bytes "id", .numberUnsigned 1), (bytes "jsonrpc", .string (bytes "2.0")), (bytes "method", .string (bytes "read"))]

def readText : JsonText Bytes := tableText (fun _ => []) [(bodyText readCall, readCall)]

/-- The POST of `readCall`, up to the body of its answer. -/
def readPost : List (Label Unit Bytes) := .post (.transport 0) (bodyText readCall) :: List.replicate 7 (.step 0 0)

def Pc.finishing : Pc ω τ → Option ParsedFrame
  | .finish frame => some frame
  | _ => none

theorem finishing_eq_some {pc : Pc ω τ} {frame : ParsedFrame} (h : pc.finishing = some frame) : pc = .finish frame := by
  cases pc with
  | finish f => exact congrArg Pc.finish (Option.some.inj h)
  | _ => cases h

end Post

theorem responses_encoded_iff_read :
    (Post.reader (bytes "text")).Answers Post.readText () Post.readRequest ∧
      ∃ p q frame, Lts.run (Post.step Post.readText) (Post.init [Post.reader (bytes "text")] ()) Post.readPost = some p ∧
        p.threads[0]? = some (.finish frame) ∧ Post.step Post.readText p (.step 0 0) = some q ∧
        Post.Served.Answers Post.readText p q 0 frame := by
  obtain ⟨hsend, hpost⟩ := responses_encoded_iff (ω := Unit) (tableText_strict (fun _ => []) [(Post.bodyText Post.readCall, Post.readCall)])
  refine ⟨(hsend _ _ _).2 (by decide +kernel), ?_⟩
  have hrun : ((Lts.run (Post.step Post.readText) (Post.init [Post.reader (bytes "text")] ()) Post.readPost).bind (fun p =>
      (Post.step Post.readText p (.step 0 0)).bind (fun _ => (p.threads[0]?).bind Post.Pc.finishing))).isSome = true := by
    decide +kernel
  obtain ⟨frame, hrun⟩ := Option.isSome_iff_exists.1 hrun
  obtain ⟨p, hp, hrun⟩ := Option.bind_eq_some_iff.1 hrun
  obtain ⟨q, hq, hrun⟩ := Option.bind_eq_some_iff.1 hrun
  obtain ⟨pc, hpc, hframe⟩ := Option.bind_eq_some_iff.1 hrun
  rw [Post.finishing_eq_some hframe] at hpc
  exact ⟨p, q, frame, hp, hpc, hq, (hpost _ _ _ _ _ _ _ _ hp hpc hq).2 (by decide +kernel)⟩

/-- **Bytes that are not UTF-8 leave the request without an answer**: `dump()` throws out of `handle_message`, and out of
the thread of a POST. -/
theorem unencodable_unanswered :
    ¬ (Post.reader [0xFF]).Answers Post.readText () Post.readRequest ∧
      (Post.reader [0xFF]).serveRequest Post.readText () Post.readRequest =
        ([], some (.json (typeError 316 (bytes "invalid UTF-8 byte")))) ∧
      (Lts.run (Post.step Post.readText) (Post.init [Post.reader [0xFF]] ()) (Post.readPost ++ [.step 0 0])).map
        (fun p => (p.shared.replies.length, p.threads.map Post.Pc.isCrashed)) = some (0, [true]) := by
  refine ⟨fun h => ?_, by rfl, by decide +kernel⟩
  have hencodable := ((Session.answers_iff (tableText_strict _ _) _ _ _).1 h).2
  exact absurd hencodable (by decide +kernel)

end Mcp
