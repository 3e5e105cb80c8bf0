import McpSdk.LineTransport
import McpSdk.Wire
import McpSdk.Correlation
/-!
# LineSession — a session over a line transport

The session's handlers run on the reading thread, and each response goes out through `send` at once.  So the answers to
a batch are single objects on lines of their own, where the HTTP transport collects them into one array.
-/
namespace Mcp
namespace LineSession

variable {ω : Type}

/-! ## The session as the transport's handlers -/

/-- A connected session, with the lines it has written and what else it has done. -/
structure Connected (ω : Type) where
  session : Session ω
  world : ω
  handled : Nat := 0
  lines : List Bytes := []
  done : List Effect := []

/-- `send_message`: `transport_->send` on the line transport.  What `send_line` emits is an InternalError, which
`on_transport_error` only reports. -/
def sendMessage (text : JsonText Bytes) (m : Message) : Call (Connected ω) := fun c =>
  match serializeMessage text m with
  | .error x => (c, some (.json x))
  | .ok line =>
    match LineTransport.sendLine line with
    | .ok _ => ({ c with lines := c.lines ++ [line] }, none)
    | .error e => ({ c with done := c.done ++ c.session.onTransportError e }, none)

def perform (text : JsonText Bytes) (effect : Effect) : Call (Connected ω) := fun c =>
  match effect with
  | .send m => sendMessage text m c
  | effect => ({ c with done := c.done ++ [effect] }, none)

/-- The message handler: `Session::handle_message`, the `n`-th message at `clock n`. -/
def onMessage (text : JsonText Bytes) (clock : Nat → TimePoint) (m : Message) : Call (Connected ω) := fun c =>
  let out := c.session.handleMessage (clock c.handled) c.world m
  match each (perform text) out.effects { c with session := out.session, world := out.world, handled := c.handled + 1 } with
  | (c, some x) => (c, some x)
  | (c, none) => (c, out.escaped)

/-- The error handler: `on_transport_error`. -/
def onError (text : JsonText Bytes) (e : Error) : Call (Connected ω) := fun c =>
  each (perform text) (c.session.onTransportError e) c

/-- What `Session::connect` registers. -/
def handlers (text : JsonText Bytes) (clock : Nat → TimePoint) : Handlers (Connected ω) where
  message := some (onMessage text clock)
  error := some (onError text)

def receive (text : JsonText Bytes) (clock : Nat → TimePoint) (s : Session ω) (w : ω) (line : Bytes) :
    Connected ω × Option Exn :=
  LineTransport.processLine text (handlers text clock) line { session := s, world := w }

/-! ## The answer to a batch -/

/-- The ids of the replies a batch is owed: each request's own, null for each invalid item. -/
def owed (frame : ParsedFrame) : List (Option JsonId) :=
  (requests frame.messages).map (fun r => some r.id.toJsonId) ++ frame.itemErrors.map (fun _ => none)

/-- **The answer to a batch**: one line with one array of the replies it is owed, or no line when it is owed none. -/
def AnswersBatch (text : JsonText Bytes) (frame : ParsedFrame) (lines : List Bytes) : Prop :=
  if owed frame = [] then lines = []
  else ∃ line replies, lines = [line] ∧ text.parse line = some (.array replies) ∧
    (replies.map Json.idMember).Perm (owed frame)

/-- The lines hold the dumps of single messages. -/
def Single (text : JsonText Bytes) (c : Connected ω) : Prop :=
  ∀ line ∈ c.lines, ∃ m, serializeMessage text m = .ok line

theorem sendMessage_single {text : JsonText Bytes} {m : Message} {c : Connected ω} (hc : Single text c) :
    Single text (sendMessage text m c).1 := by
  unfold sendMessage
  cases hm : serializeMessage text m with
  | error x => exact hc
  | ok line =>
    dsimp only
    cases LineTransport.sendLine line with
    | error e => exact hc
    | ok framed =>
      intro l hl
      rcases List.mem_append.1 hl with hl | hl
      · exact hc l hl
      · exact ⟨m, by rw [List.mem_singleton.1 hl, hm]⟩

theorem perform_single {text : JsonText Bytes} {effect : Effect} {c : Connected ω} (hc : Single text c) :
    Single text (perform text effect c).1 := by
  cases effect with
  | send m => exact sendMessage_single hc
  | _ => exact hc

theorem onError_single {text : JsonText Bytes} {e : Error} {c : Connected ω} (hc : Single text c) :
    Single text (onError text e c).1 :=
  each_invariant _ _ (fun _ _ _ h => perform_single h) hc

theorem onMessage_single {text : JsonText Bytes} {clock : Nat → TimePoint} {m : Message} {c : Connected ω}
    (hc : Single text c) : Single text (onMessage text clock m c).1 := by
  have hstart : Single text
      { c with session := (c.session.handleMessage (clock c.handled) c.world m).session
               world := (c.session.handleMessage (clock c.handled) c.world m).world
               handled := c.handled + 1 } := hc
  have h := each_invariant (perform text) (c.session.handleMessage (clock c.handled) c.world m).effects
    (fun a _ s hs => perform_single hs) hstart
  unfold onMessage
  dsimp only
  split
  · rename_i c' x heach
    rw [heach] at h
    exact h
  · rename_i c' heach
    rw [heach] at h
    exact h

/-- **Every line a session writes is one message.** -/
theorem receive_single {text : JsonText Bytes} {clock : Nat → TimePoint} {s : Session ω} {w : ω} {line : Bytes} :
    Single text (receive text clock s w line).1 := by
  have hstart : Single text ({ session := s, world := w } : Connected ω) := fun l hl => by cases hl
  unfold receive LineTransport.processLine
  split
  · exact hstart
  split
  · exact hstart
  · exact onError_single hstart
  · rename_i frame hframe
    have herrors := each_invariant (LineTransport.emitError (handlers text clock)) frame.itemErrors
      (fun e _ c hc => onError_single hc) hstart
    split
    · rename_i c x heach
      rw [heach] at herrors
      exact herrors
    · rename_i c heach
      rw [heach] at herrors
      exact each_invariant (onMessage text clock) frame.messages (fun m _ c hc => onMessage_single hc) herrors

/-! ## A batch that is owed nothing -/

def Effect.isSend : Effect → Bool
  | .send _ => true
  | _ => false

/-- Only requests are answered. -/
theorem handleMessage_silent (now : TimePoint) (s : Session ω) (w : ω) {m : Message} (hm : ∀ r, m ≠ .request r) :
    ∀ effect ∈ (s.handleMessage now w m).effects, Effect.isSend effect = false := by
  cases m with
  | request r => exact absurd rfl (hm r)
  | response r =>
    simp only [Session.handleMessage, Session.handleResponse]
    cases r.id with
    | none => simp
    | some id =>
      dsimp only
      split <;> simp [Effect.isSend]
  | notification n =>
    simp only [Session.handleMessage, Session.dispatchNotification]
    cases s.router.findNotificationHandler n.method with
    | none => simp
    | some handler =>
      cases handler with
      | initialized => simp
      | user run => simp
      | cancelled =>
        simp only [Session.handleCancelled]
        split
        · simp
        · split
          · simp
          · simp
          · split <;> simp
      | progress =>
        simp only [Session.handleProgress]
        split
        · simp
        · split
          · simp
          · simp
          · rename_i note _
            cases (s.timers.progress now note.progressToken).1 <;> simp [Effect.isSend]

theorem perform_silent {text : JsonText Bytes} {effect : Effect} (he : Effect.isSend effect = false) {c : Connected ω}
    (hc : c.lines = []) : (perform text effect c).1.lines = [] := by
  cases effect with
  | send m => cases he
  | _ => exact hc

theorem onMessage_silent {text : JsonText Bytes} {clock : Nat → TimePoint} {m : Message} (hm : ∀ r, m ≠ .request r)
    {c : Connected ω} (hc : c.lines = []) : (onMessage text clock m c).1.lines = [] := by
  have hsilent := handleMessage_silent (clock c.handled) c.session c.world hm
  have h := each_invariant (I := fun c : Connected ω => c.lines = []) (perform text) _
    (fun effect he s hs => perform_silent (hsilent effect he) hs)
    (show ({ c with session := (c.session.handleMessage (clock c.handled) c.world m).session
                    world := (c.session.handleMessage (clock c.handled) c.world m).world
                    handled := c.handled + 1 } : Connected ω).lines = [] from hc)
  unfold onMessage
  dsimp only
  split
  · rename_i c' x heach
    rw [heach] at h
    exact h
  · rename_i c' heach
    rw [heach] at h
    exact h

theorem owed_eq_nil_iff {frame : ParsedFrame} :
    owed frame = [] ↔ requests frame.messages = [] ∧ frame.itemErrors = [] := by
  simp [owed]

theorem receive_silent {text : JsonText Bytes} {clock : Nat → TimePoint} {s : Session ω} {w : ω} {line : Bytes}
    {frame : ParsedFrame} (hframe : parseFrame text line = .ok (.ok frame)) (howed : owed frame = []) :
    (receive text clock s w line).1.lines = [] := by
  obtain ⟨hrequests, herrors⟩ := owed_eq_nil_iff.1 howed
  have hm : ∀ m ∈ frame.messages, ∀ r, m ≠ .request r := by
    rintro m hm r rfl
    have hmem := mem_requests.2 hm
    rw [hrequests] at hmem
    cases hmem
  unfold receive LineTransport.processLine
  by_cases hline : line = []
  · rw [if_pos hline]
  · rw [if_neg hline, hframe]
    simp only [herrors, each, handlers]
    exact each_invariant (I := fun c : Connected ω => c.lines = []) _ _ (fun m hmem c hc => onMessage_silent (hm m hmem) hc) rfl

/-- **A batch is answered as a batch exactly when it is owed nothing**: it has neither a request nor an invalid item. -/
theorem receive_answersBatch_iff {text : JsonText Bytes}
    (hobject : ∀ members t, text.dump (.object members) = .ok t → ∀ items, text.parse t ≠ some (.array items))
    (clock : Nat → TimePoint) (s : Session ω) (w : ω) {line : Bytes} {items : List Json}
    (hline : text.parse line = some (.array items)) {frame : ParsedFrame}
    (hframe : parseFrame text line = .ok (.ok frame)) :
    AnswersBatch text frame (receive text clock s w line).1.lines ↔
      requests frame.messages = [] ∧ items.filterMap itemError = [] := by
  rw [← parseFrame_itemErrors hframe hline, ← owed_eq_nil_iff]
  unfold AnswersBatch
  by_cases howed : owed frame = []
  · rw [if_pos howed]
    exact ⟨fun _ => howed, fun _ => receive_silent hframe howed⟩
  · rw [if_neg howed]
    refine ⟨?_, fun h => absurd h howed⟩
    rintro ⟨answer, replies, hanswer, hparse, -⟩
    -- the one line would be the dump of a message, which is an object
    have hwritten : answer ∈ (receive text clock s w line).1.lines := by
      rw [hanswer]
      exact List.mem_singleton_self answer
    obtain ⟨m, hm⟩ := receive_single answer hwritten
    obtain ⟨members, hmembers⟩ := messageToJson_object m
    rw [serializeMessage, hmembers] at hm
    exact absurd hparse (hobject members answer hm replies)

/-! ## A ping in a batch -/

def pingBatch : Json := .array [Session.pingWith (.numberUnsigned 1)]

def noteBatch : Json :=
  .array [.object [(bytes "jsonrpc", .string (bytes "2.0")), (bytes "method", .string methods.kNotificationInitialized)]]

def batchText : JsonText Bytes :=
  tableText noDouble [(pingBatch.compact noDouble, pingBatch), (noteBatch.compact noDouble, noteBatch)]

/-- The ping of a batch is answered by an object, not by an array. -/
theorem pingBatch_not_answered :
    ∃ frame, parseFrame batchText (pingBatch.compact noDouble) = .ok (.ok frame) ∧ owed frame = [some (.int 1)] ∧
      (receive batchText (fun _ => 0) Session.freshServer () (pingBatch.compact noDouble)).1.lines =
        [(responseToJson { id := some (.int 1), result := some (.object []) }).compact noDouble] ∧
      ¬ AnswersBatch batchText frame
        (receive batchText (fun _ => 0) Session.freshServer () (pingBatch.compact noDouble)).1.lines := by
  have hlines : (receive batchText (fun _ => 0) Session.freshServer () (pingBatch.compact noDouble)).1.lines =
      [(responseToJson { id := some (.int 1), result := some (.object []) }).compact noDouble] := by decide +kernel
  refine ⟨_, rfl, rfl, hlines, ?_⟩
  rw [hlines]
  rintro ⟨answer, replies, hanswer, hparse, -⟩
  have hnone : batchText.parse ((responseToJson { id := some (.int 1), result := some (.object []) }).compact noDouble) =
      none := by rfl
  rw [← List.singleton_inj.1 hanswer, hnone] at hparse
  cases hparse

/-- Nothing answers a batch of one notification. -/
theorem receive_answersBatch_iff_note :
    ∃ frame, parseFrame batchText (noteBatch.compact noDouble) = .ok (.ok frame) ∧
      AnswersBatch batchText frame
        (receive batchText (fun _ => 0) Session.freshServer () (noteBatch.compact noDouble)).1.lines := by
  have hobject : ∀ members t, batchText.dump (.object members) = .ok t → ∀ items, batchText.parse t ≠ some (.array items) := by
    intro members t ht items hparse
    have hhead : t.head? = some 0x7B := by
      simp only [batchText, tableText] at ht
      split at ht
      · rw [← Except.ok.inj ht, Json.compact]
        rfl
      · cases ht
    have hping : (pingBatch.compact noDouble).head? ≠ some 0x7B := by decide +kernel
    have hnote : (noteBatch.compact noDouble).head? ≠ some 0x7B := by decide +kernel
    have hne : t ≠ pingBatch.compact noDouble ∧ t ≠ noteBatch.compact noDouble := by
      constructor
      · rintro rfl
        exact hping hhead
      · rintro rfl
        exact hnote hhead
    simp [batchText, tableText, List.lookup_cons, beq_eq_false_iff_ne.2 hne.1, beq_eq_false_iff_ne.2 hne.2] at hparse
  exact ⟨_, rfl, (receive_answersBatch_iff hobject (fun _ => 0) Session.freshServer () rfl rfl).2 ⟨rfl, rfl⟩⟩

end LineSession
end Mcp
