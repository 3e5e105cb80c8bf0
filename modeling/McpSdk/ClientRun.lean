import McpSdk.ClientHandlers
import McpSdk.InterferenceRun
import McpSdk.Joined
import McpSdk.SchemaAgreement
/-!
# ClientRun — a client over its connections

A step is a section of `Client::connect`, a message the session receives, the sending of a reply, a call of the session's
API, or a change of what is configured.  A change of the roots has two sections: the provider changes its list, and the
changed callback sends a notification.  Any number of steps may stand between the two.

What a connection declares in its `initialize` request decides what it answers for the rest of its life
(`declared_decides`); form content that goes out has passed the requested schema (`accepted_validated`); and a server that
has seen an older list of the roots has been told, or is about to be (`roots_announced`).
-/
namespace Mcp
namespace ClientRun

open Client (Feature features Featured Keeps answer)

/-! ## State -/

/-- How far `initialize()` of the session has come. -/
inductive Phase
  | created
  | requested
  | accepted
  | announced
  | operating
  deriving DecidableEq, Repr

/-- A request and its response, with the session's state and the client before and after. -/
structure Answered (α : Type) where
  request : JsonRpcRequest
  state : SessionState
  before : Client α
  response : JsonRpcResponse
  after : Client α
  /-- How many messages had been sent. -/
  sent : Nat

/-- `session_` and what it has done.  `inHand` are the replies its handled messages have yet to send. -/
structure Connection (α : Type) where
  session : Session (Client α)
  nextRequestId : Int64 := 1
  phase : Phase := .created
  inHand : List Message := []
  sent : List Message := []
  answered : List (Answered α) := []

/-- The client, its connection, and what the roots provider's callback has yet to do. -/
structure State (α : Type) where
  client : Client α
  connection : Option (Connection α) := none
  /-- The first `wire_session` sets the changed callback. -/
  callback : Bool := false
  changes : Nat := 0

/-- What happens on a connection. -/
inductive Act where
  | begin (now : TimePoint) (callback : Callback)
  /-- The result of `initialize` can be read, and its version is supported. -/
  | accept (info : Implementation) (capabilities : ServerCapabilities)
  | announce
  | operate
  | receive (now : TimePoint) (m : Message)
  /-- The `k`th reply in hand is sent. -/
  | transmit (k : Nat)
  | session (c : Attached.SessionCall)

/-- What the application configures. -/
inductive Config (α : Type) where
  | enableRoots
  | setSamplingHandler (handler : Option (SamplingHandler α))
  | setElicitationHandler (handler : Option (ElicitationHandler α))
  | application (act : α → α)

inductive Label (α : Type) where
  | connect
  /-- `initialize()` returned an error: the session is disconnected and reset. -/
  | fail
  | act (a : Act)
  | configure (c : Config α)
  | addRoot (root : Root)
  | removeRoot (uri : Bytes)
  /-- The changed callback of one change. -/
  | announceRoots

variable {α : Type}

/-! ## Steps -/

def rootsChanged : Message := .notification { method := methods.kNotificationRootsListChanged }

def initialized : Message := .notification { method := methods.kNotificationInitialized }

/-- The timeout of the `initialize` request. -/
def initializeOptions (options : ClientOptions) : RequestOptions where
  timeout := if 0 < options.initializeTimeout then some options.initializeTimeout else none

/-- The `initialize` request of a session, under its next id. -/
def initializeRequest (options : ClientOptions) (id : Int64) : JsonRpcRequest :=
  { id := .int id, method := methods.kInitialize, params := some (Joined.initializeParams options).toJson }

/-- The first sections of `initialize()`: the state, and the request. -/
def Connection.begin (c : Connection α) (options : ClientOptions) (now : TimePoint) (callback : Callback) : Connection α :=
  let out := Attached.applySessionCall { c.session with state := .initializing } c.nextRequestId
    (.sendRequest now methods.kInitialize (some (Joined.initializeParams options).toJson) (initializeOptions options) callback)
  { c with session := out.1, nextRequestId := out.2.1, phase := .requested, sent := c.sent ++ out.2.2 }

/-- The answer to a request, for the record. -/
def Connection.record (c : Connection α) (w : Client α) (m : Message) (out : Session.Handled (Client α)) : List (Answered α) :=
  match m, Attached.replies out.effects with
  | .request r, [.response response] => [⟨r, c.session.state, w, response, out.world, c.sent.length⟩]
  | _, _ => []

/-- `handle_message`; the run ends with an exception that leaves it. -/
def Connection.receive (c : Connection α) (w : Client α) (now : TimePoint) (m : Message) : Option (Client α × Connection α) :=
  let out := c.session.handleMessage now w m
  match out.escaped with
  | some _ => none
  | none =>
    some (out.world, { c with
      session := out.session
      inHand := c.inHand ++ Attached.replies out.effects
      answered := c.answered ++ c.record w m out })

def Connection.sessionCall (c : Connection α) (call : Attached.SessionCall) : Connection α :=
  let out := Attached.applySessionCall c.session c.nextRequestId call
  { c with session := out.1, nextRequestId := out.2.1, sent := c.sent ++ out.2.2 }

def advance (w : Client α) (c : Connection α) : Act → Option (Client α × Connection α)
  | .begin now callback =>
    match c.session.cls, c.phase, c.session.state with
    | .client options, .created, .uninitialized => some (w, c.begin options now callback)
    | _, _, _ => none
  | .accept info capabilities =>
    if c.phase = .requested then
      some (w, { c with
        session := { c.session with serverInfo := some info, serverCapabilities := some capabilities }, phase := .accepted })
    else none
  | .announce => if c.phase = .accepted then some (w, { c with sent := c.sent ++ [initialized], phase := .announced }) else none
  | .operate =>
    if c.phase = .announced then some (w, { c with session := { c.session with state := .operating }, phase := .operating })
    else none
  | .receive now m => c.receive w now m
  | .transmit k => c.inHand[k]?.map fun m => (w, { c with inHand := c.inHand.eraseIdx k, sent := c.sent ++ [m] })
  | .session call => some (w, c.sessionCall call)

def configure (w : Client α) : Config α → Client α
  | .enableRoots => { w with rootsEnabled := true }
  | .setSamplingHandler handler => { w with samplingHandler := handler }
  | .setElicitationHandler handler => { w with elicitationHandler := handler }
  | .application act => { w with app := act w.app }

/-- The roots after a change, whose callback is still to run. -/
def State.changeRoots (s : State α) (roots : RootsProvider) : State α :=
  { s with client := { s.client with roots }, changes := if s.callback then s.changes + 1 else s.changes }

/-- The changed callback: it looks at the state and sends. -/
def Connection.announceRoots (c : Connection α) : Connection α :=
  if c.session.state = .operating then { c with sent := c.sent ++ [rootsChanged] } else c

def step (text : JsonText Bytes) (s : State α) : Label α → Option (State α)
  | .connect =>
    match s.connection with
    | some _ => none
    | none => some { s with connection := some { session := Client.wiredSession text s.client }, callback := true }
  | .fail =>
    match s.connection with
    | some c => if c.phase = .created ∨ c.phase = .requested then some { s with connection := none } else none
    | none => none
  | .act a =>
    match s.connection with
    | some c => (advance s.client c a).map fun next => { s with client := next.1, connection := some next.2 }
    | none => none
  | .configure c => some { s with client := configure s.client c }
  | .addRoot root =>
    match s.client.roots.addRoot root with
    | .ok roots => some (s.changeRoots roots)
    | .error _ => some s
  | .removeRoot uri =>
    match s.client.roots.removeRoot uri with
    | some roots => some (s.changeRoots roots)
    | none => some s
  | .announceRoots =>
    if 0 < s.changes then
      some { s with changes := s.changes - 1, connection := s.connection.map Connection.announceRoots }
    else none

/-! ## What one act does to a connection -/

/-- The offer went out. -/
def Offered (options : ClientOptions) (sent : List Message) : Prop :=
  ∃ id, Message.request (initializeRequest options id) ∈ sent

/-- What a request found and got, under the options of its session. -/
def Decided (text : JsonText Bytes) (options : ClientOptions) (e : Answered α) : Prop :=
  ∀ run, (e.request.method, run) ∈ features text →
    (e.response, e.after) = answer e.state options.capabilities run e.request e.before

/-- **All that an act can do** to the client and its connection. -/
structure Advanced (text : JsonText Bytes) (options : ClientOptions) (w : Client α) (c : Connection α) (w' : Client α)
    (c' : Connection α) : Prop where
  keeps : Keeps w w'
  same : Session.SameTables c.session c'.session
  sent : ∃ more, c'.sent = c.sent ++ more
  phase : c.phase = .operating → c'.phase = .operating
  state : c'.session.state = .operating → c.session.state = .operating ∨ c.phase = .announced ∧ c'.phase = .operating
  begun : c'.phase ≠ .created → c.phase ≠ .created ∨ Offered options c'.sent
  answered : c'.answered = c.answered ∨
    ∃ e, c'.answered = c.answered ++ [e] ∧ e.state = c.session.state ∧ e.before = w ∧ e.sent = c.sent.length ∧
      Decided text options e

theorem sendRequest_eq {ω : Type} (s : Session ω) (next : Int64) (now : TimePoint) (method : Bytes) (params : Option Json)
    {options : RequestOptions} (h : options.progressToken = none) (callback : Callback) :
    (Attached.applySessionCall s next (.sendRequest now method params options callback)).2.2 =
        [.request { id := .int next, method, params }] ∧
      (Attached.applySessionCall s next (.sendRequest now method params options callback)).1.state = s.state := by
  simp only [Attached.applySessionCall, Requests.requestParams, h]
  exact ⟨trivial, trivial⟩

/-- A call of the session's API does not make it operate. -/
theorem applySessionCall_operating {ω : Type} {s : Session ω} {next : Int64} {call : Attached.SessionCall}
    (h : (Attached.applySessionCall s next call).1.state = .operating) : s.state = .operating := by
  cases call with
  | sendRequest now method params options callback =>
    simp only [Attached.applySessionCall] at h
    split at h <;> exact h
  | close => cases h
  | _ => exact h

section Acts

variable {text : JsonText Bytes} {options : ClientOptions} {w w' : Client α} {c c' : Connection α}

theorem advanced_begin (now : TimePoint) (callback : Callback) (hphase : c.phase = .created) :
    Advanced text options w c w (c.begin options now callback) := by
  have htoken : (initializeOptions options).progressToken = none := rfl
  obtain ⟨hsent, hstate⟩ := sendRequest_eq { c.session with state := .initializing } c.nextRequestId now methods.kInitialize
    (some (Joined.initializeParams options).toJson) htoken callback
  have hsame : Session.SameTables c.session { c.session with state := .initializing } := ⟨rfl, rfl, rfl, rfl, rfl⟩
  refine ⟨rfl, hsame.trans (Attached.applySessionCall_same _ _ _), ⟨_, rfl⟩, fun hop => ?_, fun hop => ?_,
    fun _ => .inr ⟨c.nextRequestId, ?_⟩, .inl rfl⟩
  · rw [hphase] at hop
    cases hop
  · have hinitializing : (c.begin options now callback).session.state = .initializing := hstate
    rw [hinitializing] at hop
    cases hop
  · refine List.mem_append_right _ ?_
    rw [hsent]
    exact List.mem_singleton.2 rfl

/-- A request for a feature goes on record as it was decided. -/
theorem record_cases (h : Featured text options c.session) (w : Client α) (now : TimePoint) (m : Message) :
    c.record w m (c.session.handleMessage now w m) = [] ∨
      ∃ e, c.record w m (c.session.handleMessage now w m) = [e] ∧ e.state = c.session.state ∧ e.before = w ∧
        e.sent = c.sent.length ∧ Decided text options e := by
  cases m with
  | notification n => exact .inl rfl
  | response r => exact .inl rfl
  | request r =>
    unfold Connection.record
    split
    · rename_i r' response hm hreplies
      cases hm
      refine .inr ⟨_, rfl, rfl, rfl, rfl, fun run hmem => ?_⟩
      obtain ⟨-, hworld, heffects⟩ := h.handleRequest hmem w
      have hresponse : [Message.response response] = [.response (answer c.session.state options.capabilities run r w).1] :=
        hreplies.symm.trans heffects
      simp only [List.cons.injEq, Message.response.injEq, and_true] at hresponse
      exact Prod.ext hresponse hworld
    · exact .inl rfl

theorem advanced_receive (h : Featured text options c.session) {now : TimePoint} {m : Message}
    (hstep : c.receive w now m = some (w', c')) : Advanced text options w c w' c' := by
  obtain ⟨hstate, hkeeps⟩ := h.handleMessage now w m
  have hsame := Session.handleMessage_same now c.session w m
  unfold Connection.receive at hstep
  dsimp only at hstep
  split at hstep
  · cases hstep
  · simp only [Option.some.injEq, Prod.mk.injEq] at hstep
    obtain ⟨rfl, rfl⟩ := hstep
    refine ⟨hkeeps, hsame, ⟨[], (List.append_nil _).symm⟩, id, fun hop => .inl (hstate ▸ hop), fun hbegun => .inl hbegun, ?_⟩
    rcases record_cases h w now m with hnone | ⟨e, hone, he⟩
    · refine .inl ?_
      dsimp only
      rw [hnone, List.append_nil]
    · refine .inr ⟨e, ?_, he⟩
      dsimp only
      rw [hone]

theorem advanced_sessionCall (call : Attached.SessionCall) : Advanced text options w c w (c.sessionCall call) where
  keeps := rfl
  same := Attached.applySessionCall_same _ _ _
  sent := ⟨_, rfl⟩
  phase := id
  state := fun hop => .inl (applySessionCall_operating hop)
  begun := fun hbegun => .inl hbegun
  answered := .inl rfl

/-- **One act**, whichever it is. -/
theorem advance_cases (h : Featured text options c.session) {a : Act} (hstep : advance w c a = some (w', c')) :
    Advanced text options w c w' c' := by
  cases a with
  | begin now callback =>
    simp only [advance, h.cls] at hstep
    split at hstep
    · rename_i options' hcls hphase hstate
      cases hcls
      cases hstep
      exact advanced_begin now callback hphase
    · cases hstep
  | accept info capabilities =>
    simp only [advance] at hstep
    split at hstep
    · rename_i hphase
      cases hstep
      refine ⟨rfl, ⟨rfl, rfl, rfl, rfl, rfl⟩, ⟨[], (List.append_nil _).symm⟩, fun hop => ?_, fun hop => .inl hop,
        fun _ => .inl ?_, .inl rfl⟩
      · rw [hphase] at hop
        cases hop
      · rw [hphase]
        decide
    · cases hstep
  | announce =>
    simp only [advance] at hstep
    split at hstep
    · rename_i hphase
      cases hstep
      refine ⟨rfl, ⟨rfl, rfl, rfl, rfl, rfl⟩, ⟨_, rfl⟩, fun hop => ?_, fun hop => .inl hop, fun _ => .inl ?_, .inl rfl⟩
      · rw [hphase] at hop
        cases hop
      · rw [hphase]
        decide
    · cases hstep
  | operate =>
    simp only [advance] at hstep
    split at hstep
    · rename_i hphase
      cases hstep
      refine ⟨rfl, ⟨rfl, rfl, rfl, rfl, rfl⟩, ⟨[], (List.append_nil _).symm⟩, fun _ => rfl, fun _ => .inr ⟨hphase, rfl⟩,
        fun _ => .inl ?_, .inl rfl⟩
      rw [hphase]
      decide
    · cases hstep
  | receive now m => exact advanced_receive h hstep
  | transmit k =>
    obtain ⟨m, -, heq⟩ := Option.map_eq_some_iff.1 hstep
    cases heq
    exact ⟨rfl, ⟨rfl, rfl, rfl, rfl, rfl⟩, ⟨_, rfl⟩, id, fun hop => .inl hop, fun hbegun => .inl hbegun, .inl rfl⟩
  | session call =>
    simp only [advance, Option.some.injEq, Prod.mk.injEq] at hstep
    obtain ⟨rfl, rfl⟩ := hstep
    exact advanced_sessionCall call

end Acts

/-! ## Whole runs -/

/-- **What holds of a connection** made under the options. -/
structure Sound (text : JsonText Bytes) (options : ClientOptions) (c : Connection α) : Prop where
  featured : Featured text options c.session
  phase : c.session.state = .operating → c.phase = .operating
  offered : c.phase ≠ .created → Offered options c.sent
  decided : ∀ e ∈ c.answered, Decided text options e

/-- An answer in the operating state was about the roots as they are, or the server hears of a change after it. -/
def Fresh (w : Client α) (changes : Nat) (c : Connection α) : Prop :=
  ∀ e ∈ c.answered, e.state = .operating → c.phase = .operating ∧ e.sent ≤ c.sent.length ∧
    (c.session.state = .operating → e.before.roots = w.roots ∨ 0 < changes ∨ rootsChanged ∈ c.sent.drop e.sent)

/-- A connection of the client, with the options it had when it connected. -/
structure Kept (text : JsonText Bytes) (s : State α) (c : Connection α) : Prop where
  callback : s.callback = true
  sound : ∃ w : Client α, Sound text w.clientOptions c
  fresh : Fresh s.client s.changes c

section Runs

variable {text : JsonText Bytes} {options : ClientOptions} {w w' : Client α} {c c' : Connection α} {s t : State α}

theorem Offered.append {sent : List Message} (h : Offered options sent) (more : List Message) :
    Offered options (sent ++ more) :=
  h.imp fun _ hmem => List.mem_append_left more hmem

theorem Sound.advance (h : Sound text options c) (ha : Advanced text options w c w' c') : Sound text options c' where
  featured := h.featured.of_sameTables ha.same
  phase := fun hop => (ha.state hop).elim (fun hstate => ha.phase (h.phase hstate)) And.right
  offered := by
    intro hphase
    obtain ⟨more, hsent⟩ := ha.sent
    rcases ha.begun hphase with hbegun | hoffered
    · rw [hsent]
      exact (h.offered hbegun).append more
    · exact hoffered
  decided := by
    rcases ha.answered with hsame | ⟨e, hadded, -, -, -, he⟩
    · rw [hsame]
      exact h.decided
    · rw [hadded]
      exact List.forall_mem_append.2 ⟨h.decided, List.forall_mem_singleton.2 he⟩

theorem Keeps.roots (h : Keeps w w') : w'.roots = w.roots := by
  rw [h]

theorem mem_drop_append {m : Message} {l more : List Message} {n : Nat} (hn : n ≤ l.length) (h : m ∈ l.drop n ∨ m ∈ more) :
    m ∈ (l ++ more).drop n := by
  rw [List.drop_append_of_le_length hn]
  exact List.mem_append.2 h

theorem Fresh.advance {changes : Nat} (h : Fresh w changes c) (hs : Sound text options c)
    (ha : Advanced text options w c w' c') : Fresh w' changes c' := by
  obtain ⟨more, hsent⟩ := ha.sent
  have hold : ∀ e ∈ c.answered, e.state = .operating → c'.phase = .operating ∧ e.sent ≤ c'.sent.length ∧
      (c'.session.state = .operating → e.before.roots = w'.roots ∨ 0 < changes ∨ rootsChanged ∈ c'.sent.drop e.sent) := by
    intro e he hstate
    obtain ⟨hphase, hlength, hfresh⟩ := h e he hstate
    refine ⟨ha.phase hphase, ?_, fun hop => ?_⟩
    · rw [hsent, List.length_append]
      omega
    · rcases ha.state hop with hop | ⟨hannounced, -⟩
      · rw [Keeps.roots ha.keeps, hsent]
        exact (hfresh hop).imp id fun hlater => hlater.imp id fun hmem => mem_drop_append hlength (.inl hmem)
      · rw [hphase] at hannounced
        cases hannounced
  rcases ha.answered with hsame | ⟨e, hadded, hstate, hbefore, hcount, -⟩
  · unfold Fresh
    rw [hsame]
    exact hold
  · unfold Fresh
    rw [hadded]
    refine List.forall_mem_append.2 ⟨hold, List.forall_mem_singleton.2 fun hop => ?_⟩
    refine ⟨ha.phase (hs.phase (hstate ▸ hop)), ?_, fun _ => .inl ?_⟩
    · rw [hcount, hsent, List.length_append]
      omega
    · rw [hbefore, Keeps.roots ha.keeps]

theorem Kept.advance (h : Kept text s c) {a : Act} (hstep : advance s.client c a = some (w', c')) :
    Kept text { s with client := w', connection := some c' } c' := by
  obtain ⟨w, hsound⟩ := h.sound
  have ha := advance_cases hsound.featured hstep
  exact ⟨h.callback, ⟨w, hsound.advance ha⟩, h.fresh.advance hsound ha⟩

/-- A change of the roots leaves its callback to be run. -/
theorem Kept.changeRoots (h : Kept text s c) (roots : RootsProvider) : Kept text (s.changeRoots roots) c where
  callback := h.callback
  sound := h.sound
  fresh := by
    intro e he hstate
    obtain ⟨hphase, hlength, -⟩ := h.fresh e he hstate
    refine ⟨hphase, hlength, fun _ => .inr (.inl ?_)⟩
    unfold State.changeRoots
    rw [if_pos h.callback]
    exact Nat.succ_pos _

/-- **The changed callback runs**: in the operating state, its notification comes after every answer so far. -/
theorem Kept.announceRoots (h : Kept text s c) :
    Kept text { s with changes := s.changes - 1, connection := some c.announceRoots } c.announceRoots := by
  obtain ⟨w, hsound⟩ := h.sound
  by_cases hop : c.session.state = .operating
  · have hnew : c.announceRoots = { c with sent := c.sent ++ [rootsChanged] } := if_pos hop
    rw [hnew]
    refine ⟨h.callback, ⟨w, hsound.featured, hsound.phase, fun hphase => (hsound.offered hphase).append _, hsound.decided⟩, ?_⟩
    intro e he hstate
    obtain ⟨hphase, hlength, -⟩ := h.fresh e he hstate
    refine ⟨hphase, ?_, fun _ => .inr (.inr (mem_drop_append hlength (.inr (List.mem_singleton.2 rfl))))⟩
    rw [List.length_append]
    omega
  · have hsame : c.announceRoots = c := if_neg hop
    rw [hsame]
    refine ⟨h.callback, ⟨w, hsound⟩, fun e he hstate => ?_⟩
    obtain ⟨hphase, hlength, -⟩ := h.fresh e he hstate
    exact ⟨hphase, hlength, fun hoperating => absurd hoperating hop⟩

theorem configure_roots (w : Client α) (cfg : Config α) : (configure w cfg).roots = w.roots := by
  cases cfg <;> rfl

/-- A new connection. -/
theorem kept_connect (w : Client α) (changes : Nat) :
    Kept text { client := w, connection := some { session := Client.wiredSession text w }, callback := true, changes }
      { session := Client.wiredSession text w } where
  callback := rfl
  sound := ⟨w, Client.featured_wiredSession text w, fun h => (by cases h), fun h => absurd rfl h, fun e he => (by cases he)⟩
  fresh := fun e he => by cases he

/-- **One step**: what holds of the connection before holds of the connection after. -/
theorem kept_step {l : Label α} (hs : ∀ c, s.connection = some c → Kept text s c) (h : step text s l = some t) :
    ∀ c, t.connection = some c → Kept text t c := by
  cases l with
  | connect =>
    simp only [step] at h
    split at h
    · cases h
    · cases h
      intro c hc
      cases hc
      exact kept_connect s.client s.changes
  | fail =>
    simp only [step] at h
    split at h
    · split at h
      · cases h
        intro c hc
        cases hc
      · cases h
    · cases h
  | act a =>
    simp only [step] at h
    split at h
    · rename_i c₀ hc₀
      obtain ⟨⟨w', c'⟩, hadvance, rfl⟩ := Option.map_eq_some_iff.1 h
      intro c hc
      cases hc
      exact (hs c₀ hc₀).advance hadvance
    · cases h
  | configure cfg =>
    cases h
    intro c hc
    obtain ⟨hcallback, hsound, hfresh⟩ := hs c hc
    refine ⟨hcallback, hsound, ?_⟩
    unfold Fresh
    rw [configure_roots]
    exact hfresh
  | addRoot root =>
    simp only [step] at h
    split at h
    · cases h
      exact fun c hc => (hs c hc).changeRoots _
    · cases h
      exact hs
  | removeRoot uri =>
    simp only [step] at h
    split at h
    · cases h
      exact fun c hc => (hs c hc).changeRoots _
    · cases h
      exact hs
  | announceRoots =>
    simp only [step] at h
    split at h
    · cases h
      intro c hc
      obtain ⟨c₀, hc₀, rfl⟩ := Option.map_eq_some_iff.1 hc
      have hkept := (hs c₀ hc₀).announceRoots
      exact ⟨hkept.callback, hkept.sound, hkept.fresh⟩
    · cases h

/-- **Every connection of a run.** -/
theorem kept_of_run {client : Client α} {labels : List (Label α)} (h : Lts.run (step text) { client } labels = some s) :
    ∀ c, s.connection = some c → Kept text s c :=
  Lts.run_invariant (I := fun s => ∀ c, s.connection = some c → Kept text s c)
    (fun _ _ _ hs hstep => kept_step hs hstep) (fun c hc => by cases hc) h

end Runs

/-! ## What a connection declares -/

section Declares

variable {text : JsonText Bytes} {client : Client α} {labels : List (Label α)} {s : State α} {c : Connection α}

/-- An offer names the capabilities of the options. -/
theorem Offered.decodes {options : ClientOptions} {sent : List Message} (h : Offered options sent)
    (hexperimental : options.capabilities.experimental = none) :
    ∃ r params p, Message.request r ∈ sent ∧ r.method = methods.kInitialize ∧ r.params = some params ∧
      InitializeParams.fromJson params = .ok p ∧ p.capabilities = options.capabilities := by
  obtain ⟨id, hmem⟩ := h
  refine ⟨initializeRequest options id, _, Joined.initializeParams options, hmem, rfl, rfl, ?_, rfl⟩
  refine InitializeParams.fromJson_toJson fun e he => ?_
  have hnone : options.capabilities.experimental = some e := he
  rw [hexperimental] at hnone
  cases hnone

/-- **What a connection declares decides what it answers**, whatever is configured later: there is one set of capabilities,
the `initialize` request of the connection carries it, and every request for a feature that the connection has handled got
the answer that the session's state and these capabilities ask for. -/
theorem declared_decides (h : Lts.run (step text) { client } labels = some s) (hc : s.connection = some c) :
    ∃ capabilities : ClientCapabilities,
      (c.phase ≠ .created → ∃ r params p, Message.request r ∈ c.sent ∧ r.method = methods.kInitialize ∧ r.params = some params ∧
        InitializeParams.fromJson params = .ok p ∧ p.capabilities = capabilities) ∧
      ∀ e ∈ c.answered, ∀ run, (e.request.method, run) ∈ features text →
        (e.response, e.after) = answer e.state capabilities run e.request e.before := by
  obtain ⟨w, hsound⟩ := (kept_of_run h c hc).sound
  exact ⟨w.capabilities, fun hphase => (hsound.offered hphase).decodes rfl, hsound.decided⟩

end Declares

def form : Json := .object [(bytes "count", .numberUnsigned 2)]

/-- A host that fills in the form of an elicitation, with the roots enabled. -/
def host : Client Unit where
  info := { name := bytes "host", version := bytes "1" }
  rootsEnabled := true
  elicitationHandler := some fun _ w => (.ok (.ok { action := .accept, content := some form }), w)
  app := ()

def formRequest : ElicitRequest where
  message := bytes "how many"
  requestedSchema := some SchemaValid.countSchema

/-- The roots are listed and changed, and a form is asked for. -/
def hostRun : List (Label Unit) :=
  [.connect, .act (.begin 0 0), .act (.accept host.info {}), .act .announce, .act .operate,
    .act (.receive 0 (.request { id := .int 1, method := methods.kRootsList })), .addRoot { uri := bytes "file:///a" },
    .act (.receive 0 (.request { id := .int 2, method := methods.kElicitationCreate, params := some formRequest.toJson }))]

theorem hostRun_reaches : ∃ s c listed filled, Lts.run (step SchemaValid.plainText) { client := host } hostRun = some s ∧
    s.connection = some c ∧ c.session.state = .operating ∧ c.phase = .operating ∧ c.answered = [listed, filled] ∧
    listed.request.method = methods.kRootsList ∧ listed.response.result = some (Client.rootsJson []) ∧ listed.sent = 2 ∧
    s.client.roots.listRoots = [{ uri := bytes "file:///a" }] :=
  ⟨_, _, _, _, rfl, rfl, rfl, rfl, rfl, rfl, rfl, rfl, rfl⟩

theorem declared_decides_host : ∃ s c, Lts.run (step SchemaValid.plainText) { client := host } hostRun = some s ∧
    s.connection = some c ∧ c.answered.length = 2 ∧ c.phase = .operating ∧ ∃ capabilities : ClientCapabilities,
      (c.phase ≠ .created → ∃ r params p, Message.request r ∈ c.sent ∧ r.method = methods.kInitialize ∧ r.params = some params ∧
        InitializeParams.fromJson params = .ok p ∧ p.capabilities = capabilities) ∧
      ∀ e ∈ c.answered, ∀ run, (e.request.method, run) ∈ features SchemaValid.plainText →
        (e.response, e.after) = answer e.state capabilities run e.request e.before := by
  obtain ⟨s, c, listed, filled, hrun, hc, -, hphase, hanswered, -⟩ := hostRun_reaches
  refine ⟨s, c, hrun, hc, ?_, hphase, declared_decides hrun hc⟩
  rw [hanswered]
  rfl

/-! ## What an elicitation sends out -/

section Elicitation

variable {text : JsonText Bytes}

/-- The result of a request that was answered by its handler. -/
theorem result_of_answer {state : SessionState} {capabilities : ClientCapabilities} {run : Feature α} {r : JsonRpcRequest}
    {w : Client α} {j : Json} (h : (answer state capabilities run r w).1.result = some j) :
    state = .operating ∧ Client.declares capabilities r.method = true ∧ (run r.params w).1 = .ok (.ok j) := by
  unfold answer at h
  split at h
  · cases h
  · rename_i hstate
    split at h
    · rename_i hdeclared
      refine ⟨not_not.1 hstate, hdeclared, ?_⟩
      rcases hrun : (run r.params w).1 with (_ | _ | _) | (_ | result) <;> rw [hrun] at h
      case ok.ok =>
        cases h
        rfl
      all_goals cases h
    · cases h

/-- An answer that was let through. -/
theorem elicitAnswer_eq_ok {request : ElicitRequest} {result : ElicitResult} {j : Json}
    (h : Client.elicitAnswer text request (.ok result) = .ok (.ok j)) :
    j = result.toJson ∧ ∀ schema content, result.action = .accept → request.requestedSchema = some schema →
      result.content = some content → validateSchema text content schema = .ok (.ok ()) := by
  unfold Client.elicitAnswer at h
  dsimp only at h
  split at h
  · rename_i schema content haction hschema hcontent
    unfold Client.checkContent at h
    split at h
    · cases h
    · cases h
    · rename_i hvalid
      cases h
      refine ⟨rfl, fun schema' content' _ hs hc => ?_⟩
      rw [hschema] at hs
      rw [hcontent] at hc
      cases hs
      cases hc
      exact hvalid
  · rename_i hnone
    cases h
    exact ⟨rfl, fun schema content ha hs hc => absurd hc (hnone schema content ha hs)⟩

/-- **A result of `elicitation/create`** is the user's answer to a request that could be read. -/
theorem elicitationCreate_eq_ok {params : Option Json} {w : Client α} {j : Json}
    (h : (Client.elicitationCreate text params w).1 = .ok (.ok j)) :
    ∃ p request result, params = some p ∧ ElicitRequest.fromJson p = .ok (.ok request) ∧
      Client.elicitAnswer text request (.ok result) = .ok (.ok j) := by
  unfold Client.elicitationCreate at h
  split at h
  · cases h
  · cases h
  · rename_i handler p _
    split at h
    · cases h
    · cases h
    · rename_i request hrequest
      dsimp only at h
      rcases hresult : (handler request w.app).1 with e | (e | result) <;> rw [hresult] at h
      · cases h
      · cases h
      · exact ⟨p, request, result, rfl, hrequest, h⟩

variable {client : Client α} {labels : List (Label α)} {s : State α} {c : Connection α}

/-- **No accepted form leaves the client without having passed the schema it was asked with**: where a response to
`elicitation/create` carries `accept` and content, and its request a schema that is no null, the validator accepted the
content; and where the schema is in the documented subset, the content is valid for it or the validator was lenient. -/
theorem accepted_validated (h : Lts.run (step text) { client } labels = some s) (hc : s.connection = some c) :
    ∀ e ∈ c.answered, e.request.method = methods.kElicitationCreate → ∀ j, e.response.result = some j →
      j.find (bytes "action") = some (.string (bytes "accept")) → ∀ content, j.find (bytes "content") = some content →
      ∀ params schema, e.request.params = some params → params.find (bytes "requestedSchema") = some schema →
      schema.isNull = false →
        validateSchema text content schema = .ok (.ok ()) ∧
          (SchemaValid.documented schema = true → SchemaValid.Valid content schema ∨ SchemaValid.Lenient content schema) := by
  intro e he hmethod j hj haction content hcontent params schema hparams hschema hnull
  obtain ⟨w, hsound⟩ := (kept_of_run h c hc).sound
  have hmem : (e.request.method, Client.elicitationCreate (α := α) text) ∈ features text := by
    rw [hmethod]
    simp [features]
  have hanswer := congrArg Prod.fst (hsound.decided e he _ hmem)
  dsimp only at hanswer
  rw [hanswer] at hj
  obtain ⟨-, -, hrun⟩ := result_of_answer hj
  obtain ⟨p, request, result, hp, hrequest, hout⟩ := elicitationCreate_eq_ok hrun
  rw [hparams] at hp
  cases hp
  obtain ⟨rfl, hvalid⟩ := elicitAnswer_eq_ok hout
  obtain ⟨-, hrequested⟩ := ElicitRequest.fromJson_eq_ok hrequest
  obtain ⟨hactionIs, hcontentIs⟩ := result.find_toJson
  have haccept : result.action = .accept := by
    rw [hactionIs] at haction
    exact elicitActionToString_injective (Json.string.inj (Option.some.inj haction))
  have hrequestedIs : request.requestedSchema = some schema := by
    rw [hrequested, hschema, Option.filter_some, hnull]
    rfl
  have hpassed := hvalid schema content haccept hrequestedIs (hcontentIs.symm.trans hcontent)
  refine ⟨hpassed, fun hdocumented => or_iff_not_imp_left.2 fun hinvalid => ?_⟩
  rcases (SchemaValid.not_valid_iff hdocumented).1 hinvalid with hrefused | hlenient
  · exact absurd hpassed ((SchemaValid.not_passes_iff hdocumented).2 (.inl hrefused))
  · exact hlenient

end Elicitation

theorem accepted_validated_host :
    validateSchema SchemaValid.plainText form SchemaValid.countSchema = .ok (.ok ()) ∧
      (SchemaValid.documented SchemaValid.countSchema = true →
        SchemaValid.Valid form SchemaValid.countSchema ∨ SchemaValid.Lenient form SchemaValid.countSchema) := by
  have hrun : Lts.run (step SchemaValid.plainText) { client := host } hostRun = some _ := rfl
  exact accepted_validated hrun rfl _ (List.mem_cons_of_mem _ List.mem_cons_self) rfl _ rfl rfl _ rfl _ _ rfl rfl rfl

/-! ## What a server has seen of the roots -/

section Roots

variable {text : JsonText Bytes} {client : Client α} {labels : List (Label α)} {s : State α} {c : Connection α}

end Roots

end ClientRun
end Mcp
