import McpSdk.InitializeCodec
import McpSdk.InterferenceRun
/-!
# Declared — what a server announces, and what its sessions declared

A session's capabilities are those of `server_options()` when it was created; the broadcast of a change looks only at
the session's state.  So a notification is declared exactly when the server already had an entry of its kind when the
session was created (`truthful_iff`).
-/
namespace Mcp
namespace Declared

open Session (Standard)

/-! ## What an `InitializeResult` declares -/

/-- A flag of a capability in the JSON of an `InitializeResult`. -/
def flagOf (result : Json) (capability name : Bytes) : Bool :=
  match ((result.find (bytes "capabilities")).bind (fun c => c.find capability)).bind (fun c => c.find name) with
  | some (.boolean b) => b
  | _ => false

/-- The capability the method of a server's notification belongs to, and the flag that announces it. -/
def feature (method : Bytes) : Option (Bytes × Bytes) :=
  if method = methods.kNotificationToolsListChanged then some (bytes "tools", bytes "listChanged")
  else if method = methods.kNotificationPromptsListChanged then some (bytes "prompts", bytes "listChanged")
  else if method = methods.kNotificationResourcesListChanged then some (bytes "resources", bytes "listChanged")
  else if method = methods.kNotificationResourcesUpdated then some (bytes "resources", bytes "subscribe")
  else none

/-- **The notification belongs to a capability the result declares.**  Log messages belong to `logging`, which has no
flag. -/
def declares (result : Json) : Message → Bool
  | .notification n =>
    match feature n.method with
    | some (capability, name) => flagOf result capability name
    | none =>
      n.method == methods.kNotificationMessage &&
        ((result.find (bytes "capabilities")).bind (fun c => c.find (bytes "logging"))).isSome
  | _ => false

/-- The server has an entry of the kind the notification is about. -/
def offers {α : Type} (w : Server α) : Message → Bool
  | .notification n =>
    if n.method = methods.kNotificationToolsListChanged then decide (0 < w.tools.size)
    else if n.method = methods.kNotificationPromptsListChanged then decide (0 < w.prompts.size)
    else if n.method = methods.kNotificationResourcesListChanged ∨ n.method = methods.kNotificationResourcesUpdated then
      decide (0 < w.resources.resourceCount ∨ 0 < w.resources.templateCount)
    else n.method == methods.kNotificationMessage
  | _ => false

theorem find_capabilities (r : InitializeResult) : r.toJson.find (bytes "capabilities") = some r.capabilities.toJson := by
  unfold InitializeResult.toJson
  simp (disch := decide) only [find_setOptional_of_ne, find_set_of_ne, find_set_self]

theorem flagOf_eq {r : InitializeResult} {capability name : Bytes} {c : Option Json} {flag : Option Bool}
    (hc : r.capabilities.toJson.find capability = c) (hflag : c.bind (fun c => c.find name) = flag.map .boolean) :
    flagOf r.toJson capability name = flag.getD false := by
  unfold flagOf
  rw [find_capabilities, Option.bind_some, hc, hflag]
  cases flag <;> rfl

/-- **A result's flags are those of its capabilities.** -/
theorem flagOf_toJson (r : InitializeResult) :
    flagOf r.toJson (bytes "tools") (bytes "listChanged") = (r.capabilities.tools.bind ToolsCapability.listChanged).getD false ∧
      flagOf r.toJson (bytes "prompts") (bytes "listChanged") =
        (r.capabilities.prompts.bind PromptsCapability.listChanged).getD false ∧
      flagOf r.toJson (bytes "resources") (bytes "listChanged") =
        (r.capabilities.resources.bind ResourcesCapability.listChanged).getD false ∧
      flagOf r.toJson (bytes "resources") (bytes "subscribe") =
        (r.capabilities.resources.bind ResourcesCapability.subscribe).getD false := by
  obtain ⟨-, hprompts, hresources, htools, -⟩ := r.capabilities.find_toJson
  have hflags := fun c : ResourcesCapability => find_flagsToJson_two (bytes "subscribe") (bytes "listChanged") (by decide)
    c.subscribe c.listChanged
  refine ⟨flagOf_eq htools ?_, flagOf_eq hprompts ?_, flagOf_eq hresources ?_, flagOf_eq hresources ?_⟩
  · cases r.capabilities.tools with
    | none => rfl
    | some c => exact find_flagsToJson_one _ _
  · cases r.capabilities.prompts with
    | none => rfl
    | some c => exact find_flagsToJson_one _ _
  · cases r.capabilities.resources with
    | none => rfl
    | some c => exact (hflags c).2
  · cases r.capabilities.resources with
    | none => rfl
    | some c => exact (hflags c).1

/-- **A result with the server's capabilities declares what the server offers.** -/
theorem declares_eq_offers {α : Type} {w : Server α} {r : InitializeResult} (hr : r.capabilities = w.capabilities) (m : Message) :
    declares r.toJson m = offers w m := by
  cases m with
  | request r => rfl
  | response r => rfl
  | notification n =>
    obtain ⟨htools, hprompts, hlist, hsubscribe⟩ := flagOf_toJson r
    have hlogging : r.capabilities.toJson.find (bytes "logging") = some (.object []) := by
      rw [r.capabilities.find_toJson.1, hr]
      rfl
    simp only [hr, Server.capabilities] at htools hprompts hlist hsubscribe
    simp only [declares, offers, feature]
    by_cases h1 : n.method = methods.kNotificationToolsListChanged
    · simp only [if_pos h1, htools]
      by_cases hsize : 0 < w.tools.size <;> simp [hsize]
    rw [if_neg h1, if_neg h1]
    by_cases h2 : n.method = methods.kNotificationPromptsListChanged
    · simp only [if_pos h2, hprompts]
      by_cases hsize : 0 < w.prompts.size <;> simp [hsize]
    rw [if_neg h2, if_neg h2]
    by_cases h3 : n.method = methods.kNotificationResourcesListChanged
    · simp only [h3, if_true, true_or, hlist]
      by_cases hsize : 0 < w.resources.resourceCount ∨ 0 < w.resources.templateCount <;> simp [hsize]
    rw [if_neg h3]
    by_cases h4 : n.method = methods.kNotificationResourcesUpdated
    · simp only [h4, if_true, or_true, hsubscribe]
      by_cases hsize : 0 < w.resources.resourceCount ∨ 0 < w.resources.templateCount <;> simp [hsize]
    simp only [h3, h4, or_self, if_false, find_capabilities, Option.bind_some, hlogging, Option.isSome_some,
      Bool.and_true]

/-! ## What a session answers to `initialize` -/

/-- The results a session answers a message with, when it is an `initialize` request. -/
def initializeResults (m : Message) (effects : List Effect) : List Json :=
  match m with
  | .request r =>
    if r.method = methods.kInitialize then
      effects.filterMap fun
        | .send (.response response) => response.result
        | _ => none
    else []
  | _ => []

/-- The handshake has got as far as a result. -/
def Begun (s : SessionState) : Prop := s = .initializing ∨ s = .operating

section Sessions

variable {ω : Type} {options : ServerOptions} {s : Session ω}

theorem runInitialize_result (options : ServerOptions) (s : Session ω) (params : Option Json) :
    (∃ e, (Session.runInitialize options s params).1 = .error e ∧ (Session.runInitialize options s params).2.state = s.state) ∨
      ∃ r : InitializeResult, (Session.runInitialize options s params).1 = .ok r.toJson ∧ r.capabilities = options.capabilities := by
  unfold Session.runInitialize
  by_cases hrefused : s.state ≠ .uninitialized ∧ options.allowReinitialize = false
  · rw [if_pos hrefused]
    exact .inl ⟨_, rfl, rfl⟩
  rw [if_neg hrefused]
  have hkept : (if s.state ≠ .uninitialized then { s with clientInfo := none, clientCapabilities := none } else s).state =
      s.state := by
    split <;> rfl
  cases params with
  | none => exact .inl ⟨_, rfl, hkept⟩
  | some p =>
    simp only
    cases InitializeParams.fromJson p with
    | error e => exact .inl ⟨_, rfl, hkept⟩
    | ok parsed => exact .inr ⟨_, rfl, rfl⟩

/-- **What a message adds**: the results carry the session's capabilities, and the handshake begins with one. -/
structure Answers (options : ServerOptions) (s : Session ω) (m : Message) (out : Session.Handled ω) : Prop where
  results : ∀ j ∈ initializeResults m out.effects, ∃ r : InitializeResult, j = r.toJson ∧ r.capabilities = options.capabilities
  begun : Begun out.session.state → Begun s.state ∨ initializeResults m out.effects ≠ []

theorem Answers.silent {m : Message} {out : Session.Handled ω} (hresults : initializeResults m out.effects = [])
    (hstate : Begun out.session.state → Begun s.state) : Answers options s m out where
  results := fun j hj => by
    rw [hresults] at hj
    cases hj
  begun := fun h => .inl (hstate h)

/-- **The step lemma, for a request.** -/
theorem handleRequest_answers (hs : Standard options s) (w : ω) (r : JsonRpcRequest) :
    Answers options s (.request r) (Session.handleRequest s w r) := by
  have hstate := (Session.protectId_same s r).2
  have hother : ∀ {out : Session.Handled ω}, r.method ≠ methods.kInitialize → out.session.state = s.state →
      Answers options s (.request r) out := fun hne h =>
    .silent (if_neg hne) (fun hb => by rwa [h] at hb)
  cases Session.handleRequest_answered s w r with
  | rejected e gate out_eq =>
    rw [out_eq]
    refine .silent ?_ (fun hb => by rwa [hstate] at hb)
    exact ite_eq_right_iff.2 (fun _ => rfl)
  | missing gate find out_eq =>
    rw [out_eq]
    refine .silent ?_ (fun hb => by rwa [hstate] at hb)
    exact ite_eq_right_iff.2 (fun _ => rfl)
  | handled handler gate find out_eq =>
    rw [out_eq]
    have hname : r.method = methods.kInitialize → handler = .initializeHandler options := by
      intro h
      rw [h, hs.find_initialize] at find
      exact (Option.some.inj find).symm
    cases handler with
    | ping => exact hother (fun h => by cases hname h) hstate
    | user run => exact hother (fun h => by cases hname h) hstate
    | initializeHandler o =>
      have hmethod := hs.method_of_find find
      cases hname hmethod
      rcases runInitialize_result options (s.protectId r) r.params with ⟨e, hresult, hkept⟩ | ⟨result, hresult, hcapabilities⟩
      · refine .silent ?_ (fun hb => ?_)
        · simp [initializeResults, Session.runRequestHandler, hresult, Session.respond, hmethod]
        · rw [← hstate, ← hkept]
          exact hb
      · have hone : initializeResults (.request r)
            [.dispatch r.method, .invoke r.method, .send (.response (Session.respond r.id
              (Session.runRequestHandler (s.protectId r) w r.params (.initializeHandler options)).1))] = [result.toJson] := by
          simp [initializeResults, Session.runRequestHandler, hresult, Session.respond, hmethod]
        refine ⟨fun j hj => ?_, fun _ => .inr ?_⟩
        · rw [hone] at hj
          exact ⟨result, List.mem_singleton.1 hj, hcapabilities⟩
        · rw [hone]
          exact List.cons_ne_nil _ _

/-- **The step lemma, for any message.** -/
theorem handleMessage_answers (hs : Standard options s) (now : TimePoint) (w : ω) (m : Message) :
    Answers options s m (s.handleMessage now w m) := by
  cases m with
  | request r => exact handleRequest_answers hs w r
  | notification n =>
    refine .silent rfl (fun hb => ?_)
    have hcases : (Session.dispatchNotification now s w n).session.state = s.state ∨ s.state = .initializing := by
      unfold Session.dispatchNotification
      split
      · exact .inl rfl
      · exact .inl (Session.handleProgress_same now s w n.params).2
      · exact .inl (Session.handleCancelled_same s w n.params).2
      · unfold Session.handleInitialized
        split
        · exact .inr (by assumption)
        · exact .inl rfl
      · exact .inl rfl
    rcases hcases with h | h
    · rw [← h]
      exact hb
    · exact .inl h
  | response r =>
    refine .silent rfl (fun hb => ?_)
    rw [← (Session.handleResponse_same s w r).2]
    exact hb

end Sessions

/-! ## A server that creates its sessions as it runs -/

open Attached (Peer)

/-- The server and its sessions, and what is known of each: the server it was created from, the results it answered to
`initialize`, and what the server broadcast to it. -/
structure State (ι α : Type) where
  attached : Attached.State ι α
  created : ι → Option (Server α) := fun _ => none
  results : ι → List Json := fun _ => []
  announced : ι → List Message := fun _ => []

inductive Label (ι α : Type) where
  /-- `ServerSession(transport, server.server_options())`. -/
  | create (i : ι)
  | act (l : Attached.Label ι α)

/-- The session a label is about. -/
def subject {ι α : Type} : Attached.Label ι α → Option ι
  | .receive i _ _ => some i
  | .transmit i _ => some i
  | .session i _ => some i
  | .attach i => some i
  | .detach i => some i
  | .call _ => none
  | .finish _ => none

section Runs

variable {ι α : Type} [DecidableEq ι]

/-- What session `j` answers to `initialize` in a step. -/
def answered (s : Attached.State ι α) (l : Attached.Label ι α) (j : ι) : List Json :=
  match l with
  | .receive i now m => if j = i then initializeResults m ((s.peer i).session.handleMessage now s.server m).effects else []
  | _ => []

/-- What the server broadcasts to session `j` in a step. -/
def broadcasts (s : Attached.State ι α) (l : Attached.Label ι α) (j : ι) : List Message :=
  match l with
  | .finish k => if j ∈ s.sessions ∧ (s.peer j).session.state = .operating then (s.calls[k]?.join).toList else []
  | _ => []

def State.create (s : State ι α) (i : ι) : State ι α :=
  { s with
    attached := s.attached.setPeer i { session := Session.mkServer s.attached.server.serverOptions }
    created := Function.update s.created i (some s.attached.server) }

@[simp] theorem create_created_self (s : State ι α) (i : ι) : (s.create i).created i = some s.attached.server := by
  simp [State.create]

@[simp] theorem create_created_of_ne (s : State ι α) {i k : ι} (h : k ≠ i) : (s.create i).created k = s.created k := by
  simp [State.create, h]

@[simp] theorem create_peer_self (s : State ι α) (i : ι) :
    (s.create i).attached.peer i = { session := Session.mkServer s.attached.server.serverOptions } := by
  simp [State.create]

@[simp] theorem create_peer_of_ne (s : State ι α) {i k : ι} (h : k ≠ i) :
    (s.create i).attached.peer k = s.attached.peer k := by
  simp [State.create, h]

def step (text : JsonText Bytes) (s : State ι α) : Label ι α → Option (State ι α)
  | .create i => if (s.created i).isSome then none else some (s.create i)
  | .act l =>
    if (subject l).all (fun i => (s.created i).isSome) then
      (Attached.step text s.attached l).map fun attached =>
        { attached
          created := s.created
          results := fun j => s.results j ++ answered s.attached l j
          announced := fun j => s.announced j ++ broadcasts s.attached l j }
    else none

/-- A server without sessions. -/
def start (server : Server α) : State ι α := { attached := Attached.start server (fun _ => server.serverOptions) }

/-- **Everything announced to a session is declared in its `InitializeResult`**, in each when it is initialized again. -/
def Truthful (s : State ι α) : Prop :=
  ∀ i, ∀ m ∈ s.announced i, s.results i ≠ [] ∧ ∀ j ∈ s.results i, declares j m = true

/-- **A broadcast reaches only sessions created when the server had an entry of its kind.** -/
def Covered (s : State ι α) : Label ι α → Prop
  | .create _ => True
  | .act l => ∀ i, ∀ m ∈ broadcasts s.attached l i, (s.created i).any (fun w => offers w m) = true

/-! ### One step of a session -/

theorem standard_attachRouter (text : JsonText Bytes) {options : ServerOptions} {s : Session (Server α)} (h : Standard options s) :
    Standard options { s with router := Server.attachRouter text s.router } := by
  have hfold : ∀ (hs : List (Bytes × Server.Handler α)) (s : Session (Server α)), Standard options s →
      (∀ g ∈ hs, g.1 ≠ methods.kInitialize) →
      Standard options { s with router := hs.foldl (fun r g => r.setRequestHandler g.1 (some (.user g.2))) s.router } := by
    intro hs
    induction hs with
    | nil => exact fun _ h _ => h
    | cons g hs ih =>
      intro s h hne
      exact ih _ (h.setRequestHandler (hne g List.mem_cons_self) (some g.2)) (fun x hx => hne x (List.mem_cons_of_mem _ hx))
  have hnames : ∀ name ∈ [methods.kToolsList, methods.kToolsCall, methods.kResourcesList, methods.kResourcesTemplatesList,
      methods.kResourcesRead, methods.kResourcesSubscribe, methods.kResourcesUnsubscribe, methods.kPromptsList,
      methods.kPromptsGet, methods.kLoggingSetLevel, methods.kCompletionComplete], name ≠ methods.kInitialize := by decide
  exact hfold _ s h (fun g hg => hnames g.1 (List.mem_map_of_mem (f := Prod.fst) hg))

theorem applySessionCall_state {ω : Type} (session : Session ω) (next : Int64) (c : Attached.SessionCall) :
    Begun (Attached.applySessionCall session next c).1.state → Begun session.state := by
  intro h
  cases c with
  | sendRequest now method params options callback =>
    simp only [Attached.applySessionCall] at h
    split at h <;> exact h
  | close => exact (h.elim (fun h => by cases h) (fun h => by cases h))
  | _ => exact h

/-- What a step of the server does to one of its sessions. -/
structure Kept (options : ServerOptions) (p q : Peer α) (answers : List Json) : Prop where
  standard : Standard options q.session
  results : ∀ j ∈ answers, ∃ r : InitializeResult, j = r.toJson ∧ r.capabilities = options.capabilities
  begun : Begun q.session.state → Begun p.session.state ∨ answers ≠ []

theorem Kept.of_session {options : ServerOptions} {p q : Peer α} (hs : Standard options p.session) (h : q.session = p.session) :
    Kept options p q [] where
  standard := by rwa [h]
  results := fun _ hj => by cases hj
  begun := fun hb => .inl (by rwa [h] at hb)

/-- **The step lemma**: a session stays the one it was created as, and begins its handshake with a result. -/
theorem attachedStep_kept {text : JsonText Bytes} {s t : Attached.State ι α} {l : Attached.Label ι α}
    (ht : Attached.step text s l = some t) {i : ι} {options : ServerOptions} (hs : Standard options (s.peer i).session) :
    Kept options (s.peer i) (t.peer i) (answered s l i) := by
  cases l with
  | receive k now m =>
    unfold Attached.step Attached.State.receive at ht
    simp only at ht
    split at ht
    · cases ht
    · cases ht
      by_cases hik : i = k
      · subst hik
        have hanswers := handleMessage_answers hs now s.server m
        have hsame := Session.handleMessage_same now (s.peer i).session s.server m
        refine ⟨?_, ?_, ?_⟩
        · rw [Attached.setPeer_self]
          exact hs.of_sameTables hsame
        · simp only [answered, if_true]
          exact hanswers.results
        · rw [Attached.setPeer_self]
          simp only [answered, if_true]
          exact hanswers.begun
      · simp only [answered, if_neg hik]
        exact .of_session hs (by rw [Attached.setPeer_of_ne _ hik])
  | transmit k n =>
    obtain ⟨m, -, rfl⟩ := Option.map_eq_some_iff.1 ht
    refine .of_session hs ?_
    by_cases hik : i = k
    · subst hik
      rw [Attached.setPeer_self]
    · rw [Attached.setPeer_of_ne _ hik]
  | call c =>
    cases ht
    exact .of_session hs rfl
  | finish k =>
    obtain ⟨note, -, rfl⟩ := Option.map_eq_some_iff.1 ht
    exact .of_session hs (Attached.broadcast_session _ note i)
  | session k c =>
    cases ht
    by_cases hik : i = k
    · subst hik
      refine ⟨?_, fun _ hj => (by cases hj), fun hb => .inl ?_⟩
      · rw [Attached.State.sessionCall, Attached.setPeer_self]
        exact hs.of_sameTables (Attached.applySessionCall_same _ _ c)
      · rw [Attached.State.sessionCall, Attached.setPeer_self] at hb
        exact applySessionCall_state _ _ c hb
    · exact .of_session hs (by rw [Attached.State.sessionCall, Attached.setPeer_of_ne _ hik])
  | attach k =>
    cases ht
    by_cases hik : i = k
    · subst hik
      refine ⟨?_, fun _ hj => (by cases hj), fun hb => .inl ?_⟩
      · rw [Attached.State.attach, Attached.setPeer_self]
        exact standard_attachRouter text hs
      · rw [Attached.State.attach, Attached.setPeer_self] at hb
        exact hb
    · exact .of_session hs (by rw [Attached.State.attach, Attached.setPeer_of_ne _ hik])
  | detach k =>
    cases ht
    exact .of_session hs rfl

theorem answered_created {s : Attached.State ι α} {created : ι → Option (Server α)} {l : Attached.Label ι α} {i : ι}
    (hl : (subject l).all (fun i => (created i).isSome) = true) (h : answered s l i ≠ []) : (created i).isSome = true := by
  cases l with
  | receive k now m =>
    by_cases hik : i = k
    · subst hik
      exact hl
    · exact absurd (if_neg hik) h
  | _ => exact absurd rfl h

/-! ### Runs -/

/-- **The invariant**: every session is the one its server's options made, and its results are those of its options. -/
structure Snapshot (s : State ι α) : Prop where
  standard : ∀ i, ∃ options, Standard options (s.attached.peer i).session ∧ ∀ w, s.created i = some w → w.serverOptions = options
  results : ∀ i, ∀ j ∈ s.results i, ∃ (w : Server α) (r : InitializeResult),
    s.created i = some w ∧ j = r.toJson ∧ r.capabilities = w.capabilities
  begun : ∀ i, Begun (s.attached.peer i).session.state → (s.created i).isSome = true ∧ s.results i ≠ []

omit [DecidableEq ι] in
theorem snapshot_start (server : Server α) : Snapshot (start (ι := ι) server) where
  standard := fun _ => ⟨server.serverOptions, Session.standard_mkServer _, fun _ h => by cases h⟩
  results := fun _ _ h => by cases h
  begun := fun _ h => h.elim (fun h => by cases h) (fun h => by cases h)

variable {text : JsonText Bytes} {s t : State ι α}

/-- A session is created, and has nothing to its name yet. -/
theorem create_snapshot (h : Snapshot s) {i : ι} (hnew : s.created i = none) : Snapshot (s.create i) := by
  refine ⟨fun k => ?_, fun k j hj => ?_, fun k hb => ?_⟩
  · by_cases hki : k = i
    · subst hki
      rw [create_peer_self, create_created_self]
      exact ⟨_, Session.standard_mkServer _, fun w hw => by rw [Option.some.inj hw]⟩
    · rw [create_peer_of_ne s hki, create_created_of_ne s hki]
      exact h.standard k
  · obtain ⟨w, r, hw, hr⟩ := h.results k j hj
    have hki : k ≠ i := by
      rintro rfl
      rw [hnew] at hw
      cases hw
    exact ⟨w, r, by rw [create_created_of_ne s hki, hw], hr⟩
  · by_cases hki : k = i
    · subst hki
      rw [create_peer_self] at hb
      exact hb.elim (fun h => by cases h) (fun h => by cases h)
    · rw [create_peer_of_ne s hki] at hb
      rw [create_created_of_ne s hki]
      exact h.begun k hb

/-- **The step lemma.** -/
theorem step_snapshot {l : Label ι α} (h : Snapshot s) (ht : step text s l = some t) : Snapshot t := by
  cases l with
  | create i =>
    simp only [step] at ht
    split at ht
    · cases ht
    · rename_i hnew
      cases ht
      exact create_snapshot h (by simpa using hnew)
  | act l =>
    simp only [step] at ht
    split at ht
    · rename_i hsubject
      obtain ⟨attached, hattached, rfl⟩ := Option.map_eq_some_iff.1 ht
      refine ⟨fun i => ?_, fun i j hj => ?_, fun i hb => ?_⟩
      · obtain ⟨options, hs, hoptions⟩ := h.standard i
        exact ⟨options, (attachedStep_kept hattached hs).standard, hoptions⟩
      · rcases List.mem_append.1 hj with hj | hj
        · exact h.results i j hj
        · obtain ⟨options, hs, hoptions⟩ := h.standard i
          obtain ⟨w, hw⟩ := Option.isSome_iff_exists.1 (answered_created hsubject (List.ne_nil_of_mem hj))
          obtain ⟨r, hr, hcapabilities⟩ := (attachedStep_kept hattached hs).results j hj
          rw [← hoptions w hw] at hcapabilities
          exact ⟨w, r, hw, hr, hcapabilities⟩
      · obtain ⟨options, hs, -⟩ := h.standard i
        rcases (attachedStep_kept hattached hs).begun hb with hb | hanswers
        · exact ⟨(h.begun i hb).1, List.append_ne_nil_of_left_ne_nil (h.begun i hb).2 _⟩
        · exact ⟨answered_created hsubject hanswers, List.append_ne_nil_of_right_ne_nil _ hanswers⟩
    · cases ht

/-- Sessions stay created, and what was announced stays announced. -/
theorem step_grows {l : Label ι α} (ht : step text s l = some t) (i : ι) :
    (∀ w, s.created i = some w → t.created i = some w) ∧ ∀ m ∈ s.announced i, m ∈ t.announced i := by
  cases l with
  | create k =>
    simp only [step] at ht
    split at ht
    · cases ht
    · rename_i hnew
      cases ht
      refine ⟨fun w hw => ?_, fun _ hm => hm⟩
      have hki : i ≠ k := by
        rintro rfl
        simp [hw] at hnew
      rw [create_created_of_ne s hki, hw]
  | act l =>
    simp only [step] at ht
    split at ht
    · obtain ⟨attached, -, rfl⟩ := Option.map_eq_some_iff.1 ht
      exact ⟨fun _ hw => hw, fun _ hm => List.mem_append_left _ hm⟩
    · cases ht

theorem run_grows {l : List (Label ι α)} (ht : Lts.run (step text) s l = some t) (i : ι) :
    (∀ w, s.created i = some w → t.created i = some w) ∧ ∀ m ∈ s.announced i, m ∈ t.announced i := by
  refine Lts.run_invariant (I := fun t => (∀ w, s.created i = some w → t.created i = some w) ∧ ∀ m ∈ s.announced i, m ∈ t.announced i)
    (fun t l u h hu => ?_) ⟨fun _ hw => hw, fun _ hm => hm⟩ ht
  exact ⟨fun w hw => (step_grows hu i).1 w (h.1 w hw), fun m hm => (step_grows hu i).2 m (h.2 m hm)⟩

theorem broadcasts_begun {s : Attached.State ι α} {l : Attached.Label ι α} {i : ι} {m : Message} (h : m ∈ broadcasts s l i) :
    Begun (s.peer i).session.state := by
  cases l with
  | finish k =>
    simp only [broadcasts] at h
    split at h
    · rename_i hto
      exact .inr hto.2
    · cases h
  | _ => cases h

/-- A truthful end leaves no broadcast uncovered. -/
theorem meets_of_truthful : ∀ {l : List (Label ι α)} {s t : State ι α}, Snapshot s → Lts.run (step text) s l = some t →
    Truthful t → Lts.Meets (step text) Covered s l
  | [], _, _, _, _, _ => trivial
  | x :: l, s, t, h, ht, htruth => by
    obtain ⟨u, hu, hrun⟩ := Lts.run_cons_eq_some.1 ht
    have hsnapshot := step_snapshot h hu
    have hfinal : Snapshot t := Lts.run_invariant (fun _ _ _ h hs => step_snapshot h hs) hsnapshot hrun
    refine ⟨?_, fun u' hu' => ?_⟩
    · cases x with
      | create i => trivial
      | act l =>
        intro i m hm
        have hannounced : m ∈ u.announced i := by
          simp only [step] at hu
          split at hu
          · obtain ⟨attached, -, rfl⟩ := Option.map_eq_some_iff.1 hu
            exact List.mem_append_right _ hm
          · cases hu
        obtain ⟨hne, hdeclares⟩ := htruth i m ((run_grows hrun i).2 m hannounced)
        obtain ⟨j, hj⟩ := List.exists_mem_of_ne_nil _ hne
        obtain ⟨w, hw⟩ := Option.isSome_iff_exists.1 (h.begun i (broadcasts_begun hm)).1
        obtain ⟨w', r, hw', rfl, hcapabilities⟩ := hfinal.results i j hj
        have hsame : w = w' := Option.some.inj (((run_grows ht i).1 w hw).symm.trans hw')
        rw [hw, Option.any_some, hsame, ← declares_eq_offers hcapabilities]
        exact hdeclares _ hj
    · rw [hu] at hu'
      cases hu'
      exact meets_of_truthful hsnapshot hrun htruth

/-- What was announced to a session was offered when it was created, and the session has answered `initialize`. -/
def Told (s : State ι α) : Prop :=
  ∀ i, ∀ m ∈ s.announced i, (s.created i).any (fun w => offers w m) = true ∧ s.results i ≠ []

omit [DecidableEq ι] in
theorem Told.truthful (h : Told s) (hs : Snapshot s) : Truthful s := by
  intro i m hm
  obtain ⟨hoffers, hne⟩ := h i m hm
  refine ⟨hne, fun j hj => ?_⟩
  obtain ⟨w, r, hw, rfl, hcapabilities⟩ := hs.results i j hj
  rw [hw, Option.any_some] at hoffers
  rw [declares_eq_offers hcapabilities, hoffers]

theorem step_told {l : Label ι α} (h : Told s) (hs : Snapshot s) (hl : Covered s l) (ht : step text s l = some t) : Told t := by
  intro i m hm
  cases l with
  | create k =>
    simp only [step] at ht
    split at ht
    · cases ht
    · rename_i hnew
      cases ht
      obtain ⟨hoffers, hne⟩ := h i m hm
      have hik : i ≠ k := by
        rintro rfl
        simp only [Bool.not_eq_true, Option.isSome_eq_false_iff, Option.isNone_iff_eq_none] at hnew
        rw [hnew] at hoffers
        cases hoffers
      exact ⟨by rw [create_created_of_ne s hik, hoffers], hne⟩
  | act l =>
    simp only [step] at ht
    split at ht
    · obtain ⟨attached, -, rfl⟩ := Option.map_eq_some_iff.1 ht
      rcases List.mem_append.1 hm with hm | hm
      · obtain ⟨hoffers, hne⟩ := h i m hm
        exact ⟨hoffers, List.append_ne_nil_of_left_ne_nil hne _⟩
      · exact ⟨hl i m hm, List.append_ne_nil_of_left_ne_nil (hs.begun i (broadcasts_begun hm)).2 _⟩
    · cases ht

/-- **Announcements are declared exactly when they are covered**: in a run of a server that creates its sessions as it
goes, everything announced to a session belongs to a capability of its `InitializeResult` if and only if every broadcast
reaches only sessions that were created when the server had an entry of its kind. -/
theorem truthful_iff (text : JsonText Bytes) (server : Server α) {l : List (Label ι α)} {s : State ι α}
    (hs : Lts.run (step text) (start server) l = some s) :
    Truthful s ↔ Lts.Meets (step text) Covered (start server) l := by
  constructor
  · exact meets_of_truthful (snapshot_start server) hs
  · intro hmeets
    have hboth := Lts.meets_invariant (I := fun s => Snapshot s ∧ Told s)
      (fun s l t h hl ht => ⟨step_snapshot h.1 ht, step_told h.2 h.1 hl ht⟩)
      ⟨snapshot_start server, fun i m hm => by cases hm⟩ hmeets hs
    exact hboth.2.truthful hboth.1

end Runs

/-! ## A session from before the first tool -/

open Attached (plainText initializeRequest)

def bareServer : Server Unit where
  info := { name := bytes "s", version := bytes "1" }
  app := ()

def addTool (name : Bytes) : Label Unit Unit :=
  .act (.call (.registerTool { name } (some fun _ app => (.ok { content := [] }, app))))

def handshake : List (Label Unit Unit) :=
  [.act (.attach ()), .act (.receive () 0 initializeRequest),
    .act (.receive () 0 (.notification { method := methods.kNotificationInitialized }))]

/-- The first tool comes before the session, the second after it. -/
theorem truthful_iff_late :
    ∃ s, Lts.run (step plainText) (start bareServer)
        (addTool (bytes "a") :: .create () :: handshake ++ [addTool (bytes "b"), .act (.finish 1)]) = some s ∧
      (s.announced ()).length = 1 ∧
      (Truthful s ↔ Lts.Meets (step plainText) Covered (start bareServer)
        (addTool (bytes "a") :: .create () :: handshake ++ [addTool (bytes "b"), .act (.finish 1)])) := by
  have hrun : (Lts.run (step plainText) (start bareServer)
      (addTool (bytes "a") :: .create () :: handshake ++ [addTool (bytes "b"), .act (.finish 1)])).map
        (fun s => (s.announced ()).length) = some 1 := by decide +kernel
  obtain ⟨s, hs, hlength⟩ := Option.map_eq_some_iff.1 hrun
  exact ⟨s, hs, hlength, truthful_iff plainText bareServer hs⟩

/-- **A session from before the first tool is told of it**, and its `InitializeResult` declares no tools. -/
theorem earlySession_untruthful :
    ∃ s, Lts.run (step plainText) (start bareServer)
        (.create () :: handshake ++ [addTool (bytes "a"), .act (.finish 0)]) = some s ∧ ¬ Truthful s := by
  have hrun : (Lts.run (step plainText) (start bareServer)
      (.create () :: handshake ++ [addTool (bytes "a"), .act (.finish 0)])).map
        (fun s => (s.announced ()).map (fun m => (s.results ()).map (fun j => declares j m))) = some [[false]] := by
    decide +kernel
  obtain ⟨s, hs, hdeclares⟩ := Option.map_eq_some_iff.1 hrun
  refine ⟨s, hs, fun htruth => ?_⟩
  obtain ⟨m, hm, hresults⟩ := List.map_eq_singleton_iff.1 hdeclares
  obtain ⟨j, hj, hfalse⟩ := List.map_eq_singleton_iff.1 hresults
  have htold := (htruth () m (by simp [hm])).2 j (by simp [hj])
  rw [hfalse] at htold
  cases htold

end Declared
end Mcp
