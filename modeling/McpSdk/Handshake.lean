import McpSdk.Session
import McpSdk.Lib.Run
/-!
# Handshake — what a server session lets through, over a whole sequence of messages

`handleAll` handles messages one after the other and keeps a record of each.  The state of the session sums up the
records so far (`History`): it leaves `uninitialized` with the one `initialize` answered with a result, and reaches
`operating` with a `notifications/initialized` after it.
-/
namespace Mcp

/-! ## Handler tables -/

theorem matchWildcard_mem {H : Type} {patterns : List (Bytes × Option H)} {method : Bytes} {h : H}
    (hm : matchWildcard patterns method = some h) : ∃ p, (p, some h) ∈ patterns := by
  have hbest : ∀ (rest : List (Bytes × Option H)) (best : Option (Bytes × Option H)),
      (∀ b, best = some b → b ∈ patterns) → (∀ e ∈ rest, e ∈ patterns) →
      ∀ b, rest.foldl (fun (best : Option (Bytes × Option H)) entry =>
        if startsWith method entry.1 && best.all (fun b => decide (b.1.length < entry.1.length)) then some entry else best)
        best = some b → b ∈ patterns := by
    intro rest
    induction rest with
    | nil => exact fun best hb _ b => hb b
    | cons e rest ih =>
      intro best hb hrest b hfold
      rw [List.foldl_cons] at hfold
      refine ih _ (fun c hc => ?_) (fun x hx => hrest x (List.mem_cons_of_mem _ hx)) b hfold
      split at hc
      · cases hc
        exact hrest e List.mem_cons_self
      · exact hb c hc
  obtain ⟨⟨p, v⟩, hb, hv⟩ := Option.bind_eq_some_iff.1 hm
  simp only at hv
  subst hv
  exact ⟨p, hbest patterns none (fun b hb => by cases hb) (fun _ he => he) _ hb⟩

namespace Router

variable {ω : Type}

theorem findRequestHandler_eq_some {r : Router ω} {method : Bytes} {h : RequestHandler ω}
    (hf : r.findRequestHandler method = some h) :
    r.requestHandlers.lookup method = some (some h) ∨ ∃ p, (p, some h) ∈ r.wildcardRequestHandlers := by
  unfold findRequestHandler at hf
  cases hl : r.requestHandlers.lookup method with
  | some handler =>
    rw [hl] at hf
    exact .inl (congrArg some hf)
  | none =>
    rw [hl] at hf
    exact .inr (matchWildcard_mem hf)

theorem findNotificationHandler_eq_some {r : Router ω} {method : Bytes} {h : NotificationHandler ω}
    (hf : r.findNotificationHandler method = some h) :
    r.notificationHandlers.lookup method = some (some h) ∨ ∃ p, (p, some h) ∈ r.wildcardNotificationHandlers := by
  unfold findNotificationHandler at hf
  cases hl : r.notificationHandlers.lookup method with
  | some handler =>
    rw [hl] at hf
    exact .inl (congrArg some hf)
  | none =>
    rw [hl] at hf
    exact .inr (matchWildcard_mem hf)

/-- Where an entry of the table comes from after a registration. -/
theorem setRequestHandler_cases (r : Router ω) (method : Bytes) (handler : Option (RequestHandler ω)) :
    (∀ key h, (r.setRequestHandler method handler).requestHandlers.lookup key = some (some h) →
      r.requestHandlers.lookup key = some (some h) ∨ handler = some h) ∧
    (∀ p h, (p, some h) ∈ (r.setRequestHandler method handler).wildcardRequestHandlers →
      (p, some h) ∈ r.wildcardRequestHandlers ∨ handler = some h) ∧
    ∀ key, key ≠ method →
      (r.setRequestHandler method handler).requestHandlers.lookup key = r.requestHandlers.lookup key := by
  unfold setRequestHandler
  split
  · refine ⟨fun _ _ h => .inl h, fun p h hmem => ?_, fun _ _ => rfl⟩
    rcases List.mem_append.1 hmem with hmem | hmem
    · exact .inl hmem
    · exact .inr (congrArg Prod.snd (List.mem_singleton.1 hmem)).symm
  · refine ⟨fun key h hl => ?_, fun _ _ h => .inl h, fun key hne => AList.lookup_insert_ne hne⟩
    rcases Dict.lookup_insert_eq_some.1 hl with ⟨-, hnew⟩ | ⟨-, hold⟩
    · exact .inr hnew
    · exact .inl hold

theorem setNotificationHandler_cases (r : Router ω) (method : Bytes) (handler : Option (NotificationHandler ω)) :
    (∀ key h, (r.setNotificationHandler method handler).notificationHandlers.lookup key = some (some h) →
      r.notificationHandlers.lookup key = some (some h) ∨ handler = some h) ∧
    ∀ p h, (p, some h) ∈ (r.setNotificationHandler method handler).wildcardNotificationHandlers →
      (p, some h) ∈ r.wildcardNotificationHandlers ∨ handler = some h := by
  unfold setNotificationHandler
  split
  · refine ⟨fun _ _ h => .inl h, fun p h hmem => ?_⟩
    rcases List.mem_append.1 hmem with hmem | hmem
    · exact .inl hmem
    · exact .inr (congrArg Prod.snd (List.mem_singleton.1 hmem)).symm
  · refine ⟨fun key h hl => ?_, fun _ _ h => .inl h⟩
    rcases Dict.lookup_insert_eq_some.1 hl with ⟨-, hnew⟩ | ⟨-, hold⟩
    · exact .inr hnew
    · exact .inl hold

theorem setRequestHandler_notifications (r : Router ω) (method : Bytes) (handler : Option (RequestHandler ω)) :
    (r.setRequestHandler method handler).notificationHandlers = r.notificationHandlers ∧
      (r.setRequestHandler method handler).wildcardNotificationHandlers = r.wildcardNotificationHandlers := by
  unfold setRequestHandler
  split <;> exact ⟨rfl, rfl⟩

theorem setNotificationHandler_requests (r : Router ω) (method : Bytes) (handler : Option (NotificationHandler ω)) :
    (r.setNotificationHandler method handler).requestHandlers = r.requestHandlers ∧
      (r.setNotificationHandler method handler).wildcardRequestHandlers = r.wildcardRequestHandlers := by
  unfold setNotificationHandler
  split <;> exact ⟨rfl, rfl⟩

end Router

namespace Session

variable {ω : Type}

/-! ## Configured servers -/

/-- **A fresh server session after any registrations** of user handlers, `initialize` left alone. -/
inductive Configured (options : ServerOptions) : Session ω → Prop
  | fresh : Configured options (mkServer options)
  | onRequest {s : Session ω} (h : Configured options s) (method : Bytes) (hne : method ≠ methods.kInitialize)
      (run : Option (Option Json → ω → Except Exn (Result Json) × ω)) :
      Configured options { s with router := s.router.setRequestHandler method (run.map .user) }
  | onNotification {s : Session ω} (h : Configured options s) (method : Bytes) (run : Option (Option Json → ω → ω)) :
      Configured options { s with router := s.router.setNotificationHandler method (run.map .user) }

/-- The built-in handlers stand under their own names only. -/
structure Standard (options : ServerOptions) (s : Session ω) : Prop where
  cls : s.cls = .server options
  handler : s.router.requestHandlers.lookup methods.kInitialize = some (some (.initializeHandler options))
  exact : ∀ method o, s.router.requestHandlers.lookup method = some (some (.initializeHandler o)) →
    method = methods.kInitialize
  wildcard : ∀ p o, (p, some (.initializeHandler o)) ∉ s.router.wildcardRequestHandlers
  exactNote : ∀ method, s.router.notificationHandlers.lookup method = some (some .initialized) →
    method = methods.kNotificationInitialized
  wildcardNote : ∀ p, (p, some .initialized) ∉ s.router.wildcardNotificationHandlers

theorem lookup_mkServer (options : ServerOptions) (method : Bytes) :
    (mkServer (ω := ω) options).router.requestHandlers.lookup method =
      if method = methods.kInitialize then some (some (.initializeHandler options))
      else if method = methods.kPing then some (some .ping) else none := by
  have htable : (mkServer (ω := ω) options).router.requestHandlers =
      ((∅ : Dict Bytes (Option (RequestHandler ω))).insert methods.kPing (some .ping)).insert methods.kInitialize
        (some (.initializeHandler options)) := rfl
  rw [htable, Dict.lookup_insert_ite, Dict.lookup_insert_ite, AList.lookup_empty]

theorem lookup_mkServer_note (options : ServerOptions) (method : Bytes) :
    (mkServer (ω := ω) options).router.notificationHandlers.lookup method =
      if method = methods.kNotificationInitialized then some (some .initialized)
      else if method = methods.kNotificationCancelled then some (some .cancelled)
      else if method = methods.kNotificationProgress then some (some .progress) else none := by
  have htable : (mkServer (ω := ω) options).router.notificationHandlers =
      (((∅ : Dict Bytes (Option (NotificationHandler ω))).insert methods.kNotificationProgress (some .progress)).insert
        methods.kNotificationCancelled (some .cancelled)).insert methods.kNotificationInitialized (some .initialized) :=
    rfl
  rw [htable, Dict.lookup_insert_ite, Dict.lookup_insert_ite, Dict.lookup_insert_ite, AList.lookup_empty]

theorem standard_mkServer (options : ServerOptions) : Standard options (mkServer (ω := ω) options) where
  cls := rfl
  handler := by rw [lookup_mkServer, if_pos rfl]
  exact := by
    intro method o h
    rw [lookup_mkServer] at h
    split at h
    · assumption
    · split at h <;> cases h
  wildcard := fun p o h => by cases h
  exactNote := by
    intro method h
    rw [lookup_mkServer_note] at h
    split at h
    · assumption
    · split at h
      · cases h
      · split at h <;> cases h
  wildcardNote := fun p h => by cases h

theorem user_ne_builtin {α β : Type} {run : Option α} {f : α → β} {b : β} (hf : ∀ a, f a ≠ b) : run.map f ≠ some b := by
  intro h
  obtain ⟨a, -, ha⟩ := Option.map_eq_some_iff.1 h
  exact hf a ha

/-- A user handler under another name leaves the built-in ones where they stand. -/
theorem Standard.setRequestHandler {options : ServerOptions} {s : Session ω} (hs : Standard options s) {method : Bytes}
    (hne : method ≠ methods.kInitialize) (run : Option (Option Json → ω → Except Exn (Result Json) × ω)) :
    Standard options { s with router := s.router.setRequestHandler method (run.map .user) } := by
  obtain ⟨hexact, hwild, hother⟩ := Router.setRequestHandler_cases s.router method
    (run.map RequestHandler.user)
  obtain ⟨hn, hwn⟩ := Router.setRequestHandler_notifications s.router method (run.map RequestHandler.user)
  refine ⟨hs.cls, ?_, fun key o hl => ?_, fun p o hmem => ?_, fun key hl => ?_, fun p hmem => ?_⟩
  · rw [← hs.handler]
    exact hother methods.kInitialize (Ne.symm hne)
  · exact (hexact key _ hl).elim (hs.exact key o) (fun h => absurd h (user_ne_builtin (fun _ h => by cases h)))
  · exact (hwild p _ hmem).elim (hs.wildcard p o) (user_ne_builtin (fun _ h => by cases h))
  · rw [hn] at hl
    exact hs.exactNote key hl
  · rw [hwn] at hmem
    exact hs.wildcardNote p hmem

theorem Configured.standard {options : ServerOptions} {s : Session ω} (h : Configured options s) :
    Standard options s ∧ s.state = .uninitialized := by
  induction h with
  | fresh => exact ⟨standard_mkServer options, rfl⟩
  | @onRequest s _ method hne run ih => exact ⟨ih.1.setRequestHandler hne run, ih.2⟩
  | @onNotification s _ method run ih =>
    obtain ⟨hs, hstate⟩ := ih
    obtain ⟨hexact, hwild⟩ := Router.setNotificationHandler_cases s.router method
      (run.map NotificationHandler.user)
    obtain ⟨hr, hwr⟩ := Router.setNotificationHandler_requests s.router method (run.map NotificationHandler.user)
    refine ⟨⟨hs.cls, ?_, fun key o hl => ?_, fun p o hmem => ?_, fun key hl => ?_, fun p hmem => ?_⟩, hstate⟩
    · rw [hr]
      exact hs.handler
    · rw [hr] at hl
      exact hs.exact key o hl
    · rw [hwr] at hmem
      exact hs.wildcard p o hmem
    · exact (hexact key _ hl).elim (hs.exactNote key) (fun h => absurd h (user_ne_builtin (fun _ h => by cases h)))
    · exact (hwild p _ hmem).elim (hs.wildcardNote p) (user_ne_builtin (fun _ h => by cases h))

theorem Standard.find_initialize {options : ServerOptions} {s : Session ω} (h : Standard options s) :
    s.router.findRequestHandler methods.kInitialize = some (.initializeHandler options) := by
  unfold Router.findRequestHandler
  rw [h.handler]

theorem Standard.method_of_find {options o : ServerOptions} {s : Session ω} {method : Bytes} (h : Standard options s)
    (hf : s.router.findRequestHandler method = some (.initializeHandler o)) : method = methods.kInitialize := by
  rcases Router.findRequestHandler_eq_some hf with hl | ⟨p, hp⟩
  · exact h.exact method o hl
  · exact absurd hp (h.wildcard p o)

theorem Standard.method_of_findNote {options : ServerOptions} {s : Session ω} {method : Bytes} (h : Standard options s)
    (hf : s.router.findNotificationHandler method = some .initialized) : method = methods.kNotificationInitialized := by
  rcases Router.findNotificationHandler_eq_some hf with hl | ⟨p, hp⟩
  · exact h.exactNote method hl
  · exact absurd hp (h.wildcardNote p)

/-! ## One message -/

structure Handling (ω : Type) where
  message : Message
  before : Session ω
  out : Handled ω

def Handling.responses (h : Handling ω) : List JsonRpcResponse :=
  h.out.effects.filterMap fun
    | .send (.response r) => some r
    | _ => none

/-- An `initialize` request answered with a result. -/
def Handling.answersInitialize (h : Handling ω) : Prop :=
  ∃ r, h.message = .request r ∧ r.method = methods.kInitialize ∧
    ∃ response ∈ h.responses, response.id = some r.id ∧ response.result.isSome = true

def Handling.arrivesInitialized (h : Handling ω) : Prop :=
  ∃ n, h.message = .notification n ∧ n.method = methods.kNotificationInitialized

/-- `handle_message` on a message, with the session before it. -/
def handling (now : TimePoint) (s : Session ω) (w : ω) (m : Message) : Handling ω := ⟨m, s, handleMessage now s w m⟩

/-- **Messages handled one at a time.** -/
def handleAll : Session ω → ω → List (TimePoint × Message) → List (Handling ω)
  | _, _, [] => []
  | s, w, (now, m) :: messages =>
    let h := handling now s w m
    h :: handleAll h.out.session h.out.world messages

/-- Nothing a standard session depends on differs. -/
structure SameTables (s s' : Session ω) : Prop where
  cls : s'.cls = s.cls
  requests : s'.router.requestHandlers = s.router.requestHandlers
  wildcardRequests : s'.router.wildcardRequestHandlers = s.router.wildcardRequestHandlers
  notes : s'.router.notificationHandlers = s.router.notificationHandlers
  wildcardNotes : s'.router.wildcardNotificationHandlers = s.router.wildcardNotificationHandlers

theorem Standard.of_sameTables {options : ServerOptions} {s s' : Session ω} (h : Standard options s)
    (hs : SameTables s s') : Standard options s' where
  cls := hs.cls.trans h.cls
  handler := by rw [hs.requests]; exact h.handler
  exact := by rw [hs.requests]; exact h.exact
  wildcard := by rw [hs.wildcardRequests]; exact h.wildcard
  exactNote := by rw [hs.notes]; exact h.exactNote
  wildcardNote := by rw [hs.wildcardNotes]; exact h.wildcardNote

theorem SameTables.trans {s t u : Session ω} (h : SameTables s t) (h' : SameTables t u) : SameTables s u :=
  ⟨h'.cls.trans h.cls, h'.requests.trans h.requests, h'.wildcardRequests.trans h.wildcardRequests,
    h'.notes.trans h.notes, h'.wildcardNotes.trans h.wildcardNotes⟩

/-- **The `initialize` handler**, reinitialization off: it refuses and leaves the session, or it takes a fresh session to
`initializing` and returns a result. -/
theorem runInitialize_cases {options : ServerOptions} (hre : options.allowReinitialize = false) (s : Session ω)
    (params : Option Json) :
    (∃ e, runInitialize options s params = (.error e, s)) ∨
      s.state = .uninitialized ∧
        ∃ result s', runInitialize options s params = (.ok result, s') ∧ s'.state = .initializing ∧ SameTables s s' := by
  unfold runInitialize
  by_cases hstate : s.state = .uninitialized
  swap
  · rw [if_pos ⟨hstate, hre⟩]
    exact .inl ⟨_, rfl⟩
  rw [if_neg (fun h => h.1 hstate)]
  simp only [hstate, ne_eq, not_true_eq_false, if_false]
  cases params with
  | none => exact .inl ⟨_, rfl⟩
  | some p =>
    cases hj : InitializeParams.fromJson p with
    | error e =>
      exact .inl ⟨Error.of .invalidParams (bytes "invalid initialize params: " ++ e.what), by simp only [hj]⟩
    | ok parsed =>
      simp only [hj]
      exact .inr ⟨trivial, _, _, rfl, rfl, ⟨rfl, rfl, rfl, rfl, rfl⟩⟩

theorem protectId_same (s : Session ω) (r : JsonRpcRequest) :
    SameTables s (s.protectId r) ∧ (s.protectId r).state = s.state := by
  unfold protectId
  split <;> exact ⟨⟨rfl, rfl, rfl, rfl, rfl⟩, rfl⟩

theorem checkIncomingRequest_protectId (s : Session ω) (r : JsonRpcRequest) :
    (s.protectId r).checkIncomingRequest r = s.checkIncomingRequest r := by
  unfold protectId
  split <;> rfl

theorem findRequestHandler_protectId (s : Session ω) (r : JsonRpcRequest) (method : Bytes) :
    (s.protectId r).router.findRequestHandler method = s.router.findRequestHandler method := by
  unfold protectId
  split <;> rfl

def methodNotFound (r : JsonRpcRequest) : JsonRpcResponse :=
  { id := some r.id, error := some (Error.of .methodNotFound (bytes "Method not found: " ++ r.method)) }

/-- **The three ways a request goes**: rejected at the gate, not found, or handled. -/
inductive Answered (s : Session ω) (w : ω) (r : JsonRpcRequest) (out : Handled ω) : Prop
  | rejected (e : Error) (gate : s.checkIncomingRequest r = some e)
      (out_eq : out = { session := s.protectId r, world := w, effects := [.send (.response (rejection r e))] })
  | missing (gate : s.checkIncomingRequest r = none) (find : s.router.findRequestHandler r.method = none)
      (out_eq : out = { session := s.protectId r, world := w
                        effects := [.dispatch r.method, .send (.response (methodNotFound r))] })
  | handled (handler : RequestHandler ω) (gate : s.checkIncomingRequest r = none)
      (find : s.router.findRequestHandler r.method = some handler)
      (out_eq : out =
        { session := (runRequestHandler (s.protectId r) w r.params handler).2.1
          world := (runRequestHandler (s.protectId r) w r.params handler).2.2
          effects := [.dispatch r.method, .invoke r.method,
            .send (.response (respond r.id (runRequestHandler (s.protectId r) w r.params handler).1))] })

theorem handleRequest_answered (s : Session ω) (w : ω) (r : JsonRpcRequest) : Answered s w r (handleRequest s w r) := by
  have hgate := checkIncomingRequest_protectId s r
  have hfind := findRequestHandler_protectId s r r.method
  unfold handleRequest dispatchRequest
  cases hg : s.checkIncomingRequest r with
  | some e =>
    rw [hg] at hgate
    simp only [hgate]
    exact .rejected e hg rfl
  | none =>
    rw [hg] at hgate
    simp only [hgate]
    cases hf : s.router.findRequestHandler r.method with
    | none =>
      rw [hf] at hfind
      simp only [hfind]
      exact .missing hg hf rfl
    | some handler =>
      rw [hf] at hfind
      simp only [hfind]
      exact .handled handler hg hf rfl

/-- **Every request is answered once, under its own id.** -/
theorem Answered.responses {s : Session ω} {w : ω} {r : JsonRpcRequest} {out : Handled ω} (h : Answered s w r out) :
    ∃ response, Handling.responses ⟨.request r, s, out⟩ = [response] ∧ response.id = some r.id := by
  cases h with
  | rejected e gate out_eq => exact ⟨rejection r e, by rw [out_eq]; rfl, rfl⟩
  | missing gate find out_eq => exact ⟨methodNotFound r, by rw [out_eq]; rfl, rfl⟩
  | handled handler gate find out_eq => exact ⟨_, by rw [out_eq]; rfl, respond_id r.id _⟩

/-- What a message does to the handshake. -/
inductive Progress (s : Session ω) (h : Handling ω) : Prop
  | same (state : h.out.session.state = s.state) (answers : ¬ h.answersInitialize)
  | starts (before : s.state = .uninitialized) (state : h.out.session.state = .initializing)
      (answers : h.answersInitialize)
  | operates (before : s.state = .initializing) (state : h.out.session.state = .operating)
      (answers : ¬ h.answersInitialize) (arrives : h.arrivesInitialized)

theorem not_answersInitialize_of_method {h : Handling ω} {r : JsonRpcRequest} (hm : h.message = .request r)
    (hr : r.method ≠ methods.kInitialize) : ¬ h.answersInitialize := by
  rintro ⟨r', hm', hr', -⟩
  rw [hm] at hm'
  injection hm' with hm'
  rw [hm'] at hr
  exact hr hr'

theorem not_answersInitialize_of_error {h : Handling ω} (response : JsonRpcResponse) (hr : h.responses = [response])
    (hres : response.result = none) : ¬ h.answersInitialize := by
  rintro ⟨-, -, -, response', hmem, -, hsome⟩
  rw [hr, List.mem_singleton] at hmem
  rw [hmem, hres] at hsome
  cases hsome

/-- **The step lemma, for a request.** -/
theorem handleRequest_progress {options : ServerOptions} (hre : options.allowReinitialize = false) {s : Session ω}
    (hs : Standard options s) (w : ω) (r : JsonRpcRequest) :
    SameTables s (handleRequest s w r).session ∧ Progress s ⟨.request r, s, handleRequest s w r⟩ := by
  obtain ⟨hsame, hstate⟩ := protectId_same s r
  cases handleRequest_answered s w r with
  | rejected e gate out_eq =>
    rw [out_eq]
    exact ⟨hsame, .same hstate (not_answersInitialize_of_error (rejection r e) rfl rfl)⟩
  | missing gate find out_eq =>
    rw [out_eq]
    exact ⟨hsame, .same hstate (not_answersInitialize_of_error (methodNotFound r) rfl rfl)⟩
  | handled handler gate find out_eq =>
    rw [out_eq]
    have hne : handler ≠ .initializeHandler options → r.method ≠ methods.kInitialize := by
      intro hother h
      rw [h, hs.find_initialize] at find
      exact hother (Option.some.inj find).symm
    cases handler with
    | ping => exact ⟨hsame, .same hstate (not_answersInitialize_of_method rfl (hne (fun h => by cases h)))⟩
    | user run => exact ⟨hsame, .same hstate (not_answersInitialize_of_method rfl (hne (fun h => by cases h)))⟩
    | initializeHandler o =>
      have hm := hs.method_of_find find
      obtain rfl : options = o := by
        rw [hm, hs.find_initialize] at find
        cases find
        rfl
      rcases runInitialize_cases hre (s.protectId r) r.params with ⟨e, he⟩ | ⟨hfresh, result, s', hok, hinit, hsame'⟩
      · simp only [runRequestHandler, he]
        exact ⟨hsame, .same hstate (not_answersInitialize_of_error (respond r.id (.ok (.error e))) rfl rfl)⟩
      · simp only [runRequestHandler, hok]
        refine ⟨hsame.trans hsame', .starts (hstate.symm.trans hfresh) hinit ⟨r, rfl, hm, respond r.id (.ok (.ok result)), ?_, rfl, rfl⟩⟩
        exact List.mem_singleton_self _

/-- A message that is not a request, and changes no state. -/
theorem Progress.quiet {s : Session ω} {h : Handling ω} (hm : ∀ r, h.message ≠ .request r)
    (hstate : h.out.session.state = s.state) : Progress s h :=
  .same hstate (fun ⟨r, hr, _⟩ => hm r hr)

theorem handleProgress_same (now : TimePoint) (s : Session ω) (w : ω) (params : Option Json) :
    SameTables s (handleProgress now s w params).session ∧ (handleProgress now s w params).session.state = s.state := by
  unfold handleProgress
  (repeat' split) <;> exact ⟨⟨rfl, rfl, rfl, rfl, rfl⟩, rfl⟩

theorem handleCancelled_same (s : Session ω) (w : ω) (params : Option Json) :
    SameTables s (handleCancelled s w params).session ∧ (handleCancelled s w params).session.state = s.state := by
  unfold handleCancelled
  (repeat' split) <;> exact ⟨⟨rfl, rfl, rfl, rfl, rfl⟩, rfl⟩

theorem handleResponse_same (s : Session ω) (w : ω) (r : JsonRpcResponse) :
    SameTables s (handleResponse s w r).session ∧ (handleResponse s w r).session.state = s.state := by
  unfold handleResponse
  split <;> exact ⟨⟨rfl, rfl, rfl, rfl, rfl⟩, rfl⟩

theorem dispatchNotification_progress {options : ServerOptions} {s : Session ω} (hs : Standard options s)
    (now : TimePoint) (w : ω) (n : JsonRpcNotification) :
    SameTables s (dispatchNotification now s w n).session ∧
      Progress s ⟨.notification n, s, dispatchNotification now s w n⟩ := by
  have hnot : ∀ r, Message.notification n ≠ .request r := fun r h => by cases h
  unfold dispatchNotification
  cases hf : s.router.findNotificationHandler n.method with
  | none => exact ⟨⟨rfl, rfl, rfl, rfl, rfl⟩, .quiet hnot rfl⟩
  | some handler =>
    cases handler with
    | progress =>
      obtain ⟨hsame, hstate⟩ := handleProgress_same now s w n.params
      exact ⟨hsame, .quiet hnot hstate⟩
    | cancelled =>
      obtain ⟨hsame, hstate⟩ := handleCancelled_same s w n.params
      exact ⟨hsame, .quiet hnot hstate⟩
    | user run => exact ⟨⟨rfl, rfl, rfl, rfl, rfl⟩, .quiet hnot rfl⟩
    | initialized =>
      by_cases hstate : s.state = .initializing
      · simp only [handleInitialized, hstate, if_true]
        exact ⟨⟨rfl, rfl, rfl, rfl, rfl⟩,
          .operates hstate rfl (fun ⟨r, hr, _⟩ => hnot r hr) ⟨n, rfl, hs.method_of_findNote hf⟩⟩
      · simp only [handleInitialized, hstate, if_false]
        exact ⟨⟨rfl, rfl, rfl, rfl, rfl⟩, .quiet hnot rfl⟩

/-- **The step lemma.** -/
theorem handling_progress {options : ServerOptions} (hre : options.allowReinitialize = false) {s : Session ω}
    (hs : Standard options s) (now : TimePoint) (w : ω) (m : Message) :
    SameTables s (handling now s w m).out.session ∧ Progress s (handling now s w m) := by
  cases m with
  | request r => exact handleRequest_progress hre hs w r
  | notification n => exact dispatchNotification_progress hs now w n
  | response r =>
    obtain ⟨hsame, hstate⟩ := handleResponse_same s w r
    exact ⟨hsame, .quiet (fun _ h => by cases h) hstate⟩

/-! ## Sequences -/

/-- An `initialize` was answered with a result, and a `notifications/initialized` arrived after it. -/
def Operated (past : List (Handling ω)) : Prop :=
  ∃ before h after, past = before ++ h :: after ∧ h.answersInitialize ∧ ∃ g ∈ after, g.arrivesInitialized

/-- **What the state says about the messages so far.** -/
structure History (options : ServerOptions) (past : List (Handling ω)) (s : Session ω) : Prop where
  standard : Standard options s
  fresh : s.state = .uninitialized → ∀ g ∈ past, ¬ g.answersInitialize
  started : s.state = .initializing → ∃ g ∈ past, g.answersInitialize
  operated : s.state = .operating → Operated past

theorem Operated.snoc {past : List (Handling ω)} (h : Operated past) (x : Handling ω) : Operated (past ++ [x]) := by
  obtain ⟨before, g, after, rfl, hg, y, hy, hyarr⟩ := h
  exact ⟨before, g, after ++ [x], by simp, hg, y, List.mem_append_left _ hy, hyarr⟩

theorem History.step {options : ServerOptions} (hre : options.allowReinitialize = false) {past : List (Handling ω)}
    {s : Session ω} (hs : History options past s) (now : TimePoint) (w : ω) (m : Message) :
    History options (past ++ [handling now s w m]) (handling now s w m).out.session := by
  obtain ⟨hsame, hprog⟩ := handling_progress hre hs.standard now w m
  generalize handling now s w m = h at hsame hprog
  have hstd := hs.standard.of_sameTables hsame
  cases hprog with
  | same state answers =>
    refine ⟨hstd, fun hu => ?_, fun hi => ?_, fun ho => (hs.operated (state ▸ ho)).snoc h⟩
    · intro g hg
      rcases List.mem_append.1 hg with hg | hg
      · exact hs.fresh (state ▸ hu) g hg
      · rw [List.mem_singleton.1 hg]
        exact answers
    · obtain ⟨g, hg, hans⟩ := hs.started (state ▸ hi)
      exact ⟨g, List.mem_append_left _ hg, hans⟩
  | starts before state answers =>
    refine ⟨hstd, fun hu => ?_, fun _ => ⟨h, by simp, answers⟩, fun ho => ?_⟩
    · rw [state] at hu
      cases hu
    · rw [state] at ho
      cases ho
  | operates before state answers arrives =>
    refine ⟨hstd, fun hu => ?_, fun hi => ?_, fun _ => ?_⟩
    · rw [state] at hu
      cases hu
    · rw [state] at hi
      cases hi
    · obtain ⟨g, hg, hans⟩ := hs.started before
      obtain ⟨a, b, rfl⟩ := List.append_of_mem hg
      exact ⟨a, g, b ++ [h], by simp, hans, h, by simp, arrives⟩

/-! ## What one record of a sequence satisfies -/

/-- A method under a capability that is not declared. -/
def undeclared (options : ServerOptions) (method : Bytes) : Prop :=
  ∃ gate ∈ serverGates options.capabilities, startsWith method gate.1 = true ∧ gate.2 = false

/-- **The contract of a server session**, for one record after `past`. -/
structure Guarded (options : ServerOptions) (past : List (Handling ω)) (h : Handling ω) : Prop where
  initializesOnce : h.answersInitialize → ∀ g ∈ past, ¬ g.answersInitialize
  invokes : ∀ method, .invoke method ∈ h.out.effects → method ≠ methods.kInitialize → method ≠ methods.kPing →
    Operated past
  dispatches : ∀ method, .dispatch method ∈ h.out.effects → ¬ undeclared options method
  answers : ∀ r, h.message = .request r → ∃ response, h.responses = [response] ∧ response.id = some r.id
  early : ∀ r, h.message = .request r → r.method ≠ methods.kInitialize → r.method ≠ methods.kPing →
    h.before.state ≠ .operating ∨ ¬ Operated past →
    ∀ response ∈ h.responses, response.error.map Error.code = some (-32000)
  refuses : ∀ r, h.message = .request r → h.before.state = .operating → undeclared options r.method →
    ∀ response ∈ h.responses, response.error.map Error.code = some (-32002)

theorem undeclaredGate_eq_none {options : ServerOptions} {method : Bytes} :
    undeclaredGate (serverGates options.capabilities) method = none ↔ ¬ undeclared options method := by
  unfold undeclaredGate undeclared
  split
  · rename_i h
    obtain ⟨gate, hg, hb⟩ := List.any_eq_true.1 h
    simp only [Bool.and_eq_true, Bool.not_eq_true'] at hb
    exact ⟨fun hnone => (by cases hnone), fun hno => absurd ⟨gate, hg, hb⟩ hno⟩
  · rename_i h
    refine ⟨fun _ hun => ?_, fun _ => rfl⟩
    obtain ⟨gate, hg, hp, hd⟩ := hun
    exact h (List.any_eq_true.2 ⟨gate, hg, by rw [hp, hd]; rfl⟩)

theorem undeclaredGate_code {gates : List (Bytes × Bool)} {method : Bytes} {e : Error}
    (h : undeclaredGate gates method = some e) : e.code = -32002 := by
  unfold undeclaredGate at h
  split at h
  · cases h
    rfl
  · cases h

/-- The two ungated methods are under no capability. -/
theorem not_undeclared_of_ungated {options : ServerOptions} {method : Bytes}
    (h : method = methods.kInitialize ∨ method = methods.kPing) : ¬ undeclared options method := by
  rintro ⟨gate, hg, hp, -⟩
  simp only [serverGates, List.mem_cons, List.not_mem_nil, or_false] at hg
  rcases h with rfl | rfl <;> rcases hg with rfl | rfl | rfl | rfl | rfl | rfl <;> dsimp only at hp <;>
    revert hp <;> decide

/-- **The gate of a server session.** -/
theorem checkIncomingRequest_none {options : ServerOptions} {s : Session ω} (hcls : s.cls = .server options)
    {r : JsonRpcRequest} (h : s.checkIncomingRequest r = none) :
    (r.method = methods.kInitialize ∨ r.method = methods.kPing ∨ s.state = .operating) ∧
      ¬ undeclared options r.method := by
  unfold checkIncomingRequest at h
  simp only [hcls] at h
  split at h
  · rename_i hun
    exact ⟨hun.imp_right .inl, not_undeclared_of_ungated hun⟩
  · split at h
    · cases h
    · rename_i hstate
      exact ⟨.inr (.inr (Classical.not_not.1 hstate)), undeclaredGate_eq_none.1 h⟩

theorem checkIncomingRequest_some {options : ServerOptions} {s : Session ω} (hcls : s.cls = .server options)
    {r : JsonRpcRequest} {e : Error} (h : s.checkIncomingRequest r = some e) :
    (s.state ≠ .operating ∧ e.code = -32000) ∨ (s.state = .operating ∧ e.code = -32002) := by
  unfold checkIncomingRequest at h
  simp only [hcls] at h
  split at h
  · cases h
  · split at h
    · rename_i hstate
      cases h
      exact .inl ⟨hstate, rfl⟩
    · rename_i hstate
      exact .inr ⟨Classical.not_not.1 hstate, undeclaredGate_code h⟩

/-- Only requests are dispatched to a request handler. -/
theorem dispatchNotification_effects (now : TimePoint) (s : Session ω) (w : ω) (n : JsonRpcNotification) :
    ∀ e ∈ (dispatchNotification now s w n).effects, ∃ c note, e = .progress c note := by
  intro e he
  unfold dispatchNotification at he
  split at he
  · cases he
  · unfold handleProgress at he
    split at he
    · cases he
    · split at he
      · cases he
      · cases he
      · dsimp only at he
        split at he
        · exact ⟨_, _, List.mem_singleton.1 he⟩
        · cases he
  · unfold handleCancelled at he
    (repeat' split at he) <;> cases he
  · cases he
  · cases he

theorem handleResponse_effects (s : Session ω) (w : ω) (r : JsonRpcResponse) :
    ∀ e ∈ (handleResponse s w r).effects, ∃ c result, e = .complete c result := by
  intro e he
  unfold handleResponse at he
  split at he
  · cases he
  · dsimp only at he
    split at he
    · exact ⟨_, _, List.mem_singleton.1 he⟩
    · cases he

/-- What the dispatches and invocations of a handling are. -/
theorem handling_dispatches {s : Session ω} {now : TimePoint} {w : ω} {m : Message} {method : Bytes}
    (h : .dispatch method ∈ (handling now s w m).out.effects ∨ .invoke method ∈ (handling now s w m).out.effects) :
    ∃ r, m = .request r ∧ r.method = method ∧ s.checkIncomingRequest r = none := by
  cases m with
  | notification n =>
    rcases h with h | h <;> obtain ⟨_, _, he⟩ := dispatchNotification_effects now s w n _ h <;> cases he
  | response r =>
    rcases h with h | h <;> obtain ⟨_, _, he⟩ := handleResponse_effects s w r _ h <;> cases he
  | request r =>
    refine ⟨r, rfl, ?_⟩
    unfold handling at h
    cases handleRequest_answered s w r with
    | rejected e gate out_eq => simp [handleMessage, out_eq] at h
    | missing gate find out_eq =>
      simp only [handleMessage, out_eq, List.mem_cons, List.not_mem_nil, or_false, Effect.dispatch.injEq, reduceCtorEq] at h
      exact ⟨h.symm, gate⟩
    | handled handler gate find out_eq =>
      simp only [handleMessage, out_eq, List.mem_cons, List.not_mem_nil, or_false, false_or, Effect.dispatch.injEq,
        Effect.invoke.injEq, reduceCtorEq, or_self] at h
      exact ⟨h.symm, gate⟩

/-- **One record meets the contract** when the session before it sums up the records before it. -/
theorem History.guarded {options : ServerOptions} (hre : options.allowReinitialize = false) {past : List (Handling ω)}
    {s : Session ω} (hs : History options past s) (now : TimePoint) (w : ω) (m : Message) :
    Guarded options past (handling now s w m) where
  initializesOnce := by
    intro hans
    cases (handling_progress hre hs.standard now w m).2 with
    | same state answers => exact absurd hans answers
    | starts before state answers => exact hs.fresh before
    | operates before state answers arrives => exact absurd hans answers
  invokes := by
    intro method hmem hinit hping
    obtain ⟨r, rfl, rfl, hgate⟩ := handling_dispatches (.inr hmem)
    rcases (checkIncomingRequest_none hs.standard.cls hgate).1 with h | h | h
    · exact absurd h hinit
    · exact absurd h hping
    · exact hs.operated h
  dispatches := by
    intro method hmem
    obtain ⟨r, rfl, rfl, hgate⟩ := handling_dispatches (.inl hmem)
    exact (checkIncomingRequest_none hs.standard.cls hgate).2
  answers := by
    rintro r hr
    obtain rfl : m = .request r := hr
    exact (handleRequest_answered s w r).responses
  early := by
    intro r hr hinit hping hearly response hmem
    obtain rfl : m = .request r := hr
    have hstate : s.state ≠ .operating := hearly.elim id (fun hno ho => hno (hs.operated ho))
    unfold handling at hmem
    cases handleRequest_answered s w r with
    | rejected e gate out_eq =>
      rw [handleMessage, out_eq] at hmem
      obtain rfl : response = rejection r e := List.mem_singleton.1 hmem
      rcases checkIncomingRequest_some hs.standard.cls gate with ⟨-, hcode⟩ | ⟨ho, -⟩
      · exact congrArg some hcode
      · exact absurd ho hstate
    | missing gate | handled handler gate =>
      rcases (checkIncomingRequest_none hs.standard.cls gate).1 with h | h | h
      · exact absurd h hinit
      · exact absurd h hping
      · exact absurd h hstate
  refuses := by
    intro r hr hstate hun response hmem
    obtain rfl : m = .request r := hr
    unfold handling at hmem
    cases handleRequest_answered s w r with
    | rejected e gate out_eq =>
      rw [handleMessage, out_eq] at hmem
      obtain rfl : response = rejection r e := List.mem_singleton.1 hmem
      rcases checkIncomingRequest_some hs.standard.cls gate with ⟨hno, -⟩ | ⟨-, hcode⟩
      · exact absurd hstate hno
      · exact congrArg some hcode
    | missing gate | handled handler gate =>
      exact absurd hun (checkIncomingRequest_none hs.standard.cls gate).2

theorem handleAll_guarded {options : ServerOptions} (hre : options.allowReinitialize = false) :
    ∀ (messages : List (TimePoint × Message)) (past : List (Handling ω)) (s : Session ω) (w : ω),
      History options past s → Lts.EachAfter (Guarded options) past (handleAll s w messages)
  | [], _, _, _, _ => trivial
  | (now, m) :: messages, _, _, w, hs =>
    ⟨hs.guarded hre now w m, handleAll_guarded hre messages _ _ _ (hs.step hre now w m)⟩

/-- **The handshake and capability contract, for every sequence of messages.** -/
theorem handleAll_contract {options : ServerOptions} {s : Session ω} (hs : Configured options s)
    (hre : options.allowReinitialize = false) (w : ω) (messages : List (TimePoint × Message))
    {past : List (Handling ω)} {h : Handling ω} {rest : List (Handling ω)}
    (hsplit : s.handleAll w messages = past ++ h :: rest) : Guarded options past h := by
  obtain ⟨hstd, hstate⟩ := hs.standard
  have hinit : History options [] s := {
    standard := hstd
    fresh := fun _ g hg => by cases hg
    started := fun hi => by rw [hstate] at hi; cases hi
    operated := fun ho => by rw [hstate] at ho; cases ho }
  have heach := handleAll_guarded hre messages [] s w hinit
  rw [hsplit] at heach
  exact heach.split

def toolServer : ServerOptions :=
  { serverInfo := { name := bytes "s", version := bytes "1" }, capabilities := { tools := some {} } }

/-- A call before the handshake, the handshake, and the call again. -/
def earlyAndLateCall : List (TimePoint × Message) :=
  [(0, .request { id := .int 1, method := bytes "tools/call" }),
    (0, .request { id := .int 2, method := methods.kInitialize
                   params := some (.object [(bytes "capabilities", .object []),
                     (bytes "clientInfo", .object [(bytes "name", .string (bytes "c")), (bytes "version", .string (bytes "1"))]),
                     (bytes "protocolVersion", .string kProtocolVersion)]) }),
    (0, .notification { method := methods.kNotificationInitialized }),
    (0, .request { id := .int 3, method := bytes "tools/call" })]

def callTool (_ : Option Json) (w : Unit) : Except Exn (Result Json) × Unit := (.ok (.ok .null), w)

def toolSession : Session Unit :=
  let s : Session Unit := mkServer toolServer
  { s with router := s.router.setRequestHandler (bytes "tools/call") ((some callTool).map .user) }

/-- The first call is refused; the second is invoked, and the contract says why it may be. -/
theorem handleAll_contract_call :
    ∃ a b c d, handleAll toolSession () earlyAndLateCall = [a, b, c] ++ d :: [] ∧
      a.responses.map (fun r => r.error.map Error.code) = [some (-32000)] ∧
      d.responses.map (fun r => r.error.map Error.code) = [none] ∧ Guarded toolServer [a, b, c] d :=
  ⟨_, _, _, _, rfl, rfl, rfl,
    handleAll_contract (Configured.fresh.onRequest (bytes "tools/call") (by decide) (some callTool)) rfl () earlyAndLateCall
      rfl⟩

end Session
end Mcp
