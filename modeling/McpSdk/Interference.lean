import McpSdk.Attached
import McpSdk.Handshake
import McpSdk.Lib.Unwinding
/-!
# Interference — what one session's requests do to another's messages

The subscribed URIs and the log threshold belong to the server.  Two servers `Agree` when they differ in nothing else,
and every handler of `attach` is `Blind` to the difference; `resources/subscribe`, `resources/unsubscribe` and
`logging/setLevel` are also `Quiet`: they change nothing else.  So two runs that differ in those requests of the other
sessions stay `Alike` for the observer, up to the notifications that are decided by the shared state.
-/
namespace Mcp

variable {ι α : Type}

/-! ## What the sessions share -/

namespace Server

/-- The server with the given subscriptions and logger. -/
def share (w : Server α) (subscriptions : Finset Bytes) (logger : Logger) : Server α :=
  { w with resources := w.resources.withSubscriptions subscriptions, logger }

/-- **Two servers differ at most in the subscribed URIs and the log threshold.** -/
def Agree (w w' : Server α) : Prop := w.share ∅ {} = w'.share ∅ {}

theorem Agree.refl (w : Server α) : Agree w w := rfl

theorem Agree.symm {w w' : Server α} (h : Agree w w') : Agree w' w := Eq.symm h

theorem Agree.trans {w w' w'' : Server α} (h : Agree w w') (h' : Agree w' w'') : Agree w w'' := Eq.trans h h'

theorem agree_share (w : Server α) (subscriptions : Finset Bytes) (logger : Logger) :
    Agree w (w.share subscriptions logger) := rfl

theorem Agree.exists_share {w w' : Server α} (h : Agree w w') :
    ∃ subscriptions logger, w' = w.share subscriptions logger := by
  refine ⟨w'.resources.subscriptions, w'.logger, ?_⟩
  calc w' = (w'.share ∅ {}).share w'.resources.subscriptions w'.logger := rfl
    _ = (w.share ∅ {}).share w'.resources.subscriptions w'.logger := by rw [h]
    _ = w.share w'.resources.subscriptions w'.logger := rfl

/-- A handler that neither reads nor answers with what is shared. -/
def Blind (run : Handler α) : Prop :=
  ∀ params {w w'}, Agree w w' → (run params w).1 = (run params w').1 ∧ Agree (run params w).2 (run params w').2

/-- A handler that changes only what is shared. -/
def Quiet (run : Handler α) : Prop := ∀ params w, Agree w (run params w).2

/-- A handler that carries what is shared along is blind. -/
theorem blind_of_share {run : Handler α} (h : ∀ params (w : Server α) subscriptions logger,
    run params (w.share subscriptions logger) =
      ((run params w).1, (run params w).2.share subscriptions logger)) : Blind run := by
  intro params w w' hw
  obtain ⟨subscriptions, logger, rfl⟩ := hw.exists_share
  rw [h]
  exact ⟨rfl, agree_share _ _ _⟩

/-! ## The handlers of `attach` -/

theorem blind_toolsCall (text : JsonText Bytes) : Blind (toolsCall (α := α) text) := by
  apply blind_of_share
  intro params w subscriptions logger
  unfold toolsCall
  cases requireString params (bytes "name") <;> rfl

theorem blind_resourcesRead : Blind (resourcesRead (α := α)) := by
  apply blind_of_share
  intro params w subscriptions logger
  unfold resourcesRead
  cases requireString params (bytes "uri") <;> rfl

theorem blind_promptsGet : Blind (promptsGet (α := α)) := by
  apply blind_of_share
  intro params w subscriptions logger
  unfold promptsGet
  cases requireString params (bytes "name") <;> rfl

theorem blind_completionComplete : Blind (completionComplete (α := α)) := by
  apply blind_of_share
  intro params w subscriptions logger
  unfold completionComplete
  rcases parseCompletion params with e | (e | ⟨ref, argument, value⟩)
  · rfl
  · rfl
  · cases ref <;> rfl

theorem quiet_resourcesSubscribe : Quiet (resourcesSubscribe (α := α)) := by
  intro params w
  unfold resourcesSubscribe
  cases requireString params (bytes "uri") with
  | error e => exact Agree.refl w
  | ok uri =>
    cases hsub : w.resources.subscribe uri with
    | error e =>
      simp only [hsub]
      exact Agree.refl w
    | ok resources =>
      simp only [hsub, ResourceProvider.subscribe_eq_ok hsub]
      exact agree_share w (insert uri w.resources.subscriptions) w.logger

theorem quiet_resourcesUnsubscribe : Quiet (resourcesUnsubscribe (α := α)) := by
  intro params w
  unfold resourcesUnsubscribe
  cases requireString params (bytes "uri") with
  | error e => exact Agree.refl w
  | ok uri => exact agree_share w (w.resources.subscriptions.erase uri) w.logger

theorem quiet_loggingSetLevel : Quiet (loggingSetLevel (α := α)) := by
  intro params w
  unfold loggingSetLevel
  cases requireString params (bytes "level") with
  | error e => exact Agree.refl w
  | ok name =>
    cases hl : loggingLevelFromString name with
    | none =>
      simp only [hl]
      exact Agree.refl w
    | some level =>
      simp only [hl]
      exact agree_share w w.resources.subscriptions { level }

/-- A quiet handler is blind when its answer does not read what is shared. -/
theorem Quiet.blind {run : Handler α} (h : Quiet run)
    (hr : ∀ params (w : Server α) subscriptions logger, (run params (w.share subscriptions logger)).1 = (run params w).1) :
    Blind run := by
  intro params w w' hw
  obtain ⟨subscriptions, logger, rfl⟩ := hw.exists_share
  exact ⟨(hr params w subscriptions logger).symm, (h params w).symm.trans (hw.trans (h params _))⟩

theorem blind_resourcesSubscribe : Blind (resourcesSubscribe (α := α)) := by
  apply quiet_resourcesSubscribe.blind
  intro params w subscriptions logger
  unfold resourcesSubscribe
  cases requireString params (bytes "uri") with
  | error e => rfl
  | ok uri =>
    simp only [share, ResourceProvider.subscribe_withSubscriptions]
    cases w.resources.subscribe uri <;> rfl

theorem blind_resourcesUnsubscribe : Blind (resourcesUnsubscribe (α := α)) := by
  apply quiet_resourcesUnsubscribe.blind
  intro params w subscriptions logger
  unfold resourcesUnsubscribe
  cases requireString params (bytes "uri") <;> rfl

theorem blind_loggingSetLevel : Blind (loggingSetLevel (α := α)) := by
  apply quiet_loggingSetLevel.blind
  intro params w subscriptions logger
  unfold loggingSetLevel
  cases requireString params (bytes "level") with
  | error e => rfl
  | ok name => cases hl : loggingLevelFromString name <;> simp only [hl]

/-- The requests that change what is shared. -/
def sharing : List Bytes := [methods.kResourcesSubscribe, methods.kResourcesUnsubscribe, methods.kLoggingSetLevel]

/-- **Every handler of `attach` is blind**, and the sharing ones are quiet. -/
theorem handlers_blind (text : JsonText Bytes) :
    ∀ h ∈ handlers (α := α) text, isWildcard h.1 = false ∧ Blind h.2 ∧ (h.1 ∈ sharing → Quiet h.2) := by
  have hother : ∀ {method : Bytes} {run : Handler α}, method ∉ sharing → method ∈ sharing → Quiet run :=
    fun hnot h => absurd h hnot
  simp only [handlers, List.forall_mem_cons, List.not_mem_nil, false_imp_iff, implies_true, and_true]
  refine ⟨⟨by decide, blind_of_share fun _ _ _ _ => rfl, hother (by decide)⟩,
    ⟨by decide, blind_toolsCall text, hother (by decide)⟩,
    ⟨by decide, blind_of_share fun _ _ _ _ => rfl, hother (by decide)⟩,
    ⟨by decide, blind_of_share fun _ _ _ _ => rfl, hother (by decide)⟩,
    ⟨by decide, blind_resourcesRead, hother (by decide)⟩,
    ⟨by decide, blind_resourcesSubscribe, fun _ => quiet_resourcesSubscribe⟩,
    ⟨by decide, blind_resourcesUnsubscribe, fun _ => quiet_resourcesUnsubscribe⟩,
    ⟨by decide, blind_of_share fun _ _ _ _ => rfl, hother (by decide)⟩,
    ⟨by decide, blind_promptsGet, hother (by decide)⟩,
    ⟨by decide, blind_loggingSetLevel, fun _ => quiet_loggingSetLevel⟩,
    ⟨by decide, blind_completionComplete, hother (by decide)⟩⟩

end Server

/-! ## Routers with these handlers only -/

open Server (Agree Blind Quiet sharing)

/-- A handler that may stand under a method. -/
def Fits (method : Bytes) : RequestHandler (Server α) → Prop
  | .user run => Blind run ∧ (method ∈ sharing → Quiet run)
  | _ => method ∉ sharing

/-- **Every handler of the router fits**, and no user handler takes notifications. -/
structure Wired (r : Router (Server α)) : Prop where
  fits : ∀ method h, r.requestHandlers.lookup method = some (some h) → Fits method h
  noWildcards : r.wildcardRequestHandlers = []
  noUserNotes : ∀ method run, r.findNotificationHandler method ≠ some (.user run)

theorem Wired.find {r : Router (Server α)} (h : Wired r) {method : Bytes} {handler : RequestHandler (Server α)}
    (hf : r.findRequestHandler method = some handler) : Fits method handler := by
  rcases Router.findRequestHandler_eq_some hf with hl | ⟨p, hp⟩
  · exact h.fits method handler hl
  · rw [h.noWildcards] at hp
    cases hp

theorem Wired.setRequestHandler {r : Router (Server α)} (h : Wired r) {method : Bytes} (hw : isWildcard method = false)
    {handler : RequestHandler (Server α)} (hf : Fits method handler) :
    Wired (r.setRequestHandler method (some handler)) := by
  unfold Router.setRequestHandler
  rw [if_neg (by simp [hw])]
  refine ⟨fun key g hl => ?_, h.noWildcards, h.noUserNotes⟩
  rcases Dict.lookup_insert_eq_some.1 hl with ⟨rfl, hnew⟩ | ⟨-, hold⟩
  · rw [← Option.some.inj hnew]
    exact hf
  · exact h.fits key g hold

/-- **`attach` keeps a router wired.** -/
theorem Wired.attachRouter (text : JsonText Bytes) {r : Router (Server α)} (h : Wired r) :
    Wired (Server.attachRouter text r) := by
  have hfold : ∀ (hs : List (Bytes × Server.Handler α)) (r : Router (Server α)), Wired r →
      (∀ g ∈ hs, isWildcard g.1 = false ∧ Blind g.2 ∧ (g.1 ∈ sharing → Quiet g.2)) →
      Wired (hs.foldl (fun r g => r.setRequestHandler g.1 (some (.user g.2))) r) := by
    intro hs
    induction hs with
    | nil => exact fun r hr _ => hr
    | cons g hs ih =>
      intro r hr hg
      obtain ⟨hw, hblind, hquiet⟩ := hg g List.mem_cons_self
      exact ih _ (hr.setRequestHandler hw ⟨hblind, hquiet⟩) (fun x hx => hg x (List.mem_cons_of_mem _ hx))
  exact hfold _ r h (Server.handlers_blind text)

theorem wired_mkServer (options : ServerOptions) : Wired (Session.mkServer (ω := Server α) options).router := by
  refine ⟨fun method h hl => ?_, rfl, fun method run hf => ?_⟩
  · rw [Session.lookup_mkServer] at hl
    split at hl
    · cases hl
      rw [‹method = _›]
      exact (by decide : methods.kInitialize ∉ sharing)
    · split at hl
      · cases hl
        rw [‹method = _›]
        exact (by decide : methods.kPing ∉ sharing)
      · cases hl
  · rcases Router.findNotificationHandler_eq_some hf with hl | ⟨p, hp⟩
    · rw [Session.lookup_mkServer_note] at hl
      split at hl
      · cases hl
      · split at hl
        · cases hl
        · split at hl <;> cases hl
    · cases hp

theorem Wired.of_sameTables {s s' : Session (Server α)} (h : Wired s.router) (hs : Session.SameTables s s') :
    Wired s'.router := by
  refine ⟨?_, ?_, ?_⟩
  · rw [hs.requests]
    exact h.fits
  · rw [hs.wildcardRequests]
    exact h.noWildcards
  · unfold Router.findNotificationHandler
    rw [hs.notes, hs.wildcardNotes]
    exact h.noUserNotes

/-! ## Handling one message -/

namespace Session

/-- The two handlings differ at most in what the sessions share. -/
structure SameOut (out out' : Handled (Server α)) : Prop where
  session : out.session = out'.session
  effects : out.effects = out'.effects
  escaped : out.escaped = out'.escaped
  world : Agree out.world out'.world

theorem runInitialize_same {ω : Type} (options : ServerOptions) (s : Session ω) (params : Option Json) :
    SameTables s (runInitialize options s params).2 := by
  unfold runInitialize
  (repeat' split) <;> exact ⟨rfl, rfl, rfl, rfl, rfl⟩

/-- **A wired session treats agreeing servers alike.** -/
theorem handleMessage_agree {s : Session (Server α)} (h : Wired s.router) (now : TimePoint) {w w' : Server α}
    (hw : Agree w w') (m : Message) : SameOut (handleMessage now s w m) (handleMessage now s w' m) := by
  cases m with
  | request r =>
    have hfind := findRequestHandler_protectId s r r.method
    simp only [handleMessage, handleRequest, dispatchRequest, checkIncomingRequest_protectId, hfind]
    cases s.checkIncomingRequest r with
    | some e => exact ⟨rfl, rfl, rfl, hw⟩
    | none =>
      cases hf : s.router.findRequestHandler r.method with
      | none => exact ⟨rfl, rfl, rfl, hw⟩
      | some handler =>
        cases handler with
        | ping => exact ⟨rfl, rfl, rfl, hw⟩
        | initializeHandler options => exact ⟨rfl, rfl, rfl, hw⟩
        | user run =>
          have hblind : Blind run := (h.find hf).1
          obtain ⟨hanswer, hagree⟩ := hblind r.params hw
          refine ⟨rfl, ?_, rfl, hagree⟩
          simp only [runRequestHandler, hanswer]
  | notification n =>
    simp only [handleMessage, dispatchNotification]
    cases hf : s.router.findNotificationHandler n.method with
    | none => exact ⟨rfl, rfl, rfl, hw⟩
    | some handler =>
      cases handler with
      | progress =>
        simp only [handleProgress]
        (repeat' split) <;> exact ⟨rfl, rfl, rfl, hw⟩
      | cancelled =>
        simp only [handleCancelled]
        (repeat' split) <;> exact ⟨rfl, rfl, rfl, hw⟩
      | initialized => exact ⟨rfl, rfl, rfl, hw⟩
      | user run => exact absurd hf (h.noUserNotes n.method run)
  | response r =>
    simp only [handleMessage, handleResponse]
    split <;> exact ⟨rfl, rfl, rfl, hw⟩

theorem handleMessage_same {ω : Type} (now : TimePoint) (s : Session ω) (w : ω) (m : Message) :
    SameTables s (handleMessage now s w m).session := by
  cases m with
  | request r =>
    have hprotect := (protectId_same s r).1
    show SameTables s (handleRequest s w r).session
    cases handleRequest_answered s w r with
    | rejected e gate out_eq =>
      rw [out_eq]
      exact hprotect
    | missing gate find out_eq =>
      rw [out_eq]
      exact hprotect
    | handled handler gate find out_eq =>
      rw [out_eq]
      cases handler with
      | ping => exact hprotect
      | initializeHandler options => exact hprotect.trans (runInitialize_same options _ _)
      | user run => exact hprotect
  | notification n =>
    show SameTables s (dispatchNotification now s w n).session
    unfold dispatchNotification
    split
    · exact ⟨rfl, rfl, rfl, rfl, rfl⟩
    · exact (handleProgress_same now s w n.params).1
    · exact (handleCancelled_same s w n.params).1
    · unfold handleInitialized
      split <;> exact ⟨rfl, rfl, rfl, rfl, rfl⟩
    · exact ⟨rfl, rfl, rfl, rfl, rfl⟩
  | response r => exact (handleResponse_same s w r).1

/-- **A sharing request changes only what is shared.** -/
theorem handleMessage_sharing {s : Session (Server α)} (h : Wired s.router) (now : TimePoint) (w : Server α)
    {r : JsonRpcRequest} (hr : r.method ∈ sharing) :
    (handleMessage now s w (.request r)).session = s ∧ Agree w (handleMessage now s w (.request r)).world := by
  have hinit : r.method ≠ methods.kInitialize := by
    intro he
    rw [he] at hr
    exact absurd hr (by decide)
  have hprotect : s.protectId r = s := if_neg hinit
  show (handleRequest s w r).session = s ∧ Agree w (handleRequest s w r).world
  cases handleRequest_answered s w r with
  | rejected e gate out_eq =>
    rw [out_eq]
    exact ⟨hprotect, Agree.refl w⟩
  | missing gate find out_eq =>
    rw [out_eq]
    exact ⟨hprotect, Agree.refl w⟩
  | handled handler gate find out_eq =>
    rw [out_eq]
    have hfits := h.find find
    cases handler with
    | ping => exact absurd hr hfits
    | initializeHandler options => exact absurd hr hfits
    | user run => exact ⟨hprotect, hfits.2 hr r.params w⟩

end Session

/-! ## Calls of the server -/

namespace Attached

/-- What the shared state decides of a call: whether an update or a log event is announced. -/
def verdict (w : Server α) : ApiCall α → Option Bool
  | .notifyResourceUpdated uri => some (w.resources.isSubscribed uri)
  | .log level _ _ => some (decide (w.logger.level.toNat ≤ level.toNat))
  | _ => none

/-- The notifications the shared state decides. -/
def sharedMethods : List Bytes := [methods.kNotificationResourcesUpdated, methods.kNotificationMessage]

/-- A message of another kind. -/
def unshared : Message → Bool
  | .notification n => decide (n.method ∉ sharedMethods)
  | _ => true

/-- The labels two runs share. -/
def shown [DecidableEq ι] (a : ι) : Label ι α → Bool
  | .receive i _ (.request r) => decide (i = a ∨ r.method ∉ sharing)
  | .transmit i _ => decide (i = a)
  | _ => true

/-- Agreeing servers announce the same for a call, up to what the verdict decides. -/
structure SameNote (sameVerdict : Prop) (note note' : Option Message) : Prop where
  unshared : note.filter unshared = note'.filter unshared
  all : sameVerdict → note = note'

theorem SameNote.of_eq {p : Prop} {note note' : Option Message} (h : note = note') : SameNote p note note' :=
  ⟨by rw [h], fun _ => h⟩

/-- Two notes of a shared kind. -/
theorem SameNote.of_shared {p : Prop} {note note' : Option Message} (h : note.filter Attached.unshared = none)
    (h' : note'.filter Attached.unshared = none) (hall : p → note = note') : SameNote p note note' :=
  ⟨h.trans h'.symm, hall⟩

theorem updated_shared (w : Server α) (uri : Bytes) :
    (applyCall w (.notifyResourceUpdated uri)).2.filter unshared = none := by
  simp only [applyCall]
  split <;> rfl

theorem logged_shared (w : Server α) (level : LoggingLevel) (data : Json) (loggerName : Option Bytes) :
    (applyCall w (.log level data loggerName)).2.filter unshared = none := by
  simp only [applyCall]
  cases w.logger.log level data loggerName <;> rfl

/-- **A call keeps servers agreeing**, and announces the same of both up to its verdict. -/
theorem applyCall_agree {w w' : Server α} (hw : Agree w w') (c : ApiCall α) :
    Agree (applyCall w c).1 (applyCall w' c).1 ∧
      SameNote (verdict w c = verdict w' c) (applyCall w c).2 (applyCall w' c).2 := by
  obtain ⟨subscriptions, logger, rfl⟩ := hw.exists_share
  cases c with
  | registerTool tool handler =>
    simp only [applyCall, Server.share]
    cases w.tools.registerTool tool handler <;> exact ⟨rfl, .of_eq rfl⟩
  | removeTool name =>
    simp only [applyCall, Server.share]
    cases w.tools.removeTool name <;> exact ⟨rfl, .of_eq rfl⟩
  | addPrompt prompt handler =>
    simp only [applyCall, Server.share]
    cases w.prompts.addPrompt prompt handler <;> exact ⟨rfl, .of_eq rfl⟩
  | removePrompt name =>
    simp only [applyCall, Server.share]
    cases w.prompts.removePrompt name <;> exact ⟨rfl, .of_eq rfl⟩
  | addResource resource handler =>
    simp only [applyCall, Server.share, ResourceProvider.addResource_withSubscriptions]
    cases w.resources.addResource resource handler <;> exact ⟨rfl, .of_eq rfl⟩
  | addResourceTemplate template =>
    simp only [applyCall, Server.share, ResourceProvider.addResourceTemplate_withSubscriptions]
    cases w.resources.addResourceTemplate template <;> exact ⟨rfl, .of_eq rfl⟩
  | removeResource uri =>
    simp only [applyCall, Server.share, ResourceProvider.removeResource_withSubscriptions]
    cases w.resources.removeResource uri <;> exact ⟨rfl, .of_eq rfl⟩
  | subscribe uri =>
    simp only [applyCall, Server.share, ResourceProvider.subscribe_withSubscriptions]
    cases w.resources.subscribe uri <;> exact ⟨rfl, .of_eq rfl⟩
  | notifyResourceUpdated uri =>
    refine ⟨hw, .of_shared (updated_shared _ uri) (updated_shared _ uri) fun hv => ?_⟩
    simp only [applyCall, Option.some.inj hv]
  | log level data loggerName =>
    refine ⟨hw, .of_shared (logged_shared _ level data loggerName) (logged_shared _ level data loggerName) fun hv => ?_⟩
    simp only [applyCall, Logger.log_congr (decide_eq_decide.1 (Option.some.inj hv)) data loggerName]
  | setToolPageSize pageSize => exact ⟨rfl, .of_eq rfl⟩
  | setPromptCompletion promptName argument callback => exact ⟨rfl, .of_eq rfl⟩
  | setPromptPageSize pageSize => exact ⟨rfl, .of_eq rfl⟩
  | setReadHandler handler => exact ⟨rfl, .of_eq rfl⟩
  | setResourceCompletion uriTemplate argument callback => exact ⟨rfl, .of_eq rfl⟩
  | setResourcePageSize pageSize => exact ⟨rfl, .of_eq rfl⟩
  | unsubscribe uri => exact ⟨rfl, .of_eq rfl⟩
  | setInstructions instructions => exact ⟨rfl, .of_eq rfl⟩
  | setReinitialization allow => exact ⟨rfl, .of_eq rfl⟩
  | setLevel level => exact ⟨rfl, .of_eq rfl⟩
  | application act => exact ⟨rfl, .of_eq rfl⟩

end Attached

end Mcp
