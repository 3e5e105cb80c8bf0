import McpSdk.Client
import McpSdk.HandlerTables
import McpSdk.InterferenceRun
/-!
# Freshness — a listing that has changed is announced

What a session answers to a listing request depends on one registry and its page size.  Every call that changes what a
listing shows leaves a `list_changed` to broadcast, and no message that a session handles changes it; a page size is set in
silence.  So while a session stays attached and operating, a listing it would now answer otherwise than it did has been
announced to it since, or is about to be (`listing_announced`).
-/
namespace Mcp
namespace Freshness

open Attached (State Peer Label ApiCall)

/-! ## Listings -/

inductive Listing
  | tools
  | prompts
  | resources
  | templates
  deriving DecidableEq, Repr

def Listing.method : Listing → Bytes
  | tools => methods.kToolsList
  | prompts => methods.kPromptsList
  | resources => methods.kResourcesList
  | templates => methods.kResourcesTemplatesList

theorem Listing.method_ne {r : JsonRpcRequest} (k : Listing) (h : r.method = k.method) :
    ¬ (r.method = methods.kInitialize ∨ r.method = methods.kPing) := by
  rw [h]
  cases k <;> decide

/-- The notification of a change; resources and their templates share one. -/
def Listing.changed : Listing → Message
  | tools => .notification { method := methods.kNotificationToolsListChanged }
  | prompts => .notification { method := methods.kNotificationPromptsListChanged }
  | resources | templates => .notification { method := methods.kNotificationResourcesListChanged }

section Listings

variable {α : Type} {w w' w'' : Server α}

def Listing.handler : Listing → Server.Handler α
  | tools => Server.toolsList
  | prompts => Server.promptsList
  | resources => Server.resourcesList
  | templates => Server.resourcesTemplatesList

def Listing.pageSize (w : Server α) : Listing → UInt64
  | tools => w.tools.pageSize
  | prompts => w.prompts.pageSize
  | resources | templates => w.resources.pageSize

/-- The listing shows the same items. -/
def Listing.Same (w w' : Server α) : Listing → Prop
  | tools => w'.tools.tools.map Prod.fst = w.tools.tools.map Prod.fst
  | prompts => w'.prompts.prompts.map Prod.fst = w.prompts.prompts.map Prod.fst
  | resources => w'.resources.resources.map Prod.fst = w.resources.resources.map Prod.fst
  | templates => w'.resources.templates = w.resources.templates

theorem Listing.Same.refl (w : Server α) : ∀ k : Listing, k.Same w w
  | tools | prompts | resources | templates => rfl

theorem Listing.Same.trans : ∀ {k : Listing}, k.Same w w' → k.Same w' w'' → k.Same w w''
  | tools, h, h' | prompts, h, h' | resources, h, h' | templates, h, h' => Eq.trans h' h

/-- **A listing's answer depends on the items and the page size only.** -/
theorem Listing.handler_congr {k : Listing} (h : k.Same w w') (hpage : k.pageSize w' = k.pageSize w) (params : Option Json) :
    (k.handler params w').1 = (k.handler params w).1 := by
  cases k with
  | tools =>
    have hlist : w'.tools.listTools = w.tools.listTools :=
      funext fun cursor => congrArg₂ (fun items pageSize => paginate items cursor pageSize) h hpage
    exact congrArg (fun list => Server.listPage list Tool.toJson (bytes "tools") params) hlist
  | prompts =>
    have hlist : w'.prompts.listPrompts = w.prompts.listPrompts :=
      funext fun cursor => congrArg₂ (fun items pageSize => paginate items cursor pageSize) h hpage
    exact congrArg (fun list => Server.listPage list Prompt.toJson (bytes "prompts") params) hlist
  | resources =>
    have hlist : w'.resources.listResources = w.resources.listResources :=
      funext fun cursor => congrArg₂ (fun items pageSize => paginate items cursor pageSize) h hpage
    exact congrArg (fun list => Server.listPage list Resource.toJson (bytes "resources") params) hlist
  | templates =>
    have hlist : w'.resources.listResourceTemplates = w.resources.listResourceTemplates :=
      funext fun cursor => congrArg₂ (fun items pageSize => paginate items cursor pageSize) h hpage
    exact congrArg (fun list => Server.listPage list ResourceTemplate.toJson (bytes "resourceTemplates") params) hlist

theorem Listing.mem_handlers (text : JsonText Bytes) (k : Listing) : (k.method, k.handler (α := α)) ∈ Server.handlers text := by
  cases k <;> simp [Server.handlers, Listing.method, Listing.handler]

theorem find_attachRouter (text : JsonText Bytes) (r : Router (Server α)) : ∀ g ∈ Server.handlers text,
    (Server.attachRouter text r).findRequestHandler g.1 = some (.user g.2) := by
  refine Client.find_foldl ?_ ?_
  · simp only [Server.handlers, List.map_cons, List.map_nil]
    decide
  · simp only [Server.handlers, List.forall_mem_cons, List.not_mem_nil, false_imp_iff, implies_true, and_true]
    decide

/-! ## What changes a listing -/

/-- No listing has changed. -/
def Steady (w w' : Server α) : Prop := ∀ k : Listing, k.Same w w'

theorem Steady.refl (w : Server α) : Steady w w := Listing.Same.refl w

theorem steady_of_eq (htools : w'.tools = w.tools) (hprompts : w'.prompts = w.prompts) (hresources : w'.resources = w.resources) :
    Steady w w' := by
  intro k
  cases k <;> unfold Listing.Same
  · rw [htools]
  · rw [hprompts]
  · rw [hresources]
  · rw [hresources]

/-- What is shared between the sessions of a server shows in no listing. -/
theorem steady_of_agree (h : Server.Agree w w') : Steady w w' := by
  obtain ⟨subscriptions, logger, rfl⟩ := h.exists_share
  intro k
  cases k <;> rfl

/-- **No handler of `attach` changes a listing.** -/
theorem steady_handlers (text : JsonText Bytes) : ∀ h ∈ Server.handlers (α := α) text,
    Router.KeepsRequest Steady (.user h.2) := by
  simp only [Server.handlers, List.forall_mem_cons, List.not_mem_nil, false_imp_iff, implies_true, and_true]
  refine ⟨fun params w => .refl w, fun params w => ?_, fun params w => .refl w, fun params w => .refl w, fun params w => ?_,
    fun params w => steady_of_agree (Server.quiet_resourcesSubscribe params w),
    fun params w => steady_of_agree (Server.quiet_resourcesUnsubscribe params w), fun params w => .refl w,
    fun params w => ?_, fun params w => steady_of_agree (Server.quiet_loggingSetLevel params w), fun params w => ?_⟩
  · unfold Server.toolsCall
    split <;> exact steady_of_eq rfl rfl rfl
  · unfold Server.resourcesRead
    split <;> exact steady_of_eq rfl rfl rfl
  · unfold Server.promptsGet
    split <;> exact steady_of_eq rfl rfl rfl
  · unfold Server.completionComplete
    split <;> exact steady_of_eq rfl rfl rfl

/-- **A call that changes a listing leaves its `list_changed` to broadcast.** -/
theorem applyCall_same (w : Server α) (c : ApiCall α) (k : Listing) :
    k.Same w (Attached.applyCall w c).1 ∨ (Attached.applyCall w c).2 = some k.changed := by
  have hannounced : ∀ {w' : Server α} {m : Message}, (∀ k : Listing, k.changed ≠ m → k.Same w w') →
      k.Same w w' ∨ some m = some k.changed := by
    intro w' m h
    by_cases hm : k.changed = m
    · exact .inr (congrArg some hm.symm)
    · exact .inl (h k hm)
  have htools : ∀ tools, ∀ k : Listing, k.changed ≠ Listing.tools.changed → k.Same w { w with tools } := by
    intro tools k hk
    cases k with
    | tools => exact absurd rfl hk
    | prompts | resources | templates => rfl
  have hprompts : ∀ prompts, ∀ k : Listing, k.changed ≠ Listing.prompts.changed → k.Same w { w with prompts } := by
    intro prompts k hk
    cases k with
    | prompts => exact absurd rfl hk
    | tools | resources | templates => rfl
  have hresources : ∀ resources, ∀ k : Listing, k.changed ≠ Listing.resources.changed → k.Same w { w with resources } := by
    intro resources k hk
    cases k with
    | resources | templates => exact absurd rfl hk
    | tools | prompts => rfl
  cases c with
  | registerTool tool handler =>
    simp only [Attached.applyCall]
    split
    · exact hannounced (htools _)
    · exact .inl (.refl w k)
  | removeTool name =>
    simp only [Attached.applyCall]
    split
    · exact hannounced (htools _)
    · exact .inl (.refl w k)
  | addPrompt prompt handler =>
    simp only [Attached.applyCall]
    split
    · exact hannounced (hprompts _)
    · exact .inl (.refl w k)
  | removePrompt name =>
    simp only [Attached.applyCall]
    split
    · exact hannounced (hprompts _)
    · exact .inl (.refl w k)
  | addResource resource handler =>
    simp only [Attached.applyCall]
    split
    · exact hannounced (hresources _)
    · exact .inl (.refl w k)
  | addResourceTemplate template =>
    simp only [Attached.applyCall]
    split
    · exact hannounced (hresources _)
    · exact .inl (.refl w k)
  | removeResource uri =>
    simp only [Attached.applyCall]
    split
    · exact hannounced (hresources _)
    · exact .inl (.refl w k)
  | subscribe uri =>
    simp only [Attached.applyCall]
    split
    · rename_i resources hsubscribe
      refine .inl ?_
      unfold ResourceProvider.subscribe at hsubscribe
      split at hsubscribe
      · cases hsubscribe
        cases k <;> rfl
      · cases hsubscribe
    · exact .inl (.refl w k)
  | _ => exact .inl (by cases k <;> rfl)

end Listings

/-! ## The sessions of the server -/

section Runs

variable {ι α : Type} {text : JsonText Bytes} {s t u : State ι α} {l : Label ι α} {i : ι}

/-- The handlers of the sessions change no listing, and an attached session has those of `attach`. -/
structure Served (text : JsonText Bytes) (s : State ι α) : Prop where
  steady : ∀ i, Router.Every (Router.KeepsRequest Steady) (Router.KeepsNote Steady) (s.peer i).session.router
  handlers : ∀ i ∈ s.sessions, ∀ g ∈ Server.handlers text,
    (s.peer i).session.router.findRequestHandler g.1 = some (.user g.2)

theorem served_start (server : Server α) (options : ι → ServerOptions) : Served text (Attached.start server options) where
  steady := fun i => by
    have hbase : Router.Every (Router.KeepsRequest Steady) (Router.KeepsNote Steady) (Session.baseRouter : Router (Server α)) :=
      Router.every_baseRouter trivial trivial trivial
    have hrequest : Router.KeepsRequest (Steady (α := α)) (.initializeHandler (options i)) := trivial
    have hnote : Router.KeepsNote (Steady (α := α)) .initialized := trivial
    exact (hbase.setRequestHandler methods.kInitialize hrequest).setNotificationHandler methods.kNotificationInitialized
      hnote
  handlers := fun i hi => by cases hi

/-- The session is attached and operating. -/
def Up (i : ι) (s : State ι α) : Prop := i ∈ s.sessions ∧ (s.peer i).session.state = .operating

/-- A session that is up answers a listing request with the listing, unless its capabilities lack it. -/
theorem effects_of_up (h : Served text s) (hup : Up i s) {k : Listing} {r : JsonRpcRequest} (hr : r.method = k.method)
    {options : ServerOptions} (hcls : (s.peer i).session.cls = .server options) (now : TimePoint) :
    ((s.peer i).session.handleMessage now s.server (.request r)).effects =
      match undeclaredGate (serverGates options.capabilities) r.method with
      | some e => [.send (.response (Session.rejection r e))]
      | none => [.dispatch r.method, .invoke r.method, .send (.response (Session.respond r.id (k.handler r.params s.server).1))] := by
  have hmem := h.handlers i hup.1 (k.method, k.handler) (k.mem_handlers text)
  have hgate : (s.peer i).session.checkIncomingRequest r = undeclaredGate (serverGates options.capabilities) r.method := by
    unfold Session.checkIncomingRequest
    rw [hcls]
    dsimp only
    rw [if_neg (k.method_ne hr), if_neg (not_not.2 hup.2)]
  show ((s.peer i).session.handleRequest s.server r).effects = _
  cases Session.handleRequest_answered (s.peer i).session s.server r with
  | rejected e gate out_eq =>
    rw [hgate] at gate
    rw [out_eq, gate]
  | missing gate find =>
    rw [hr, hmem] at find
    cases find
  | handled handler gate find out_eq =>
    rw [hr, hmem] at find
    cases find
    rw [hgate] at gate
    rw [out_eq, gate]
    rfl

/-- A session keeps its class and its handlers, but for those of `attach`; what it has sent stays. -/
structure Lasts (text : JsonText Bytes) (i : ι) (l : Label ι α) (p q : Peer α) : Prop where
  cls : q.session.cls = p.session.cls
  tables : l ≠ .attach i → Session.SameTables p.session q.session
  attached : l = .attach i → q.session.router = Server.attachRouter text p.session.router
  sent : p.sent <+: q.sent

theorem Lasts.of_tables {p q : Peer α} (hsame : Session.SameTables p.session q.session) (hsent : p.sent <+: q.sent)
    (hl : l ≠ .attach i) : Lasts text i l p q :=
  ⟨hsame.cls, fun _ => hsame, fun heq => absurd heq hl, hsent⟩

theorem Lasts.of_eq {p q : Peer α} (hsession : q.session = p.session) (hsent : p.sent <+: q.sent) (hl : l ≠ .attach i) :
    Lasts text i l p q :=
  .of_tables (by rw [hsession]; exact ⟨rfl, rfl, rfl, rfl, rfl⟩) hsent hl

variable [DecidableEq ι]

instance (i : ι) (s : State ι α) : Decidable (Up i s) := inferInstanceAs (Decidable (_ ∧ _))

theorem step_lasts (h : Attached.step text s l = some t) (i : ι) : Lasts text i l (s.peer i) (t.peer i) := by
  cases l with
  | receive j now m =>
    unfold Attached.step Attached.State.receive at h
    dsimp only at h
    split at h
    · cases h
    · cases h
      by_cases hij : i = j
      · subst hij
        have hsame := Session.handleMessage_same now (s.peer i).session s.server m
        rw [Attached.setPeer_self]
        exact .of_tables hsame List.prefix_rfl fun heq => by cases heq
      · rw [Attached.setPeer_of_ne _ hij]
        exact .of_eq rfl List.prefix_rfl fun heq => by cases heq
  | transmit j k =>
    obtain ⟨m, -, rfl⟩ := Option.map_eq_some_iff.1 h
    by_cases hij : i = j
    · subst hij
      rw [Attached.setPeer_self]
      exact .of_eq rfl (List.prefix_append _ _) fun heq => by cases heq
    · rw [Attached.setPeer_of_ne _ hij]
      exact .of_eq rfl List.prefix_rfl fun heq => by cases heq
  | call c =>
    cases h
    exact .of_eq rfl List.prefix_rfl fun heq => by cases heq
  | finish k =>
    obtain ⟨note, -, rfl⟩ := Option.map_eq_some_iff.1 h
    refine .of_eq (Attached.broadcast_session _ note i) ?_ fun heq => by cases heq
    rw [Attached.broadcast_sent]
    exact List.prefix_append _ _
  | session j c =>
    cases h
    unfold Attached.State.sessionCall
    by_cases hij : i = j
    · subst hij
      have hsame := Attached.applySessionCall_same (s.peer i).session (s.peer i).nextRequestId c
      rw [Attached.setPeer_self]
      exact .of_tables hsame (List.prefix_append _ _) fun heq => by cases heq
    · rw [Attached.setPeer_of_ne _ hij]
      exact .of_eq rfl List.prefix_rfl fun heq => by cases heq
  | attach j =>
    cases h
    unfold Attached.State.attach
    by_cases hij : i = j
    · subst hij
      rw [Attached.setPeer_self]
      exact ⟨rfl, fun hne => absurd rfl hne, fun _ => rfl, List.prefix_rfl⟩
    · rw [Attached.setPeer_of_ne _ hij]
      exact .of_eq rfl List.prefix_rfl fun heq => hij (Label.attach.inj heq).symm
  | detach j =>
    cases h
    exact .of_eq rfl List.prefix_rfl fun heq => by cases heq

theorem step_sessions (h : Attached.step text s l = some t) (hi : i ∈ t.sessions) : i ∈ s.sessions ∨ l = .attach i := by
  cases l with
  | receive j now m =>
    unfold Attached.step Attached.State.receive at h
    dsimp only at h
    split at h
    · cases h
    · cases h
      exact .inl hi
  | transmit j k =>
    obtain ⟨m, -, rfl⟩ := Option.map_eq_some_iff.1 h
    exact .inl hi
  | finish k =>
    obtain ⟨note, -, rfl⟩ := Option.map_eq_some_iff.1 h
    exact .inl hi
  | attach j =>
    cases h
    change i ∈ (if j ∈ s.sessions then s.sessions else s.sessions ++ [j]) at hi
    split at hi
    · exact .inl hi
    · rcases List.mem_append.1 hi with hi | hi
      · exact .inl hi
      · rw [List.mem_singleton.1 hi]
        exact .inr rfl
  | detach j =>
    cases h
    exact .inl (List.mem_filter.1 hi).1
  | call c | session j c =>
    cases h
    exact .inl hi

theorem Served.step (h : Served text s) (hstep : Attached.step text s l = some t) : Served text t where
  steady := fun i => by
    have hlasts := step_lasts hstep i
    by_cases hl : l = .attach i
    · rw [hlasts.attached hl]
      exact Router.Every.foldl_requests (h.steady i) (steady_handlers text)
    · exact (h.steady i).of_sameTables (hlasts.tables hl)
  handlers := fun i hi => by
    have hlasts := step_lasts hstep i
    by_cases hl : l = .attach i
    · rw [hlasts.attached hl]
      exact find_attachRouter text _
    · have hsame := hlasts.tables hl
      unfold Router.findRequestHandler
      rw [hsame.requests, hsame.wildcardRequests]
      exact h.handlers i ((step_sessions hstep hi).resolve_right hl)

/-- **A step changes a listing only by a call**, which leaves the change to broadcast. -/
theorem Served.same_of_step (h : Served text s) (hstep : Attached.step text s l = some t) (k : Listing) :
    k.Same s.server t.server ∨ some k.changed ∈ t.calls := by
  cases l with
  | receive i now m =>
    unfold Attached.step Attached.State.receive at hstep
    dsimp only at hstep
    split at hstep
    · cases hstep
    · cases hstep
      exact .inl (Router.handleMessage_keeps Steady.refl (h.steady i) now s.server m k)
  | call c =>
    cases hstep
    rcases applyCall_same s.server c k with hsame | hnote
    · exact .inl hsame
    · refine .inr (List.mem_append_right _ ?_)
      rw [hnote]
      exact List.mem_singleton.2 rfl
  | transmit j n =>
    obtain ⟨m, -, rfl⟩ := Option.map_eq_some_iff.1 hstep
    exact .inl (.refl _ k)
  | finish n =>
    obtain ⟨note, -, rfl⟩ := Option.map_eq_some_iff.1 hstep
    exact .inl (.refl _ k)
  | session j c | attach j | detach j =>
    cases hstep
    exact .inl (.refl _ k)

/-! ## Announcements -/

/-- The change has been sent to session `i`, `since` messages into what it sends, or is about to be. -/
def Announced (i : ι) (since : Nat) (k : Listing) (s : State ι α) : Prop :=
  k.changed ∈ (s.peer i).sent.drop since ∨ some k.changed ∈ s.calls

/-- A change to broadcast is broadcast to a session that is up. -/
theorem calls_of_step (hstep : Attached.step text s l = some t) (hup : Up i s) {m : Message} (hm : some m ∈ s.calls) :
    some m ∈ t.calls ∨ ∃ sent, (t.peer i).sent = (s.peer i).sent ++ sent ∧ m ∈ sent := by
  cases l with
  | receive j now m =>
    unfold Attached.step Attached.State.receive at hstep
    dsimp only at hstep
    split at hstep
    · cases hstep
    · cases hstep
      exact .inl hm
  | call c =>
    cases hstep
    exact .inl (List.mem_append_left _ hm)
  | transmit j n =>
    obtain ⟨m, -, rfl⟩ := Option.map_eq_some_iff.1 hstep
    exact .inl hm
  | finish n =>
    obtain ⟨note, hnote, rfl⟩ := Option.map_eq_some_iff.1 hstep
    obtain ⟨j, hj, hget⟩ := List.getElem_of_mem hm
    by_cases hjn : j = n
    · subst hjn
      have hsame : note = some m := by
        rw [List.getElem?_eq_getElem hj, hget] at hnote
        exact (Option.some.inj hnote).symm
      refine .inr ⟨note.toList, ?_, by rw [hsame]; exact List.mem_singleton.2 rfl⟩
      exact (Attached.broadcast_sent _ note i).trans (congrArg ((s.peer i).sent ++ ·) (if_pos hup))
    · refine .inl (List.mem_of_getElem? (i := j) ?_)
      show (s.calls.set n none)[j]? = some (some m)
      rw [List.getElem?_set_ne (Ne.symm hjn), List.getElem?_eq_getElem hj, hget]
  | session j c | attach j | detach j =>
    cases hstep
    exact .inl hm

/-- **One step.** -/
theorem announced_step (h : Served text s) (hup : Up i s) (hstep : Attached.step text s l = some t) {w : Server α} {since : Nat}
    {k : Listing} (hs : k.Same w s.server ∨ Announced i since k s) (hsince : since ≤ (s.peer i).sent.length) :
    k.Same w t.server ∨ Announced i since k t := by
  obtain ⟨more, hmore⟩ := (step_lasts hstep i).sent
  rcases hs with hsame | hsent | hcall
  · rcases h.same_of_step hstep k with hstill | hcall
    · exact .inl (hsame.trans hstill)
    · exact .inr (.inr hcall)
  · refine .inr (.inl ?_)
    rw [← hmore, List.drop_append_of_le_length hsince]
    exact List.mem_append_left _ hsent
  · rcases calls_of_step hstep hup hcall with hcall | ⟨sent, hsent, hmem⟩
    · exact .inr (.inr hcall)
    · refine .inr (.inl ?_)
      rw [hsent, List.drop_append_of_le_length hsince]
      exact List.mem_append_right _ hmem

theorem announced_run : ∀ {labels : List (Label ι α)} {s t : State ι α} {w : Server α} {since : Nat} {k : Listing},
    Served text s → Lts.Meets (Attached.step text) (fun s _ => Up i s) s labels →
    Lts.run (Attached.step text) s labels = some t → since ≤ (s.peer i).sent.length →
    k.Same w s.server ∨ Announced i since k s → k.Same w t.server ∨ Announced i since k t
  | [], s, t, w, since, k, _, _, hrun, _, hs => by
    obtain rfl : s = t := by simpa using hrun
    exact hs
  | l :: labels, s, t, w, since, k, h, hup, hrun, hsince, hs => by
    obtain ⟨u, hu, hrun⟩ := Lts.run_cons_eq_some.1 hrun
    have hlonger : since ≤ (u.peer i).sent.length := Nat.le_trans hsince (step_lasts hu i).sent.length_le
    exact announced_run (h.step hu) (hup.2 u hu) hrun hlonger (announced_step h hup.1 hu hs hsince)

theorem cls_of_run {server : Server α} {options : ι → ServerOptions} {labels : List (Label ι α)}
    (h : Lts.run (Attached.step text) (Attached.start server options) labels = some s) (i : ι) :
    (s.peer i).session.cls = .server (options i) :=
  Lts.run_invariant (I := fun s => (s.peer i).session.cls = .server (options i))
    (fun _ _ _ hs hstep => ((step_lasts hstep i).cls).trans hs) rfl h

end Runs

/-- **A listing that has changed is announced**, at any point of any run: while a session is attached and operating, if a
listing request it answered would now be answered otherwise, by a registry of the same page size, then `list_changed` has been
sent to it since, or a call is about to broadcast it. -/
theorem listing_announced {ι α : Type} [DecidableEq ι] (text : JsonText Bytes) (server : Server α) (options : ι → ServerOptions)
    {before labels : List (Label ι α)} {s t : State ι α} {i : ι}
    (hs : Lts.run (Attached.step text) (Attached.start server options) before = some s)
    (hrun : Lts.run (Attached.step text) s labels = some t)
    (hup : Lts.Meets (Attached.step text) (fun s _ => Up i s) s labels) (hend : Up i t) {k : Listing} {r : JsonRpcRequest}
    (hr : r.method = k.method) (hpage : k.pageSize t.server = k.pageSize s.server) {now now' : TimePoint}
    (hchanged : ((t.peer i).session.handleMessage now' t.server (.request r)).effects ≠
      ((s.peer i).session.handleMessage now s.server (.request r)).effects) :
    k.changed ∈ (t.peer i).sent.drop (s.peer i).sent.length ∨ some k.changed ∈ t.calls := by
  have hserved : Served text s :=
    Lts.run_invariant (fun _ _ _ hs hstep => Served.step hs hstep) (served_start server options) hs
  have hserved' : Served text t := Lts.run_invariant (fun _ _ _ hs hstep => Served.step hs hstep) hserved hrun
  have hup₀ : Up i s := by
    cases labels with
    | nil =>
      obtain rfl : s = t := by simpa using hrun
      exact hend
    | cons l labels => exact hup.1
  have hcls := cls_of_run hs i
  have hcls' := cls_of_run (Lts.run_append_eq_some.2 ⟨s, hs, hrun⟩) i
  rcases announced_run hserved hup hrun (Nat.le_refl _) (.inl (.refl s.server k)) with hsame | hannounced
  · refine absurd ?_ hchanged
    rw [effects_of_up hserved' hend hr hcls' now', effects_of_up hserved hup₀ hr hcls now, k.handler_congr hsame hpage r.params]
  · exact hannounced

/-- A second resource is added. -/
def adding : List (Label Bool Unit) :=
  [.call (.addResource { uri := bytes "mem://notes", name := bytes "notes" } none), .finish 0]

/-- How many resources a message was answered with. -/
def counts (effects : List Effect) : List Nat :=
  effects.filterMap fun
    | .send (.response r) =>
      match r.result.bind fun result => result.find (bytes "resources") with
      | some (.array items) => some items.length
      | _ => none
    | _ => none

theorem listing_announced_adding : ∃ s t,
    Lts.run (Attached.step Attached.plainText) Attached.docStart Attached.opening = some s ∧
      Lts.run (Attached.step Attached.plainText) s adding = some t ∧
      (Listing.resources.changed ∈ (t.peer false).sent.drop (s.peer false).sent.length ∨
        some Listing.resources.changed ∈ t.calls) := by
  let list : JsonRpcRequest := { id := .int 3, method := methods.kResourcesList }
  let answer (s : State Bool Unit) : List Effect :=
    ((s.peer false).session.handleMessage 0 s.server (.request list)).effects
  have h : (Lts.run (Attached.step Attached.plainText) Attached.docStart Attached.opening).bind (fun s =>
      (Lts.run (Attached.step Attached.plainText) s adding).map fun t =>
        decide (Lts.Meets (Attached.step Attached.plainText) (fun s _ => Up false s) s adding) && decide (Up false t) &&
          decide (Listing.resources.pageSize t.server = Listing.resources.pageSize s.server) &&
          decide (counts (answer t) ≠ counts (answer s))) = some true := by decide +kernel
  obtain ⟨s, hs, h⟩ := Option.bind_eq_some_iff.1 h
  obtain ⟨t, ht, h⟩ := Option.map_eq_some_iff.1 h
  simp only [Bool.and_eq_true, decide_eq_true_eq] at h
  obtain ⟨⟨⟨hup, hend⟩, hpage⟩, hchanged⟩ := h
  exact ⟨s, t, hs, ht, listing_announced _ _ _ hs ht hup hend (r := list) rfl hpage fun heq => hchanged (congrArg counts heq)⟩

end Freshness
end Mcp
