import McpSdk.JoinedSteps
/-!
# Agreement — what the two ends of a handshake believe

The ids in the channels are ids drawn before, so what reaches a call of `initialize()` under its own id is the answer to
its own request: the one result there is, or an error (`Content`).  What the server holds of the client then is the
client's record, but while a second `initialize` that has reset it is not parsed yet (`Tracks`).
-/
namespace Mcp
namespace Joined

open Requests (idOf)
open Lifecycle (Pc)

variable {c : ClientOptions} {o : ServerOptions} {p q : Pool State Call} {l : Label}

/-! ## What is on its way -/

def Drawn (s : State) (id : RequestId) : Prop := ∃ k < s.requests, id = idOf k

/-- A message to the server: an `initialize` request is the client's own, and another request bears no id of a pending
one. -/
def Asked (c : ClientOptions) (s : State) (m : Message) : Prop :=
  ∀ r, m = .request r → Drawn s r.id ∧
    if r.method = methods.kInitialize then r.params = some (initializeParams c).toJson else r.id ∉ s.pending

/-- A message to the client: a result for a pending `initialize` is one the server has given. -/
def Answered (s : State) (m : Message) : Prop :=
  ∀ r id, m = .response r → r.id = some id → Drawn s id ∧
    (id ∈ s.pending → ∀ j, responseResult r = .ok j → .ok j ∈ s.server.answers)

/-- The result is the server's, and its version one of the client's. -/
def Accepted (c : ClientOptions) (o : ServerOptions) (s : State) (result : InitializeResult) : Prop :=
  result = agreed c o ∧ result.protocolVersion ∈ c.supportedVersions ∧ .ok result.toJson ∈ s.server.answers

/-- The client has the server's record. -/
def Recorded (o : ServerOptions) (s : State) : Prop :=
  s.client.serverInfo = some o.serverInfo ∧ s.client.serverCapabilities = some o.capabilities

/-- What a program counter of `initialize()` relies on. -/
def Stands (c : ClientOptions) (o : ServerOptions) (s : State) : Pc → Prop
  | .done | .initFail .. => True
  | .initCheck options | .initStore options _ | .initWait options _ => options = c
  | .initDisconnect _ => (agreed c o).protocolVersion ∉ c.supportedVersions
  | .initPeer result _ => Accepted c o s result
  | .initNotify result _ | .initOperate result _ => Accepted c o s result ∧ Recorded o s
  | _ => False

structure CallOk (c : ClientOptions) (o : ServerOptions) (s : State) (call : Call) : Prop where
  pc : Stands c o s call.pc
  slot : ∀ j, call.slot = some (.ok j) → .ok j ∈ s.server.answers
  drawn : ∀ id, call.sending = .drawn id → Drawn s id

/-- **What the two ends hold comes from each other.** -/
structure Content (c : ClientOptions) (o : ServerOptions) (p : Pool State Call) : Prop where
  pending : ∀ id ∈ p.shared.pending, Drawn p.shared id
  toServer : ∀ m ∈ p.shared.toServer, Asked c p.shared m
  toClient : ∀ m ∈ p.shared.toClient, Answered p.shared m
  serves : ∀ h, p.shared.handling = some h → Serves c o h
  handling : ∀ h id, p.shared.handling = some h → h.id = some id → Drawn p.shared id
  answers : ∀ j, .ok j ∈ p.shared.server.answers → j = (agreed c o).toJson
  calls : ∀ call ∈ p.threads, CallOk c o p.shared call
  operating : p.shared.client.state = .operating →
    (∃ result, .ok result ∈ p.shared.client.returns) ∧ Recorded o p.shared
  returns : ∀ result, .ok result ∈ p.shared.client.returns → Accepted c o p.shared result
  closed : 0 < p.shared.client.shutdowns → (agreed c o).protocolVersion ∉ c.supportedVersions

/-! ## Later states -/

/-- What was drawn or answered stays so, and no id drawn before becomes pending again. -/
structure Later (o : ServerOptions) (s s' : State) : Prop where
  requests : s.requests ≤ s'.requests
  pending : ∀ id, Drawn s id → id ∈ s'.pending → id ∈ s.pending
  answers : ∀ r ∈ s.server.answers, r ∈ s'.server.answers
  recorded : Recorded o s → Recorded o s'

theorem Later.same {s s' : State} (hrequests : s'.requests = s.requests) (hpending : s'.pending = s.pending)
    (hanswers : s'.server.answers = s.server.answers) (hinfo : s'.client.serverInfo = s.client.serverInfo)
    (hcapabilities : s'.client.serverCapabilities = s.client.serverCapabilities) : Later o s s' where
  requests := Nat.le_of_eq hrequests.symm
  pending := fun id _ hid => by rwa [hpending] at hid
  answers := fun r hr => by rwa [hanswers]
  recorded := fun ⟨h, h'⟩ => ⟨hinfo.trans h, hcapabilities.trans h'⟩

theorem Later.drawn {s s' : State} (h : Later o s s') {id : RequestId} : Drawn s id → Drawn s' id
  | ⟨k, hk, hid⟩ => ⟨k, Nat.lt_of_lt_of_le hk h.requests, hid⟩

theorem Later.asked {s s' : State} (h : Later o s s') {m : Message} (hm : Asked c s m) : Asked c s' m := by
  intro r hr
  obtain ⟨hdrawn, hbody⟩ := hm r hr
  refine ⟨h.drawn hdrawn, ?_⟩
  by_cases hmethod : r.method = methods.kInitialize
  · rw [if_pos hmethod] at hbody ⊢
    exact hbody
  · rw [if_neg hmethod] at hbody ⊢
    exact fun hid => hbody (h.pending r.id hdrawn hid)

theorem Later.answered {s s' : State} (h : Later o s s') {m : Message} (hm : Answered s m) : Answered s' m := by
  intro r id hr hid
  obtain ⟨hdrawn, hresult⟩ := hm r id hr hid
  exact ⟨h.drawn hdrawn, fun hmem j hj => h.answers _ (hresult (h.pending id hdrawn hmem) j hj)⟩

theorem Later.accepted {s s' : State} (h : Later o s s') {result : InitializeResult} :
    Accepted c o s result → Accepted c o s' result
  | ⟨hresult, hversion, hanswer⟩ => ⟨hresult, hversion, h.answers _ hanswer⟩

theorem Later.stands {s s' : State} (h : Later o s s') {pc : Pc} (hpc : Stands c o s pc) : Stands c o s' pc := by
  cases pc with
  | initPeer result seen => exact h.accepted hpc
  | initNotify result seen => exact ⟨h.accepted hpc.1, h.recorded hpc.2⟩
  | initOperate result seen => exact ⟨h.accepted hpc.1, h.recorded hpc.2⟩
  | _ => exact hpc

theorem Later.callOk {s s' : State} (h : Later o s s') {call : Call} (hcall : CallOk c o s call) : CallOk c o s' call where
  pc := h.stands hcall.pc
  slot := fun j hj => h.answers _ (hcall.slot j hj)
  drawn := fun id hid => h.drawn (hcall.drawn id hid)

/-- **The next id is fresh.** -/
theorem Drawn.ne_next {s : State} (hbound : s.requests < 2 ^ 64) {id : RequestId} (h : Drawn s id) :
    id ≠ idOf s.requests := by
  rintro rfl
  obtain ⟨k, hk, hid⟩ := h
  have heq : s.requests = k := Requests.idOf_inj hbound (Nat.lt_trans hk hbound) hid
  omega

/-- **What is on its way stays right in a later state**, whatever is new in it. -/
theorem Content.later (hp : Content c o p) {s' : State} {threads : List Call} (h : Later o p.shared s')
    (hpending : ∀ id ∈ s'.pending, id ∈ p.shared.pending ∨ Drawn s' id)
    (htoServer : ∀ m ∈ s'.toServer, m ∈ p.shared.toServer ∨ Asked c s' m)
    (htoClient : ∀ m ∈ s'.toClient, m ∈ p.shared.toClient ∨ Answered s' m)
    (hhandling : ∀ handling, s'.handling = some handling → p.shared.handling = some handling ∨
      Serves c o handling ∧ ∀ id, handling.id = some id → Drawn s' id)
    (hanswers : ∀ j, .ok j ∈ s'.server.answers → .ok j ∈ p.shared.server.answers ∨ j = (agreed c o).toJson)
    (hcalls : ∀ call ∈ threads, call ∈ p.threads ∨ CallOk c o s' call)
    (hclient : s'.client = p.shared.client) : Content c o ⟨s', threads⟩ where
  pending := fun id hid => (hpending id hid).elim (fun hid => h.drawn (hp.pending id hid)) (fun hid => hid)
  toServer := fun m hm => (htoServer m hm).elim (fun hm => h.asked (hp.toServer m hm)) (fun hm => hm)
  toClient := fun m hm => (htoClient m hm).elim (fun hm => h.answered (hp.toClient m hm)) (fun hm => hm)
  serves := fun x hx => (hhandling x hx).elim (fun hx => hp.serves x hx) (fun hx => hx.1)
  handling := fun x id hx hid => (hhandling x hx).elim (fun hx => h.drawn (hp.handling x id hx hid)) (fun hx => hx.2 id hid)
  answers := fun j hj => (hanswers j hj).elim (fun hj => hp.answers j hj) (fun hj => hj)
  calls := fun x hx => (hcalls x hx).elim (fun hx => h.callOk (hp.calls x hx)) (fun hx => hx)
  operating := by
    show s'.client.state = _ → (∃ result, .ok result ∈ s'.client.returns) ∧ _
    rw [hclient]
    exact fun hs => ⟨(hp.operating hs).1, h.recorded (hp.operating hs).2⟩
  returns := by
    show ∀ result, .ok result ∈ s'.client.returns → _
    rw [hclient]
    exact fun result hr => h.accepted (hp.returns result hr)
  closed := by
    show 0 < s'.client.shutdowns → _
    rw [hclient]
    exact hp.closed

/-- When only messages move. -/
theorem Content.wire (hp : Content c o p) {s' : State} (h : Later o p.shared s') (hclient : s'.client = p.shared.client)
    (hpending : s'.pending = p.shared.pending) (hanswers : s'.server.answers = p.shared.server.answers)
    (htoServer : ∀ m ∈ s'.toServer, m ∈ p.shared.toServer ∨ Asked c s' m)
    (htoClient : ∀ m ∈ s'.toClient, m ∈ p.shared.toClient ∨ Answered s' m)
    (hhandling : ∀ handling, s'.handling = some handling → p.shared.handling = some handling ∨
      Serves c o handling ∧ ∀ id, handling.id = some id → Drawn s' id) : Content c o { p with shared := s' } :=
  hp.later h (fun id hid => .inl (by rwa [hpending] at hid)) htoServer htoClient hhandling
    (fun j hj => .inl (by rwa [hanswers] at hj)) (fun x hx => .inl hx) hclient

/-! ## Steps -/

theorem Content.complete (hp : Content c o p) {id : RequestId} {r : Result Json}
    (hr : id ∈ p.shared.pending → ∀ j, r = .ok j → .ok j ∈ p.shared.server.answers) : Content c o (complete p id r) := by
  rcases complete_cases p id r with ⟨h, -⟩ | ⟨i, hlookup, h⟩
  · rw [h]
    exact hp
  · rw [h]
    have hmem : id ∈ p.shared.pending := AList.lookup_isSome.1 (by rw [hlookup]; rfl)
    have herase : ∀ x ∈ p.shared.pending.erase id, x ∈ p.shared.pending := fun x hx => (AList.mem_erase.1 hx).2
    have hlater : Later o p.shared { p.shared with pending := p.shared.pending.erase id } :=
      ⟨Nat.le_refl _, fun x _ hx => herase x hx, fun _ h => h, fun h => h⟩
    refine hp.later hlater (fun x hx => .inl (herase x hx)) (fun m hm => .inl hm) (fun m hm => .inl hm) (fun x hx => .inl hx)
      (fun j hj => .inl hj) (fun call hcall => .inr ?_) rfl
    refine Pool.forall_modify (fun x hx => hlater.callOk (hp.calls x hx)) i (fun x hx => ?_) call hcall
    exact ⟨hx.pc, fun j hj => hr hmem j (Option.some.inj hj), hx.drawn⟩

/-- What a call makes of its response. -/
theorem stands_initResponse (hresult : InitializeResult.fromJson (agreed c o).toJson = .ok (agreed c o)) {s : State}
    (seen : Nat) {r : Result Json} (hanswers : ∀ j, .ok j ∈ s.server.answers → j = (agreed c o).toJson)
    (hr : ∀ j, r = .ok j → .ok j ∈ s.server.answers) : Stands c o s (Lifecycle.initResponse c seen r) := by
  cases r with
  | error e => trivial
  | ok j =>
    have hanswer := hr j rfl
    obtain rfl := hanswers j hanswer
    unfold Lifecycle.initResponse
    simp only [hresult]
    by_cases hversion : (agreed c o).protocolVersion ∈ c.supportedVersions
    · rw [if_pos (List.contains_iff_mem.2 hversion)]
      exact ⟨rfl, hversion, hanswer⟩
    · rw [if_neg (fun h => hversion (List.contains_iff_mem.1 h))]
      exact hversion

/-- A new request takes a fresh id. -/
theorem Later.draw {s : State} (hbound : s.requests < 2 ^ 64) (i : Nat) :
    Later o s { s with requests := s.requests + 1, pending := registerPending s.pending (idOf s.requests) i } where
  requests := Nat.le_succ _
  pending := fun _ hid hmem => ((AList.mem_insert _).1 hmem).resolve_left (hid.ne_next hbound)
  answers := fun _ h => h
  recorded := fun h => h

/-- What the peer says of itself is recorded. -/
theorem Later.peer (s : State) :
    Later o s { s with client := { s.client with
      serverInfo := some (agreed c o).serverInfo, serverCapabilities := some (agreed c o).capabilities } } where
  requests := Nat.le_refl _
  pending := fun _ _ h => h
  answers := fun _ h => h
  recorded := fun _ => ⟨rfl, rfl⟩

theorem Content.draw (hp : Content c o p) (hbound : p.shared.requests < 2 ^ 64) {i : Nat} {call : Call} (hcall : call ∈ p.threads) :
    Content c o ⟨{ p.shared with
        requests := p.shared.requests + 1, pending := registerPending p.shared.pending (idOf p.shared.requests) i },
      p.threads.set i { call with sending := .drawn (idOf p.shared.requests) }⟩ := by
  have hlater := Later.draw (o := o) hbound i
  have hok := hp.calls call hcall
  have hnew : Drawn { p.shared with
      requests := p.shared.requests + 1, pending := registerPending p.shared.pending (idOf p.shared.requests) i }
      (idOf p.shared.requests) := ⟨_, Nat.lt_succ_self _, rfl⟩
  refine hp.later hlater (fun id hid => ?_) (fun m hm => .inl hm) (fun m hm => .inl hm) (fun x hx => .inl hx)
    (fun j hj => .inl hj) (fun x hx => ?_) rfl
  · rcases (AList.mem_insert _).1 hid with rfl | hid
    · exact .inr hnew
    · exact .inl hid
  · rcases List.mem_or_eq_of_mem_set hx with hx | rfl
    · exact .inl hx
    · refine .inr ⟨hlater.stands hok.pc, hok.slot, fun id hid => ?_⟩
      injection hid with hid
      rw [← hid]
      exact hnew

theorem Content.call (hresult : InitializeResult.fromJson (agreed c o).toJson = .ok (agreed c o)) (hp : Content c o p)
    (hbound : p.shared.requests < 2 ^ 64) {i : Nat} {call call' : Call} {s' : State} (hcall : p.threads[i]? = some call)
    (hmoves : Moves i p.shared call s' call') : Content c o ⟨s', p.threads.set i call'⟩ := by
  have hok := hp.calls call (List.mem_of_getElem? hcall)
  have hstands := hok.pc
  have calls : ∀ {s : State} {x : Call}, Later o p.shared s → CallOk c o s x → ∀ y ∈ p.threads.set i x, CallOk c o s y :=
    fun hlater hnew => Pool.forall_set (fun y hy => hlater.callOk (hp.calls y hy)) i hnew
  have mem_returns : ∀ {result : InitializeResult} {e : Error},
      .ok result ∈ p.shared.client.returns ++ [.error e] → .ok result ∈ p.shared.client.returns := by
    intro result e h
    exact (List.mem_append.1 h).resolve_right (fun h => by cases List.mem_singleton.1 h)
  have still : (∃ result, .ok result ∈ p.shared.client.returns) →
      ∀ r, ∃ result, .ok result ∈ p.shared.client.returns ++ [r] :=
    fun ⟨result, h⟩ r => ⟨result, List.mem_append_left _ h⟩
  cases hmoves with
  | check options pc state =>
    rw [pc] at hstands
    exact { hp with calls := calls (.same rfl rfl rfl rfl rfl) ⟨hstands, hok.slot, hok.drawn⟩ }
  | refuse options e pc =>
    exact { hp with
      calls := calls (.same rfl rfl rfl rfl rfl) ⟨trivial, hok.slot, hok.drawn⟩
      operating := fun hs => ⟨still (hp.operating hs).1 _, (hp.operating hs).2⟩
      returns := fun result h => hp.returns result (mem_returns h) }
  | store options seen pc =>
    rw [pc] at hstands
    exact { hp with
      calls := calls (.same rfl rfl rfl rfl rfl) ⟨hstands, hok.slot, hok.drawn⟩
      operating := fun hs => by cases hs }
  | draw options seen pc sending => exact hp.draw hbound (List.mem_of_getElem? hcall)
  | send options seen id pc sending =>
    rw [pc] at hstands
    obtain rfl : options = c := hstands
    refine { hp with
      toServer := Pool.forall_append_singleton hp.toServer (fun r hr => ?_)
      calls := calls (.same rfl rfl rfl rfl rfl) ⟨hok.pc, hok.slot, fun id h => by cases h⟩ }
    injection hr with hr
    rw [← hr]
    exact ⟨hok.drawn id sending, by rw [if_pos rfl]⟩
  | get options seen r pc sending slot =>
    rw [pc] at hstands
    obtain rfl : options = c := hstands
    have hnew := stands_initResponse hresult seen hp.answers (fun j hj => hok.slot j (slot.trans (congrArg some hj)))
    exact { hp with calls := calls (.same rfl rfl rfl rfl rfl) ⟨hnew, hok.slot, hok.drawn⟩ }
  | fail e seen pc =>
    exact { hp with
      calls := calls (.same rfl rfl rfl rfl rfl) ⟨trivial, hok.slot, hok.drawn⟩
      operating := fun hs => by cases hs
      returns := fun result h => hp.returns result (mem_returns h) }
  | disconnect e pc =>
    rw [pc] at hstands
    exact { hp with
      calls := calls (.same rfl rfl rfl rfl rfl) ⟨trivial, hok.slot, hok.drawn⟩
      operating := fun hs => by cases hs
      returns := fun result h => hp.returns result (mem_returns h)
      closed := fun _ => hstands }
  | peer result seen pc =>
    rw [pc] at hstands
    obtain ⟨rfl, hversion, hanswer⟩ := hstands
    have hlater := Later.peer (c := c) (o := o) p.shared
    exact { hp with
      calls := calls hlater ⟨⟨⟨rfl, hversion, hanswer⟩, rfl, rfl⟩, hok.slot, hok.drawn⟩
      operating := fun hs => ⟨(hp.operating hs).1, rfl, rfl⟩ }
  | notify result seen pc =>
    rw [pc] at hstands
    exact { hp with
      toServer := Pool.forall_append_singleton hp.toServer (fun r hr => by cases hr)
      calls := calls (.same rfl rfl rfl rfl rfl) ⟨hstands, hok.slot, hok.drawn⟩ }
  | operate result seen pc =>
    rw [pc] at hstands
    obtain ⟨haccepted, hrecorded⟩ := hstands
    refine { hp with
      calls := calls (.same rfl rfl rfl rfl rfl) ⟨trivial, hok.slot, hok.drawn⟩
      operating := fun _ => ⟨⟨result, List.mem_append_right _ (List.mem_singleton_self _)⟩, hrecorded⟩
      returns := fun result' h => ?_ }
    rcases List.mem_append.1 h with h | h
    · exact hp.returns result' h
    · injection List.mem_singleton.1 h with h
      rw [h]
      exact haccepted

theorem responseResult_respond (id : RequestId) (r : Result Json) : responseResult (Session.respond id (.ok r)) = r := by
  cases r <;> rfl

/-- **A reply is right** when its result is one of the answers. -/
theorem answered_reply {s : State} {id : Option RequestId} {r : Result Json} (hid : ∀ x, id = some x → Drawn s x)
    (hr : ∀ j, r = .ok j → .ok j ∈ s.server.answers) : ∀ m ∈ reply id r, Answered s m := by
  intro m hm
  unfold reply at hm
  cases id with
  | none => cases hm
  | some x =>
    obtain rfl := List.mem_singleton.1 hm
    intro response y hresponse hy
    injection hresponse with hresponse
    obtain rfl : x = y := by
      rw [← hresponse, Session.respond_id] at hy
      exact Option.some.inj hy
    refine ⟨hid x rfl, fun _ j hj => hr j ?_⟩
    rw [← hresponse, responseResult_respond] at hj
    exact hj

/-- The handler is done, with an error or the agreed result. -/
theorem Content.replies (hp : Content c o p) {server : Lifecycle.State} {id : Option RequestId} {r : Result Json}
    (hid : ∀ x, id = some x → Drawn p.shared x) (hanswers : server.answers = p.shared.server.answers ++ [r])
    (hr : ∀ j, r = .ok j → j = (agreed c o).toJson) :
    Content c o { p with shared := { p.shared with
      server, handling := none, toClient := p.shared.toClient ++ reply id r } } := by
  have hlater : Later o p.shared { p.shared with
      server, handling := none, toClient := p.shared.toClient ++ reply id r } := by
    refine ⟨Nat.le_refl _, fun _ _ h => h, fun r' hr' => ?_, fun h => h⟩
    show r' ∈ server.answers
    rw [hanswers]
    exact List.mem_append_left _ hr'
  apply hp.later hlater (fun x hx => .inl hx) (fun m hm => .inl hm) _ (fun x hx => by cases hx) _ (fun x hx => .inl hx) rfl
  · intro m hm
    rcases List.mem_append.1 hm with hm | hm
    · exact .inl hm
    · refine .inr (answered_reply (fun x hx => hlater.drawn (hid x hx)) (fun j hj => ?_) m hm)
      show .ok j ∈ server.answers
      rw [hanswers, ← hj]
      exact List.mem_append_right _ (List.mem_singleton_self _)
  · intro j hj
    replace hj : .ok j ∈ server.answers := hj
    rw [hanswers] at hj
    rcases List.mem_append.1 hj with hj | hj
    · exact .inl hj
    · exact .inr (hr j (List.mem_singleton.1 hj).symm)

theorem Content.handle (hp : Content c o p) {h : Handling} {s' : State} (hhandling : p.shared.handling = some h)
    (hhandles : Handles c o p.shared h s') : Content c o { p with shared := s' } := by
  have hserves := hp.serves h hhandling
  have hids : ∀ id, h.id = some id → Drawn p.shared id := fun id hid => hp.handling h id hhandling hid
  -- the handler goes on with the same message
  have goes : ∀ {s : State} {pc : Pc}, Later o p.shared s → Serves c o { h with pc } →
      ∀ x, some { h with pc } = some x → p.shared.handling = some x ∨ Serves c o x ∧ ∀ id, x.id = some id → Drawn s id := by
    intro s pc hlater hpc x hx
    obtain rfl := Option.some.inj hx
    exact .inr ⟨hpc, fun id hid => hlater.drawn (hids id hid)⟩
  cases hhandles with
  | first params pc state =>
    rw [Serves, pc] at hserves
    exact hp.wire (.same rfl rfl rfl rfl rfl) rfl rfl rfl (fun m hm => .inl hm) (fun m hm => .inl hm)
      (goes (.same rfl rfl rfl rfl rfl) hserves)
  | again params pc state reinitialize =>
    rw [Serves, pc] at hserves
    exact hp.wire (.same rfl rfl rfl rfl rfl) rfl rfl rfl (fun m hm => .inl hm) (fun m hm => .inl hm)
      (goes (.same rfl rfl rfl rfl rfl) hserves)
  | reset params seen pc =>
    rw [Serves, pc] at hserves
    exact hp.wire (.same rfl rfl rfl rfl rfl) rfl rfl rfl (fun m hm => .inl hm) (fun m hm => .inl hm)
      (goes (.same rfl rfl rfl rfl rfl) hserves)
  | parse params seen pc =>
    rw [Serves, pc] at hserves
    exact hp.wire (.same rfl rfl rfl rfl rfl) rfl rfl rfl (fun m hm => .inl hm) (fun m hm => .inl hm)
      (goes (.same rfl rfl rfl rfl rfl) ⟨rfl, rfl, hserves.2.2⟩)
  | note pc state =>
    rw [Serves, pc] at hserves
    exact hp.wire (.same rfl rfl rfl rfl rfl) rfl rfl rfl (fun m hm => .inl hm) (fun m hm => .inl hm)
      (goes (.same rfl rfl rfl rfl rfl) hserves)
  | ignore pc =>
    exact hp.wire (.same rfl rfl rfl rfl rfl) rfl rfl rfl (fun m hm => .inl hm) (fun m hm => .inl hm)
      (fun x hx => by cases hx)
  | operate seen pc =>
    exact hp.wire (.same rfl rfl rfl rfl rfl) rfl rfl rfl (fun m hm => .inl hm) (fun m hm => .inl hm)
      (fun x hx => by cases hx)
  | refuse params e pc => exact hp.replies hids rfl (fun j hj => by cases hj)
  | store seen pc =>
    apply hp.replies hids rfl
    intro j hj
    injection hj with hj
    exact hj.symm

theorem Content.request (hp : Content c o p) {method : Bytes} (params : Option Json)
    (hmethod : method ≠ methods.kInitialize) :
    Content c o { p with shared := { p.shared with
      requests := p.shared.requests + 1
      pending := p.shared.pending.erase (idOf p.shared.requests)
      toServer := p.shared.toServer ++ [.request { id := idOf p.shared.requests, method, params }] } } := by
  refine hp.later ⟨Nat.le_succ _, fun id _ hid => (AList.mem_erase.1 hid).2, fun _ h => h, fun h => h⟩
    (fun x hx => .inl (AList.mem_erase.1 hx).2) (fun m hm => ?_) (fun m hm => .inl hm) (fun x hx => .inl hx)
    (fun j hj => .inl hj) (fun x hx => .inl hx) rfl
  rcases List.mem_append.1 hm with hm | hm
  · exact .inl hm
  · obtain rfl := List.mem_singleton.1 hm
    refine .inr fun r hr => ?_
    injection hr with hr
    rw [← hr, if_neg hmethod]
    exact ⟨⟨_, Nat.lt_succ_self _, rfl⟩, fun hid => (AList.mem_erase.1 hid).1 rfl⟩

theorem Content.steps (hresult : InitializeResult.fromJson (agreed c o).toJson = .ok (agreed c o)) (hp : Content c o p)
    (hbound : p.shared.requests < 2 ^ 64) (h : Steps c o p l q) : Content c o q := by
  have tail : ∀ {m rest} {l : List Message}, l = m :: rest → ∀ x ∈ rest, x ∈ l :=
    fun h x hx => h ▸ List.mem_cons_of_mem _ hx
  have added : ∀ {s : State} {l : List Message} {m : Message}, Asked c s m → ∀ x ∈ l ++ [m], x ∈ l ∨ Asked c s x :=
    fun hm => Pool.forall_append_singleton (fun x hx => .inl hx) (.inr hm)
  cases h with
  | spawn =>
    have hnew : CallOk c o p.shared { pc := .initCheck c } := ⟨rfl, (fun j h => by cases h), (fun id h => by cases h)⟩
    exact { hp with calls := Pool.forall_append_singleton hp.calls hnew }
  | call i call call' s' thread moves => exact hp.call hresult hbound thread moves
  | fail id e => exact hp.complete (fun _ j h => by cases h)
  | request method params other => exact hp.request params other
  | send m aside =>
    exact hp.wire (.same rfl rfl rfl rfl rfl) rfl rfl rfl (added fun r hr => by rw [hr] at aside; cases aside)
      (fun m hm => .inl hm) (fun x hx => .inl hx)
  | response result r id rest head answered =>
    have htail : Content c o { p with shared := { p.shared with toClient := rest } } :=
      hp.wire (.same rfl rfl rfl rfl rfl) rfl rfl rfl (fun m hm => .inl hm) (fun m hm => .inl (tail head m hm))
        (fun x hx => .inl hx)
    have hmem : Message.response r ∈ p.shared.toClient := by
      rw [head]
      exact List.mem_cons_self
    exact htail.complete (hp.toClient _ hmem r id rfl answered).2
  | skip result m rest head =>
    exact hp.wire (.same rfl rfl rfl rfl rfl) rfl rfl rfl (fun m hm => .inl hm) (fun m hm => .inl (tail head m hm))
      (fun x hx => .inl hx)
  | answer result r rest head =>
    exact hp.wire (.same rfl rfl rfl rfl rfl) rfl rfl rfl (added fun r hr => by cases hr)
      (fun m hm => .inl (tail head m hm)) (fun x hx => .inl hx)
  | take result r rest idle head asks =>
    have hmem : Message.request r ∈ p.shared.toServer := by
      rw [head]
      exact List.mem_cons_self
    obtain ⟨hdrawn, hparams⟩ := hp.toServer _ hmem r rfl
    rw [if_pos asks] at hparams
    refine hp.wire (.same rfl rfl rfl rfl rfl) rfl rfl rfl (fun m hm => .inl (tail head m hm)) (fun m hm => .inl hm)
      (fun x hx => ?_)
    obtain rfl := Option.some.inj hx
    refine .inr ⟨⟨rfl, hparams, Option.some_ne_none _⟩, fun id hid => ?_⟩
    obtain rfl := Option.some.inj hid
    exact hdrawn
  | takeNote result n rest idle head =>
    refine hp.wire (.same rfl rfl rfl rfl rfl) rfl rfl rfl (fun m hm => .inl (tail head m hm)) (fun m hm => .inl hm)
      (fun x hx => ?_)
    obtain rfl := Option.some.inj hx
    exact .inr ⟨rfl, fun id hid => by cases hid⟩
  | reply result r rest head other =>
    have hmem : Message.request r ∈ p.shared.toServer := by
      rw [head]
      exact List.mem_cons_self
    obtain ⟨hdrawn, hid⟩ := hp.toServer _ hmem r rfl
    rw [if_neg other] at hid
    refine hp.wire (.same rfl rfl rfl rfl rfl) rfl rfl rfl (fun m hm => .inl (tail head m hm))
      (Pool.forall_append_singleton (fun m hm => .inl hm) (.inr fun response id hresponse hid' => ?_)) (fun x hx => .inl hx)
    injection hresponse with hresponse
    obtain rfl : r.id = id := by
      rw [← hresponse, Session.respond_id] at hid'
      exact Option.some.inj hid'
    exact ⟨hdrawn, fun hmem => absurd hmem hid⟩
  | drop result m rest head quiet =>
    exact hp.wire (.same rfl rfl rfl rfl rfl) rfl rfl rfl (fun m hm => .inl (tail head m hm)) (fun m hm => .inl hm)
      (fun x hx => .inl hx)
  | handle h s' handling handles => exact hp.handle handling handles
  | serverSend m quiet =>
    exact hp.wire (.same rfl rfl rfl rfl rfl) rfl rfl rfl (fun m hm => .inl hm)
      (Pool.forall_append_singleton (fun m hm => .inl hm) (.inr fun r id hr => absurd hr (quiet r))) (fun x hx => .inl hx)
  | clientClose closed =>
    have hlater : Later o p.shared { p.shared with client := p.shared.client.shutdown } := .same rfl rfl rfl rfl rfl
    exact { hp with
      calls := fun x hx => hlater.callOk (hp.calls x hx)
      operating := fun hs => by cases hs
      closed := fun _ => hp.closed closed }
  | serverClose closed =>
    exact hp.wire (.same rfl rfl rfl rfl rfl) rfl rfl rfl (fun m hm => .inl hm) (fun m hm => .inl hm) (fun x hx => .inl hx)

theorem content_init : Content c o (init c o) where
  pending := fun _ h => by cases h
  toServer := fun _ h => by cases h
  toClient := fun _ h => by cases h
  serves := fun _ h => by cases h
  handling := fun _ _ h => by cases h
  answers := fun _ h => by cases h
  calls := fun _ h => by cases h
  operating := fun h => by cases h
  returns := fun _ h => by cases h
  closed := fun h => by cases h

theorem Stands.isClient {s : State} {pc : Pc} (h : Stands c o s pc) : isClient pc = true := by
  cases pc <;> first | rfl | exact h.elim

/-- The records of the handshake come back from their JSON. -/
structure Encodable (c : ClientOptions) (o : ServerOptions) : Prop where
  params : InitializeParams.fromJson (initializeParams c).toJson = .ok (initializeParams c)
  result : InitializeResult.fromJson (agreed c o).toJson = .ok (agreed c o)

theorem Content.step_cases (he : Encodable c o) (hp : Content c o p) (h : step c o p l = some q) :
    Steps c o p l q :=
  step_steps he.params (fun call hcall => (hp.calls call hcall).pc.isClient) hp.serves h

theorem complete_kept (p : Pool State Call) (id : RequestId) (r : Result Json) :
    (complete p id r).shared.requests = p.shared.requests ∧ (complete p id r).shared.server = p.shared.server ∧
      (complete p id r).shared.handling = p.shared.handling := by
  rcases complete_cases p id r with ⟨h, -⟩ | ⟨i, -, h⟩ <;> rw [h] <;> exact ⟨rfl, rfl, rfl⟩

theorem requests_le_of_advance {i : Nat} {s s' : State} {call call' : Call} (h : advance i s call = some (s', call')) :
    s.requests ≤ s'.requests := by
  obtain ⟨pc, sending, slot⟩ := call
  cases pc with
  | initWait options seen =>
    cases sending with
    | undrawn =>
      obtain ⟨rfl, -⟩ := Pool.section_inj h
      exact Nat.le_succ _
    | drawn id =>
      obtain ⟨rfl, -⟩ := Pool.section_inj h
      exact Nat.le_refl _
    | sent =>
      cases slot with
      | none => cases h
      | some r =>
        obtain ⟨rfl, -⟩ := Pool.section_inj h
        exact Nat.le_refl _
  | _ =>
    unfold advance at h
    dsimp only at h
    obtain ⟨next, -, hnext⟩ := Option.map_eq_some_iff.1 h
    obtain rfl := congrArg Prod.fst hnext
    exact Nat.le_refl _

theorem requests_le_of_step (h : step c o p l = some q) : p.shared.requests ≤ q.shared.requests := by
  cases l with
  | callInitialize =>
    obtain rfl := Option.some.inj h
    exact Nat.le_refl _
  | call i =>
    obtain ⟨call, s', call', -, hadv, rfl⟩ := Pool.stepAt_eq_some.1 h
    exact requests_le_of_advance hadv
  | fail id e =>
    obtain rfl := Option.some.inj h
    exact Nat.le_of_eq (complete_kept p id _).1.symm
  | clientReceives result =>
    cases clientReceives_steps (c := c) (o := o) h with
    | response _ r id rest head answered => rw [(complete_kept _ id _).1]
    | skip _ m rest head => exact Nat.le_refl _
    | answer _ r rest head => exact Nat.le_refl _
  | serverReceives result =>
    obtain ⟨s', hreceive, rfl⟩ := Option.map_eq_some_iff.1 h
    cases serverReceives_steps (c := c) hreceive <;> exact Nat.le_refl _
  | serverStep =>
    obtain ⟨s', hstep, rfl⟩ := Option.map_eq_some_iff.1 h
    obtain ⟨handling, -, hstep⟩ := Option.bind_eq_some_iff.1 hstep
    obtain ⟨next, -, rfl⟩ := Option.map_eq_some_iff.1 hstep
    dsimp only
    split <;> exact Nat.le_refl _
  | clientRequest method params =>
    obtain ⟨-, h⟩ := Option.ite_none_left_eq_some.1 h
    obtain rfl := Option.some.inj h
    exact Nat.le_succ _
  | serverSends m =>
    obtain ⟨-, h⟩ := Option.ite_none_left_eq_some.1 h
    obtain rfl := Option.some.inj h
    exact Nat.le_refl _
  | clientSends m | clientCloses | serverCloses =>
    obtain ⟨-, h⟩ := Option.ite_none_right_eq_some.1 h
    obtain rfl := Option.some.inj h
    exact Nat.le_refl _

/-! ## What the server holds -/

/-- What the server holds of the client: nothing before the first `initialize`, the client's record after it. -/
def Holds (c : ClientOptions) (server : Lifecycle.State) : Prop :=
  (server.state = .uninitialized → server.clientInfo = none) ∧
    (server.state ≠ .uninitialized → server.Knows (initializeParams c))

def HoldsAt (c : ClientOptions) (o : ServerOptions) (server : Lifecycle.State) : Option Pc → Prop
  | some (.answerReset ..) =>
    server.state ≠ .uninitialized ∧ server.Knows (initializeParams c) ∧ o.allowReinitialize = true
  | some (.answerParse ..) => server.clientInfo = none ∧ (server.state = .uninitialized ∨ o.allowReinitialize = true)
  | some (.answerStore ..) => server.Knows (initializeParams c)
  | some (.noteStore _) => server.state ≠ .uninitialized ∧ server.Knows (initializeParams c)
  | _ => Holds c server

/-- **The server's side of the agreement.** -/
structure Tracks (c : ClientOptions) (o : ServerOptions) (s : State) : Prop where
  holds : HoldsAt c o s.server (s.handling.map Handling.pc)
  state : .ok (agreed c o).toJson ∈ s.server.answers → s.server.state = .initializing ∨ s.server.state = .operating

theorem Tracks.handle {s s' : State} {h : Handling} (hs : Tracks c o s) (hhandling : s.handling = some h)
    (hhandles : Handles c o s h s') : Tracks c o s' := by
  have hholds : HoldsAt c o s.server (some h.pc) := by
    have := hs.holds
    rwa [hhandling] at this
  cases hhandles with
  | first params pc state =>
    rw [pc] at hholds
    exact ⟨⟨hholds.1 state, .inl state⟩, hs.state⟩
  | refuse params e pc =>
    rw [pc] at hholds
    refine ⟨hholds, fun h => hs.state ?_⟩
    exact (List.mem_append.1 h).resolve_right (fun h => by cases List.mem_singleton.1 h)
  | again params pc state reinitialize =>
    rw [pc] at hholds
    exact ⟨⟨state, hholds.2 state, reinitialize⟩, hs.state⟩
  | reset params seen pc =>
    rw [pc] at hholds
    exact ⟨⟨rfl, .inr hholds.2.2⟩, hs.state⟩
  | parse params seen pc => exact ⟨⟨rfl, rfl⟩, hs.state⟩
  | store seen pc =>
    rw [pc] at hholds
    exact ⟨⟨(fun h => by cases h), fun _ => hholds⟩, fun _ => .inl rfl⟩
  | note pc state =>
    rw [pc] at hholds
    have hne : s.server.state ≠ .uninitialized := by
      rw [state]
      exact SessionState.noConfusion
    exact ⟨⟨hne, hholds.2 hne⟩, hs.state⟩
  | ignore pc =>
    rw [pc] at hholds
    exact ⟨hholds, hs.state⟩
  | operate seen pc =>
    rw [pc] at hholds
    exact ⟨⟨(fun h => by cases h), fun _ => hholds.2⟩, fun _ => .inr rfl⟩

theorem Tracks.steps (hversion : (agreed c o).protocolVersion ∈ c.supportedVersions) (hp : Content c o p)
    (ht : Tracks c o p.shared) (h : Steps c o p l q) : Tracks c o q.shared := by
  have same : ∀ {s : State}, s.server = p.shared.server → s.handling = p.shared.handling → Tracks c o s := by
    intro s hserver hhandling
    refine ⟨?_, ?_⟩
    · rw [hserver, hhandling]
      exact ht.holds
    · rw [hserver]
      exact ht.state
  cases h with
  | call i call call' s' thread moves => cases moves <;> exact same rfl rfl
  | fail id e => exact same (complete_kept p id _).2.1 (complete_kept p id _).2.2
  | response result r id rest head answered => exact same (complete_kept ⟨_, p.threads⟩ id _).2.1 (complete_kept ⟨_, p.threads⟩ id _).2.2
  | take result r rest idle head asks =>
    have hholds := ht.holds
    rw [idle] at hholds
    exact ⟨hholds, ht.state⟩
  | takeNote result n rest idle head =>
    have hholds := ht.holds
    rw [idle] at hholds
    exact ⟨hholds, ht.state⟩
  | handle h s' handling handles => exact ht.handle handling handles
  | serverClose closed => exact absurd hversion (hp.closed closed)
  | _ => exact same rfl rfl

theorem tracks_init : Tracks c o (init c o).shared where
  holds := ⟨fun _ => rfl, fun h => absurd rfl h⟩
  state := fun h => by cases h

/-! ## The agreement -/

theorem negotiate_mem (h : o.supportedVersions ≠ []) (version : Bytes) : o.negotiate version ∈ o.supportedVersions := by
  unfold ServerOptions.negotiate
  by_cases hmem : version ∈ o.supportedVersions
  · rw [if_pos (List.contains_iff_mem.2 hmem)]
    exact hmem
  · rw [if_neg (fun h => hmem (List.contains_iff_mem.1 h))]
    cases hversions : o.supportedVersions with
    | nil => exact absurd hversions h
    | cons first rest => exact List.mem_cons_self

theorem negotiate_of_mem {version : Bytes} (h : version ∈ o.supportedVersions) : o.negotiate version = version :=
  if_pos (List.contains_iff_mem.2 h)

/-- **A client that operates agrees with its server**, but in the middle of a reset. -/
theorem agreement_of_content (hversions : o.supportedVersions ≠ []) (hp : Content c o p) (ht : Tracks c o p.shared)
    (hoperating : p.shared.client.state = .operating) (hresetting : resetting p.shared = false) :
    Agreement c o p.shared := by
  obtain ⟨⟨result, hreturned⟩, hrecorded⟩ := hp.operating hoperating
  have hanswer : .ok (agreed c o).toJson ∈ p.shared.server.answers := by
    obtain ⟨rfl, -, hanswer⟩ := hp.returns result hreturned
    exact hanswer
  have hstate := ht.state hanswer
  have hne : p.shared.server.state ≠ .uninitialized := by
    rcases hstate with h | h <;> rw [h] <;> exact SessionState.noConfusion
  have hknows : p.shared.server.Knows (initializeParams c) := by
    have hholds := ht.holds
    cases hhandling : p.shared.handling with
    | none =>
      rw [hhandling] at hholds
      exact hholds.2 hne
    | some h =>
      obtain ⟨pc, id⟩ := h
      rw [hhandling] at hholds
      have hserves := hp.serves _ hhandling
      cases pc with
      | answerCheck options params => exact hholds.2 hne
      | answerReset options params seen => exact hholds.2.1
      | answerParse options params seen => simp [resetting, hhandling] at hresetting
      | answerStore options parsed seen => exact hholds
      | noteCheck => exact hholds.2 hne
      | noteStore seen => exact hholds.2
      | _ => exact hserves.elim
  have hfind : (agreed c o).toJson.find (bytes "protocolVersion") = some (.string (agreed c o).protocolVersion) := by
    unfold InitializeResult.toJson
    simp (disch := decide) only [find_setOptional_of_ne, find_set_of_ne, find_set_self]
  exact {
    state := hstate
    returned := ⟨result, hreturned⟩
    negotiated := fun r hr => by
      obtain ⟨rfl, -, hanswer⟩ := hp.returns r hr
      refine ⟨hanswer, fun j hj => ?_⟩
      rw [hp.answers j hj]
      exact hfind
    supported := fun r hr => by
      obtain ⟨rfl, hversion, -⟩ := hp.returns r hr
      exact ⟨hversion, negotiate_mem hversions _⟩
    preferred := fun r hr version hhead hsupported => by
      obtain ⟨rfl, -, -⟩ := hp.returns r hr
      have hfront : (initializeParams c).protocolVersion = version := by
        show c.supportedVersions.headD [] = version
        rw [List.headD_eq_head?_getD, hhead]
        rfl
      show o.negotiate (initializeParams c).protocolVersion = version
      rw [hfront]
      exact negotiate_of_mem hsupported
    serverInfo := hrecorded.1
    serverCapabilities := hrecorded.2
    clientInfo := hknows.1
    clientCapabilities := hknows.2 }

theorem forgotten_of_resetting (ht : Tracks c o p.shared) (h : resetting p.shared = true) :
    p.shared.server.clientInfo = none ∧ (p.shared.server.state = .uninitialized ∨ o.allowReinitialize = true) := by
  have hholds := ht.holds
  unfold resetting at h
  split at h
  · rename_i hhandling
    rw [hhandling] at hholds
    exact hholds
  · cases h

/-- A client operates only with a version of its own. -/
theorem Content.version_of_operating (hp : Content c o p) (h : p.shared.client.state = .operating) :
    (agreed c o).protocolVersion ∈ c.supportedVersions := by
  obtain ⟨⟨result, hreturned⟩, -⟩ := hp.operating h
  obtain ⟨rfl, hversion, -⟩ := hp.returns result hreturned
  exact hversion

end Joined
end Mcp
