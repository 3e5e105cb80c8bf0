import McpSdk.Joined
import McpSdk.LifecycleOnce
import McpSdk.InitializeCodec
/-!
# JoinedSteps — what a step of the two sessions is

Read backwards, once and for all: a section of a call (`Moves`), a section of the server's handler (`Handles`) and a step
of the whole (`Steps`).  All `initialize` requests of a client carry the same params, so the handler never refuses to
parse and has one result to give (`agreed`).
-/
namespace Mcp
namespace Joined

open Requests (idOf)
open Lifecycle (Pc)

variable {c : ClientOptions} {o : ServerOptions}

/-! ## The calls -/

def isClient : Pc → Bool
  | .answerCheck .. | .answerReset .. | .answerParse .. | .answerStore .. | .noteCheck | .noteStore _ => false
  | _ => true

/-- **What the next section of a call is.** -/
inductive Moves (i : Nat) (s : State) (call : Call) : State → Call → Prop
  | check (options : ClientOptions) (pc : call.pc = .initCheck options) (state : s.client.state = .uninitialized) :
      Moves i s call s { call with pc := .initStore options s.client.shutdowns }
  | refuse (options : ClientOptions) (e : Error) (pc : call.pc = .initCheck options) :
      Moves i s call { s with client := { s.client with returns := s.client.returns ++ [.error e] } }
        { call with pc := .done }
  | store (options : ClientOptions) (seen : Nat) (pc : call.pc = .initStore options seen) :
      Moves i s call { s with client := { s.client with state := .initializing } }
        { call with pc := .initWait options seen }
  | draw (options : ClientOptions) (seen : Nat) (pc : call.pc = .initWait options seen)
      (sending : call.sending = .undrawn) :
      Moves i s call
        { s with requests := s.requests + 1, pending := registerPending s.pending (idOf s.requests) i }
        { call with sending := .drawn (idOf s.requests) }
  | send (options : ClientOptions) (seen : Nat) (id : RequestId) (pc : call.pc = .initWait options seen)
      (sending : call.sending = .drawn id) :
      Moves i s call
        { s with toServer := s.toServer ++
          [.request { id, method := methods.kInitialize, params := some (initializeParams options).toJson }] }
        { call with sending := .sent }
  | get (options : ClientOptions) (seen : Nat) (r : Result Json) (pc : call.pc = .initWait options seen)
      (sending : call.sending = .sent) (slot : call.slot = some r) :
      Moves i s call s { call with pc := Lifecycle.initResponse options seen r }
  | fail (e : Error) (seen : Nat) (pc : call.pc = .initFail e seen) :
      Moves i s call
        { s with client := { s.client with state := .uninitialized, returns := s.client.returns ++ [.error e] } }
        { call with pc := .done }
  | disconnect (e : Error) (pc : call.pc = .initDisconnect e) :
      Moves i s call { s with client := { s.client.shutdown with returns := s.client.returns ++ [.error e] } }
        { call with pc := .done }
  | peer (result : InitializeResult) (seen : Nat) (pc : call.pc = .initPeer result seen) :
      Moves i s call
        { s with client := { s.client with
          serverInfo := some result.serverInfo, serverCapabilities := some result.capabilities } }
        { call with pc := .initNotify result seen }
  | notify (result : InitializeResult) (seen : Nat) (pc : call.pc = .initNotify result seen) :
      Moves i s call
        { s with toServer := s.toServer ++ [.notification { method := methods.kNotificationInitialized }] }
        { call with pc := .initOperate result seen }
  | operate (result : InitializeResult) (seen : Nat) (pc : call.pc = .initOperate result seen) :
      Moves i s call
        { s with client := { s.client with state := .operating, returns := s.client.returns ++ [.ok result] } }
        { call with pc := .done }

theorem advance_moves {i : Nat} {s s' : State} {call call' : Call} (hclient : isClient call.pc = true)
    (h : advance i s call = some (s', call')) : Moves i s call s' call' := by
  obtain ⟨pc, sending, slot⟩ := call
  cases pc with
  | done => cases h
  | initCheck options =>
    simp only [advance, Lifecycle.advance, notes, List.append_nil] at h
    by_cases hs : s.client.state = .uninitialized
    · rw [if_pos hs] at h
      obtain ⟨rfl, rfl⟩ := Pool.section_inj h
      exact .check options rfl hs
    · rw [if_neg hs] at h
      obtain ⟨rfl, rfl⟩ := Pool.section_inj h
      exact .refuse options _ rfl
  | initWait options seen =>
    cases sending with
    | undrawn =>
      obtain ⟨rfl, rfl⟩ := Pool.section_inj h
      exact .draw options seen rfl rfl
    | drawn id =>
      obtain ⟨rfl, rfl⟩ := Pool.section_inj h
      exact .send options seen id rfl rfl
    | sent =>
      cases slot with
      | none => cases h
      | some r =>
        obtain ⟨rfl, rfl⟩ := Pool.section_inj h
        exact .get options seen r rfl rfl rfl
  | initNotify result seen =>
    obtain ⟨rfl, rfl⟩ := Pool.section_inj h
    exact .notify result seen rfl
  | initStore options seen =>
    simp only [advance, Lifecycle.advance, notes, List.append_nil] at h
    obtain ⟨rfl, rfl⟩ := Pool.section_inj h
    exact .store options seen rfl
  | initFail e seen =>
    simp only [advance, Lifecycle.advance, notes, List.append_nil] at h
    obtain ⟨rfl, rfl⟩ := Pool.section_inj h
    exact .fail e seen rfl
  | initDisconnect e =>
    simp only [advance, Lifecycle.advance, notes, List.append_nil] at h
    obtain ⟨rfl, rfl⟩ := Pool.section_inj h
    exact .disconnect e rfl
  | initPeer result seen =>
    simp only [advance, Lifecycle.advance, notes, List.append_nil] at h
    obtain ⟨rfl, rfl⟩ := Pool.section_inj h
    exact .peer result seen rfl
  | initOperate result seen =>
    simp only [advance, Lifecycle.advance, notes, List.append_nil] at h
    obtain ⟨rfl, rfl⟩ := Pool.section_inj h
    exact .operate result seen rfl
  | _ => cases hclient

/-! ## The server's handlers -/

/-- The one result the server has to give. -/
def agreed (c : ClientOptions) (o : ServerOptions) : InitializeResult :=
  { protocolVersion := o.negotiate (initializeParams c).protocolVersion
    capabilities := o.capabilities
    serverInfo := o.serverInfo
    instructions := o.instructions }

/-- The message being handled is an `initialize` request of the client's, or the note after it. -/
def Serves (c : ClientOptions) (o : ServerOptions) (h : Handling) : Prop :=
  match h.pc with
  | .answerCheck options params | .answerReset options params _ | .answerParse options params _ =>
    options = o ∧ params = some (initializeParams c).toJson ∧ h.id ≠ none
  | .answerStore options parsed _ => options = o ∧ parsed = initializeParams c ∧ h.id ≠ none
  | .noteCheck | .noteStore _ => h.id = none
  | _ => False

def reply (id : Option RequestId) (r : Result Json) : List Message :=
  (id.map fun id => .response (Session.respond id (.ok r))).toList

theorem answers_append {server : Lifecycle.State} (id : Option RequestId) {r : Result Json}
    (h : ∃ log, server.answers = log ++ [r]) : answers server id = reply id r := by
  obtain ⟨log, hlog⟩ := h
  have hlast : server.answers.getLast? = some r := by rw [hlog, List.getLast?_append, List.getLast?_singleton, Option.some_or]
  unfold answers
  rw [hlast]
  cases id <;> rfl

/-- **What the next section of a handler is.** -/
inductive Handles (c : ClientOptions) (o : ServerOptions) (s : State) (h : Handling) : State → Prop
  | first (params : Option Json) (pc : h.pc = .answerCheck o params) (state : s.server.state = .uninitialized) :
      Handles c o s h { s with handling := some { h with pc := .answerParse o params s.server.shutdowns } }
  | refuse (params : Option Json) (e : Error) (pc : h.pc = .answerCheck o params) :
      Handles c o s h { s with
        server := { s.server with answers := s.server.answers ++ [.error e] }
        handling := none
        toClient := s.toClient ++ reply h.id (.error e) }
  | again (params : Option Json) (pc : h.pc = .answerCheck o params) (state : s.server.state ≠ .uninitialized)
      ( reinitialize : o.allowReinitialize = true) :
      Handles c o s h { s with handling := some { h with pc := .answerReset o params s.server.shutdowns } }
  | reset (params : Option Json) (seen : Nat) (pc : h.pc = .answerReset o params seen) :
      Handles c o s h { s with
        server := { s.server with clientInfo := none, clientCapabilities := none }
        handling := some { h with pc := .answerParse o params seen } }
  | parse (params : Option Json) (seen : Nat) (pc : h.pc = .answerParse o params seen) :
      Handles c o s h { s with
        server := { s.server with clientInfo := some c.clientInfo, clientCapabilities := some c.capabilities }
        handling := some { h with pc := .answerStore o (initializeParams c) seen } }
  | store (seen : Nat) (pc : h.pc = .answerStore o (initializeParams c) seen) :
      Handles c o s h { s with
        server := { s.server with
          state := .initializing, answers := s.server.answers ++ [.ok (agreed c o).toJson] }
        handling := none
        toClient := s.toClient ++ reply h.id (.ok (agreed c o).toJson) }
  | note (pc : h.pc = .noteCheck) (state : s.server.state = .initializing) :
      Handles c o s h { s with handling := some { h with pc := .noteStore s.server.shutdowns } }
  | ignore (pc : h.pc = .noteCheck) : Handles c o s h { s with handling := none }
  | operate (seen : Nat) (pc : h.pc = .noteStore seen) :
      Handles c o s h { s with server := { s.server with state := .operating }, handling := none }

theorem serverStep_handles (hparams : InitializeParams.fromJson (initializeParams c).toJson = .ok (initializeParams c))
    {s s' : State} (hserves : ∀ h, s.handling = some h → Serves c o h) (h : serverStep s = some s') :
    ∃ handling, s.handling = some handling ∧ Handles c o s handling s' := by
  unfold serverStep at h
  obtain ⟨⟨pc, id⟩, hhandling, h⟩ := Option.bind_eq_some_iff.1 h
  obtain ⟨⟨server, pc'⟩, hadv, rfl⟩ := Option.map_eq_some_iff.1 h
  have hserves := hserves _ hhandling
  refine ⟨⟨pc, id⟩, hhandling, ?_⟩
  have hreply : ∀ state r,
      answers { s.server with state, answers := s.server.answers ++ [r] } id = reply id r :=
    fun _ _ => answers_append id ⟨_, rfl⟩
  cases pc with
  | answerCheck options params =>
    obtain ⟨rfl, rfl, -⟩ := hserves
    simp only [Lifecycle.advance] at hadv
    by_cases hs : s.server.state = .uninitialized
    · rw [if_pos hs] at hadv
      obtain ⟨rfl, rfl⟩ := Pool.section_inj hadv
      exact .first _ rfl hs
    · rw [if_neg hs] at hadv
      by_cases hre : options.allowReinitialize = true
      · rw [if_pos hre] at hadv
        obtain ⟨rfl, rfl⟩ := Pool.section_inj hadv
        exact .again _ rfl hs hre
      · rw [if_neg hre] at hadv
        obtain ⟨rfl, rfl⟩ := Pool.section_inj hadv
        simp only [isDone, if_true, hreply]
        exact .refuse _ _ rfl
  | answerReset options params seen =>
    obtain ⟨rfl, rfl, -⟩ := hserves
    obtain ⟨rfl, rfl⟩ := Pool.section_inj hadv
    exact .reset _ seen rfl
  | answerParse options params seen =>
    obtain ⟨rfl, rfl, -⟩ := hserves
    simp only [Lifecycle.advance, hparams] at hadv
    obtain ⟨rfl, rfl⟩ := Pool.section_inj hadv
    exact .parse _ seen rfl
  | answerStore options parsed seen =>
    obtain ⟨rfl, rfl, -⟩ := hserves
    obtain ⟨rfl, rfl⟩ := Pool.section_inj hadv
    simp only [isDone, if_true, hreply]
    exact .store seen rfl
  | noteCheck =>
    obtain rfl : id = none := hserves
    simp only [Lifecycle.advance] at hadv
    by_cases hs : s.server.state = .initializing
    · rw [if_pos hs] at hadv
      obtain ⟨rfl, rfl⟩ := Pool.section_inj hadv
      exact .note rfl hs
    · rw [if_neg hs] at hadv
      obtain ⟨rfl, rfl⟩ := Pool.section_inj hadv
      simp only [isDone, if_true, answers, List.append_nil]
      exact .ignore rfl
  | noteStore seen =>
    obtain rfl : id = none := hserves
    obtain ⟨rfl, rfl⟩ := Pool.section_inj hadv
    simp only [isDone, if_true, answers, List.append_nil]
    exact .operate seen rfl
  | _ => exact hserves.elim

/-! ## Steps -/

/-- The step of a call whose callback is pending under `id`. -/
theorem complete_cases (p : Pool State Call) (id : RequestId) (r : Result Json) :
    complete p id r = p ∧ id ∉ p.shared.pending ∨
      ∃ i, p.shared.pending.lookup id = some i ∧ complete p id r =
        ⟨{ p.shared with pending := p.shared.pending.erase id },
          p.threads.modify i fun call => { call with slot := some r }⟩ := by
  unfold complete takePending
  cases hlookup : p.shared.pending.lookup id with
  | none => exact .inl ⟨rfl, AList.lookup_eq_none.1 hlookup⟩
  | some i => exact .inr ⟨i, rfl, rfl⟩

/-- **What a step of the two sessions is.** -/
inductive Steps (c : ClientOptions) (o : ServerOptions) (p : Pool State Call) : Label → Pool State Call → Prop
  | spawn : Steps c o p .callInitialize (p.spawn p.shared { pc := .initCheck c })
  | call (i : Nat) (call call' : Call) (s' : State) (thread : p.threads[i]? = some call)
      (moves : Moves i p.shared call s' call') : Steps c o p (.call i) ⟨s', p.threads.set i call'⟩
  | fail (id : RequestId) (e : Error) : Steps c o p (.fail id e) (complete p id (.error e))
  | request (method : Bytes) (params : Option Json) (other : method ≠ methods.kInitialize) :
      Steps c o p (.clientRequest method params) { p with shared := { p.shared with
        requests := p.shared.requests + 1
        pending := p.shared.pending.erase (idOf p.shared.requests)
        toServer := p.shared.toServer ++ [.request { id := idOf p.shared.requests, method, params }] } }
  | send (m : Message) (aside : isAside m = true) :
      Steps c o p (.clientSends m) { p with shared := { p.shared with toServer := p.shared.toServer ++ [m] } }
  | response (result : Result Json) (r : JsonRpcResponse) (id : RequestId) (rest : List Message)
      (head : p.shared.toClient = .response r :: rest) (answered : r.id = some id) :
      Steps c o p (.clientReceives result)
        (complete { p with shared := { p.shared with toClient := rest } } id (responseResult r))
  | skip (result : Result Json) (m : Message) (rest : List Message) (head : p.shared.toClient = m :: rest) :
      Steps c o p (.clientReceives result) { p with shared := { p.shared with toClient := rest } }
  | answer (result : Result Json) (r : JsonRpcRequest) (rest : List Message)
      (head : p.shared.toClient = .request r :: rest) :
      Steps c o p (.clientReceives result) { p with shared := { p.shared with
        toClient := rest, toServer := p.shared.toServer ++ [.response (Session.respond r.id (.ok result))] } }
  | take (result : Result Json) (r : JsonRpcRequest) (rest : List Message) (idle : p.shared.handling = none)
      (head : p.shared.toServer = .request r :: rest) (asks : r.method = methods.kInitialize) :
      Steps c o p (.serverReceives result) { p with shared := { p.shared with
        toServer := rest, handling := some ⟨.answerCheck o r.params, some r.id⟩ } }
  | takeNote (result : Result Json) (n : JsonRpcNotification) (rest : List Message) (idle : p.shared.handling = none)
      (head : p.shared.toServer = .notification n :: rest) :
      Steps c o p (.serverReceives result) { p with shared := { p.shared with
        toServer := rest, handling := some ⟨.noteCheck, none⟩ } }
  | reply (result : Result Json) (r : JsonRpcRequest) (rest : List Message)
      (head : p.shared.toServer = .request r :: rest) (other : r.method ≠ methods.kInitialize) :
      Steps c o p (.serverReceives result) { p with shared := { p.shared with
        toServer := rest, toClient := p.shared.toClient ++ [.response (Session.respond r.id (.ok result))] } }
  | drop (result : Result Json) (m : Message) (rest : List Message) (head : p.shared.toServer = m :: rest)
      (quiet : ∀ r, m ≠ .request r) :
      Steps c o p (.serverReceives result) { p with shared := { p.shared with toServer := rest } }
  | handle (h : Handling) (s' : State) (handling : p.shared.handling = some h) (handles : Handles c o p.shared h s') :
      Steps c o p .serverStep { p with shared := s' }
  | serverSend (m : Message) (quiet : ∀ r, m ≠ .response r) :
      Steps c o p (.serverSends m) { p with shared := { p.shared with toClient := p.shared.toClient ++ [m] } }
  | clientClose (closed : 0 < p.shared.client.shutdowns) :
      Steps c o p .clientCloses { p with shared := { p.shared with client := p.shared.client.shutdown } }
  | serverClose (closed : 0 < p.shared.client.shutdowns) :
      Steps c o p .serverCloses { p with shared := { p.shared with server := p.shared.server.shutdown } }

theorem clientReceives_steps {p q : Pool State Call} {result : Result Json} (h : clientReceives p result = some q) :
    Steps c o p (.clientReceives result) q := by
  unfold clientReceives at h
  cases hhead : p.shared.toClient with
  | nil =>
    rw [hhead] at h
    cases h
  | cons m rest =>
    rw [hhead] at h
    cases m with
    | request r =>
      obtain rfl := Option.some.inj h
      exact .answer result r rest hhead
    | notification n =>
      obtain rfl := Option.some.inj h
      exact .skip result _ rest hhead
    | response r =>
      cases hid : r.id with
      | none =>
        simp only [hid] at h
        obtain rfl := Option.some.inj h
        exact .skip result _ rest hhead
      | some id =>
        simp only [hid] at h
        obtain rfl := Option.some.inj h
        exact .response result r id rest hhead hid

theorem serverReceives_steps {p : Pool State Call} {s' : State} {result : Result Json}
    (h : serverReceives o p.shared result = some s') : Steps c o p (.serverReceives result) { p with shared := s' } := by
  unfold serverReceives at h
  cases hidle : p.shared.handling with
  | some handling =>
    rw [hidle] at h
    cases h
  | none =>
    cases hhead : p.shared.toServer with
    | nil =>
      rw [hidle, hhead] at h
      cases h
    | cons m rest =>
      rw [hidle, hhead] at h
      cases m with
      | request r =>
        by_cases hmethod : r.method = methods.kInitialize
        · simp only [if_pos hmethod] at h
          obtain rfl := Option.some.inj h
          exact .take result r rest hidle hhead hmethod
        · simp only [if_neg hmethod] at h
          obtain rfl := Option.some.inj h
          rw [← hidle]
          exact .reply result r rest hhead hmethod
      | notification n =>
        by_cases hmethod : n.method = methods.kNotificationInitialized
        · simp only [if_pos hmethod] at h
          obtain rfl := Option.some.inj h
          exact .takeNote result _ rest hidle hhead
        · simp only [if_neg hmethod] at h
          obtain rfl := Option.some.inj h
          rw [← hidle]
          exact .drop result _ rest hhead (fun r hr => by cases hr)
      | response r =>
        obtain rfl := Option.some.inj h
        rw [← hidle]
        exact .drop result _ rest hhead (fun r hr => by cases hr)

theorem step_steps (hparams : InitializeParams.fromJson (initializeParams c).toJson = .ok (initializeParams c))
    {p q : Pool State Call} {l : Label} (hclient : ∀ call ∈ p.threads, isClient call.pc = true)
    (hserves : ∀ h, p.shared.handling = some h → Serves c o h) (h : step c o p l = some q) : Steps c o p l q := by
  cases l with
  | callInitialize =>
    obtain rfl := Option.some.inj h
    exact .spawn
  | call i =>
    obtain ⟨call, s', call', hcall, hadv, rfl⟩ := Pool.stepAt_eq_some.1 h
    exact .call i call call' s' hcall (advance_moves (hclient call (List.mem_of_getElem? hcall)) hadv)
  | fail id e =>
    obtain rfl := Option.some.inj h
    exact .fail id e
  | clientRequest method params =>
    obtain ⟨hmethod, h⟩ := Option.ite_none_left_eq_some.1 h
    obtain rfl := Option.some.inj h
    exact .request method params hmethod
  | clientSends m =>
    obtain ⟨haside, h⟩ := Option.ite_none_right_eq_some.1 h
    obtain rfl := Option.some.inj h
    exact .send m haside
  | clientReceives result => exact clientReceives_steps h
  | serverReceives result =>
    obtain ⟨s', hreceive, rfl⟩ := Option.map_eq_some_iff.1 h
    exact serverReceives_steps hreceive
  | serverStep =>
    obtain ⟨s', hstep, rfl⟩ := Option.map_eq_some_iff.1 h
    obtain ⟨handling, hhandling, hhandles⟩ := serverStep_handles hparams hserves hstep
    exact .handle handling s' hhandling hhandles
  | serverSends m =>
    obtain ⟨hresponse, h⟩ := Option.ite_none_left_eq_some.1 h
    obtain rfl := Option.some.inj h
    exact .serverSend m (fun r hr => hresponse (by rw [hr]; rfl))
  | clientCloses =>
    obtain ⟨hclosed, h⟩ := Option.ite_none_right_eq_some.1 h
    obtain rfl := Option.some.inj h
    exact .clientClose hclosed
  | serverCloses =>
    obtain ⟨hclosed, h⟩ := Option.ite_none_right_eq_some.1 h
    obtain rfl := Option.some.inj h
    exact .serverClose hclosed

end Joined
end Mcp
