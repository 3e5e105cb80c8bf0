import McpSdk.Lifecycle
import McpSdk.RequestsOnce
/-!
# Joined — a client and a server session over two message channels

The client's calls of `initialize()` are threads, each at a load, a store or a section of its own (`Lifecycle.advance`);
the server handles one message after the other on its reader thread, its `initialize` handler section by section.  The
channels lose nothing and keep the order.  Everything else the two sessions send each other is in the runs too.
-/
namespace Mcp
namespace Joined

open Requests (idOf)

/-! ## State -/

/-- How far the `send_request` of a call is. -/
inductive Sending where
  | undrawn
  | drawn (id : RequestId)
  | sent

/-- A call of `ClientSession::initialize`; `slot` is the `OneShot` that `send_request_sync` waits for. -/
structure Call where
  pc : Lifecycle.Pc
  sending : Sending := .undrawn
  slot : Option (Result Json) := none

/-- The message the server is handling, with the id of a request. -/
structure Handling where
  pc : Lifecycle.Pc
  id : Option RequestId

structure State where
  client : Lifecycle.State
  server : Lifecycle.State
  /-- The requests the client has drawn an id for. -/
  requests : Nat := 0
  /-- The client's pending requests; the callback of an `initialize` request is the number of its call. -/
  pending : Pending := ∅
  toServer : List Message := []
  toClient : List Message := []
  handling : Option Handling := none

/-! ## The client -/

/-- The params `initialize()` sends. -/
def initializeParams (c : ClientOptions) : InitializeParams :=
  { protocolVersion := c.supportedVersions.headD []
    capabilities := c.capabilities
    clientInfo := c.clientInfo }

/-- What the next section of a call sends besides its request. -/
def notes : Lifecycle.Pc → List Message
  | .initNotify .. => [.notification { method := methods.kNotificationInitialized }]
  | _ => []

/-- The next section of call `i`. -/
def advance (i : Nat) (s : State) (call : Call) : Option (State × Call) :=
  match call.pc with
  | .initWait options seen =>
    match call.sending, call.slot with
    | .undrawn, _ =>
      some ({ s with requests := s.requests + 1, pending := registerPending s.pending (idOf s.requests) i },
        { call with sending := .drawn (idOf s.requests) })
    | .drawn id, _ =>
      let request : JsonRpcRequest :=
        { id, method := methods.kInitialize, params := some (initializeParams options).toJson }
      some ({ s with toServer := s.toServer ++ [.request request] }, { call with sending := .sent })
    | .sent, some r => some (s, { call with pc := Lifecycle.initResponse options seen r })
    | .sent, none => none
  | pc =>
    (Lifecycle.advance s.client pc).map fun next =>
      ({ s with client := next.1, toServer := s.toServer ++ notes pc }, { call with pc := next.2 })

/-- The callback of a pending request sets the slot of its call. -/
def complete (p : Pool State Call) (id : RequestId) (r : Result Json) : Pool State Call :=
  match takePending p.shared.pending id with
  | (some i, pending) =>
    ⟨{ p.shared with pending }, p.threads.modify i fun call => { call with slot := some r }⟩
  | (none, _) => p

/-- The client handles the next message; `reply` answers a request of the server's. -/
def clientReceives (p : Pool State Call) (reply : Result Json) : Option (Pool State Call) :=
  match p.shared.toClient with
  | [] => none
  | .response r :: rest =>
    let p := { p with shared := { p.shared with toClient := rest } }
    match r.id with
    | some id => some (complete p id (responseResult r))
    | none => some p
  | .request r :: rest =>
    some { p with shared := { p.shared with
      toClient := rest, toServer := p.shared.toServer ++ [.response (Session.respond r.id (.ok reply))] } }
  | .notification _ :: rest => some { p with shared := { p.shared with toClient := rest } }

/-! ## The server -/

/-- The server takes the next message; `reply` answers a request other than `initialize`. -/
def serverReceives (o : ServerOptions) (s : State) (reply : Result Json) : Option State :=
  match s.handling, s.toServer with
  | none, .request r :: rest =>
    if r.method = methods.kInitialize then
      some { s with toServer := rest, handling := some ⟨.answerCheck o r.params, some r.id⟩ }
    else
      some { s with toServer := rest, toClient := s.toClient ++ [.response (Session.respond r.id (.ok reply))] }
  | none, .notification n :: rest =>
    if n.method = methods.kNotificationInitialized then
      some { s with toServer := rest, handling := some ⟨.noteCheck, none⟩ }
    else some { s with toServer := rest }
  | none, .response _ :: rest => some { s with toServer := rest }
  | _, _ => none

/-- What the server sends when its handler is done. -/
def answers (server : Lifecycle.State) (id : Option RequestId) : List Message :=
  match id, server.answers.getLast? with
  | some id, some r => [.response (Session.respond id (.ok r))]
  | _, _ => []

def isDone : Lifecycle.Pc → Bool
  | .done => true
  | _ => false

/-- The next section of the handler. -/
def serverStep (s : State) : Option State :=
  s.handling.bind fun h => (Lifecycle.advance s.server h.pc).map fun next =>
    if isDone next.2 then
      { s with server := next.1, handling := none, toClient := s.toClient ++ answers next.1 h.id }
    else { s with server := next.1, handling := some { h with pc := next.2 } }

/-! ## Runs -/

inductive Label where
  | callInitialize
  | call (i : Nat)
  /-- The timer or `cancel_request` fails a pending request; the note it sends is a `clientSends`. -/
  | fail (id : RequestId) (e : Error)
  | clientRequest (method : Bytes) (params : Option Json)
  | clientSends (m : Message)
  | clientReceives (reply : Result Json)
  | serverReceives (reply : Result Json)
  | serverStep
  | serverSends (m : Message)
  /-- The close event of either end, once the client has disconnected. -/
  | clientCloses
  | serverCloses

/-- Neither a request nor the note that ends the handshake. -/
def isAside : Message → Bool
  | .request _ => false
  | .notification n => n.method != methods.kNotificationInitialized
  | .response _ => true

def step (c : ClientOptions) (o : ServerOptions) (p : Pool State Call) : Label → Option (Pool State Call)
  | .callInitialize => some (p.spawn p.shared { pc := .initCheck c })
  | .call i => Pool.stepAt (advance i) p i
  | .fail id e => some (complete p id (.error e))
  | .clientRequest method params =>
    if method = methods.kInitialize then none
    else
      some { p with shared := { p.shared with
        requests := p.shared.requests + 1
        -- The callback is registered under the id, in place of one that was there.
        pending := p.shared.pending.erase (idOf p.shared.requests)
        toServer := p.shared.toServer ++ [.request { id := idOf p.shared.requests, method, params }] } }
  | .clientSends m =>
    if isAside m then some { p with shared := { p.shared with toServer := p.shared.toServer ++ [m] } } else none
  | .clientReceives reply => clientReceives p reply
  | .serverReceives reply => (serverReceives o p.shared reply).map fun s => { p with shared := s }
  | .serverStep => (serverStep p.shared).map fun s => { p with shared := s }
  | .serverSends m =>
    if m.isResponse then none
    else some { p with shared := { p.shared with toClient := p.shared.toClient ++ [m] } }
  | .clientCloses =>
    if 0 < p.shared.client.shutdowns then
      some { p with shared := { p.shared with client := p.shared.client.shutdown } }
    else none
  | .serverCloses =>
    if 0 < p.shared.client.shutdowns then
      some { p with shared := { p.shared with server := p.shared.server.shutdown } }
    else none

def init (c : ClientOptions) (o : ServerOptions) : Pool State Call :=
  ⟨{ client := { cls := .client c }, server := { cls := .server o } }, []⟩

/-! ## The property and the condition -/

/-- **The two ends agree**: the server has answered, with the result the client has, and each has the other's options. -/
structure Agreement (c : ClientOptions) (o : ServerOptions) (s : State) : Prop where
  state : s.server.state = .initializing ∨ s.server.state = .operating
  returned : ∃ result, .ok result ∈ s.client.returns
  negotiated : ∀ result, .ok result ∈ s.client.returns →
    .ok result.toJson ∈ s.server.answers ∧
      ∀ j, .ok j ∈ s.server.answers → j.find (bytes "protocolVersion") = some (.string result.protocolVersion)
  supported : ∀ result, .ok result ∈ s.client.returns →
    result.protocolVersion ∈ c.supportedVersions ∧ result.protocolVersion ∈ o.supportedVersions
  preferred : ∀ result, .ok result ∈ s.client.returns → ∀ version, c.supportedVersions.head? = some version →
    version ∈ o.supportedVersions → result.protocolVersion = version
  serverInfo : s.client.serverInfo = some o.serverInfo
  serverCapabilities : s.client.serverCapabilities = some o.capabilities
  clientInfo : s.server.clientInfo = some c.clientInfo
  clientCapabilities : s.server.clientCapabilities = some c.capabilities

/-- An `initialize` handler is between the check and the peer section. -/
def resetting (s : State) : Bool :=
  match s.handling with
  | some ⟨.answerParse .., _⟩ => true
  | _ => false

/-- A call of `initialize()` that has passed its check and not returned. -/
def isActive : Lifecycle.Pc → Bool
  | .done | .initCheck _ => false
  | _ => true

def isCheck : Lifecycle.Pc → Bool
  | .initCheck _ => true
  | _ => false

/-- **The calls of `initialize()` come one after the other**: none finds the state `Uninitialized` while another is on its
way. -/
def OneAtATime (p : Pool State Call) : Label → Prop
  | .call i => (p.threads[i]?).all (fun call => isCheck call.pc && p.shared.client.state == .uninitialized) = true →
    p.threads.all (fun call => !isActive call.pc) = true
  | _ => True

instance : ∀ (p : Pool State Call) (l : Label), Decidable (OneAtATime p l)
  | _, .call _ => inferInstanceAs (Decidable (_ → _))
  | _, .callInitialize | _, .fail .. | _, .clientRequest .. | _, .clientSends _ | _, .clientReceives _
  | _, .serverReceives _ | _, .serverStep | _, .serverSends _ | _, .clientCloses | _, .serverCloses => isTrue trivial

end Joined
end Mcp
