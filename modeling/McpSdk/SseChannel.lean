import McpSdk.Sse
import McpSdk.JsonDump
import McpSdk.Types
import McpSdk.Lib.Pool
import McpSdk.Lib.Run
/-!
# SseChannel — the replay ring, its streams and the client that reads them

`SseChannel` and one `HttpClientTransport` SSE loop, one critical section or one write or read a step.  Each connection
has a stream thread of its own, thread `i` serving the `i`-th connection; a thread may outlive its connection, and what
it writes then reaches nobody.  The client reads the bytes of its connection in pieces of any size.
-/
namespace Mcp

/-- `std::uint64_t` arithmetic. -/
def wrap64 (n : Nat) : Nat := n % 2 ^ 64

/-- A payload as `dump()` prints it: not empty, and on one line. -/
structure Payload where
  text : Bytes
  nonempty : text ≠ []
  plain : Plain text

/-- **What `dump()` prints is a payload**, when it prints doubles without control characters. -/
def Payload.ofJson (double : Double → Bytes) (hne : ∀ x, double x ≠ []) (hdouble : ∀ x, ∀ b ∈ double x, 32 ≤ b) (j : Json) :
    Payload where
  text := j.compact double
  nonempty := compact_ne_nil hne j
  plain := ⟨fun h => absurd (compact_printable hdouble j _ h) (by decide), fun h => absurd (compact_printable hdouble j _ h) (by decide)⟩

structure Item where
  id : Nat
  data : Bytes
  deriving DecidableEq

structure SseChannel where
  replayBufferSize : Nat
  retryMs : Int32
  running : Bool := true
  ring : List Item := []
  nextEventId : Nat := 1
  nextUndelivered : Nat := 1
  streamGeneration : Nat := 0

namespace SseChannel

def enqueue (c : SseChannel) (payload : Bytes) : SseChannel :=
  if c.running then
    let ring := c.ring ++ [⟨c.nextEventId, payload⟩]
    { c with ring := ring.drop (ring.length - c.replayBufferSize), nextEventId := wrap64 (c.nextEventId + 1) }
  else c

/-- The events the next `enqueue` pops. -/
def evicted (c : SseChannel) (payload : Bytes) : List Item :=
  let ring := c.ring ++ [⟨c.nextEventId, payload⟩]
  ring.take (ring.length - c.replayBufferSize)

/-- The first event a stream sends: after the given id, or the first never collected. -/
def cursor (c : SseChannel) (lastEventId : Bytes) : Nat :=
  if lastEventId = [] then c.nextUndelivered else wrap64 (strtoull lastEventId + 1)

/-- `next_event_id_ - 1`. -/
def lastAssigned (c : SseChannel) : Nat := wrap64 (c.nextEventId + (2 ^ 64 - 1))

end SseChannel

def streamHead : Bytes :=
  serializeResponse 200 (bytes "OK")
    [(bytes "Content-Type", bytes "text/event-stream"), (bytes "Cache-Control", bytes "no-cache"),
      (bytes "Connection", bytes "keep-alive"), (bytes "MCP-Protocol-Version", kProtocolVersion)] [] true

/-- The initial event: id baseline and retry hint. -/
def initialEvent (lastAssigned : Nat) (retryMs : Int32) : SseEvent := { id := some (decimal lastAssigned), retryMs := some retryMs }

def itemEvent (item : Item) : SseEvent := { id := some (decimal item.id), data := item.data }

namespace Sse

/-- Where `attach_stream` stands; `generation` and `cursor` are its own. -/
inductive Stream where
  | done
  | head (generation cursor lastAssigned : Nat)
  | initial (generation cursor lastAssigned : Nat)
  | wait (generation cursor : Nat)
  | send (generation cursor : Nat) (pending : List Item)

/-- `run_sse_once`: the head is still arriving, or the events are parsed. -/
inductive Reader where
  | head (buffer : Bytes)
  | events (parser : SseParser)

structure Client where
  lastEventId : Bytes := []
  retryMs : Int32 := 1000
  /-- The thread that serves the connection. -/
  connection : Option (Nat × Reader) := none
  /-- What `deliver_frame` was given. -/
  delivered : List Bytes := []

structure State where
  channel : SseChannel
  client : Client := {}
  /-- Bytes written to the client's connection and not read yet. -/
  inbox : Bytes := []
  /-- What `enqueue` was given while the channel ran. -/
  enqueued : List Payload := []

/-! ## The client -/

/-- One event of the loop. -/
def Client.take (c : Client) (e : SseEvent) : Client :=
  { c with
    retryMs := e.retryMs.getD c.retryMs
    lastEventId := e.id.getD c.lastEventId
    delivered := c.delivered ++ [e.data] }

/-- The parser gets what was read, and the client the events. -/
def Client.feed (c : Client) (thread : Nat) (parser : SseParser) (data : Bytes) : Client :=
  (parser.feed data).2.foldl take { c with connection := some (thread, .events (parser.feed data).1) }

/-- One read of `run_sse_once`. -/
def Client.read (c : Client) (thread : Nat) (reader : Reader) (chunk : Bytes) : Client :=
  match reader with
  | .events parser => c.feed thread parser chunk
  | .head buffer =>
    match parseHead false (buffer ++ chunk) with
    | .incomplete => { c with connection := some (thread, .head (buffer ++ chunk)) }
    | .malformed _ => { c with connection := none }
    | .parsed head consumed =>
      if head.status ≠ 200 ∨ head.headerContains (bytes "content-type") (bytes "text/event-stream") = false then
        { c with connection := none }
      else c.feed thread {} ((buffer ++ chunk).drop consumed)

/-! ## The streams -/

/-- The critical section of `attach_stream`. -/
def attach (c : SseChannel) (lastEventId : Bytes) : SseChannel × Stream :=
  if c.running then
    ({ c with streamGeneration := wrap64 (c.streamGeneration + 1) },
      .head (wrap64 (c.streamGeneration + 1)) (c.cursor lastEventId) c.lastAssigned)
  else (c, .done)

/-- The bytes a stream writes next, and where it stands after. -/
def Stream.writing (retryMs : Int32) : Stream → Option (Bytes × Stream)
  | .head generation cursor lastAssigned => some (streamHead, .initial generation cursor lastAssigned)
  | .initial generation cursor lastAssigned =>
    some (formatSseEvent (initialEvent lastAssigned retryMs), .wait generation cursor)
  | .send generation cursor (item :: pending) => some (formatSseEvent (itemEvent item), .send generation cursor pending)
  | _ => none

/-- Thread `i` writes; only its own connection gets it. -/
def State.write (s : State) (i : Nat) (data : Bytes) : State :=
  { s with inbox := if s.client.connection.any (fun c => c.1 = i) then s.inbox ++ data else s.inbox }

def advance (i : Nat) (s : State) (stream : Stream) : Option (State × Stream) :=
  match stream.writing s.channel.retryMs with
  | some (data, next) => some (s.write i data, next)
  | none =>
    match stream with
    | .send generation cursor [] => some (s, .wait generation cursor)
    | .wait generation cursor =>
      if s.channel.running = false ∨ s.channel.streamGeneration ≠ generation then some (s, .done)
      else if s.channel.ring.getLast?.any (fun item => cursor ≤ item.id) then
        let pending := s.channel.ring.filter (fun item => cursor ≤ item.id)
        let cursor := pending.getLast?.elim cursor (fun item => wrap64 (item.id + 1))
        some ({ s with channel := { s.channel with nextUndelivered := max s.channel.nextUndelivered cursor } },
          .send generation cursor pending)
      else none
    | _ => none

/-- A write of stream `i` fails after `n` bytes. -/
def advanceFail (n i : Nat) (s : State) (stream : Stream) : Option (State × Stream) :=
  (stream.writing s.channel.retryMs).map fun w => (s.write i (w.1.take n), .done)

/-! ## Steps -/

inductive Label where
  | enqueue (payload : Payload)
  /-- The client connects, and its GET is attached with its `last_event_id_`. -/
  | connect
  | stream (i : Nat)
  | writeFails (i n : Nat)
  /-- The client reads `n` bytes. -/
  | read (n : Nat)
  /-- The client's connection ends; what it has not read is lost. -/
  | drop
  | shutdown

def step (p : Pool State Stream) : Label → Option (Pool State Stream)
  | .enqueue payload =>
    some { p with shared := { p.shared with
      channel := p.shared.channel.enqueue payload.text
      enqueued := if p.shared.channel.running then p.shared.enqueued ++ [payload] else p.shared.enqueued } }
  | .connect =>
    if p.shared.client.connection.isSome then none
    else
      let (channel, stream) := attach p.shared.channel p.shared.client.lastEventId
      some (p.spawn { p.shared with
        channel
        client := { p.shared.client with connection := some (p.threads.length, .head []) }
        inbox := [] } stream)
  | .stream i => Pool.stepAt (advance i) p i
  | .writeFails i n => Pool.stepAt (advanceFail n i) p i
  | .read n =>
    p.shared.client.connection.bind fun (thread, reader) =>
      if 0 < n ∧ n ≤ 8192 ∧ n ≤ p.shared.inbox.length then
        some { p with shared := { p.shared with
          client := p.shared.client.read thread reader (p.shared.inbox.take n)
          inbox := p.shared.inbox.drop n } }
      else none
  | .drop =>
    if p.shared.client.connection.isSome then
      some { p with shared := { p.shared with client := { p.shared.client with connection := none }, inbox := [] } }
    else none
  | .shutdown => some { p with shared := { p.shared with channel := { p.shared.channel with running := false } } }

def init (replayBufferSize : Nat) (retryMs : Int32) : Pool State Stream := ⟨{ channel := { replayBufferSize, retryMs } }, []⟩

/-- The non-empty payloads passed to `deliver_frame`. -/
def Client.payloads (c : Client) : List Bytes := c.delivered.filter (fun data => !data.isEmpty)

end Sse
end Mcp
