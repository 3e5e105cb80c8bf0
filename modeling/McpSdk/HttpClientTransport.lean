import McpSdk.ClientResume
/-!
# HttpClientTransport — the SSE thread, the senders and the calls that stop them

`HttpClientTransport::connect` makes a wake event and starts the thread of `sse_loop`, which connects, reads events and
hands them on, and connects again.  `disconnect` clears `running_`, deletes the session, signals the event, joins the thread
unless it is that thread, and resets the event; a second `disconnect` returns at once.  A `send` polls with the same event
on its caller's thread and is waited for by nobody.

`disconnect` may be called by a handler on the SSE thread or by another thread.  `connect` is not called while another
thread is in `disconnect`.
-/
namespace Mcp
namespace HttpClientTransport

/-! ## State -/

/-- `HttpClientOptions`, with what `connect` and the SSE loop read. -/
structure Options extends HttpClientOptions where
  reconnectDelayMs : Int32 := 1000
  maxReconnectAttempts : Int32 := 5
  openSseStream : Bool := true

/-- What ends the transport, or the process. -/
inductive End
  | destroyed
  /-- `std::terminate`, from a joinable thread that is assigned to or destroyed. -/
  | terminate
  /-- `std::terminate`, from an exception that leaves the SSE thread. -/
  | escaped
  /-- `wake_->poll_handle()` on a null pointer. -/
  | nullWake
  /-- `poll_readable` on a wake event that was destroyed, on the SSE thread and on a sender's. -/
  | freedWake
  | freedWakePost
  deriving DecidableEq, Repr

inductive Event
  /-- A `connect` that started the SSE thread. -/
  | opened
  | refused (e : Error)
  | get (headers : HeaderList)
  /-- The calls on the SSE thread: `deliver_frame` with something to deliver, the error handler, the close handler. -/
  | frame (data : Bytes)
  | error (e : Error)
  | close
  /-- A `disconnect` that found the transport running, by a handler on the SSE thread (`own`) or by another thread. -/
  | stopping (own : Bool)
  /-- The DELETE of `send_session_delete`. -/
  | delete (sessionId : Bytes)
  /-- That `disconnect` has returned. -/
  | stopped (own : Bool)

/-- Where the SSE thread is; `absent` is not joinable. -/
inductive Loop
  | absent
  /-- The loop's condition. -/
  | head
  /-- `run_sse_once` up to its request. -/
  | connecting
  /-- At a call of `poll_readable`, with the event that `wake_` is. -/
  | entering (wake : Option Nat)
  | polling (wake : Option Nat)
  /-- There is something to read, and `running_` is checked. -/
  | checking
  | reading
  /-- The loop over the events of a read. -/
  | delivering
  /-- Inside `deliver_frame`. -/
  | handling
  | returned (delivered : Bool)
  /-- `running_` is checked before the delay. -/
  | resting
  | delaying (ms : Int32)
  | sleeping (wake : Nat) (ms : Int32)
  /-- Inside the error handler. -/
  | erring
  | leaving
  /-- Inside the close handler. -/
  | closing
  | finished
  deriving DecidableEq, Repr

/-- The sections of `disconnect` past the exchange of `running_`. -/
inductive Pc
  | delete
  | signal
  | join
  | reset
  deriving DecidableEq, Repr

/-- Where a `post_payload` is; `body`: it has the head of the reply. -/
inductive Post
  | connecting
  | entering (body : Bool) (wake : Option Nat)
  | polling (body : Bool) (wake : Option Nat)
  | checking (body : Bool)
  | reading (body : Bool)
  /-- The head's session id has been captured. -/
  | captured (head : HttpHead)
  /-- Inside `deliver_frame` or the error handler. -/
  | handling
  | done

/-- What only the SSE thread writes. -/
structure Stream where
  lastEventId : Bytes := []
  retryMs : Int32
  failures : Int32 := 0
  reader : Sse.Reader := .head []
  /-- The events of the last read that are left. -/
  events : List SseEvent := []
  delivered : Bool := false
  closeEmitted : Bool := false

structure State where
  running : Bool := false
  /-- `wake_`, by the number of the event it holds. -/
  wake : Option Nat := none
  wakes : Nat := 0
  signalled : List Nat := []
  sessionId : Bytes := []
  loop : Loop := .absent
  sse : Stream
  /-- The `disconnect` under way, and whether a handler on the SSE thread has called it. -/
  stopping : Option (Bool × Pc) := none
  posts : List Post := []
  log : List Event := []
  end_ : Option End := none

/-- What a read or a reply makes of a `post_payload`. -/
inductive Outcome
  /-- Its own next section; a handler it is in returns. -/
  | goes
  /-- `poll_readable` returns 1. -/
  | readable
  /-- A head is complete. -/
  | replied (head : HttpHead)
  /-- It reads on. -/
  | more
  /-- It calls a handler. -/
  | calls
  /-- It returns. -/
  | ends

inductive Label
  /-- `valid`: the wake event could be created. -/
  | connect (valid : Bool)
  | disconnect (own : Bool)
  /-- The `disconnect` under way goes on. -/
  | advance
  /-- The SSE thread goes on; a handler it is in returns. -/
  | loop
  /-- `tcp_connect` and the request of `run_sse_once`. -/
  | connected (ok : Bool)
  | readable
  | timeout
  | pollError
  /-- A read of the SSE thread; empty at the end of the stream or on an error. -/
  | read (chunk : Bytes)
  | throws
  | send
  | post (i : Nat) (o : Outcome)
  | destroy

def start (o : Options) : State := { sse := { retryMs := o.reconnectDelayMs } }

def wakeEventError : Error := Error.of .internalError (bytes "failed to create wake event")

def giveUpError (failures : Int32) : Error :=
  Error.of .internalError (bytes "SSE stream: giving up after " ++ decimalInt failures.toInt ++ bytes " failures")

/-! ## Steps -/

/-- `connect()`; the new wake event replaces the one before it. -/
def State.connect (o : Options) (s : State) (valid : Bool) : State :=
  if s.running then s
  else
    let s := { s with wake := some s.wakes, wakes := s.wakes + 1 }
    if !valid then { s with log := s.log ++ [.refused wakeEventError] }
    else if !o.openSseStream then { s with running := true }
    else if s.loop ≠ .absent then { s with running := true, end_ := some .terminate }
    else { s with running := true, loop := .head, log := s.log ++ [.opened] }

/-- The SSE thread is inside a handler. -/
def Loop.inHandler : Loop → Bool
  | .handling | .erring | .closing => true
  | _ => false

/-- `disconnect` up to its next section; `none` waits. -/
def State.advance (s : State) : Option State :=
  match s.stopping with
  | some (own, .delete) =>
    some { s with stopping := some (own, .signal), log := s.log ++ if s.sessionId = [] then [] else [.delete s.sessionId] }
  | some (own, .signal) => some { s with stopping := some (own, .join), signalled := s.signalled ++ s.wake.toList }
  | some (own, .join) =>
    if own || s.loop = .absent then some { s with stopping := some (own, .reset) }
    else if s.loop = .finished then some { s with stopping := some (own, .reset), loop := .absent }
    else none
  | some (own, .reset) => some { s with stopping := none, wake := none, log := s.log ++ [.stopped own] }
  | none => none

/-- `run_sse_once` has not got the head of the stream. -/
def Stream.inHead (x : Stream) : Bool :=
  match x.reader with
  | .head _ => true
  | .events _ => false

/-- What it returns when it leaves its loop. -/
def Stream.breaks (x : Stream) : Bool := !x.inHead && x.delivered

/-- A handler on the SSE thread is in `disconnect`. -/
def State.stopsItself (s : State) : Bool := s.stopping.any (·.1)

/-- The SSE thread goes on, with what it keeps and what it tells. -/
def State.goes (s : State) (loop : Loop) (sse : Stream) (told : List Event) : State :=
  { s with loop, sse, log := s.log ++ told }

/-- What `run_sse_once` takes from an event before it delivers it. -/
def Stream.take (x : Stream) (e : SseEvent) (events : List SseEvent) : Stream :=
  { x with retryMs := e.retryMs.getD x.retryMs, lastEventId := e.id.getD x.lastEventId, events, delivered := true }

/-- `sse_loop` and `run_sse_once` up to their next section. -/
def State.advanceLoop (o : Options) (s : State) : Option State :=
  match s.loop with
  | .head => some (s.goes (if s.running then .connecting else .finished) s.sse [])
  | .entering wake =>
    if wake.isSome && wake ≠ s.wake then some { s with end_ := some .freedWake } else some (s.goes (.polling wake) s.sse [])
  | .polling wake => if wake.any (· ∈ s.signalled) then some (s.goes (.returned s.sse.breaks) s.sse []) else none
  | .checking => some (s.goes (if s.running then .reading else .returned s.sse.breaks) s.sse [])
  | .delivering =>
    match s.sse.events with
    | [] => some (s.goes (.entering s.wake) s.sse [])
    | e :: events =>
      if e.data = [] then some (s.goes .delivering (s.sse.take e events) [])
      else some (s.goes .handling (s.sse.take e events) [.frame e.data])
  | .handling => if s.stopsItself then none else some (s.goes .delivering s.sse [])
  | .returned true => some (s.goes .resting { s.sse with failures := 0 } [])
  | .returned false =>
    if s.sessionId = [] then some (s.goes (.delaying 200) s.sse [])
    else if 0 < o.maxReconnectAttempts ∧ o.maxReconnectAttempts ≤ s.sse.failures + 1 then
      some (s.goes .erring { s.sse with failures := s.sse.failures + 1 } [.error (giveUpError (s.sse.failures + 1))])
    else some (s.goes .resting { s.sse with failures := s.sse.failures + 1 } [])
  | .resting => some (s.goes (if s.running then .delaying s.sse.retryMs else .finished) s.sse [])
  | .delaying ms =>
    match s.wake with
    | some wake => some (s.goes (.sleeping wake ms) s.sse [])
    | none => some { s with end_ := some .nullWake }
  | .sleeping wake _ => if wake ∈ s.signalled then some (s.goes .head s.sse []) else none
  | .erring => if s.stopsItself then none else some (s.goes .leaving s.sse [])
  | .leaving =>
    if s.sse.closeEmitted then some (s.goes .finished s.sse [])
    else some (s.goes .closing { s.sse with closeEmitted := true } [.close])
  | .closing => if s.stopsItself then none else some (s.goes .finished s.sse [])
  | .absent | .connecting | .reading | .finished => none

/-- `poll_readable` returns without anything to read: `run_sse_once` leaves its loop, a delay is over. -/
def State.lapse (s : State) : Option State :=
  match s.loop with
  | .polling _ => some (s.goes (.returned s.sse.breaks) s.sse [])
  | .sleeping _ _ => some (s.goes .head s.sse [])
  | _ => none

/-- The stream's head is waited for 30 s, its events for ever; a delay may be negative. -/
def State.timesOut (s : State) : Bool :=
  match s.loop with
  | .polling _ => s.sse.inHead
  | .sleeping _ ms => 0 ≤ ms
  | _ => false

/-- `read_some` into a chunk of 8192, on the SSE thread. -/
def State.read (s : State) (chunk : Bytes) : State :=
  if chunk = [] then s.goes (.returned s.sse.breaks) s.sse []
  else
    match s.sse.reader with
    | .events parser =>
      s.goes .delivering { s.sse with reader := .events (parser.feed chunk).1, events := (parser.feed chunk).2 } []
    | .head buffer =>
      match parseHead false (buffer ++ chunk) with
      | .incomplete => s.goes (.entering s.wake) { s.sse with reader := .head (buffer ++ chunk) } []
      | .malformed _ => s.goes (.returned false) s.sse []
      | .parsed head consumed =>
        if head.status ≠ 200 ∨ head.headerContains (bytes "content-type") (bytes "text/event-stream") = false then
          s.goes (.returned false) s.sse []
        else
          let fed := ({} : SseParser).feed ((buffer ++ chunk).drop consumed)
          s.goes .delivering { s.sse with reader := .events fed.1, events := fed.2 } []

/-- `post_payload` up to its next section. -/
def State.advancePost (s : State) (o : Outcome) : Post → Option (State × Post)
  | .connecting =>
    match o with
    | .goes => some (s, .entering false s.wake)
    | .calls => some (s, .handling)
    | _ => none
  | .entering body wake =>
    match o with
    | .goes =>
      if wake.isSome && wake ≠ s.wake then some ({ s with end_ := some .freedWakePost }, .done) else some (s, .polling body wake)
    | _ => none
  | .polling body wake =>
    match o with
    | .goes => if wake.any (· ∈ s.signalled) then some (s, .done) else none
    | .readable => if wake.any (· ∈ s.signalled) then none else some (s, .checking body)
    | .ends => some (s, .done)
    | _ => none
  | .checking body =>
    match o with
    | .goes => some (s, if s.running then .reading body else .done)
    | _ => none
  | .reading body =>
    match o with
    | .replied head => if body then none else some ({ s with sessionId := ClientResume.capture head s.sessionId }, .captured head)
    | .more => some (s, .entering body s.wake)
    | .calls => some (s, .handling)
    | .ends => some (s, .done)
    | _ => none
  | .captured head =>
    match o with
    | .goes =>
      if head.status = 202 then some (s, .done)
      else if head.status = 200 then some (s, .reading true)
      else some ({ s with sessionId := ClientResume.expire head s.sessionId }, .handling)
    | _ => none
  | .handling =>
    match o with
    | .more => some (s, .entering true s.wake)
    | .ends => some (s, .done)
    | _ => none
  | .done => none

def step (o : Options) (s : State) (l : Label) : Option State :=
  if s.end_.isSome then none
  else
    match l with
    | .connect valid => if s.stopping.isSome && !s.stopsItself then none else some (s.connect o valid)
    | .disconnect own =>
      if own && !s.loop.inHandler then none
      else if s.running then
        some { s with running := false, stopping := some (own, .delete), log := s.log ++ [.stopping own] }
      else some s
    | .advance => s.advance
    | .loop => s.advanceLoop o
    | .connected ok =>
      if s.loop ≠ .connecting then none
      else if ok then
        some (s.goes (.entering s.wake) { s.sse with reader := .head [], delivered := false }
          [.get (ClientResume.getHeaders o.toHttpClientOptions s.sessionId s.sse.lastEventId)])
      else some (s.goes (.returned false) s.sse [])
    | .readable =>
      match s.loop with
      | .polling wake => if wake.any (· ∈ s.signalled) then none else some (s.goes .checking s.sse [])
      | _ => none
    | .timeout => if s.timesOut then s.lapse else none
    | .pollError => s.lapse
    | .read chunk => if s.loop = .reading ∧ chunk.length ≤ 8192 then some (s.read chunk) else none
    | .throws => if s.loop.inHandler && !s.stopsItself then some { s with end_ := some .escaped } else none
    | .send => some { s with posts := s.posts ++ [.connecting] }
    | .post i outcome => do
      let post ← s.posts[i]?
      let (s, post) ← s.advancePost outcome post
      pure { s with posts := s.posts.set i post }
    | .destroy =>
      if s.running || s.stopping.isSome then none
      else some { s with end_ := some (if s.loop = .absent then .destroyed else .terminate) }

/-! ## What a step does -/

/-- **The moves of the SSE thread**: where it goes, what it then keeps and what it tells. -/
inductive Move (o : Options) (s : State) : Loop → Stream → List Event → Prop
  | enter (loop : s.loop = .head) (running : s.running = true) : Move o s .connecting s.sse []
  | leave (loop : s.loop = .head ∨ s.loop = .resting) (running : s.running = false) : Move o s .finished s.sse []
  | request (loop : s.loop = .connecting) : Move o s (.entering s.wake) { s.sse with reader := .head [], delivered := false }
      [.get (ClientResume.getHeaders o.toHttpClientOptions s.sessionId s.sse.lastEventId)]
  | unreached (loop : s.loop = .connecting) : Move o s (.returned false) s.sse []
  | polls {wake : Option Nat} (loop : s.loop = .entering wake) : Move o s (.polling wake) s.sse []
  | ready {wake : Option Nat} (loop : s.loop = .polling wake) : Move o s .checking s.sse []
  | check (loop : s.loop = .checking) (running : s.running = true) : Move o s .reading s.sse []
  | breaks (loop : s.loop = .checking ∧ s.running = false ∨ s.loop = .reading ∨ ∃ wake, s.loop = .polling wake) :
      Move o s (.returned s.sse.breaks) s.sse []
  | more {buffer chunk : Bytes} (loop : s.loop = .reading) (reader : s.sse.reader = .head buffer)
      (incomplete : parseHead false (buffer ++ chunk) = .incomplete) :
      Move o s (.entering s.wake) { s.sse with reader := .head (buffer ++ chunk) } []
  | rejects (loop : s.loop = .reading) : Move o s (.returned false) s.sse []
  | streams {buffer chunk : Bytes} {head : HttpHead} {consumed : Nat} (loop : s.loop = .reading)
      (reader : s.sse.reader = .head buffer) (chunk_ : chunk.length ≤ 8192)
      (parsed : parseHead false (buffer ++ chunk) = .parsed head consumed) :
      Move o s .delivering { s.sse with
        reader := .events (({} : SseParser).feed ((buffer ++ chunk).drop consumed)).1
        events := (({} : SseParser).feed ((buffer ++ chunk).drop consumed)).2 } []
  | feeds {parser : SseParser} {chunk : Bytes} (loop : s.loop = .reading) (reader : s.sse.reader = .events parser)
      (chunk_ : chunk.length ≤ 8192) :
      Move o s .delivering { s.sse with reader := .events (parser.feed chunk).1, events := (parser.feed chunk).2 } []
  | drained (loop : s.loop = .delivering) (events : s.sse.events = []) : Move o s (.entering s.wake) s.sse []
  | passes {e : SseEvent} {events : List SseEvent} (loop : s.loop = .delivering) (events_ : s.sse.events = e :: events)
      (empty : e.data = []) : Move o s .delivering (s.sse.take e events) []
  | hands {e : SseEvent} {events : List SseEvent} (loop : s.loop = .delivering) (events_ : s.sse.events = e :: events)
      (data : e.data ≠ []) : Move o s .handling (s.sse.take e events) [.frame e.data]
  | handled (loop : s.loop = .handling) (own : s.stopsItself = false) : Move o s .delivering s.sse []
  | succeeds (loop : s.loop = .returned true) : Move o s .resting { s.sse with failures := 0 } []
  | warms (loop : s.loop = .returned false) (session : s.sessionId = []) : Move o s (.delaying 200) s.sse []
  | givesUp (loop : s.loop = .returned false) (session : s.sessionId ≠ [])
      (reached : 0 < o.maxReconnectAttempts ∧ o.maxReconnectAttempts ≤ s.sse.failures + 1) :
      Move o s .erring { s.sse with failures := s.sse.failures + 1 } [.error (giveUpError (s.sse.failures + 1))]
  | fails (loop : s.loop = .returned false) (session : s.sessionId ≠ [])
      (below : ¬ (0 < o.maxReconnectAttempts ∧ o.maxReconnectAttempts ≤ s.sse.failures + 1)) :
      Move o s .resting { s.sse with failures := s.sse.failures + 1 } []
  | rests (loop : s.loop = .resting) (running : s.running = true) : Move o s (.delaying s.sse.retryMs) s.sse []
  | sleeps {ms : Int32} {wake : Nat} (loop : s.loop = .delaying ms) (there : s.wake = some wake) :
      Move o s (.sleeping wake ms) s.sse []
  | wakes {wake : Nat} {ms : Int32} (loop : s.loop = .sleeping wake ms) : Move o s .head s.sse []
  | told (loop : s.loop = .erring) (own : s.stopsItself = false) : Move o s .leaving s.sse []
  | silent (loop : s.loop = .leaving) (emitted : s.sse.closeEmitted = true) : Move o s .finished s.sse []
  | closes (loop : s.loop = .leaving) (fresh : s.sse.closeEmitted = false) :
      Move o s .closing { s.sse with closeEmitted := true } [.close]
  | closed (loop : s.loop = .closing) (own : s.stopsItself = false) : Move o s .finished s.sse []

/-- **The sections of `disconnect`.** -/
inductive Section (s : State) (own : Bool) : Pc → State → Prop
  | delete : Section s own .delete
      { s with stopping := some (own, .signal), log := s.log ++ if s.sessionId = [] then [] else [.delete s.sessionId] }
  | signal : Section s own .signal { s with stopping := some (own, .join), signalled := s.signalled ++ s.wake.toList }
  | pass (free : own = true ∨ s.loop = .absent) : Section s own .join { s with stopping := some (own, .reset) }
  | join (other : own = false) (loop : s.loop = .finished) :
      Section s own .join { s with stopping := some (own, .reset), loop := .absent }
  | reset : Section s own .reset { s with stopping := none, wake := none, log := s.log ++ [.stopped own] }

/-- What ends the transport or the process. -/
inductive Ends (s : State) : End → Prop
  | destroyed (stopped : s.running = false ∧ s.stopping = none) (loop : s.loop = .absent) : Ends s .destroyed
  | terminate (stopped : s.running = false ∧ s.stopping = none) (loop : s.loop ≠ .absent) : Ends s .terminate
  | escaped : Ends s .escaped
  | nullWake (ms : Int32) (loop : s.loop = .delaying ms) (gone : s.wake = none) : Ends s .nullWake
  | freedWake (wake : Nat) (loop : s.loop = .entering (some wake)) (freed : s.wake ≠ some wake) : Ends s .freedWake

/-- **The kinds of steps.** -/
inductive Step (o : Options) (s : State) (l : Label) (t : State) : Prop
  | ignored (label : (∃ valid, l = .connect valid) ∨ ∃ own, l = .disconnect own) (result : t = s)
  | refused (label : l = .connect false) (running : s.running = false) (outside : ∀ pc, s.stopping ≠ some (false, pc))
      (result : t = { s with wake := some s.wakes, wakes := s.wakes + 1, log := s.log ++ [.refused wakeEventError] })
  | terminates (label : l = .connect true) (running : s.running = false) (loop : s.loop ≠ .absent)
      (result : t = { s with wake := some s.wakes, wakes := s.wakes + 1, running := true, end_ := some .terminate })
  | unwatched (label : l = .connect true) (running : s.running = false) (outside : ∀ pc, s.stopping ≠ some (false, pc))
      (closed : o.openSseStream = false) (result : t = { s with wake := some s.wakes, wakes := s.wakes + 1, running := true })
  | opens (label : l = .connect true) (running : s.running = false) (outside : ∀ pc, s.stopping ≠ some (false, pc))
      (open_ : o.openSseStream = true) (loop : s.loop = .absent) (result : t = { s with
        wake := some s.wakes, wakes := s.wakes + 1, running := true, loop := .head, log := s.log ++ [.opened] })
  | stops (own : Bool) (label : l = .disconnect own) (inside : own = true → s.loop.inHandler = true) (running : s.running = true)
      (result : t = { s with running := false, stopping := some (own, .delete), log := s.log ++ [.stopping own] })
  | section_ (own : Bool) (pc : Pc) (label : l = .advance) (at_ : s.stopping = some (own, pc)) (taken : Section s own pc t)
  | moves (loop : Loop) (sse : Stream) (told : List Event) (move : Move o s loop sse told) (result : t = s.goes loop sse told)
  | ends (end_ : End) (ends : Ends s end_) (result : t = { s with end_ := some end_ })
  | posts (label : l = .send ∨ ∃ i outcome, l = .post i outcome) (posts : List Post) (sessionId : Bytes)
      (entering : ∀ body wake, .entering body wake ∈ posts → .entering body wake ∈ s.posts ∨ wake = s.wake)
      (result : t = { s with posts, sessionId })
  | freed (i : Nat) (body : Bool) (wake : Nat) (post : s.posts[i]? = some (.entering body (some wake))) (gone : s.wake ≠ some wake)
      (posts : List Post) (result : t = { s with posts, end_ := some .freedWakePost })

section Steps

variable {o : Options} {s t : State} {l : Label}

theorem connect_cases (valid : Bool) (hout : ∀ pc, s.stopping ≠ some (false, pc)) : Step o s (.connect valid) (s.connect o valid) := by
  unfold State.connect
  by_cases hrunning : s.running = true
  · rw [if_pos hrunning]
    exact .ignored (.inl ⟨valid, rfl⟩) rfl
  rw [if_neg hrunning]
  have hstopped : s.running = false := Bool.not_eq_true _ ▸ hrunning
  dsimp only
  cases valid with
  | false => exact .refused rfl hstopped hout rfl
  | true =>
    rw [if_neg (by decide)]
    by_cases hopen : o.openSseStream = true
    · rw [if_neg (by rw [hopen]; decide)]
      by_cases habsent : s.loop = .absent
      · rw [if_neg (not_not_intro habsent)]
        exact .opens rfl hstopped hout hopen habsent rfl
      · rw [if_pos habsent]
        exact .terminates rfl hstopped habsent rfl
    · have hclosed : o.openSseStream = false := Bool.not_eq_true _ ▸ hopen
      rw [if_pos (by rw [hclosed]; rfl)]
      exact .unwatched rfl hstopped hout hclosed rfl

theorem advance_cases (h : s.advance = some t) : ∃ own pc, s.stopping = some (own, pc) ∧ Section s own pc t := by
  unfold State.advance at h
  split at h
  · rename_i own hat
    obtain rfl := Option.some.inj h
    exact ⟨own, _, hat, .delete⟩
  · rename_i own hat
    obtain rfl := Option.some.inj h
    exact ⟨own, _, hat, .signal⟩
  · rename_i own hat
    refine ⟨own, _, hat, ?_⟩
    split at h
    · rename_i hfree
      obtain rfl := Option.some.inj h
      exact .pass (by simpa using hfree)
    · rename_i hother
      split at h
      · rename_i hfinished
        obtain rfl := Option.some.inj h
        exact .join (by simp at hother; exact hother.1) hfinished
      · cases h
  · rename_i own hat
    obtain rfl := Option.some.inj h
    exact ⟨own, _, hat, .reset⟩
  · cases h

theorem advanceLoop_cases (h : s.advanceLoop o = some t) : Step o s .loop t := by
  unfold State.advanceLoop at h
  split at h
  · rename_i hloop
    obtain rfl := Option.some.inj h
    by_cases hrunning : s.running = true
    · rw [if_pos hrunning]
      exact .moves _ _ _ (.enter hloop hrunning) rfl
    · rw [if_neg hrunning]
      exact .moves _ _ _ (.leave (.inl hloop) (Bool.not_eq_true _ ▸ hrunning)) rfl
  · rename_i wake hloop
    split at h
    · rename_i hfreed
      obtain rfl := Option.some.inj h
      cases wake with
      | none => cases hfreed
      | some wake =>
        refine .ends _ (.freedWake wake hloop fun heq => ?_) rfl
        rw [heq] at hfreed
        simp at hfreed
    · exact .moves _ _ _ (.polls hloop) (Option.some.inj h).symm
  · rename_i wake hloop
    split at h
    · exact .moves _ _ _ (.breaks (.inr (.inr ⟨wake, hloop⟩))) (Option.some.inj h).symm
    · cases h
  · rename_i hloop
    obtain rfl := Option.some.inj h
    by_cases hrunning : s.running = true
    · rw [if_pos hrunning]
      exact .moves _ _ _ (.check hloop hrunning) rfl
    · rw [if_neg hrunning]
      exact .moves _ _ _ (.breaks (.inl ⟨hloop, Bool.not_eq_true _ ▸ hrunning⟩)) rfl
  · rename_i hloop
    split at h
    · rename_i hevents
      exact .moves _ _ _ (.drained hloop hevents) (Option.some.inj h).symm
    · rename_i e events hevents
      split at h
      · rename_i hempty
        exact .moves _ _ _ (.passes hloop hevents hempty) (Option.some.inj h).symm
      · rename_i hdata
        exact .moves _ _ _ (.hands hloop hevents hdata) (Option.some.inj h).symm
  · rename_i hloop
    split at h
    · cases h
    · rename_i hown
      exact .moves _ _ _ (.handled hloop (by simpa using hown)) (Option.some.inj h).symm
  · rename_i hloop
    exact .moves _ _ _ (.succeeds hloop) (Option.some.inj h).symm
  · rename_i hloop
    split at h
    · rename_i hempty
      exact .moves _ _ _ (.warms hloop hempty) (Option.some.inj h).symm
    · rename_i hsession
      split at h
      · rename_i hreached
        exact .moves _ _ _ (.givesUp hloop hsession hreached) (Option.some.inj h).symm
      · rename_i hbelow
        exact .moves _ _ _ (.fails hloop hsession hbelow) (Option.some.inj h).symm
  · rename_i hloop
    obtain rfl := Option.some.inj h
    by_cases hrunning : s.running = true
    · rw [if_pos hrunning]
      exact .moves _ _ _ (.rests hloop hrunning) rfl
    · rw [if_neg hrunning]
      exact .moves _ _ _ (.leave (.inr hloop) (Bool.not_eq_true _ ▸ hrunning)) rfl
  · rename_i ms hloop
    split at h
    · rename_i wake hwake
      exact .moves _ _ _ (.sleeps hloop hwake) (Option.some.inj h).symm
    · rename_i hwake
      exact .ends _ (.nullWake ms hloop hwake) (Option.some.inj h).symm
  · rename_i wake ms hloop
    split at h
    · exact .moves _ _ _ (.wakes hloop) (Option.some.inj h).symm
    · cases h
  · rename_i hloop
    split at h
    · cases h
    · rename_i hown
      exact .moves _ _ _ (.told hloop (by simpa using hown)) (Option.some.inj h).symm
  · rename_i hloop
    split at h
    · rename_i hemitted
      exact .moves _ _ _ (.silent hloop hemitted) (Option.some.inj h).symm
    · rename_i hfresh
      exact .moves _ _ _ (.closes hloop (by simpa using hfresh)) (Option.some.inj h).symm
  · rename_i hloop
    split at h
    · cases h
    · rename_i hown
      exact .moves _ _ _ (.closed hloop (by simpa using hown)) (Option.some.inj h).symm
  all_goals cases h

theorem lapse_cases (h : s.lapse = some t) : Step o s l t := by
  unfold State.lapse at h
  split at h
  · rename_i wake hloop
    exact .moves _ _ _ (.breaks (.inr (.inr ⟨wake, hloop⟩))) (Option.some.inj h).symm
  · rename_i wake ms hloop
    exact .moves _ _ _ (.wakes hloop) (Option.some.inj h).symm
  · cases h

theorem read_cases {chunk : Bytes} (hloop : s.loop = .reading) (hchunk : chunk.length ≤ 8192) : Step o s l (s.read chunk) := by
  unfold State.read
  split
  · exact .moves _ _ _ (.breaks (.inr (.inl hloop))) rfl
  · split
    · rename_i parser hreader
      exact .moves _ _ _ (.feeds hloop hreader hchunk) rfl
    · rename_i buffer hreader
      split
      · rename_i hparse
        exact .moves _ _ _ (.more hloop hreader hparse) rfl
      · exact .moves _ _ _ (.rejects hloop) rfl
      · rename_i head consumed hparse
        split
        · exact .moves _ _ _ (.rejects hloop) rfl
        · exact .moves _ _ _ (.streams hloop hreader hchunk hparse) rfl

/-- A section of a `post_payload` changes no more than the session id, and polls with `wake_`, unless it was about to poll an
event that is destroyed. -/
theorem advancePost_cases {outcome : Outcome} {post next : Post} (h : s.advancePost outcome post = some (t, next)) :
    (∃ sessionId, t = { s with sessionId } ∧ ∀ body wake, next = .entering body wake → wake = s.wake) ∨
      ∃ body wake, post = .entering body (some wake) ∧ s.wake ≠ some wake ∧ t = { s with end_ := some .freedWakePost } := by
  have hsame : ∀ {next : Post}, (∀ body wake, next = .entering body wake → wake = s.wake) →
      ∃ sessionId, s = { s with sessionId } ∧ ∀ body wake, next = .entering body wake → wake = s.wake :=
    fun hnext => ⟨s.sessionId, rfl, hnext⟩
  cases post with
  | connecting =>
    cases outcome with
    | goes =>
      cases h
      exact .inl (hsame fun _ _ heq => by cases heq; rfl)
    | calls =>
      cases h
      exact .inl (hsame fun _ _ heq => by cases heq)
    | _ => cases h
  | entering body wake =>
    cases outcome with
    | goes =>
      simp only [State.advancePost] at h
      split at h
      · rename_i hfreed
        cases h
        cases wake with
        | none => cases hfreed
        | some wake =>
          refine .inr ⟨body, wake, rfl, fun heq => ?_, rfl⟩
          rw [heq] at hfreed
          simp at hfreed
      · cases h
        exact .inl (hsame fun _ _ heq => by cases heq)
    | _ => cases h
  | polling body wake =>
    cases outcome with
    | goes =>
      simp only [State.advancePost] at h
      split at h
      · cases h
        exact .inl (hsame fun _ _ heq => by cases heq)
      · cases h
    | readable =>
      simp only [State.advancePost] at h
      split at h
      · cases h
      · cases h
        exact .inl (hsame fun _ _ heq => by cases heq)
    | ends =>
      cases h
      exact .inl (hsame fun _ _ heq => by cases heq)
    | _ => cases h
  | checking body =>
    cases outcome with
    | goes =>
      cases h
      refine .inl (hsame fun _ _ heq => ?_)
      split at heq <;> cases heq
    | _ => cases h
  | reading body =>
    cases outcome with
    | replied head =>
      simp only [State.advancePost] at h
      split at h
      · cases h
      · cases h
        exact .inl ⟨_, rfl, fun _ _ heq => by cases heq⟩
    | more =>
      cases h
      exact .inl (hsame fun _ _ heq => by cases heq; rfl)
    | calls =>
      cases h
      exact .inl (hsame fun _ _ heq => by cases heq)
    | ends =>
      cases h
      exact .inl (hsame fun _ _ heq => by cases heq)
    | _ => cases h
  | captured head =>
    cases outcome with
    | goes =>
      simp only [State.advancePost] at h
      split at h
      · cases h
        exact .inl (hsame fun _ _ heq => by cases heq)
      · split at h
        · cases h
          exact .inl (hsame fun _ _ heq => by cases heq)
        · cases h
          exact .inl ⟨_, rfl, fun _ _ heq => by cases heq⟩
    | _ => cases h
  | handling =>
    cases outcome with
    | more =>
      cases h
      exact .inl (hsame fun _ _ heq => by cases heq; rfl)
    | ends =>
      cases h
      exact .inl (hsame fun _ _ heq => by cases heq)
    | _ => cases h
  | done => cases h

theorem step_cases (h : step o s l = some t) : s.end_ = none ∧ Step o s l t := by
  unfold step at h
  split at h
  · cases h
  rename_i hend
  refine ⟨by simpa using hend, ?_⟩
  cases l with
  | connect valid =>
    dsimp only at h
    split at h
    · cases h
    · rename_i hout
      obtain rfl := Option.some.inj h
      refine connect_cases valid fun pc heq => hout ?_
      rw [State.stopsItself, heq]
      rfl
  | disconnect own =>
    dsimp only at h
    split at h
    · cases h
    rename_i hinside
    split at h
    · rename_i hrunning
      refine .stops own rfl (fun heq => ?_) hrunning (Option.some.inj h).symm
      rw [heq] at hinside
      simpa using hinside
    · exact .ignored (.inr ⟨own, rfl⟩) (Option.some.inj h).symm
  | advance =>
    obtain ⟨own, pc, hat, hsection⟩ := advance_cases h
    exact .section_ own pc rfl hat hsection
  | loop => exact advanceLoop_cases h
  | connected ok =>
    dsimp only at h
    split at h
    · cases h
    rename_i hloop
    split at h
    · exact .moves _ _ _ (.request (not_not.1 hloop)) (Option.some.inj h).symm
    · exact .moves _ _ _ (.unreached (not_not.1 hloop)) (Option.some.inj h).symm
  | readable =>
    dsimp only at h
    split at h
    · rename_i wake hloop
      split at h
      · cases h
      · exact .moves _ _ _ (.ready hloop) (Option.some.inj h).symm
    · cases h
  | timeout =>
    dsimp only at h
    split at h
    · exact lapse_cases h
    · cases h
  | pollError => exact lapse_cases h
  | read chunk =>
    dsimp only at h
    split at h
    · rename_i hread
      obtain rfl := Option.some.inj h
      exact read_cases hread.1 hread.2
    · cases h
  | throws =>
    dsimp only at h
    split at h
    · exact .ends _ .escaped (Option.some.inj h).symm
    · cases h
  | send =>
    refine .posts (.inl rfl) _ s.sessionId (fun body wake hmem => ?_) (Option.some.inj h).symm
    exact .inl (by simpa using hmem)
  | post i outcome =>
    simp only [Option.bind_eq_bind, Option.bind_eq_some_iff] at h
    obtain ⟨post, hpost, ⟨u, next⟩, hadv, hresult⟩ := h
    obtain rfl := Option.some.inj hresult
    rcases advancePost_cases hadv with ⟨sessionId, rfl, hnext⟩ | ⟨body, wake, rfl, hgone, rfl⟩
    · refine .posts (.inr ⟨i, outcome, rfl⟩) _ sessionId (fun body wake hmem => ?_) rfl
      rcases List.mem_or_eq_of_mem_set hmem with hmem | heq
      · exact .inl hmem
      · exact .inr (hnext body wake heq.symm)
    · exact .freed i body wake hpost hgone _ rfl
  | destroy =>
    dsimp only at h
    split at h
    · cases h
    · rename_i hstopped
      have hquiet : s.running = false ∧ s.stopping = none := by simpa using hstopped
      obtain rfl := Option.some.inj h
      by_cases habsent : s.loop = .absent
      · rw [if_pos habsent]
        exact .ends _ (.destroyed hquiet habsent) rfl
      · rw [if_neg habsent]
        exact .ends _ (.terminate hquiet habsent) rfl

end Steps

end HttpClientTransport
end Mcp
