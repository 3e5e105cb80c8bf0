import McpSdk.LineTransport
import McpSdk.Lib.Run
/-!
# StdioTransport — the reader thread and the calls that stop it

`StdioTransport::connect` starts a thread that polls the input together with a wake event, reads, cuts lines and hands
them on; `disconnect` clears `running_`, signals the event, joins the thread, resets the event and closes the descriptors.
`disconnect` may be called by a handler on the reader thread, and by one other thread at a time; the peer may write or
close its end at any time.  `connect` is not called while another thread is in `disconnect`.
-/
namespace Mcp
namespace StdioTransport

/-! ## State -/

/-- What ends the process, or would have. -/
inductive Fault
  /-- `std::terminate`, from a joinable thread that is assigned to. -/
  | terminate
  /-- `std::terminate`, from an exception that leaves the thread. -/
  | escaped
  /-- `wake_->signal()` on a null pointer. -/
  | nullWake
  /-- `poll_readable` on a wake event that was destroyed. -/
  | freedWake
  /-- A read of the input after it was closed. -/
  | closedRead
  deriving DecidableEq, Repr

inductive Event
  /-- A `connect` that started the thread. -/
  | opened
  /-- The error of a `connect` without a wake event. -/
  | refused (e : Error)
  /-- The calls on the reader thread: `process_line`, the error handler, the close handler. -/
  | line (text : Bytes)
  | error (e : Error)
  | close
  /-- `disconnect` has returned to a thread that is not the reader. -/
  | stopped

/-- Where the reader thread is; `absent` is not joinable. -/
inductive Reader
  | absent
  /-- The loop's condition. -/
  | head
  /-- Inside `poll_readable`, on the event that `wake_` was. -/
  | polling (wake : Option Nat)
  | woken
  | reading
  | readFailed
  /-- The inner loop's condition. -/
  | cutting
  /-- Inside `process_line`. -/
  | handling
  /-- Inside the error handler. -/
  | erring
  | leaving
  /-- Inside the close handler. -/
  | closing
  | finished
  deriving DecidableEq, Repr

/-- The sections of `disconnect` past the exchange of `running_`. -/
inductive Pc
  | check (wasRunning : Bool)
  | signal
  | join
  | reset
  | closeFds
  deriving DecidableEq, Repr

structure State where
  running : Bool := false
  /-- `wake_`, by the number of the event it holds. -/
  wake : Option Nat := none
  wakes : Nat := 0
  signalled : List Nat := []
  inOpen : Bool := true
  reader : Reader := .absent
  buffer : Bytes := []
  /-- The `disconnect` that a handler on the reader thread has called. -/
  own : Option Pc := none
  /-- The `disconnect` of another thread. -/
  outside : Option Pc := none
  /-- What the peer has written, and what of it is not read yet. -/
  written : Bytes := []
  incoming : Bytes := []
  /-- The peer has closed its end. -/
  ended : Bool := false
  /-- What each connection has read. -/
  taken : List Bytes := []
  events : List Event := []
  fault : Option Fault := none

inductive Label
  /-- `valid`: the wake event could be created. -/
  | connect (valid : Bool)
  | disconnect
  | advance
  | disconnectOwn
  | advanceOwn
  /-- The reader thread goes on; a handler it is in returns. -/
  | reader
  | read (size : Nat)
  | pollError
  | readError
  | throws
  | peerWrites (data : Bytes)
  | peerCloses
  deriving DecidableEq, Repr

def wakeEventError : Error := Error.of .internalError (bytes "failed to create wake event")
def pollFailedError : Error := Error.of .internalError (bytes "stdio poll failed")
def readFailedError : Error := Error.of .internalError (bytes "stdio read failed")

/-! ## Steps -/

def State.log (s : State) (e : Event) : State := { s with events := s.events ++ [e] }

/-- `connect()`; the new wake event replaces the one before it. -/
def State.connect (s : State) (valid : Bool) : State :=
  if s.running then s
  else
    let s := { s with wake := some s.wakes, wakes := s.wakes + 1 }
    if !valid then s.log (.refused wakeEventError)
    else if s.reader ≠ .absent then { s with running := true, fault := some .terminate }
    else { s with running := true, reader := .head, buffer := [], taken := s.taken ++ [[]] }.log .opened

/-- `disconnect` up to its next section; `none` waits.  The descriptors are closed if the transport owns them. -/
def State.advance (ownsFds : Bool) (s : State) (own : Bool) : Pc → Option (State × Option Pc)
  | .check wasRunning => some (s, some (if wasRunning && s.wake.isSome then .signal else .join))
  | .signal =>
    match s.wake with
    | some wake => some ({ s with signalled := s.signalled ++ [wake] }, some .join)
    | none => some ({ s with fault := some .nullWake }, some .join)
  | .join =>
    if own || s.reader = .absent then some (s, some .reset)
    else if s.reader = .finished then some ({ s with reader := .absent }, some .reset)
    else none
  | .reset => some ({ s with wake := none }, some .closeFds)
  | .closeFds => some ({ s with inOpen := s.inOpen && !ownsFds }, none)

/-- `poll_readable` on the input and a wake event, or `none` while it blocks: a signalled event goes first. -/
def State.poll (s : State) (wake : Option Nat) : Option Bool :=
  if wake.any (· ∈ s.signalled) then some false
  else if s.inOpen && (s.incoming ≠ [] || s.ended) then some true
  else none

/-- The reader thread is inside a handler. -/
def Reader.inHandler : Reader → Bool
  | .handling | .erring | .closing => true
  | _ => false

/-- `read_loop` up to its next section. -/
def State.advanceReader (s : State) : Option State :=
  match s.reader with
  | .head => some { s with reader := if s.running then .polling s.wake else .leaving }
  | .polling wake =>
    if wake.isSome && wake ≠ s.wake then some { s with fault := some .freedWake }
    else (s.poll wake).map fun ready => { s with reader := if ready then .reading else .woken }
  | .woken => some { s with reader := if s.running then .head else .finished }
  | .readFailed =>
    some (if s.running then { s with reader := .erring }.log (.error readFailedError) else { s with reader := .leaving })
  | .cutting =>
    match Search.indexOf [10] s.buffer with
    | some pos =>
      some ({ s with reader := .handling, buffer := s.buffer.drop (pos + 1) }.log (.line (stripCr (s.buffer.take pos))))
    | none => some { s with reader := .head }
  | .handling => if s.own.isSome then none else some { s with reader := .cutting }
  | .erring => if s.own.isSome then none else some { s with reader := .leaving }
  | .leaving => some ({ s with running := false, reader := .closing }.log .close)
  | .closing => if s.own.isSome then none else some { s with reader := .finished }
  | .absent | .reading | .finished => none

/-- `read_some` of `size` bytes into a chunk of 4096, 0 at the end of the input. -/
def State.read (s : State) (size : Nat) : Option State :=
  if s.reader ≠ .reading then none
  else if !s.inOpen then some { s with fault := some .closedRead }
  else if size = 0 then
    if s.incoming = [] ∧ s.ended then some { s with reader := .leaving } else none
  else if size ≤ 4096 ∧ size ≤ s.incoming.length then
    some { s with
      reader := .cutting, buffer := s.buffer ++ s.incoming.take size, incoming := s.incoming.drop size
      taken := s.taken.dropLast ++ [s.taken.getLastD [] ++ s.incoming.take size] }
  else none

def step (ownsFds : Bool) (s : State) (l : Label) : Option State :=
  if s.fault.isSome then none
  else
    match l with
    | .connect valid => if s.outside.isSome then none else some (s.connect valid)
    | .disconnect => if s.outside.isSome then none else some { s with running := false, outside := some (.check s.running) }
    | .advance =>
      match s.outside with
      | some pc =>
        (s.advance ownsFds false pc).map fun r =>
          if r.2 = none then { r.1 with outside := none }.log .stopped else { r.1 with outside := r.2 }
      | none => none
    | .disconnectOwn =>
      if s.own.isSome || !s.reader.inHandler then none else some { s with running := false, own := some (.check s.running) }
    | .advanceOwn =>
      match s.own with
      | some pc => (s.advance ownsFds true pc).map fun r => { r.1 with own := r.2 }
      | none => none
    | .reader => s.advanceReader
    | .read size => s.read size
    | .pollError =>
      match s.reader with
      | .polling _ => some ({ s with reader := .erring }.log (.error pollFailedError))
      | _ => none
    | .readError => if s.reader = .reading then some { s with reader := .readFailed } else none
    | .throws => if s.reader.inHandler && s.own.isNone then some { s with fault := some .escaped } else none
    | .peerWrites data => if s.ended then none else some { s with written := s.written ++ data, incoming := s.incoming ++ data }
    | .peerCloses => some { s with ended := true }

/-! ## What a step does -/

/-- The `disconnect` on the reader thread or the one of another thread. -/
def State.stopping (s : State) (own : Bool) : Option Pc := if own then s.own else s.outside

/-- A `disconnect` is at its next section; its return to another thread is on record. -/
def State.stoppedAt (s : State) (own : Bool) (pc : Option Pc) : State :=
  if own then { s with own := pc }
  else if pc = none then { s with outside := none }.log .stopped
  else { s with outside := pc }

theorem State.stoppedAt_fault (s : State) (own : Bool) (pc : Option Pc) : (s.stoppedAt own pc).fault = s.fault := by
  unfold State.stoppedAt
  split
  · rfl
  · split <;> rfl

/-- **The moves of the reader thread alone.** -/
inductive Move (s : State) : Reader → Prop
  | enter (reader : s.reader = .head) (running : s.running = true) : Move s (.polling s.wake)
  | leave (reader : s.reader = .head ∨ s.reader = .readFailed) (running : s.running = false) : Move s .leaving
  | recover (reader : s.reader = .erring) (own : s.own = none) : Move s .leaving
  | eof (reader : s.reader = .reading) : Move s .leaving
  | ready (wake : Option Nat) (reader : s.reader = .polling wake) (poll : s.poll wake = some true) : Move s .reading
  | woken (wake : Option Nat) (reader : s.reader = .polling wake) (poll : s.poll wake = some false) : Move s .woken
  | again (reader : s.reader = .woken) (running : s.running = true) : Move s .head
  | silent (reader : s.reader = .woken) (running : s.running = false) : Move s .finished
  | drained (reader : s.reader = .cutting) (none_ : Search.indexOf [10] s.buffer = none) : Move s .head
  | handled (reader : s.reader = .handling) (own : s.own = none) : Move s .cutting
  | closed (reader : s.reader = .closing) (own : s.own = none) : Move s .finished
  | fail (reader : s.reader = .reading) : Move s .readFailed

/-- What the faults of the reader thread come from. -/
inductive Faulty (s : State) : Fault → Prop
  | freed (wake : Nat) (reader : s.reader = .polling (some wake)) (freed : s.wake ≠ some wake) : Faulty s .freedWake
  | closed (reader : s.reader = .reading) (closed : s.inOpen = false) : Faulty s .closedRead
  | escaped : Faulty s .escaped

/-- **The kinds of steps.** -/
inductive Step (ownsFds : Bool) (s : State) (l : Label) (t : State) : Prop
  | ignored (running : s.running = true) (result : t = s)
  | refused (running : s.running = false) (outside : s.outside = none)
      (result : t = { s with wake := some s.wakes, wakes := s.wakes + 1 }.log (.refused wakeEventError))
  | terminates (result : t = { s with wake := some s.wakes, wakes := s.wakes + 1, running := true, fault := some .terminate })
  | opens (running : s.running = false) (outside : s.outside = none) (reader : s.reader = .absent)
      (result : t = { s with
        wake := some s.wakes, wakes := s.wakes + 1, running := true, reader := .head, buffer := []
        taken := s.taken ++ [[]] }.log .opened)
  | stops (label : l = .disconnect) (outside : s.outside = none)
      (result : t = { s with running := false, outside := some (.check s.running) })
  | stopsOwn (label : l = .disconnectOwn) (own : s.own = none) (reader : s.reader.inHandler = true)
      (result : t = { s with running := false, own := some (.check s.running) })
  | section_ (own : Bool) (label : l = if own then .advanceOwn else .advance) (pc : Pc) (at_ : s.stopping own = some pc)
      (u : State) (next : Option Pc) (adv : s.advance ownsFds own pc = some (u, next)) (result : t = u.stoppedAt own next)
  | moves (reader : Reader) (move : Move s reader) (result : t = { s with reader })
  | faults (fault : Fault) (faulty : Faulty s fault) (result : t = { s with fault := some fault })
  | errs (e : Error) (reader : s.reader = .readFailed ∨ ∃ wake, s.reader = .polling wake)
      (result : t = { s with reader := .erring }.log (.error e))
  | cuts (pos : Nat) (reader : s.reader = .cutting) (found : Search.indexOf [10] s.buffer = some pos)
      (result : t = { s with reader := .handling, buffer := s.buffer.drop (pos + 1) }.log (.line (stripCr (s.buffer.take pos))))
  | closes (reader : s.reader = .leaving) (result : t = { s with running := false, reader := .closing }.log .close)
  | reads (size : Nat) (reader : s.reader = .reading) (chunk : size ≤ 4096)
      (result : t = { s with
        reader := .cutting, buffer := s.buffer ++ s.incoming.take size, incoming := s.incoming.drop size
        taken := s.taken.dropLast ++ [s.taken.getLastD [] ++ s.incoming.take size] })
  | writes (data : Bytes) (label : l = .peerWrites data) (result : t = { s with written := s.written ++ data, incoming := s.incoming ++ data })
  | peerCloses (label : l = .peerCloses) (result : t = { s with ended := true })

section Steps

variable {ownsFds : Bool} {s t : State} {l : Label}

theorem connect_cases (valid : Bool) (hout : s.outside = none) : Step ownsFds s l (s.connect valid) := by
  unfold State.connect
  by_cases hrunning : s.running = true
  · rw [if_pos hrunning]
    exact .ignored hrunning rfl
  rw [if_neg hrunning]
  have hstopped : s.running = false := Bool.not_eq_true _ ▸ hrunning
  dsimp only
  cases valid with
  | false => exact .refused hstopped hout rfl
  | true =>
    by_cases habsent : s.reader = .absent
    · rw [if_neg (by decide), if_neg (not_not_intro habsent)]
      exact .opens hstopped hout habsent rfl
    · rw [if_neg (by decide), if_pos habsent]
      exact .terminates rfl

theorem advanceReader_cases (h : s.advanceReader = some t) : Step ownsFds s .reader t := by
  unfold State.advanceReader at h
  split at h
  · rename_i hreader
    obtain rfl := Option.some.inj h
    by_cases hrunning : s.running = true
    · rw [if_pos hrunning]
      exact .moves _ (.enter hreader hrunning) rfl
    · rw [if_neg hrunning]
      exact .moves _ (.leave (.inl hreader) (Bool.not_eq_true _ ▸ hrunning)) rfl
  · rename_i wake hreader
    split at h
    · rename_i hfreed
      obtain rfl := Option.some.inj h
      cases wake with
      | none => cases hfreed
      | some wake =>
        refine .faults _ (.freed wake hreader fun heq => ?_) rfl
        rw [heq] at hfreed
        simp at hfreed
    · obtain ⟨ready, hpoll, rfl⟩ := Option.map_eq_some_iff.1 h
      cases ready with
      | true => exact .moves _ (.ready wake hreader hpoll) rfl
      | false => exact .moves _ (.woken wake hreader hpoll) rfl
  · rename_i hreader
    obtain rfl := Option.some.inj h
    by_cases hrunning : s.running = true
    · rw [if_pos hrunning]
      exact .moves _ (.again hreader hrunning) rfl
    · rw [if_neg hrunning]
      exact .moves _ (.silent hreader (Bool.not_eq_true _ ▸ hrunning)) rfl
  · rename_i hreader
    obtain rfl := Option.some.inj h
    by_cases hrunning : s.running = true
    · rw [if_pos hrunning]
      exact .errs _ (.inl hreader) rfl
    · rw [if_neg hrunning]
      exact .moves _ (.leave (.inr hreader) (Bool.not_eq_true _ ▸ hrunning)) rfl
  · rename_i hreader
    split at h
    · rename_i pos hfound
      exact .cuts pos hreader hfound (Option.some.inj h).symm
    · rename_i hnone
      exact .moves _ (.drained hreader hnone) (Option.some.inj h).symm
  · rename_i hreader
    split at h
    · cases h
    · rename_i hown
      exact .moves _ (.handled hreader (by simpa using hown)) (Option.some.inj h).symm
  · rename_i hreader
    split at h
    · cases h
    · rename_i hown
      exact .moves _ (.recover hreader (by simpa using hown)) (Option.some.inj h).symm
  · rename_i hreader
    exact .closes hreader (Option.some.inj h).symm
  · rename_i hreader
    split at h
    · cases h
    · rename_i hown
      exact .moves _ (.closed hreader (by simpa using hown)) (Option.some.inj h).symm
  all_goals cases h

theorem read_cases {size : Nat} (h : s.read size = some t) : Step ownsFds s (.read size) t := by
  unfold State.read at h
  split at h
  · cases h
  rename_i hreader
  have hreading : s.reader = .reading := not_not.1 hreader
  split at h
  · rename_i hclosed
    exact .faults _ (.closed hreading (by simpa using hclosed)) (Option.some.inj h).symm
  split at h
  · split at h
    · exact .moves _ (.eof hreading) (Option.some.inj h).symm
    · cases h
  · split at h
    · rename_i hsize
      exact .reads size hreading hsize.1 (Option.some.inj h).symm
    · cases h

theorem step_cases (h : step ownsFds s l = some t) : s.fault = none ∧ Step ownsFds s l t := by
  unfold step at h
  split at h
  · cases h
  rename_i hfault
  refine ⟨by simpa using hfault, ?_⟩
  cases l with
  | connect valid =>
    dsimp only at h
    split at h
    · cases h
    · rename_i hout
      obtain rfl := Option.some.inj h
      exact connect_cases valid (by simpa using hout)
  | disconnect =>
    dsimp only at h
    split at h
    · cases h
    · rename_i hout
      exact .stops rfl (by simpa using hout) (Option.some.inj h).symm
  | advance =>
    dsimp only at h
    split at h
    · rename_i pc hpc
      obtain ⟨⟨u, next⟩, hadv, rfl⟩ := Option.map_eq_some_iff.1 h
      exact .section_ false rfl pc hpc u next hadv rfl
    · cases h
  | disconnectOwn =>
    dsimp only at h
    split at h
    · cases h
    · rename_i hown
      simp only [Bool.or_eq_true, Bool.not_eq_true', not_or, Option.isSome_iff_ne_none, not_not, Bool.not_eq_false] at hown
      exact .stopsOwn rfl hown.1 hown.2 (Option.some.inj h).symm
  | advanceOwn =>
    dsimp only at h
    split at h
    · rename_i pc hpc
      obtain ⟨⟨u, next⟩, hadv, rfl⟩ := Option.map_eq_some_iff.1 h
      exact .section_ true rfl pc hpc u next hadv rfl
    · cases h
  | reader => exact advanceReader_cases h
  | read size => exact read_cases h
  | pollError =>
    dsimp only at h
    split at h
    · rename_i wake hreader
      exact .errs _ (.inr ⟨wake, hreader⟩) (Option.some.inj h).symm
    · cases h
  | readError =>
    dsimp only at h
    split at h
    · rename_i hreader
      exact .moves _ (.fail hreader) (Option.some.inj h).symm
    · cases h
  | throws =>
    dsimp only at h
    split at h
    · exact .faults _ .escaped (Option.some.inj h).symm
    · cases h
  | peerWrites data =>
    dsimp only at h
    split at h
    · cases h
    · exact .writes data rfl (Option.some.inj h).symm
  | peerCloses => exact .peerCloses rfl (Option.some.inj h).symm

end Steps

end StdioTransport
end Mcp
