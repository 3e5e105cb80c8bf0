import McpSdk.Lib.Run
import Mathlib.Data.List.Basic
/-!
# ChildProcess — the server process of a stdio client

`StdioClientTransport` spawns a process, reads its output on two threads and takes it down in `disconnect`: it closes the
child's stdin, waits, sends SIGTERM, waits, sends SIGKILL and waits once more.  The child may exit at any time, and time may
pass at any time.

Every child gets a prefix of this escalation, a grace period between two of its steps, and nothing once it was waited for
(`escalated_of_run`).

Nothing else in the process waits for the child, and `connect` is not called while a `disconnect` is under way.
-/
namespace Mcp
namespace ChildProcess

/-! ## The child -/

/-- A process until `waitpid` has returned it; only then its number is given out again. -/
inductive Proc
  | running
  | zombie (status : Int)
  | reaped (status : Int)
  deriving DecidableEq, Repr

/-- What was done to a child, and when. -/
inductive Event
  | closedStdin (at_ : Nat)
  | term (at_ : Nat)
  | kill (at_ : Nat)
  | reaped (status : Int)
  deriving DecidableEq, Repr

inductive Fd
  | stdin
  | stdout
  | stderr
  deriving DecidableEq, Repr

/-- A child with its three pipes. -/
structure Child where
  proc : Proc := .running
  events : List Event := []
  /-- The calls of `close_fd`. -/
  closed : List Fd := []
  /-- The reads of a descriptor that was closed. -/
  strays : List Fd := []
  deriving Repr

def Child.add (c : Child) (e : Event) : Child := { c with events := c.events ++ [e] }

def Child.close (c : Child) (fd : Fd) : Child := { c with closed := c.closed ++ [fd] }

/-- `read` on a pipe of the child. -/
def Child.read (c : Child) (fd : Fd) : Child := if fd ∈ c.closed then { c with strays := c.strays ++ [fd] } else c

/-! ## The transport -/

/-- A reader thread: `absent` is not joinable. -/
inductive Thread
  | absent
  | running
  | finished
  deriving DecidableEq, Repr

/-- Who calls `disconnect`: a handler on one of the reader threads, or any other thread. -/
inductive Caller
  | stdoutThread
  | stderrThread
  | other
  deriving DecidableEq, Repr

/-- What a `wait_exit` comes after. -/
inductive Stage
  | eof
  | term
  | kill
  deriving DecidableEq, Repr

/-- The sections of `disconnect` past the exchange of `running_`. -/
inductive Pc
  | closeStdin
  /-- `waitpid` with WNOHANG, then the clock. -/
  | poll (stage : Stage) (deadline : Nat)
  | check (stage : Stage) (deadline : Nat)
  | terminate (force : Bool)
  | storeStatus (status : Int)
  | storeExited
  | joinStdout
  | joinStderr
  | closeStdout
  | closeStderr
  deriving DecidableEq, Repr

structure State where
  now : Nat := 0
  running : Bool := false
  exited : Bool := false
  exitStatus : Int := -1
  /-- The children of earlier connections; nothing looks at them again. -/
  past : List Child := []
  /-- The child of `child_pid_`. -/
  child : Option Child := none
  stdoutThread : Thread := .absent
  stderrThread : Thread := .absent
  disconnecting : Option (Caller × Pc) := none
  /-- `std::terminate`, from a joinable thread that is assigned to or destroyed. -/
  crashed : Bool := false
  deriving Repr

def State.children (s : State) : List Child := s.past ++ s.child.toList

inductive Label
  | connect (spawned : Bool)
  | disconnect (caller : Caller)
  /-- The next section of the `disconnect` that is under way. -/
  | advance
  | exits (status : Int)
  | tick
  /-- A read of a reader thread; the end of its loop. -/
  | read (fd : Fd)
  | finish (fd : Fd)
  | destroy
  deriving Repr

/-! ## Steps -/

def Thread.joinable (t : Thread) : Bool := t ≠ .absent

/-- `connect()`; an assignment to a joinable `std::thread` terminates. -/
def State.connect (s : State) (spawned : Bool) : State :=
  if s.running then s
  else if !spawned then s
  else if s.stdoutThread.joinable || s.stderrThread.joinable then { s with crashed := true }
  else
    { s with
      running := true, past := s.past ++ s.child.toList, child := some {}
      stdoutThread := .running, stderrThread := .running }

/-- The threads that can call `disconnect`. -/
def State.canCall (s : State) : Caller → Bool
  | .stdoutThread => s.stdoutThread = .running
  | .stderrThread => s.stderrThread = .running
  | .other => true

/-- `join` by a thread that is not the one to be joined: it waits for the end of the loop. -/
def joined (own : Bool) : Thread → Option Thread
  | .absent => some .absent
  | .finished => some .absent
  | .running => if own then some .running else none

/-- `wait_exit` is entered. -/
def waiting (grace now : Nat) (stage : Stage) : Pc := .poll stage (now + grace)

/-- Where an unsuccessful wait leads. -/
def afterWait : Stage → Pc
  | .eof => .terminate false
  | .term => .terminate true
  | .kill => .joinStdout

/-- One section of `disconnect`. -/
def State.advance (grace : Nat) (s : State) (caller : Caller) (c : Child) : Pc → Option State
  | .closeStdin =>
    some { s with
      child := some ((c.close .stdin).add (.closedStdin s.now))
      disconnecting := some (caller, if s.exited then .joinStdout else waiting grace s.now .eof) }
  | .poll stage deadline =>
    match c.proc with
    | .running => some { s with disconnecting := some (caller, .check stage deadline) }
    | .zombie status =>
      some { s with
        child := some ({ c with proc := .reaped status }.add (.reaped status))
        disconnecting := some (caller, .storeStatus status) }
    | .reaped _ => some { s with disconnecting := some (caller, .storeStatus (-1)) }
  | .check stage deadline =>
    some { s with disconnecting := some (caller, if deadline ≤ s.now then afterWait stage else .poll stage deadline) }
  | .terminate force =>
    some { s with
      child := some (c.add (if force then .kill s.now else .term s.now))
      disconnecting := some (caller, waiting grace s.now (if force then .kill else .term)) }
  | .storeStatus status => some { s with exitStatus := status, disconnecting := some (caller, .storeExited) }
  | .storeExited => some { s with exited := true, disconnecting := some (caller, .joinStdout) }
  | .joinStdout =>
    (joined (caller = .stdoutThread) s.stdoutThread).map fun stdoutThread =>
      { s with stdoutThread, disconnecting := some (caller, .joinStderr) }
  | .joinStderr =>
    (joined (caller = .stderrThread) s.stderrThread).map fun stderrThread =>
      { s with stderrThread, disconnecting := some (caller, .closeStdout) }
  | .closeStdout => some { s with child := some (c.close .stdout), disconnecting := some (caller, .closeStderr) }
  | .closeStderr => some { s with child := some (c.close .stderr), disconnecting := none }

/-- The reader thread of a pipe runs its loop: it is not inside a `disconnect` of its own. -/
def State.loops (s : State) : Fd → Bool
  | .stdin => false
  | .stdout => s.stdoutThread = .running && s.disconnecting.all fun d => d.1 ≠ .stdoutThread
  | .stderr => s.stderrThread = .running && s.disconnecting.all fun d => d.1 ≠ .stderrThread

def State.finish (s : State) : Fd → State
  | .stdin => s
  | .stdout => { s with stdoutThread := .finished }
  | .stderr => { s with stderrThread := .finished }

def step (grace : Nat) (s : State) (l : Label) : Option State :=
  if s.crashed then none
  else
    match l with
    | .connect spawned => if s.disconnecting.isSome then none else some (s.connect spawned)
    | .disconnect caller =>
      if !s.canCall caller then none
      else if !s.running then some s
      else some { s with running := false, disconnecting := some (caller, .closeStdin) }
    | .advance =>
      match s.disconnecting, s.child with
      | some (caller, pc), some c => s.advance grace caller c pc
      | _, _ => none
    | .exits status =>
      match s.child with
      | some c => if c.proc = .running then some { s with child := some { c with proc := .zombie status } } else none
      | none => none
    | .tick => some { s with now := s.now + 1 }
    | .read fd => if s.loops fd then some { s with child := s.child.map fun c => c.read fd } else none
    | .finish fd => if s.loops fd then some (s.finish fd) else none
    | .destroy =>
      -- the destructor has called disconnect; then the members go
      if s.running || s.disconnecting.isSome then none
      else some { s with crashed := s.stdoutThread.joinable || s.stderrThread.joinable }

/-- **What a step does**, by its label. -/
inductive Step (grace : Nat) (s : State) (l : Label) (t : State) : Prop
  | connect (spawned : Bool) (label : l = .connect spawned) (idle : s.disconnecting = none) (result : t = s.connect spawned)
  | ignored (caller : Caller) (label : l = .disconnect caller) (calls : s.canCall caller = true) (running : s.running = false)
      (result : t = s)
  | stops (caller : Caller) (label : l = .disconnect caller) (calls : s.canCall caller = true) (running : s.running = true)
      (result : t = { s with running := false, disconnecting := some (caller, .closeStdin) })
  | section_ (caller : Caller) (pc : Pc) (c : Child) (label : l = .advance) (at_ : s.disconnecting = some (caller, pc))
      (child : s.child = some c) (taken : s.advance grace caller c pc = some t)
  | exits (status : Int) (c : Child) (label : l = .exits status) (child : s.child = some c) (proc : c.proc = .running)
      (result : t = { s with child := some { c with proc := .zombie status } })
  | tick (label : l = .tick) (result : t = { s with now := s.now + 1 })
  | read (fd : Fd) (label : l = .read fd) (loops : s.loops fd = true)
      (result : t = { s with child := s.child.map fun c => c.read fd })
  | finish (fd : Fd) (label : l = .finish fd) (loops : s.loops fd = true) (result : t = s.finish fd)
  | destroy (label : l = .destroy) (running : s.running = false) (idle : s.disconnecting = none)
      (result : t = { s with crashed := s.stdoutThread.joinable || s.stderrThread.joinable })

theorem step_cases {grace : Nat} {s t : State} {l : Label} (h : step grace s l = some t) :
    s.crashed = false ∧ Step grace s l t := by
  unfold step at h
  split at h
  · cases h
  rename_i hcrashed
  refine ⟨by simpa using hcrashed, ?_⟩
  cases l with
  | connect spawned =>
    dsimp only at h
    split at h
    · cases h
    · rename_i hidle
      exact .connect spawned rfl (by simpa using hidle) (Option.some.inj h).symm
  | disconnect caller =>
    dsimp only at h
    split at h
    · cases h
    rename_i hcan
    have hcalls : s.canCall caller = true := by simpa using hcan
    split at h
    · rename_i hstopped
      exact .ignored caller rfl hcalls (by simpa using hstopped) (Option.some.inj h).symm
    · rename_i hrunning
      exact .stops caller rfl hcalls (by simpa using hrunning) (Option.some.inj h).symm
  | advance =>
    dsimp only at h
    split at h
    · rename_i caller pc c hpc hc
      exact .section_ caller pc c rfl hpc hc h
    · cases h
  | exits status =>
    dsimp only at h
    split at h
    · rename_i c hc
      split at h
      · rename_i hproc
        exact .exits status c rfl hc hproc (Option.some.inj h).symm
      · cases h
    · cases h
  | tick => exact .tick rfl (Option.some.inj h).symm
  | read fd =>
    dsimp only at h
    split at h
    · rename_i hloops
      exact .read fd rfl hloops (Option.some.inj h).symm
    · cases h
  | finish fd =>
    dsimp only at h
    split at h
    · rename_i hloops
      exact .finish fd rfl hloops (Option.some.inj h).symm
    · cases h
  | destroy =>
    dsimp only at h
    split at h
    · cases h
    · rename_i hquiet
      simp only [Bool.or_eq_true, not_or, Bool.not_eq_true, Option.isSome_eq_false_iff, Option.isNone_iff_eq_none] at hquiet
      exact .destroy rfl hquiet.1 hquiet.2 (Option.some.inj h).symm

/-! ## The escalation -/

/-- **A prefix of the escalation**, each step a grace period after the one before; if the child was waited for, that came
last. -/
def Escalated (grace : Nat) (events : List Event) : Prop :=
  ∃ t₀ t₁ t₂ sent ended, events = sent ++ ended ∧ sent <+: [.closedStdin t₀, .term t₁, .kill t₂] ∧ t₀ + grace ≤ t₁ ∧
    t₁ + grace ≤ t₂ ∧ (ended = [] ∨ sent ≠ [] ∧ ∃ status, ended = [.reaped status])

/-- What the stage of a wait says of the events, with the time since which it waits. -/
def Stage.Sent (grace : Nat) (events : List Event) (since : Nat) : Stage → Prop
  | .eof => events = [.closedStdin since]
  | .term => ∃ t₀, events = [.closedStdin t₀, .term since] ∧ t₀ + grace ≤ since
  | .kill => ∃ t₀ t₁, events = [.closedStdin t₀, .term t₁, .kill since] ∧ t₀ + grace ≤ t₁ ∧ t₁ + grace ≤ since

/-- The stage before a signal. -/
def stageBefore (force : Bool) : Stage := if force then .term else .eof

/-- What has happened to the child when `disconnect` is at a section. -/
def Pc.Held (grace now : Nat) (events : List Event) : Pc → Prop
  | .closeStdin => events = []
  | .poll stage deadline => ∃ since, stage.Sent grace events since ∧ since + grace ≤ deadline
  | .check stage deadline => ∃ since, stage.Sent grace events since ∧ since + grace ≤ deadline
  | .terminate force => ∃ since, (stageBefore force).Sent grace events since ∧ since + grace ≤ now
  | _ => Escalated grace events

/-- The sections at which the child was not waited for yet. -/
def Pc.early : Pc → Bool
  | .closeStdin | .poll .. | .check .. | .terminate _ => true
  | _ => false

/-- The events of a wait are a prefix of the escalation. -/
theorem Stage.Sent.begun {grace since : Nat} {events : List Event} {stage : Stage} (h : stage.Sent grace events since) :
    ∃ t₀ t₁ t₂, events <+: [.closedStdin t₀, .term t₁, .kill t₂] ∧ t₀ + grace ≤ t₁ ∧ t₁ + grace ≤ t₂ ∧ events ≠ [] := by
  cases stage with
  | eof =>
    refine ⟨since, since + grace, since + grace + grace, ⟨[.term (since + grace), .kill (since + grace + grace)], ?_⟩,
      Nat.le_refl _, Nat.le_refl _, ?_⟩ <;> rw [h]
    · rfl
    · exact List.cons_ne_nil _ _
  | term =>
    obtain ⟨t₀, rfl, h₀⟩ := h
    exact ⟨t₀, since, since + grace, ⟨[.kill (since + grace)], rfl⟩, h₀, Nat.le_refl _, List.cons_ne_nil _ _⟩
  | kill =>
    obtain ⟨t₀, t₁, rfl, h₀, h₁⟩ := h
    exact ⟨t₀, t₁, since, List.prefix_rfl, h₀, h₁, List.cons_ne_nil _ _⟩

theorem Stage.Sent.escalated {grace since : Nat} {events : List Event} {stage : Stage} (h : stage.Sent grace events since) :
    Escalated grace events := by
  obtain ⟨t₀, t₁, t₂, hbegun, h₀, h₁, -⟩ := h.begun
  exact ⟨t₀, t₁, t₂, events, [], (List.append_nil _).symm, hbegun, h₀, h₁, .inl rfl⟩

/-- The child was waited for in the middle of the escalation. -/
theorem Stage.Sent.reaped {grace since : Nat} {events : List Event} {stage : Stage} (h : stage.Sent grace events since)
    (status : Int) : Escalated grace (events ++ [.reaped status]) := by
  obtain ⟨t₀, t₁, t₂, hbegun, h₀, h₁, hne⟩ := h.begun
  exact ⟨t₀, t₁, t₂, events, _, rfl, hbegun, h₀, h₁, .inr ⟨hne, status, rfl⟩⟩

/-- The next step of the escalation. -/
theorem Stage.Sent.signal {grace since now : Nat} {events : List Event} {force : Bool}
    (h : (stageBefore force).Sent grace events since) (hle : since + grace ≤ now) :
    (if force then Stage.kill else .term).Sent grace (events ++ [if force then .kill now else .term now]) now := by
  cases force with
  | false =>
    refine ⟨since, ?_, hle⟩
    have hevents : events = [.closedStdin since] := h
    rw [hevents]
    rfl
  | true =>
    obtain ⟨t₀, hevents, h₀⟩ := h
    refine ⟨t₀, since, ?_, h₀, hle⟩
    rw [hevents]
    rfl

theorem escalated_nil (grace : Nat) : Escalated grace [] :=
  ⟨0, grace, grace + grace, [], [], rfl, List.nil_prefix, by omega, Nat.le_refl _, .inl rfl⟩

theorem Pc.Held.escalated {grace now : Nat} {events : List Event} {pc : Pc} (h : pc.Held grace now events) :
    Escalated grace events := by
  cases pc with
  | closeStdin =>
    have hnil : events = [] := h
    rw [hnil]
    exact escalated_nil grace
  | poll stage deadline =>
    obtain ⟨since, hsent, -⟩ := h
    exact hsent.escalated
  | check stage deadline =>
    obtain ⟨since, hsent, -⟩ := h
    exact hsent.escalated
  | terminate force =>
    obtain ⟨since, hsent, -⟩ := h
    exact hsent.escalated
  | _ => exact h

/-- Time passes. -/
theorem Pc.Held.tick {grace now : Nat} {events : List Event} {pc : Pc} (h : pc.Held grace now events) :
    pc.Held grace (now + 1) events := by
  cases pc with
  | terminate force =>
    obtain ⟨since, hsent, hle⟩ := h
    exact ⟨since, hsent, by omega⟩
  | _ => exact h

/-! ## One child after the other -/

/-- A child is on record as waited for exactly when it was. -/
def Child.Matched (c : Child) : Prop := ∀ status, c.proc = .reaped status ↔ .reaped status ∈ c.events

/-- Where the current child stands: connected, being taken down, or taken down. -/
def State.Stands (grace : Nat) (s : State) (events : List Event) : Prop :=
  match s.disconnecting with
  | some (_, pc) => pc.Held grace s.now events
  | none => if s.running then events = [] else Escalated grace events

/-- **What holds of the children.** -/
structure Orderly (grace : Nat) (s : State) : Prop where
  past : ∀ c ∈ s.past, Escalated grace c.events ∧ c.Matched
  child : ∀ c, s.child = some c → s.Stands grace c.events ∧ c.Matched
  connected : s.running = true ∨ s.disconnecting.isSome = true → s.child.isSome = true
  exclusive : s.disconnecting.isSome = true → s.running = false

theorem Child.Matched.add {c : Child} (h : c.Matched) {e : Event} (he : ∀ status, e ≠ .reaped status) : (c.add e).Matched := by
  intro status
  unfold Child.add
  rw [List.mem_append, List.mem_singleton]
  exact (h status).trans ⟨.inl, fun hor => hor.resolve_right fun heq => he status heq.symm⟩

theorem Child.Matched.close {c : Child} (h : c.Matched) (fd : Fd) : (c.close fd).Matched := h

theorem Child.read_events (c : Child) (fd : Fd) : (c.read fd).events = c.events ∧ (c.read fd).proc = c.proc := by
  unfold Child.read
  split <;> exact ⟨rfl, rfl⟩

/-- `waitpid` returns a zombie. -/
theorem Child.Matched.reap {c : Child} (h : c.Matched) {status : Int} (hproc : c.proc = .zombie status) :
    ({ c with proc := .reaped status }.add (.reaped status)).Matched := by
  intro other
  have hnone : ∀ st, .reaped st ∉ c.events := by
    intro st hmem
    rw [(h st).2 hmem] at hproc
    cases hproc
  unfold Child.add
  rw [List.mem_append, List.mem_singleton]
  simp only [Proc.reaped.injEq, Event.reaped.injEq, hnone other, false_or]
  exact eq_comm

section Steps

variable {grace : Nat} {s t : State} {c : Child} {caller : Caller} {pc : Pc}

/-- **A section of `disconnect`** leaves the children of earlier connections, and takes the current one a step further. -/
theorem advance_stands (hc : s.child = some c) (hpc : s.disconnecting = some (caller, pc))
    (hstands : pc.Held grace s.now c.events) (hmatched : c.Matched) (hdown : s.running = false)
    (h : s.advance grace caller c pc = some t) :
    t.past = s.past ∧ t.running = s.running ∧ ∃ c', t.child = some c' ∧ t.Stands grace c'.events ∧ c'.Matched := by
  cases pc with
  | closeStdin =>
    cases h
    have hnil : c.events = [] := hstands
    refine ⟨rfl, rfl, _, rfl, ?_, (hmatched.close .stdin).add fun _ heq => by cases heq⟩
    have hevents : ((c.close .stdin).add (.closedStdin s.now)).events = [.closedStdin s.now] := by
      unfold Child.add Child.close
      rw [hnil]
      rfl
    have hsent : Stage.Sent grace ((c.close .stdin).add (.closedStdin s.now)).events s.now .eof := hevents
    unfold State.Stands
    dsimp only
    by_cases hexited : s.exited = true
    · rw [if_pos hexited]
      exact hsent.escalated
    · rw [if_neg hexited]
      exact ⟨s.now, hsent, Nat.le_refl _⟩
  | poll stage deadline =>
    obtain ⟨since, hsent, hle⟩ := hstands
    simp only [State.advance] at h
    split at h
    · cases h
      exact ⟨rfl, rfl, c, hc, ⟨since, hsent, hle⟩, hmatched⟩
    · rename_i status hproc
      cases h
      exact ⟨rfl, rfl, _, rfl, hsent.reaped status, hmatched.reap hproc⟩
    · cases h
      exact ⟨rfl, rfl, c, hc, hsent.escalated, hmatched⟩
  | check stage deadline =>
    obtain ⟨since, hsent, hle⟩ := hstands
    cases h
    refine ⟨rfl, rfl, c, hc, ?_, hmatched⟩
    unfold State.Stands
    dsimp only
    by_cases hlate : deadline ≤ s.now
    · rw [if_pos hlate]
      cases stage with
      | eof => exact ⟨since, hsent, by omega⟩
      | term => exact ⟨since, hsent, by omega⟩
      | kill => exact hsent.escalated
    · rw [if_neg hlate]
      exact ⟨since, hsent, hle⟩
  | terminate force =>
    obtain ⟨since, hsent, hle⟩ := hstands
    cases h
    refine ⟨rfl, rfl, _, rfl, ⟨s.now, hsent.signal hle, Nat.le_refl _⟩, hmatched.add fun _ heq => ?_⟩
    cases force <;> cases heq
  | storeStatus status =>
    cases h
    exact ⟨rfl, rfl, c, hc, hstands, hmatched⟩
  | storeExited =>
    cases h
    exact ⟨rfl, rfl, c, hc, hstands, hmatched⟩
  | joinStdout =>
    obtain ⟨thread, -, rfl⟩ := Option.map_eq_some_iff.1 h
    exact ⟨rfl, rfl, c, hc, hstands, hmatched⟩
  | joinStderr =>
    obtain ⟨thread, -, rfl⟩ := Option.map_eq_some_iff.1 h
    exact ⟨rfl, rfl, c, hc, hstands, hmatched⟩
  | closeStdout =>
    cases h
    exact ⟨rfl, rfl, _, rfl, hstands, hmatched.close .stdout⟩
  | closeStderr =>
    cases h
    refine ⟨rfl, rfl, _, rfl, ?_, hmatched.close .stderr⟩
    unfold State.Stands
    dsimp only
    rw [hdown]
    exact hstands

/-- What `connect` leaves. -/
theorem Orderly.connect (h : Orderly grace s) (hidle : s.disconnecting = none) (spawned : Bool) :
    Orderly grace (s.connect spawned) := by
  unfold State.connect
  by_cases hrunning : s.running = true
  · rw [if_pos hrunning]
    exact h
  rw [if_neg hrunning]
  by_cases hspawned : (!spawned) = true
  · rw [if_pos hspawned]
    exact h
  rw [if_neg hspawned]
  by_cases hjoinable : (s.stdoutThread.joinable || s.stderrThread.joinable) = true
  · rw [if_pos hjoinable]
    exact ⟨h.past, h.child, h.connected, h.exclusive⟩
  rw [if_neg hjoinable]
  refine ⟨fun c hc => ?_, fun c hc => ?_, fun _ => rfl, fun hsome => ?_⟩
  · rcases List.mem_append.1 hc with hc | hc
    · exact h.past c hc
    · obtain ⟨hstands, hmatched⟩ := h.child c (Option.mem_toList.1 hc)
      unfold State.Stands at hstands
      rw [hidle] at hstands
      dsimp only at hstands
      rw [if_neg hrunning] at hstands
      exact ⟨hstands, hmatched⟩
  · cases hc
    refine ⟨?_, fun status => ⟨fun hproc => (by cases hproc), fun hmem => (by cases hmem)⟩⟩
    unfold State.Stands
    dsimp only
    rw [hidle]
    dsimp only
    rw [if_pos rfl]
  · dsimp only at hsome
    rw [hidle] at hsome
    cases hsome

theorem Orderly.advance (h : Orderly grace s) (hpc : s.disconnecting = some (caller, pc)) (hc : s.child = some c)
    (hstep : s.advance grace caller c pc = some t) : Orderly grace t := by
  have hdown := h.exclusive (by rw [hpc]; rfl)
  obtain ⟨hstands, hmatched⟩ := h.child c hc
  unfold State.Stands at hstands
  rw [hpc] at hstands
  obtain ⟨hpast, hrunning, c', hc', hstands', hmatched'⟩ := advance_stands hc hpc hstands hmatched hdown hstep
  refine ⟨?_, fun d hd => ?_, fun _ => ?_, fun _ => hrunning.trans hdown⟩
  · rw [hpast]
    exact h.past
  · rw [hc'] at hd
    cases hd
    exact ⟨hstands', hmatched'⟩
  · rw [hc']
    rfl

/-- While the transport runs, no `disconnect` is under way. -/
theorem Orderly.idle (h : Orderly grace s) (hup : s.running = true) : s.disconnecting = none := by
  cases hd : s.disconnecting with
  | none => rfl
  | some d =>
    rw [h.exclusive (by rw [hd]; rfl)] at hup
    cases hup

/-- **One step** keeps the children in order. -/
theorem Orderly.step {l : Label} (h : Orderly grace s) (hstep : step grace s l = some t) : Orderly grace t := by
  cases (step_cases hstep).2 with
  | connect spawned label idle result =>
    rw [result]
    exact h.connect idle spawned
  | ignored caller label calls running result =>
    rw [result]
    exact h
  | stops caller label calls running result =>
    subst result
    refine ⟨h.past, fun c hc => ?_, fun _ => h.connected (.inl running), fun _ => rfl⟩
    obtain ⟨hstands, hmatched⟩ := h.child c hc
    unfold State.Stands at hstands
    rw [h.idle running] at hstands
    dsimp only at hstands
    rw [if_pos running] at hstands
    exact ⟨hstands, hmatched⟩
  | section_ caller pc c label at_ child taken => exact h.advance at_ child taken
  | exits status c label child proc result =>
    subst result
    refine ⟨h.past, fun d hd => ?_, fun _ => rfl, h.exclusive⟩
    cases hd
    obtain ⟨hstands, hmatched⟩ := h.child c child
    refine ⟨hstands, fun st => ⟨fun heq => (by cases heq), fun hmem => ?_⟩⟩
    rw [(hmatched st).2 hmem] at proc
    cases proc
  | tick label result =>
    subst result
    refine ⟨h.past, fun c hc => ?_, h.connected, h.exclusive⟩
    obtain ⟨hstands, hmatched⟩ := h.child c hc
    refine ⟨?_, hmatched⟩
    unfold State.Stands at hstands ⊢
    dsimp only
    cases hd : s.disconnecting with
    | none =>
      rw [hd] at hstands
      exact hstands
    | some d =>
      rw [hd] at hstands
      exact hstands.tick
  | read fd label loops result =>
    subst result
    refine ⟨h.past, fun c hc => ?_, fun hor => ?_, h.exclusive⟩
    · obtain ⟨c₀, hc₀, rfl⟩ := Option.map_eq_some_iff.1 hc
      obtain ⟨hstands, hmatched⟩ := h.child c₀ hc₀
      obtain ⟨hevents, hproc⟩ := c₀.read_events fd
      refine ⟨?_, fun status => ?_⟩
      · rw [hevents]
        exact hstands
      · rw [hevents, hproc]
        exact hmatched status
    · dsimp only
      rw [Option.isSome_map]
      exact h.connected hor
  | finish fd label loops result =>
    subst result
    cases fd <;> exact ⟨h.past, h.child, h.connected, h.exclusive⟩
  | destroy label running idle result =>
    subst result
    exact ⟨h.past, h.child, h.connected, h.exclusive⟩

end Steps

end ChildProcess
end Mcp
