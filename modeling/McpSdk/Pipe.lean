import McpSdk.LineTransport
import McpSdk.Wire
import McpSdk.Lib.Pool
import McpSdk.Lib.Run
/-!
# Pipe — concurrent senders on a line transport, and the peer's reading thread

Any number of threads call `send` and `send_batch`.  A call serializes and checks its line, waits for `write_mutex_`,
writes in as many pieces as the descriptor takes and releases the mutex.  At the other end `read_loop` takes what is
there, up to 4096 bytes a read.  The calls that took the mutex, in order, are the log; everything else follows from what
has been read, the pipe and the rest of the line being written making up the lines of the log (`Inv.stream`).
-/
namespace Mcp
namespace Pipe

open LineTransport

/-! ## Calls -/

/-- A call of `send` or `send_batch`. -/
inductive Outgoing where
  | send (m : Message)
  | sendBatch (ms : List Message)

def Outgoing.messages : Outgoing → List Message
  | send m => [m]
  | sendBatch ms => ms

def Outgoing.json : Outgoing → Json
  | send m => messageToJson m
  | sendBatch ms => .array (ms.map messageToJson)

def Outgoing.serialize (text : JsonText Bytes) : Outgoing → Except JsonException Bytes
  | send m => serializeMessage text m
  | sendBatch ms => serializeBatch text ms

/-- The text of a call, when it has one. -/
def Outgoing.line (text : JsonText Bytes) (call : Outgoing) : Bytes :=
  match call.serialize text with
  | .ok line => line
  | .error _ => []

/-- Well-formed messages, at least one, in valid UTF-8. -/
structure Outgoing.WellFormed (call : Outgoing) : Prop where
  messages : ∀ m ∈ call.messages, m.WellFormed
  nonempty : call.messages ≠ []
  utf8 : call.json.validUtf8 = true

/-! ## The threads -/

/-- Where a sending thread stands, with the calls it has still to make. -/
inductive Pc where
  | idle (calls : List Outgoing)
  /-- At the lock of `send_line`, with the framed line. -/
  | waiting (framed : Bytes) (call : Outgoing) (calls : List Outgoing)
  /-- In `write_line`. -/
  | writing (calls : List Outgoing)

structure Peer where
  handed : List Message := []
  errors : List Error := []

def recorder : Handlers Peer where
  message := some fun m p => ({ p with handed := p.handed ++ [m] }, none)
  error := some fun e p => ({ p with errors := p.errors ++ [e] }, none)

structure State where
  threads : List Pc
  /-- The holder of `write_mutex_`, and what `write_all` has still to write. -/
  writer : Option (Nat × Bytes) := none
  /-- Written and not yet read. -/
  pipe : Bytes := []
  /-- What the sending transport has emitted, and what `dump()` has thrown at its callers. -/
  errors : List Error := []
  thrown : List JsonException := []
  reader : Reader Peer := { state := {} }
  /-- The calls that took the mutex, by thread. -/
  log : List (Nat × Outgoing) := []

inductive Label where
  | call (i : Nat)
  | lock (i : Nat)
  /-- One `write(2)` of at most `n + 1` bytes. -/
  | write (i n : Nat)
  | unlock (i : Nat)
  /-- One `read(2)` of at most `n + 1` bytes. -/
  | read (n : Nat)

def init (programs : List (List Outgoing)) : State := { threads := programs.map .idle }

def State.setThread (s : State) (i : Nat) (pc : Pc) : State := { s with threads := s.threads.set i pc }

/-- `send` or `send_batch`, up to the lock. -/
def startCall (text : JsonText Bytes) (s : State) (i : Nat) (call : Outgoing) (calls : List Outgoing) : State :=
  match call.serialize text with
  | .error x => { s.setThread i (.idle calls) with thrown := s.thrown ++ [x] }
  | .ok line =>
    match sendLine line with
    | .error e => { s.setThread i (.idle calls) with errors := s.errors ++ [e] }
    | .ok framed => s.setThread i (.waiting framed call calls)

/-- The buffer of `read_loop`. -/
def chunkSize : Nat := 4096

def step (text : JsonText Bytes) (s : State) : Label → Option State
  | .call i =>
    match s.threads[i]? with
    | some (.idle (call :: calls)) => some (startCall text s i call calls)
    | _ => none
  | .lock i =>
    match s.threads[i]?, s.writer with
    | some (.waiting framed call calls), none =>
      some { s.setThread i (.writing calls) with writer := some (i, framed), log := s.log ++ [(i, call)] }
    | _, _ => none
  | .write i n =>
    match s.writer with
    | some (j, b :: left) =>
      if j = i then
        some { s with
          writer := some (j, (b :: left).drop (n + 1))
          pipe := s.pipe ++ (b :: left).take (n + 1) }
      else none
    | _ => none
  | .unlock i =>
    match s.threads[i]?, s.writer with
    | some (.writing calls), some (j, []) => if j = i then some { s.setThread i (.idle calls) with writer := none } else none
    | _, _ => none
  | .read n =>
    match s.pipe, s.reader.escaped with
    | b :: rest, none =>
      let k := min (n + 1) chunkSize
      some { s with
        reader := s.reader.feed text recorder ((b :: rest).take k)
        pipe := (b :: rest).drop k }
    | _, _ => none

/-! ## One line at the peer -/

/-- **What the SDK relies on for the calls of a program**: each is well formed, and its text is printed and read back. -/
structure Fit (text : JsonText Bytes) (call : Outgoing) : Prop where
  wellFormed : call.WellFormed
  prints : text.Prints call.json (call.line text)

/-- The messages of a call, as they come out at the peer. -/
def Outgoing.arrives (call : Outgoing) : List Message := call.messages.map Message.wire

theorem fit_of_printable {text : JsonText Bytes} {call : Outgoing} (hcall : call.WellFormed) {t : Bytes}
    (ht : text.Prints call.json t) : Fit text call := by
  have hline : call.line text = t := by
    have hdump := ht.dump
    cases call with
    | send m =>
      simp only [Outgoing.json] at hdump
      simp only [Outgoing.line, Outgoing.serialize, serializeMessage, hdump]
    | sendBatch ms =>
      simp only [Outgoing.json] at hdump
      simp only [Outgoing.line, Outgoing.serialize, serializeBatch, hdump]
  exact ⟨hcall, hline ▸ ht⟩

theorem Fit.serialize {text : JsonText Bytes} {call : Outgoing} (h : Fit text call) :
    call.serialize text = .ok (call.line text) := by
  have hdump := h.prints.dump
  cases call <;> exact hdump

theorem Fit.sendLine {text : JsonText Bytes} {call : Outgoing} (h : Fit text call) :
    sendLine (call.line text) = .ok (call.line text ++ [10]) := sendLine_of_printable h.prints.printable

theorem each_recorder : ∀ (ms : List Message) (p : Peer),
    each (fun m (p : Peer) => ({ p with handed := p.handed ++ [m] }, none)) ms p = ({ p with handed := p.handed ++ ms }, none)
  | [], p => by simp [each]
  | m :: ms, p => by
    have ih := each_recorder ms { p with handed := p.handed ++ [m] }
    simp [each, ih]

/-- **A call's line hands its messages to the peer**, in order, and emits nothing. -/
theorem processLine_fit {text : JsonText Bytes} (hempty : text.parse [] = none) {call : Outgoing} (h : Fit text call)
    (p : Peer) :
    processLine text recorder (stripCr (call.line text)) p = ({ p with handed := p.handed ++ call.arrives }, none) := by
  have hne : call.line text ≠ [] := by
    intro hnil
    have hparse := h.prints.parse
    rw [hnil, hempty] at hparse
    cases hparse
  have hframe : ∃ frame, parseFrame text (call.line text) = .ok (.ok frame) ∧ frame.messages = call.arrives ∧
      frame.itemErrors = [] := by
    cases call with
    | send m =>
      exact ⟨_, parseFrame_serializeMessage (h.wellFormed.messages m (List.mem_singleton_self m)) h.prints, rfl, rfl⟩
    | sendBatch ms =>
      exact ⟨_, parseFrame_serializeBatch h.wellFormed.nonempty h.wellFormed.messages h.prints, rfl, rfl⟩
  obtain ⟨frame, hparse, hmessages, herrors⟩ := hframe
  unfold processLine
  rw [stripCr_of_printable h.prints.printable, if_neg hne, hparse]
  simp only [herrors, hmessages, each]
  exact each_recorder call.arrives p

theorem each_processLine_fit {text : JsonText Bytes} (hempty : text.parse [] = none) :
    ∀ (calls : List Outgoing) (p : Peer), (∀ call ∈ calls, Fit text call) →
      each (fun line => processLine text recorder (stripCr line)) (calls.map (Outgoing.line text)) p =
        ({ p with handed := p.handed ++ calls.flatMap Outgoing.arrives }, none)
  | [], p, _ => by simp [each]
  | call :: calls, p, h => by
    have hfirst := processLine_fit hempty (h call List.mem_cons_self) p
    have ih := each_processLine_fit hempty calls { p with handed := p.handed ++ call.arrives }
      (fun c hc => h c (List.mem_cons_of_mem call hc))
    simp [each, hfirst, ih]

/-- **What has been read of the lines hands over the calls whose lines are complete**, and all of them at the end. -/
theorem feed_prefix {text : JsonText Bytes} (hempty : text.parse [] = none) {calls : List Outgoing}
    (h : ∀ call ∈ calls, Fit text call) {seen rest : Bytes}
    (hstream : seen ++ rest = unlines (calls.map (Outgoing.line text))) :
    ∃ k, ((({ state := {} } : Reader Peer).feed text recorder seen).state =
        { handed := (calls.take k).flatMap Outgoing.arrives }) ∧
      (({ state := {} } : Reader Peer).feed text recorder seen).escaped = none ∧ (rest = [] → calls.take k = calls) := by
  have hlines : ∀ line ∈ calls.map (Outgoing.line text), (10 : UInt8) ∉ line := by
    intro line hline
    obtain ⟨call, hcall, rfl⟩ := List.mem_map.1 hline
    exact newline_not_mem (h call hcall).prints.printable
  have hall : Search.drain 10 (seen ++ rest) = (calls.map (Outgoing.line text), []) := by
    have hdrain := drain_unlines hlines []
    rw [List.append_nil] at hdrain
    rw [hstream, hdrain]
    simp [Search.drain]
  have hprefix : (Search.drain 10 seen).1 <+: calls.map (Outgoing.line text) := by
    rw [Search.drain_append] at hall
    exact ⟨_, (Prod.mk.inj hall).1⟩
  have hk : (Search.drain 10 seen).1 = (calls.take (Search.drain 10 seen).1.length).map (Outgoing.line text) := by
    rw [List.map_take]
    exact List.prefix_iff_eq_take.1 hprefix
  have heach := each_processLine_fit hempty (calls.take (Search.drain 10 seen).1.length) {}
    (fun c hc => h c (List.mem_of_mem_take hc))
  rw [← hk] at heach
  refine ⟨(Search.drain 10 seen).1.length, ?_, ?_, fun hrest => ?_⟩
  · simp only [Reader.feed, List.nil_append, heach]
  · simp only [Reader.feed, List.nil_append, heach]
  · rw [hrest, List.append_nil] at hall
    exact List.take_of_length_le (by rw [hall, List.length_map])

/-! ## Steps -/

/-- **What a step does**, one case for each label. -/
inductive Step (text : JsonText Bytes) (s : State) : Label → State → Prop
  | call {i : Nat} {call : Outgoing} {calls : List Outgoing} (thread : s.threads[i]? = some (.idle (call :: calls))) :
      Step text s (.call i) (startCall text s i call calls)
  | lock {i : Nat} {framed : Bytes} {call : Outgoing} {calls : List Outgoing}
      (thread : s.threads[i]? = some (.waiting framed call calls)) (free : s.writer = none) :
      Step text s (.lock i)
        { s.setThread i (.writing calls) with writer := some (i, framed), log := s.log ++ [(i, call)] }
  | write {i n : Nat} {left : Bytes} (writer : s.writer = some (i, left)) (more : left ≠ []) :
      Step text s (.write i n) { s with writer := some (i, left.drop (n + 1)), pipe := s.pipe ++ left.take (n + 1) }
  | unlock {i : Nat} {calls : List Outgoing} (thread : s.threads[i]? = some (.writing calls)) (writer : s.writer = some (i, [])) :
      Step text s (.unlock i) { s.setThread i (.idle calls) with writer := none }
  | read {n : Nat} (some : s.pipe ≠ []) (alive : s.reader.escaped = none) :
      Step text s (.read n)
        { s with
          reader := s.reader.feed text recorder (s.pipe.take (min (n + 1) chunkSize))
          pipe := s.pipe.drop (min (n + 1) chunkSize) }

theorem step_cases {text : JsonText Bytes} {s t : State} {label : Label} (h : step text s label = some t) :
    Step text s label t := by
  cases label with
  | call i =>
    simp only [step] at h
    split at h
    · rename_i call calls hthread
      rw [← Option.some.inj h]
      exact .call hthread
    · cases h
  | lock i =>
    simp only [step] at h
    split at h
    · rename_i framed call calls hthread hfree
      rw [← Option.some.inj h]
      exact .lock hthread hfree
    · cases h
  | write i n =>
    simp only [step] at h
    split at h
    · rename_i j b left hwriter
      split at h
      · rename_i hj
        subst hj
        rw [← Option.some.inj h]
        exact .write hwriter (List.cons_ne_nil b left)
      · cases h
    · cases h
  | unlock i =>
    simp only [step] at h
    split at h
    · rename_i calls j hthread hwriter
      split at h
      · rename_i hj
        subst hj
        rw [← Option.some.inj h]
        exact .unlock hthread hwriter
      · cases h
    · cases h
  | read n =>
    simp only [step] at h
    split at h
    · rename_i b rest hpipe halive
      rw [← Option.some.inj h, ← hpipe]
      exact .read (by rw [hpipe]; exact List.cons_ne_nil b rest) halive
    · cases h

/-! ## The invariant -/

/-- The calls a thread has still to log. -/
def Pc.pending : Pc → List Outgoing
  | idle calls => calls
  | waiting _ call calls => call :: calls
  | writing calls => calls

def State.left (s : State) : Bytes :=
  match s.writer with
  | some (_, left) => left
  | none => []

/-- Where thread `i` may stand: it has its pending calls before it, its framed line is its call's, and it writes exactly
when it holds the mutex. -/
structure Stands (text : JsonText Bytes) (programs : List (List Outgoing)) (writer : Option (Nat × Bytes))
    (log : List (Nat × Outgoing)) (i : Nat) (pc : Pc) : Prop where
  program : Pool.madeBy i log ++ pc.pending = programs.getD i []
  framed : ∀ framed call calls, pc = .waiting framed call calls → framed = call.line text ++ [10]
  holds : (∃ calls, pc = .writing calls) ↔ ∃ left, writer = some (i, left)

structure Inv (text : JsonText Bytes) (programs : List (List Outgoing)) (s : State) : Prop where
  threads : ∀ i pc, s.threads[i]? = some pc → Stands text programs s.writer s.log i pc
  length : s.threads.length = programs.length
  holder : ∀ i left, s.writer = some (i, left) → i < s.threads.length
  logged : ∀ e ∈ s.log, e.1 < programs.length
  stream : ∃ seen, seen ++ (s.pipe ++ s.left) = unlines (s.log.map (fun e => e.2.line text)) ∧
    s.reader = ({ state := {} } : Reader Peer).feed text recorder seen
  errors : s.errors = []
  thrown : s.thrown = []

section

variable {text : JsonText Bytes} {programs : List (List Outgoing)} {s t : State}

theorem inv_init : Inv text programs (init programs) where
  threads := by
    intro i pc hpc
    simp only [init, List.getElem?_map] at hpc
    obtain ⟨calls, hcalls, rfl⟩ := Option.map_eq_some_iff.1 hpc
    refine ⟨by simp [init, Pc.pending, hcalls], fun framed call calls' h => (by cases h), ?_⟩
    constructor
    · rintro ⟨calls', h⟩
      cases h
    · rintro ⟨left, h⟩
      cases h
  length := by simp [init]
  holder := fun i left h => by cases h
  logged := fun e he => by cases he
  stream := ⟨[], rfl, by simp [init, Reader.feed, Search.drain, each]⟩
  errors := rfl
  thrown := rfl

/-- The others are left standing by a step of thread `i`. -/
theorem Stands.other {writer writer' : Option (Nat × Bytes)} {log log' : List (Nat × Outgoing)} {j : Nat} {pc : Pc}
    (h : Stands text programs writer log j pc) (hlog : Pool.madeBy j log' = Pool.madeBy j log)
    (hwriter : (∃ left, writer' = some (j, left)) ↔ ∃ left, writer = some (j, left)) :
    Stands text programs writer' log' j pc where
  program := by rw [hlog, h.program]
  framed := h.framed
  holds := h.holds.trans hwriter.symm

theorem fit_of_getD (hfit : ∀ calls ∈ programs, ∀ call ∈ calls, Fit text call) {i : Nat} {call : Outgoing}
    (h : call ∈ programs.getD i []) : Fit text call := by
  by_cases hi : i < programs.length
  · have hget : programs.getD i [] = programs[i] := by simp [hi]
    rw [hget] at h
    exact hfit _ (List.getElem_mem hi) call h
  · have hget : programs.getD i [] = [] := by simp [hi]
    rw [hget] at h
    cases h

theorem Inv.fit_pending (hi : Inv text programs s) (hfit : ∀ calls ∈ programs, ∀ call ∈ calls, Fit text call) {i : Nat}
    {pc : Pc} (hpc : s.threads[i]? = some pc) : ∀ call ∈ pc.pending, Fit text call := by
  intro call hcall
  have hprogram := (hi.threads i pc hpc).program
  exact fit_of_getD hfit (i := i) (by rw [← hprogram]; exact List.mem_append_right _ hcall)

theorem Inv.fit_logged (hi : Inv text programs s) (hfit : ∀ calls ∈ programs, ∀ call ∈ calls, Fit text call) :
    ∀ e ∈ s.log, Fit text e.2 := by
  intro e he
  have hlt : e.1 < s.threads.length := by rw [hi.length]; exact hi.logged e he
  have hprogram := (hi.threads e.1 _ (List.getElem?_eq_getElem hlt)).program
  have hmem : e.2 ∈ Pool.madeBy e.1 s.log := Pool.mem_madeBy.2 he
  exact fit_of_getD hfit (i := e.1) (by rw [← hprogram]; exact List.mem_append_left _ hmem)

/-- **What has been read**, as the calls whose lines are complete. -/
theorem Inv.read_calls (hi : Inv text programs s) (hempty : text.parse [] = none)
    (hfit : ∀ calls ∈ programs, ∀ call ∈ calls, Fit text call) :
    s.reader.escaped = none ∧
      ∃ k, s.reader.state = { handed := (s.log.take k).flatMap (fun e => e.2.arrives) } ∧
        (s.pipe = [] → s.left = [] → s.log.take k = s.log) := by
  obtain ⟨seen, hstream, hreader⟩ := hi.stream
  have hcalls : ∀ call ∈ s.log.map Prod.snd, Fit text call := by
    intro call hcall
    obtain ⟨e, he, rfl⟩ := List.mem_map.1 hcall
    exact hi.fit_logged hfit e he
  have hmap : (s.log.map Prod.snd).map (Outgoing.line text) = s.log.map (fun e => e.2.line text) := by
    rw [List.map_map]
    rfl
  rw [← hmap] at hstream
  obtain ⟨k, hstate, hescaped, hall⟩ := feed_prefix hempty hcalls hstream
  rw [← hreader] at hstate hescaped
  refine ⟨hescaped, k, ?_, fun hpipe hleft => ?_⟩
  · rw [hstate, ← List.map_take, List.flatMap_map]
  · have htake := hall (by simp [hpipe, hleft])
    rw [← List.map_take] at htake
    have hlen := congrArg List.length htake
    simp only [List.length_map, List.length_take] at hlen
    exact List.take_of_length_le (by omega)

theorem Inv.call (hi : Inv text programs s) (hfit : ∀ calls ∈ programs, ∀ call ∈ calls, Fit text call) {i : Nat}
    {call : Outgoing} {calls : List Outgoing} (hthread : s.threads[i]? = some (.idle (call :: calls))) :
    Inv text programs (startCall text s i call calls) := by
  have hcall : Fit text call := hi.fit_pending hfit hthread call List.mem_cons_self
  have hstart : startCall text s i call calls = s.setThread i (.waiting (call.line text ++ [10]) call calls) := by
    unfold startCall
    rw [hcall.serialize]
    simp only [hcall.sendLine]
  have hown := hi.threads i _ hthread
  rw [hstart]
  refine ⟨?_, by simpa [State.setThread] using hi.length, by simpa [State.setThread] using hi.holder, hi.logged, hi.stream, hi.errors,
    hi.thrown⟩
  refine Pool.forall_getElem?_set hi.threads (fun j pc _ h => h) ⟨hown.program, fun framed call' calls' h => ?_, ?_⟩
  · cases h
    rfl
  · refine Iff.trans ?_ hown.holds
    constructor <;> rintro ⟨calls', h⟩ <;> cases h

theorem Inv.lock (hi : Inv text programs s) {i : Nat} {framed : Bytes} {call : Outgoing} {calls : List Outgoing}
    (hthread : s.threads[i]? = some (.waiting framed call calls)) (hfree : s.writer = none) :
    Inv text programs
      { s.setThread i (.writing calls) with writer := some (i, framed), log := s.log ++ [(i, call)] } := by
  have hown := hi.threads i _ hthread
  have hframed := hown.framed framed call calls rfl
  have hlt : i < s.threads.length := (List.getElem?_eq_some_iff.1 hthread).1
  refine ⟨?_, by simpa [State.setThread] using hi.length, ?_, ?_, ?_, hi.errors, hi.thrown⟩
  · refine Pool.forall_getElem?_set hi.threads (fun j pc hj h => ?_) ⟨?_, fun framed call' calls' h => (by cases h), ?_⟩
    · apply h.other (Pool.madeBy_append_of_ne hj _ _)
      rw [hfree]
      constructor
      · rintro ⟨left, hw⟩
        exact absurd (Prod.mk.inj (Option.some.inj hw)).1.symm hj
      · rintro ⟨left, hw⟩
        cases hw
    · rw [← hown.program, Pool.madeBy_append_self]
      simp [Pc.pending]
    · exact ⟨fun _ => ⟨framed, rfl⟩, fun _ => ⟨calls, rfl⟩⟩
  · intro j left hw
    obtain ⟨rfl, -⟩ := Prod.mk.inj (Option.some.inj hw)
    simpa [State.setThread] using hlt
  · intro e he
    rcases List.mem_append.1 he with he | he
    · exact hi.logged e he
    · rw [List.mem_singleton.1 he, ← hi.length]
      exact hlt
  · obtain ⟨seen, hstream, hreader⟩ := hi.stream
    refine ⟨seen, ?_, hreader⟩
    have hleft : s.left = [] := by simp [State.left, hfree]
    rw [hleft, List.append_nil] at hstream
    simp only [State.left, State.setThread, List.map_append, List.map_singleton, hframed]
    rw [← List.append_assoc, hstream]
    simp [unlines]

theorem Inv.write (hi : Inv text programs s) {i n : Nat} {left : Bytes} (hwriter : s.writer = some (i, left)) :
    Inv text programs { s with writer := some (i, left.drop (n + 1)), pipe := s.pipe ++ left.take (n + 1) } := by
  refine ⟨fun j pc hpc => ?_, hi.length, ?_, hi.logged, ?_, hi.errors, hi.thrown⟩
  · apply (hi.threads j pc hpc).other rfl
    rw [hwriter]
    constructor
    · rintro ⟨l, hw⟩
      exact ⟨left, by rw [(Prod.mk.inj (Option.some.inj hw)).1]⟩
    · rintro ⟨l, hw⟩
      exact ⟨left.drop (n + 1), by rw [(Prod.mk.inj (Option.some.inj hw)).1]⟩
  · intro j l hw
    obtain ⟨rfl, -⟩ := Prod.mk.inj (Option.some.inj hw)
    exact hi.holder _ left hwriter
  · obtain ⟨seen, hstream, hreader⟩ := hi.stream
    refine ⟨seen, ?_, hreader⟩
    have hleft : s.left = left := by simp [State.left, hwriter]
    rw [← hstream, hleft]
    simp [State.left]

theorem Inv.unlock (hi : Inv text programs s) {i : Nat} {calls : List Outgoing}
    (hthread : s.threads[i]? = some (.writing calls)) (hwriter : s.writer = some (i, [])) :
    Inv text programs { s.setThread i (.idle calls) with writer := none } := by
  have hown := hi.threads i _ hthread
  refine ⟨?_, by simpa [State.setThread] using hi.length, fun j left hw => (by cases hw), hi.logged, ?_, hi.errors, hi.thrown⟩
  · refine Pool.forall_getElem?_set hi.threads (fun j pc hj h => ?_)
      ⟨hown.program, fun framed call' calls' h => (by cases h), ?_⟩
    · apply h.other rfl
      rw [hwriter]
      constructor
      · rintro ⟨left, hw⟩
        cases hw
      · rintro ⟨left, hw⟩
        exact absurd (Prod.mk.inj (Option.some.inj hw)).1.symm hj
    · constructor
      · rintro ⟨calls', h⟩
        cases h
      · rintro ⟨left, h⟩
        cases h
  · obtain ⟨seen, hstream, hreader⟩ := hi.stream
    refine ⟨seen, ?_, hreader⟩
    simpa [State.left, hwriter, State.setThread] using hstream

theorem Inv.read (hi : Inv text programs s) {n : Nat} (halive : s.reader.escaped = none) :
    Inv text programs
      { s with
        reader := s.reader.feed text recorder (s.pipe.take (min (n + 1) chunkSize))
        pipe := s.pipe.drop (min (n + 1) chunkSize) } := by
  refine ⟨hi.threads, hi.length, hi.holder, hi.logged, ?_, hi.errors, hi.thrown⟩
  obtain ⟨seen, hstream, hreader⟩ := hi.stream
  refine ⟨seen ++ s.pipe.take (min (n + 1) chunkSize), ?_, ?_⟩
  · rw [← hstream, List.append_assoc]
    congr 1
    rw [← List.append_assoc, List.take_append_drop]
    rfl
  · rw [hreader] at halive
    rw [Reader.feed_append _ _ _ _ _ halive, hreader]

/-- **Every step keeps the invariant.** -/
theorem inv_step (hfit : ∀ calls ∈ programs, ∀ call ∈ calls, Fit text call) {label : Label} (hi : Inv text programs s)
    (h : step text s label = some t) : Inv text programs t := by
  cases step_cases h with
  | call thread => exact hi.call hfit thread
  | lock thread free => exact hi.lock thread free
  | write writer more => exact hi.write writer
  | unlock thread writer => exact hi.unlock thread writer
  | read some alive => exact hi.read alive

/-! ## Every run ends, and with everything delivered -/

/-- What making a call costs, and what a thread still has to do. -/
def Outgoing.work (text : JsonText Bytes) (call : Outgoing) : Nat := 2 * (call.line text ++ [10]).length + 3

def callsWork (text : JsonText Bytes) (calls : List Outgoing) : Nat := (calls.map (Outgoing.work text)).sum

def Pc.work (text : JsonText Bytes) : Pc → Nat
  | idle calls => callsWork text calls
  | waiting framed _ calls => 2 * framed.length + 2 + callsWork text calls
  | writing calls => 1 + callsWork text calls

/-- A bound on the steps to come: a byte to write counts twice, a byte to read once. -/
def State.work (text : JsonText Bytes) (s : State) : Nat :=
  (s.threads.map (Pc.work text)).sum + 2 * s.left.length + s.pipe.length

theorem sum_map_set {α : Type} (f : α → Nat) : ∀ {l : List α} {i : Nat} {x : α}, l[i]? = some x → ∀ y,
    ((l.set i y).map f).sum + f x = (l.map f).sum + f y
  | [], i, x, h, y => by simp at h
  | z :: l, 0, x, h, y => by
    obtain rfl : z = x := by simpa using h
    simp
    omega
  | z :: l, i + 1, x, h, y => by
    have ih := sum_map_set f (l := l) (i := i) (x := x) (by simpa using h) y
    simp only [List.set_cons_succ, List.map_cons, List.sum_cons]
    omega

theorem work_step (hi : Inv text programs s) (hfit : ∀ calls ∈ programs, ∀ call ∈ calls, Fit text call) {label : Label}
    (h : step text s label = some t) : t.work text < s.work text := by
  cases step_cases h with
  | @call i call calls thread =>
    have hcall : Fit text call := hi.fit_pending hfit thread call List.mem_cons_self
    have hsum := sum_map_set (Pc.work text) thread (.waiting (call.line text ++ [10]) call calls)
    unfold startCall
    rw [hcall.serialize]
    simp only [hcall.sendLine]
    simp only [State.work, State.setThread, State.left, Pc.work, callsWork, Outgoing.work, List.map_cons,
      List.sum_cons] at hsum ⊢
    omega
  | @lock i framed call calls thread free =>
    have hsum := sum_map_set (Pc.work text) thread (.writing calls)
    simp only [State.work, State.setThread, State.left, free, Pc.work, List.length_nil] at hsum ⊢
    omega
  | @write i n left writer more =>
    have hpos : 0 < left.length := List.length_pos_iff.2 more
    simp only [State.work, State.left, writer, List.length_append, List.length_take, List.length_drop]
    omega
  | @unlock i calls thread writer =>
    have hsum := sum_map_set (Pc.work text) thread (.idle calls)
    simp only [State.work, State.setThread, State.left, writer, Pc.work, List.length_nil] at hsum ⊢
    omega
  | @read n some alive =>
    have hpos : 0 < s.pipe.length := List.length_pos_iff.2 some
    have hchunk : 0 < chunkSize := by decide
    simp only [State.work, State.left, List.length_drop]
    omega

theorem run_bounded (hfit : ∀ calls ∈ programs, ∀ call ∈ calls, Fit text call) :
    ∀ {labels : List Label} {s t : State}, Inv text programs s → Lts.run (step text) s labels = some t →
      labels.length ≤ s.work text
  | [], s, t, _, _ => Nat.zero_le _
  | label :: labels, s, t, hi, h => by
    obtain ⟨u, hu, hrest⟩ := Lts.run_cons_eq_some.1 h
    have hlt := work_step hi hfit hu
    have ih := run_bounded hfit (inv_step hfit hi hu) hrest
    simp only [List.length_cons]
    omega

structure Finished (s : State) : Prop where
  threads : ∀ (i : Nat) (pc : Pc), s.threads[i]? = some pc → pc = .idle []
  writer : s.writer = none
  pipe : s.pipe = []

/-- **A state that no step leaves is finished.** -/
theorem finished_of_stuck (hi : Inv text programs s) (halive : s.reader.escaped = none)
    (hstuck : ∀ label, step text s label = none) : Finished s := by
  have hpipe : s.pipe = [] := by
    cases hp : s.pipe with
    | nil => rfl
    | cons b rest =>
      have hread := hstuck (.read 0)
      simp [step, hp, halive] at hread
  have hwriter : s.writer = none := by
    cases hw : s.writer with
    | none => rfl
    | some holder =>
      obtain ⟨i, left⟩ := holder
      cases left with
      | cons b left =>
        have hwrite := hstuck (.write i 0)
        simp [step, hw] at hwrite
      | nil =>
        have hlt := hi.holder i [] hw
        have hthread := List.getElem?_eq_getElem hlt
        obtain ⟨calls, hcalls⟩ := (hi.threads i _ hthread).holds.2 ⟨[], hw⟩
        rw [hcalls] at hthread
        have hunlock := hstuck (.unlock i)
        simp [step, hw, hthread] at hunlock
  refine ⟨fun i pc hpc => ?_, hwriter, hpipe⟩
  cases pc with
  | idle calls =>
    cases calls with
    | nil => rfl
    | cons call calls =>
      have hcall := hstuck (.call i)
      simp [step, hpc] at hcall
  | waiting framed call calls =>
    have hlock := hstuck (.lock i)
    simp [step, hpc, hwriter] at hlock
  | writing calls =>
    obtain ⟨left, hleft⟩ := (hi.threads i _ hpc).holds.1 ⟨calls, rfl⟩
    rw [hwriter] at hleft
    cases hleft

/-- **What a state of the pipe delivers**: nothing fails; the peer has been handed the messages of a number of logged
calls, in order and each call as a block; every thread has logged a beginning of its calls. -/
structure Delivers (programs : List (List Outgoing)) (s : State) : Prop where
  silent : s.errors = [] ∧ s.thrown = [] ∧ s.reader.escaped = none ∧ s.reader.state.errors = []
  handed : ∃ k, s.reader.state.handed = (s.log.take k).flatMap (fun e => e.2.arrives)
  ordered : ∀ i, Pool.madeBy i s.log <+: programs.getD i []

theorem Inv.delivers (hi : Inv text programs s) (hempty : text.parse [] = none)
    (hfit : ∀ calls ∈ programs, ∀ call ∈ calls, Fit text call) : Delivers programs s := by
  obtain ⟨halive, k, hstate, -⟩ := hi.read_calls hempty hfit
  refine ⟨⟨hi.errors, hi.thrown, halive, by rw [hstate]⟩, ⟨k, by rw [hstate]⟩, fun i => ?_⟩
  by_cases hlt : i < s.threads.length
  · exact ⟨_, (hi.threads i _ (List.getElem?_eq_getElem hlt)).program⟩
  · have hnone : Pool.madeBy i s.log = [] := by
      rw [List.eq_nil_iff_forall_not_mem]
      intro call hcall
      have hlogged := hi.logged _ (Pool.mem_madeBy.1 hcall)
      rw [hi.length] at hlt
      exact hlt hlogged
    rw [hnone]
    exact List.nil_prefix

/-- **Concurrent senders deliver exactly what they send.**  In every reachable state nothing has failed and the peer has
a beginning of the logged calls; runs are bounded; and where no step is left, every thread has logged all its calls and
the peer has the messages of the whole log. -/
theorem senders_deliver (hempty : text.parse [] = none)
    (hwf : ∀ calls ∈ programs, ∀ call ∈ calls, call.WellFormed)
    (hprints : ∀ calls ∈ programs, ∀ call ∈ calls, call.json.validUtf8 = true → ∃ t, text.Prints call.json t)
    {labels : List Label} (h : Lts.run (step text) (init programs) labels = some s) :
    Delivers programs s ∧ labels.length ≤ (init programs).work text ∧
      ((∀ label, step text s label = none) →
        s.reader.state.handed = s.log.flatMap (fun e => e.2.arrives) ∧
          ∀ i, Pool.madeBy i s.log = programs.getD i []) := by
  have hfit : ∀ calls ∈ programs, ∀ call ∈ calls, Fit text call := by
    intro calls hcalls call hcall
    obtain ⟨t, ht⟩ := hprints calls hcalls call hcall (hwf calls hcalls call hcall).utf8
    exact fit_of_printable (hwf calls hcalls call hcall) ht
  have hi : Inv text programs s := Lts.run_invariant (fun _ _ _ hi hs => inv_step hfit hi hs) inv_init h
  refine ⟨hi.delivers hempty hfit, run_bounded hfit inv_init h, fun hstuck => ?_⟩
  obtain ⟨halive, k, hstate, hall⟩ := hi.read_calls hempty hfit
  have hfinished := finished_of_stuck hi halive hstuck
  have hleft : s.left = [] := by simp [State.left, hfinished.writer]
  refine ⟨by rw [hstate, hall hfinished.pipe hleft], fun i => ?_⟩
  by_cases hlt : i < s.threads.length
  · have hthread := List.getElem?_eq_getElem hlt
    have hidle := hfinished.threads i _ hthread
    have hprogram := (hi.threads i _ hthread).program
    rw [hidle] at hprogram
    simpa [Pc.pending] using hprogram
  · have hprogram : programs.getD i [] = [] := by simp [← hi.length, hlt]
    have hbegin := (hi.delivers hempty hfit).ordered i
    rw [hprogram] at hbegin ⊢
    exact List.prefix_nil.1 hbegin

end

/-! ## Two senders -/

def pingMessage : Message := .request { id := .int 1, method := methods.kPing }

def noteMessage : Message := .notification { method := methods.kNotificationInitialized }

def twoSenders : List (List Outgoing) := [[.send pingMessage], [.sendBatch [noteMessage, pingMessage]]]

def twoText : JsonText Bytes := readsBack [messageToJson pingMessage, .array [messageToJson noteMessage, messageToJson pingMessage]]

/-- The batch goes first, in two writes, and is read in three pieces, the last with the ping. -/
def twoRun : List Label :=
  [.call 0, .call 1, .lock 1, .write 1 10, .read 4, .read 100, .write 1 1000, .unlock 1, .lock 0, .write 0 1000, .unlock 0,
    .read 4000]

theorem senders_deliver_two :
    ∃ s, Lts.run (step twoText) (init twoSenders) twoRun = some s ∧ s.reader.state.handed.length = 3 ∧
      Delivers twoSenders s := by
  have hrun : (Lts.run (step twoText) (init twoSenders) twoRun).map (·.reader.state.handed.length) = some 3 := by
    decide +kernel
  obtain ⟨s, hs, hhanded⟩ := Option.map_eq_some_iff.1 hrun
  have hwf : ∀ calls ∈ twoSenders, ∀ call ∈ calls, call.WellFormed := by
    intro calls hcalls call hcall
    simp only [twoSenders, List.mem_cons, List.not_mem_nil, or_false] at hcalls
    rcases hcalls with rfl | rfl
    · rw [List.mem_singleton.1 hcall]
      exact ⟨by simp [Outgoing.messages, pingMessage, Message.WellFormed], by simp [Outgoing.messages], by decide +kernel⟩
    · rw [List.mem_singleton.1 hcall]
      exact ⟨by simp [Outgoing.messages, pingMessage, noteMessage, Message.WellFormed], by simp [Outgoing.messages],
        by decide +kernel⟩
  have hprints : ∀ calls ∈ twoSenders, ∀ call ∈ calls, call.json.validUtf8 = true → ∃ t, twoText.Prints call.json t := by
    intro calls hcalls call hcall hvalid
    simp only [twoSenders, List.mem_cons, List.not_mem_nil, or_false] at hcalls
    rcases hcalls with rfl | rfl
    · rw [List.mem_singleton.1 hcall] at hvalid ⊢
      exact ⟨_, readsBack_prints hvalid (by decide +kernel) rfl⟩
    · rw [List.mem_singleton.1 hcall] at hvalid ⊢
      exact ⟨_, readsBack_prints hvalid (by decide +kernel) rfl⟩
  exact ⟨s, hs, hhanded, (senders_deliver rfl hwf hprints hs).1⟩

end Pipe
end Mcp
