import McpSdk.Session
import McpSdk.Lib.Pool
import McpSdk.Lib.Run
/-!
# Lifecycle — the session state under a handshake and a close

Every atomic load and store of `state_` is one step.  The handshake's activities load the state once and store later
without looking again, so a close that lands in between is overwritten: `Shutdown` is terminal in a run exactly when
no close does (`shutdown_terminal_iff`).
-/
namespace Mcp
namespace Lifecycle

/-! ## State and steps -/

structure State where
  cls : SessionClass
  state : SessionState := .uninitialized
  clientInfo : Option Implementation := none
  clientCapabilities : Option ClientCapabilities := none
  serverInfo : Option Implementation := none
  serverCapabilities : Option ServerCapabilities := none
  /-- What the `initialize` handler returned, and what `ClientSession::initialize` did. -/
  answers : List (Result Json) := []
  returns : List (Result InitializeResult) := []
  /-- The stores of `Shutdown` so far. -/
  shutdowns : Nat := 0

/-- Where an activity stands, with its locals; `seen` is `shutdowns` at its load of the state. -/
inductive Pc where
  | done
  /-- `initialize` handler: load, reset of the peer (reinitialize), parse and peer section, store. -/
  | answerCheck (options : ServerOptions) (params : Option Json)
  | answerReset (options : ServerOptions) (params : Option Json) (seen : Nat)
  | answerParse (options : ServerOptions) (params : Option Json) (seen : Nat)
  | answerStore (options : ServerOptions) (parsed : InitializeParams) (seen : Nat)
  /-- `notifications/initialized` handler: load, store. -/
  | noteCheck
  | noteStore (seen : Nat)
  /-- `ClientSession::initialize`: load, store, wait for the response, and its four ends. -/
  | initCheck (options : ClientOptions)
  | initStore (options : ClientOptions) (seen : Nat)
  | initWait (options : ClientOptions) (seen : Nat)
  | initFail (e : Error) (seen : Nat)
  | initDisconnect (e : Error)
  | initPeer (result : InitializeResult) (seen : Nat)
  | initNotify (result : InitializeResult) (seen : Nat)
  | initOperate (result : InitializeResult) (seen : Nat)

inductive Label where
  /-- An `initialize` request is dispatched on a connection thread. -/
  | initializeRequest (params : Option Json)
  | initializedNote
  | callInitialize
  /-- `send_request_sync` of an `initialize()` returns. -/
  | response (thread : Nat) (r : Result Json)
  | handleClose
  | disconnect
  | step (thread : Nat)

/-- A store of `Shutdown`. -/
def State.shutdown (s : State) : State := { s with state := .shutdown, shutdowns := s.shutdowns + 1 }

/-- What `initialize()` does with the response. -/
def initResponse (options : ClientOptions) (seen : Nat) : Result Json → Pc
  | .error e => .initFail e seen
  | .ok j =>
    match InitializeResult.fromJson j with
    | .error e => .initFail (Error.of .internalError (bytes "invalid initialize result: " ++ e.what)) seen
    | .ok result =>
      if options.supportedVersions.contains result.protocolVersion then .initPeer result seen
      else .initDisconnect (Error.of .invalidRequest (bytes "unsupported protocol version: " ++ result.protocolVersion))

/-- The next load, store or peer section of an activity. -/
def advance (s : State) : Pc → Option (State × Pc)
  | .done => none
  | .answerCheck options params =>
    if s.state = .uninitialized then some (s, .answerParse options params s.shutdowns)
    else if options.allowReinitialize then some (s, .answerReset options params s.shutdowns)
    else some ({ s with answers := s.answers ++ [.error (Error.of .invalidRequest (bytes "initialize already received"))] },
      .done)
  | .answerReset options params seen =>
    some ({ s with clientInfo := none, clientCapabilities := none }, .answerParse options params seen)
  | .answerParse options params seen =>
    match params with
    | none =>
      some ({ s with answers := s.answers ++ [.error (Error.of .invalidParams (bytes "initialize requires params"))] }, .done)
    | some p =>
      match InitializeParams.fromJson p with
      | .error e =>
        some ({ s with answers := s.answers ++
          [.error (Error.of .invalidParams (bytes "invalid initialize params: " ++ e.what))] }, .done)
      | .ok parsed =>
        some ({ s with clientInfo := some parsed.clientInfo, clientCapabilities := some parsed.capabilities },
          .answerStore options parsed seen)
  | .answerStore options parsed _ =>
    let result : InitializeResult :=
      { protocolVersion := options.negotiate parsed.protocolVersion
        capabilities := options.capabilities
        serverInfo := options.serverInfo
        instructions := options.instructions }
    some ({ s with state := .initializing, answers := s.answers ++ [.ok result.toJson] }, .done)
  | .noteCheck => some (s, if s.state = .initializing then .noteStore s.shutdowns else .done)
  | .noteStore _ => some ({ s with state := .operating }, .done)
  | .initCheck options =>
    if s.state = .uninitialized then some (s, .initStore options s.shutdowns)
    else some ({ s with returns := s.returns ++ [.error (Error.of .invalidRequest (bytes "session already initialized"))] },
      .done)
  | .initStore options seen => some ({ s with state := .initializing }, .initWait options seen)
  | .initWait _ _ => none
  | .initFail e _ => some ({ s with state := .uninitialized, returns := s.returns ++ [.error e] }, .done)
  | .initDisconnect e => some ({ s.shutdown with returns := s.returns ++ [.error e] }, .done)
  | .initPeer result seen =>
    some ({ s with serverInfo := some result.serverInfo, serverCapabilities := some result.capabilities },
      .initNotify result seen)
  | .initNotify result seen => some (s, .initOperate result seen)
  | .initOperate result _ => some ({ s with state := .operating, returns := s.returns ++ [.ok result] }, .done)

/-- `send_request_sync` returns in a waiting thread. -/
def deliver (p : Pool State Pc) (i : Nat) (r : Result Json) : Option (Pool State Pc) :=
  match p.threads[i]? with
  | some (.initWait options seen) => some { p with threads := p.threads.set i (initResponse options seen r) }
  | _ => none

def step (p : Pool State Pc) : Label → Option (Pool State Pc)
  | .initializeRequest params =>
    match p.shared.cls with
    | .server options => some (p.spawn p.shared (.answerCheck options params))
    | _ => none
  | .initializedNote =>
    match p.shared.cls with
    | .server _ => some (p.spawn p.shared .noteCheck)
    | _ => none
  | .callInitialize =>
    match p.shared.cls with
    | .client options => some (p.spawn p.shared (.initCheck options))
    | _ => none
  | .response i r => deliver p i r
  | .handleClose => some { p with shared := p.shared.shutdown }
  | .disconnect => some { p with shared := p.shared.shutdown }
  | .step i => Pool.stepAt advance p i

def init (cls : SessionClass) : Pool State Pc := ⟨{ cls }, []⟩

/-! ## The property and the condition -/

/-- **`Shutdown` is terminal** in the run of `labels`: after any state in which it holds, it holds. -/
def ShutdownTerminal (cls : SessionClass) (labels : List Label) : Prop :=
  ∀ pre mid post p q, labels = pre ++ mid ++ post → Lts.run step (init cls) pre = some p → p.shared.state = .shutdown →
    Lts.run step p mid = some q → q.shared.state = .shutdown

/-- The load behind the store a thread is about to make. -/
def Pc.storesAfter : Pc → Option Nat
  | answerStore _ _ seen => some seen
  | noteStore seen => some seen
  | initStore _ seen => some seen
  | initFail _ seen => some seen
  | initOperate _ seen => some seen
  | _ => none

/-- **No close lands between a load and its store**: a handshake step that stores the state does so with no store of
`Shutdown` since it loaded it. -/
def Undisturbed (p : Pool State Pc) : Label → Prop
  | .step i => (p.threads[i]?).all (fun pc => pc.storesAfter.all (fun seen => seen == p.shared.shutdowns)) = true
  | _ => True

instance : ∀ (p : Pool State Pc) (l : Label), Decidable (Undisturbed p l)
  | _, .step _ => inferInstanceAs (Decidable (_ = true))
  | _, .initializeRequest _ => isTrue trivial
  | _, .initializedNote => isTrue trivial
  | _, .callInitialize => isTrue trivial
  | _, .response .. => isTrue trivial
  | _, .handleClose => isTrue trivial
  | _, .disconnect => isTrue trivial

/-! ## Steps -/

/-- The load an activity still relies on. -/
def Pc.seen : Pc → Option Nat
  | answerReset _ _ seen => some seen
  | answerParse _ _ seen => some seen
  | answerStore _ _ seen => some seen
  | noteStore seen => some seen
  | initStore _ seen => some seen
  | initWait _ seen => some seen
  | initFail _ seen => some seen
  | initPeer _ seen => some seen
  | initNotify _ seen => some seen
  | initOperate _ seen => some seen
  | _ => none

/-- An `initialize` request is handled with reinitialization off. -/
def Pc.strict : Pc → Bool
  | answerCheck options _ => !options.allowReinitialize
  | _ => true

/-- `pc'` relies on a load of `pc`, or on one made just now. -/
def Relies (s : State) (pc pc' : Pc) : Prop :=
  ∀ n, pc'.seen = some n → pc.seen = some n ∨ (n = s.shutdowns ∧ s.state ≠ .shutdown)

/-- **What a step does to the session state.** -/
inductive Change (s : State) (pc : Pc) (s' : State) (pc' : Pc) : Prop
  | keeps (storing : pc.storesAfter = none) (state : s'.state = s.state) (shutdowns : s'.shutdowns = s.shutdowns)
      (relies : Relies s pc pc')
  | shuts (storing : pc.storesAfter = none) (state : s'.state = .shutdown) (shutdowns : s'.shutdowns = s.shutdowns + 1)
      (relies : pc'.seen = none)
  | stores (seen : Nat) (storing : pc.storesAfter = some seen) (relied : pc.seen = some seen)
      (state : s'.state ≠ .shutdown) (shutdowns : s'.shutdowns = s.shutdowns) (relies : Relies s pc pc')

theorem Relies.same {s : State} {pc pc' : Pc} (h : pc'.seen = pc.seen) : Relies s pc pc' :=
  fun _ hn => .inl (h ▸ hn)

theorem Relies.none {s : State} {pc pc' : Pc} (h : pc'.seen = none) : Relies s pc pc' := by
  intro n hn
  rw [h] at hn
  cases hn

theorem Relies.load {s : State} {pc pc' : Pc} (h : pc'.seen = some s.shutdowns) (hs : s.state ≠ .shutdown) :
    Relies s pc pc' := by
  intro n hn
  rw [h] at hn
  exact .inr ⟨(Option.some.inj hn).symm, hs⟩

/-- **The spec of a step.** -/
theorem advance_change {s s' : State} {pc pc' : Pc} (hstrict : pc.strict = true)
    (h : advance s pc = some (s', pc')) : s'.cls = s.cls ∧ pc'.strict = true ∧ Change s pc s' pc' := by
  have hload : s.state = .uninitialized → s.state ≠ .shutdown := fun h => by
    rw [h]
    exact SessionState.noConfusion
  cases pc with
  | done => cases h
  | initWait options seen => cases h
  | answerCheck options params =>
    simp only [advance] at h
    split at h
    · rename_i hu
      obtain ⟨rfl, rfl⟩ := Pool.section_inj h
      exact ⟨rfl, rfl, .keeps rfl rfl rfl (.load rfl (hload hu))⟩
    · split at h
      · rename_i hre
        simp [Pc.strict, hre] at hstrict
      · obtain ⟨rfl, rfl⟩ := Pool.section_inj h
        exact ⟨rfl, rfl, .keeps rfl rfl rfl (.none rfl)⟩
  | answerReset options params seen =>
    obtain ⟨rfl, rfl⟩ := Pool.section_inj h
    exact ⟨rfl, rfl, .keeps rfl rfl rfl (.same rfl)⟩
  | answerParse options params seen =>
    simp only [advance] at h
    split at h
    · obtain ⟨rfl, rfl⟩ := Pool.section_inj h
      exact ⟨rfl, rfl, .keeps rfl rfl rfl (.none rfl)⟩
    · split at h
      · obtain ⟨rfl, rfl⟩ := Pool.section_inj h
        exact ⟨rfl, rfl, .keeps rfl rfl rfl (.none rfl)⟩
      · obtain ⟨rfl, rfl⟩ := Pool.section_inj h
        exact ⟨rfl, rfl, .keeps rfl rfl rfl (.same rfl)⟩
  | answerStore options parsed seen =>
    obtain ⟨rfl, rfl⟩ := Pool.section_inj h
    exact ⟨rfl, rfl, .stores seen rfl rfl SessionState.noConfusion rfl (.none rfl)⟩
  | noteCheck =>
    obtain ⟨rfl, rfl⟩ := Pool.section_inj h
    split
    · rename_i hi
      exact ⟨rfl, rfl, .keeps rfl rfl rfl (.load rfl (by rw [hi]; exact SessionState.noConfusion))⟩
    · exact ⟨rfl, rfl, .keeps rfl rfl rfl (.none rfl)⟩
  | noteStore seen =>
    obtain ⟨rfl, rfl⟩ := Pool.section_inj h
    exact ⟨rfl, rfl, .stores seen rfl rfl SessionState.noConfusion rfl (.none rfl)⟩
  | initCheck options =>
    simp only [advance] at h
    split at h
    · rename_i hu
      obtain ⟨rfl, rfl⟩ := Pool.section_inj h
      exact ⟨rfl, rfl, .keeps rfl rfl rfl (.load rfl (hload hu))⟩
    · obtain ⟨rfl, rfl⟩ := Pool.section_inj h
      exact ⟨rfl, rfl, .keeps rfl rfl rfl (.none rfl)⟩
  | initStore options seen =>
    obtain ⟨rfl, rfl⟩ := Pool.section_inj h
    exact ⟨rfl, rfl, .stores seen rfl rfl SessionState.noConfusion rfl (.same rfl)⟩
  | initFail e seen =>
    obtain ⟨rfl, rfl⟩ := Pool.section_inj h
    exact ⟨rfl, rfl, .stores seen rfl rfl SessionState.noConfusion rfl (.none rfl)⟩
  | initDisconnect e =>
    obtain ⟨rfl, rfl⟩ := Pool.section_inj h
    exact ⟨rfl, rfl, .shuts rfl rfl rfl rfl⟩
  | initPeer result seen =>
    obtain ⟨rfl, rfl⟩ := Pool.section_inj h
    exact ⟨rfl, rfl, .keeps rfl rfl rfl (.same rfl)⟩
  | initNotify result seen =>
    obtain ⟨rfl, rfl⟩ := Pool.section_inj h
    exact ⟨rfl, rfl, .keeps rfl rfl rfl (.same rfl)⟩
  | initOperate result seen =>
    obtain ⟨rfl, rfl⟩ := Pool.section_inj h
    exact ⟨rfl, rfl, .stores seen rfl rfl SessionState.noConfusion rfl (.none rfl)⟩

/-! ## Invariant -/

/-- **The invariant**: with no store of `Shutdown` since a load, the state is not `Shutdown`. -/
structure Loaded (cls : SessionClass) (p : Pool State Pc) : Prop where
  cls : p.shared.cls = cls
  strict : ∀ pc ∈ p.threads, pc.strict = true
  seen : ∀ pc ∈ p.threads, ∀ n, pc.seen = some n →
    n ≤ p.shared.shutdowns ∧ (n = p.shared.shutdowns → p.shared.state ≠ .shutdown)

theorem initResponse_seen (options : ClientOptions) (seen : Nat) (r : Result Json) :
    (initResponse options seen r).strict = true ∧
      ∀ n, (initResponse options seen r).seen = some n → seen = n := by
  unfold initResponse
  (repeat' split) <;> exact ⟨rfl, fun n h => by cases h <;> rfl⟩

theorem Loaded.shutdown {cls : SessionClass} {p : Pool State Pc} (hp : Loaded cls p) :
    Loaded cls { p with shared := p.shared.shutdown } where
  cls := hp.cls
  strict := hp.strict
  seen := by
    intro pc hpc n hn
    have hle := (hp.seen pc hpc n hn).1
    refine ⟨Nat.le_succ_of_le hle, fun heq => ?_⟩
    have : n = p.shared.shutdowns + 1 := heq
    omega

theorem Loaded.spawn {cls : SessionClass} {p : Pool State Pc} (hp : Loaded cls p) {pc : Pc} (hs : pc.strict = true)
    (hn : pc.seen = none) : Loaded cls (p.spawn p.shared pc) where
  cls := hp.cls
  strict := Pool.forall_append_singleton hp.strict hs
  seen := Pool.forall_append_singleton hp.seen (fun n h => by rw [hn] at h; cases h)

/-- A step of the pool, seen at the state. -/
theorem Loaded.stepAt {cls : SessionClass} {p q : Pool State Pc} {i : Nat} (hp : Loaded cls p)
    (h : Pool.stepAt advance p i = some q) : Loaded cls q := by
  obtain ⟨pc, s', pc', hpc, hadv, rfl⟩ := Pool.stepAt_eq_some.1 h
  have hmem := List.mem_of_getElem? hpc
  obtain ⟨hcls, hstrict, hchange⟩ := advance_change (hp.strict pc hmem) hadv
  refine ⟨hcls.trans hp.cls, Pool.forall_set hp.strict i hstrict, ?_⟩
  have relied : Relies p.shared pc pc' → ∀ n, pc'.seen = some n →
      n ≤ p.shared.shutdowns ∧ (n = p.shared.shutdowns → p.shared.state ≠ .shutdown) := by
    intro hrel n hn
    rcases hrel n hn with hold | ⟨rfl, hne⟩
    · exact hp.seen pc hmem n hold
    · exact ⟨le_refl _, fun _ => hne⟩
  cases hchange with
  | keeps storing state shutdowns relies =>
    show ∀ x ∈ p.threads.set i pc', ∀ n, x.seen = some n → n ≤ s'.shutdowns ∧ (n = s'.shutdowns → s'.state ≠ .shutdown)
    rw [state, shutdowns]
    exact Pool.forall_set hp.seen i (relied relies)
  | shuts storing state shutdowns relies =>
    refine Pool.forall_set (fun x hx n hn => ?_) i (fun n hn => by rw [relies] at hn; cases hn)
    have hle := (hp.seen x hx n hn).1
    rw [shutdowns]
    exact ⟨Nat.le_succ_of_le hle, fun heq => by omega⟩
  | stores seen storing relied' state shutdowns relies =>
    refine Pool.forall_set (fun x hx n hn => ?_) i (fun n hn => ?_)
    · rw [shutdowns]
      exact ⟨(hp.seen x hx n hn).1, fun _ => state⟩
    · rw [shutdowns]
      exact ⟨(relied relies n hn).1, fun _ => state⟩

theorem deliver_eq_some {p q : Pool State Pc} {i : Nat} {r : Result Json} (h : deliver p i r = some q) :
    ∃ options seen, p.threads[i]? = some (.initWait options seen) ∧
      q = { p with threads := p.threads.set i (initResponse options seen r) } := by
  unfold deliver at h
  split at h
  · exact ⟨_, _, ‹_›, (Option.some.inj h).symm⟩
  · cases h

theorem Loaded.deliver {cls : SessionClass} {p q : Pool State Pc} {i : Nat} {r : Result Json} (hp : Loaded cls p)
    (h : deliver p i r = some q) : Loaded cls q := by
  obtain ⟨options, seen, hpc, rfl⟩ := deliver_eq_some h
  obtain ⟨hstrict, hseen⟩ := initResponse_seen options seen r
  refine ⟨hp.cls, Pool.forall_set hp.strict i hstrict, Pool.forall_set hp.seen i (fun n hn => ?_)⟩
  exact hp.seen _ (List.mem_of_getElem? hpc) n (congrArg some (hseen n hn))

def Strict (cls : SessionClass) : Prop := ∀ options, cls = .server options → options.allowReinitialize = false

/-- **The step lemma.** -/
theorem Loaded.step {cls : SessionClass} (hcls : Strict cls) {p q : Pool State Pc} {l : Label} (hp : Loaded cls p)
    (h : step p l = some q) : Loaded cls q := by
  cases l with
  | initializeRequest params =>
    simp only [Lifecycle.step, hp.cls] at h
    split at h
    · rename_i options
      obtain rfl := Option.some.inj h
      exact hp.spawn (by rw [Pc.strict, hcls options rfl]; rfl) rfl
    · cases h
  | initializedNote | callInitialize =>
    simp only [Lifecycle.step, hp.cls] at h
    split at h
    · obtain rfl := Option.some.inj h
      exact hp.spawn rfl rfl
    · cases h
  | response i r => exact hp.deliver h
  | handleClose | disconnect =>
    obtain rfl := Option.some.inj h
    exact hp.shutdown
  | step i => exact hp.stepAt h

theorem loaded_init (cls : SessionClass) : Loaded cls (init cls) where
  cls := rfl
  strict := fun _ h => by cases h
  seen := fun _ h => by cases h

theorem loaded_of_run {cls : SessionClass} (hcls : Strict cls) {labels : List Label} {p : Pool State Pc}
    (hrun : Lts.run step (init cls) labels = some p) : Loaded cls p :=
  Lts.run_invariant (fun _ _ _ hp hstep => Loaded.step hcls hp hstep) (loaded_init cls) hrun

/-! ## When a step leaves `Shutdown` -/

/-- **The state after a step**: an undisturbed step keeps `Shutdown`; a disturbed one leaves a state that is not
`Shutdown`, after an earlier store of it; and a new store of `Shutdown` is seen in the state. -/
theorem step_state {cls : SessionClass} {p q : Pool State Pc} {l : Label} (hp : Loaded cls p) (h : step p l = some q) :
    (Undisturbed p l → p.shared.state = .shutdown → q.shared.state = .shutdown) ∧
    (¬ Undisturbed p l → q.shared.state ≠ .shutdown ∧ 0 < p.shared.shutdowns) ∧
    (q.shared.shutdowns = p.shared.shutdowns ∨ q.shared.state = .shutdown) := by
  have idle : ∀ {q : Pool State Pc}, q.shared = p.shared → (¬ Undisturbed p l → False) →
      (Undisturbed p l → p.shared.state = .shutdown → q.shared.state = .shutdown) ∧
      (¬ Undisturbed p l → q.shared.state ≠ .shutdown ∧ 0 < p.shared.shutdowns) ∧
      (q.shared.shutdowns = p.shared.shutdowns ∨ q.shared.state = .shutdown) := by
    intro q hq hno
    rw [hq]
    exact ⟨fun _ h => h, fun hn => absurd trivial (fun _ => hno hn), .inl rfl⟩
  cases l with
  | initializeRequest params =>
    simp only [step] at h
    split at h
    · obtain rfl := Option.some.inj h
      exact idle rfl (fun hn => hn trivial)
    · cases h
  | initializedNote | callInitialize =>
    simp only [step] at h
    split at h
    · obtain rfl := Option.some.inj h
      exact idle rfl (fun hn => hn trivial)
    · cases h
  | response i r =>
    obtain ⟨options, seen, -, rfl⟩ := deliver_eq_some h
    exact idle rfl (fun hn => hn trivial)
  | handleClose | disconnect =>
    obtain rfl := Option.some.inj h
    exact ⟨fun _ _ => rfl, fun hn => absurd trivial hn, .inr rfl⟩
  | step i =>
    obtain ⟨pc, s', pc', hpc, hadv, rfl⟩ := Pool.stepAt_eq_some.1 h
    have hmem := List.mem_of_getElem? hpc
    obtain ⟨-, -, hchange⟩ := advance_change (hp.strict pc hmem) hadv
    simp only [Undisturbed, hpc, Option.all_some]
    cases hchange with
    | keeps storing state shutdowns relies =>
      rw [storing, state, shutdowns]
      exact ⟨fun _ h => h, fun hn => absurd rfl hn, .inl rfl⟩
    | shuts storing state shutdowns relies =>
      rw [storing, state]
      exact ⟨fun _ _ => rfl, fun hn => absurd rfl hn, .inr rfl⟩
    | stores seen storing relied state shutdowns relies =>
      obtain ⟨hle, hne⟩ := hp.seen pc hmem seen relied
      rw [storing, Option.all_some, beq_iff_eq]
      exact ⟨fun heq hs => absurd hs (hne heq), fun hn => ⟨state, by omega⟩, .inl shutdowns⟩

/-- Behind every store of `Shutdown` lies a state that is `Shutdown`. -/
theorem shutdown_before {cls : SessionClass} (hcls : Strict cls) {labels : List Label} :
    ∀ {p : Pool State Pc}, Lts.run step (init cls) labels = some p → 0 < p.shared.shutdowns →
      ∃ pre mid q, labels = pre ++ mid ∧ Lts.run step (init cls) pre = some q ∧ q.shared.state = .shutdown ∧
        Lts.run step q mid = some p := by
  induction labels using List.reverseRecOn with
  | nil =>
    intro p hrun hpos
    obtain rfl := Option.some.inj hrun
    cases hpos
  | append_singleton labels l ih =>
    intro p hrun hpos
    obtain ⟨q, hq, hstep⟩ := Lts.run_snoc.1 hrun
    rcases (step_state (loaded_of_run hcls hq) hstep).2.2 with heq | hs
    · obtain ⟨pre, mid, r, rfl, hr, hsr, hmid⟩ := ih hq (heq ▸ hpos)
      exact ⟨pre, mid ++ [l], r, by simp, hr, hsr, Lts.run_snoc.2 ⟨q, hmid, hstep⟩⟩
    · exact ⟨labels ++ [l], [], p, by simp, hrun, hs, rfl⟩

theorem terminal_of_undisturbed {cls : SessionClass} (hcls : Strict cls) {labels : List Label}
    (hmeets : Lts.Meets step Undisturbed (init cls) labels) : ShutdownTerminal cls labels := by
  rintro pre mid post p q rfl hpre hp hmid
  have hm : Lts.Meets step Undisturbed p mid := hmeets.append_left.append_right hpre
  exact (Lts.meets_invariant (I := fun p => Loaded cls p ∧ p.shared.state = .shutdown)
    (fun _ _ _ hI hG hstep => ⟨hI.1.step hcls hstep, (step_state hI.1 hstep).1 hG hI.2⟩)
    ⟨loaded_of_run hcls hpre, hp⟩ hm hmid).2

theorem undisturbed_of_terminal {cls : SessionClass} (hcls : Strict cls) {labels : List Label}
    (hterm : ShutdownTerminal cls labels) {q : Pool State Pc} :
    ∀ {rest pre : List Label} {p : Pool State Pc}, labels = pre ++ rest → Lts.run step (init cls) pre = some p →
      Lts.run step p rest = some q → Lts.Meets step Undisturbed p rest
  | [], _, _, _, _, _ => trivial
  | l :: rest, pre, p, hl, hpre, hrest => by
    obtain ⟨t, ht, hrest⟩ := Lts.run_cons_eq_some.1 hrest
    refine ⟨?_, fun u hu => ?_⟩
    · by_contra hno
      obtain ⟨hne, hpos⟩ := (step_state (loaded_of_run hcls hpre) ht).2.1 hno
      obtain ⟨a, b, r, rfl, hr, hsr, hb⟩ := shutdown_before hcls hpre hpos
      exact hne (hterm a (b ++ [l]) rest r t (by simp [hl]) hr hsr (Lts.run_snoc.2 ⟨p, hb, ht⟩))
    · obtain rfl : t = u := Option.some.inj (ht.symm.trans hu)
      exact undisturbed_of_terminal hcls hterm (by simp [hl]) (Lts.run_snoc.2 ⟨p, hpre, ht⟩) hrest

/-- **`Shutdown` is terminal in a run exactly when no close lands between a handshake's load and its store.** -/
theorem shutdown_terminal_iff {cls : SessionClass} (hcls : Strict cls) {labels : List Label} {q : Pool State Pc}
    (hrun : Lts.run step (init cls) labels = some q) :
    ShutdownTerminal cls labels ↔ Lts.Meets step Undisturbed (init cls) labels :=
  ⟨fun hterm => undisturbed_of_terminal hcls hterm (List.nil_append labels).symm rfl hrun, terminal_of_undisturbed hcls⟩

def someClient : SessionClass := .client { clientInfo := { name := bytes "c", version := bytes "1" } }

/-- The peer closes while `initialize()` waits, and the wait ends with the error of the close. -/
def closeWhileWaiting : List Label :=
  [.callInitialize, .step 0, .step 0, .handleClose, .response 0 (.error (Error.of .internalError (bytes "connection closed"))),
    .step 0]

/-- `initialize()` fails, and the close comes after it has returned. -/
def closeAfterFailure : List Label :=
  [.callInitialize, .step 0, .step 0, .response 0 (.error (Error.of .internalError (bytes "request timed out"))), .step 0,
    .handleClose]

theorem shutdown_terminal_iff_closeAfterFailure : ShutdownTerminal someClient closeAfterFailure :=
  (@shutdown_terminal_iff someClient (fun options h => by cases h) closeAfterFailure _ rfl).2 (by decide)

/-- The failed handshake of a closed client session takes it back to `Uninitialized`. -/
theorem closeWhileWaiting_reopens :
    (∃ q, Lts.run step (init someClient) closeWhileWaiting = some q ∧ q.shared.state = .uninitialized) ∧
      ¬ ShutdownTerminal someClient closeWhileWaiting :=
  ⟨⟨_, rfl, rfl⟩, fun h =>
    absurd (h (closeWhileWaiting.take 4) (closeWhileWaiting.drop 4) [] _ _ rfl rfl rfl rfl) (by decide)⟩

end Lifecycle
end Mcp
