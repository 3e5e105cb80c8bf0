import McpSdk.Lifecycle
/-!
# LifecycleOnce — overlapping `initialize` requests

The `initialize` handler of a server loads the state, writes the peer record and stores the state in three steps.  Two
well-formed requests that both load `Uninitialized` before either has stored are both answered with a result, and the
peer record is the last one written.  The runs without such an overlap are those that answer at most one request, with
its own peer record (`initialize_once_iff`).
-/
namespace Mcp
namespace Lifecycle

/-! ## The requests answered with a result -/

/-- The params of an `initialize` that the handler reads without an error. -/
def wellFormed : Option Json → List InitializeParams
  | none => []
  | some p =>
    match InitializeParams.fromJson p with
    | .error _ => []
    | .ok parsed => [parsed]

/-- The request the next step of a handler answers with a result. -/
def Pc.accepts : Pc → List InitializeParams
  | answerStore _ parsed _ => [parsed]
  | _ => []

/-- The request that has found the session `Uninitialized` and is not stored yet. -/
def Pc.inHand : Pc → List InitializeParams
  | answerParse _ params _ => wellFormed params
  | answerStore _ parsed _ => [parsed]
  | _ => []

/-- The request that finds the session `Uninitialized` at the next step. -/
def Pc.loads (s : State) : Pc → List InitializeParams
  | answerCheck _ params => if s.state = .uninitialized then wellFormed params else []
  | _ => []

def acceptedBy (p : Pool State Pc) : Label → List InitializeParams
  | .step i => ((p.threads[i]?).map Pc.accepts).getD []
  | _ => []

def loadedBy (p : Pool State Pc) : Label → List InitializeParams
  | .step i => ((p.threads[i]?).map (Pc.loads p.shared)).getD []
  | _ => []

/-- A session, with the requests it has answered with a result. -/
structure Greeter where
  pool : Pool State Pc
  accepted : List InitializeParams := []

def greet (g : Greeter) (l : Label) : Option Greeter :=
  (step g.pool l).map fun p => { pool := p, accepted := g.accepted ++ acceptedBy g.pool l }

def greeter (options : ServerOptions) : Greeter := { pool := init (.server options) }

def answer (options : ServerOptions) (parsed : InitializeParams) : Json :=
  InitializeResult.toJson
    { protocolVersion := options.negotiate parsed.protocolVersion
      capabilities := options.capabilities
      serverInfo := options.serverInfo
      instructions := options.instructions }

def State.results (s : State) : List Json := s.answers.filterMap Except.toOption

/-! ## The property and the condition -/

/-- The peer record is that of a request. -/
def State.Knows (s : State) (r : InitializeParams) : Prop :=
  s.clientInfo = some r.clientInfo ∧ s.clientCapabilities = some r.capabilities

/-- **One `initialize`**: at most one answer is a result, and the peer record is that of the request so answered. -/
structure AnswersOnce (g : Greeter) : Prop where
  once : g.pool.shared.results.length ≤ 1
  peer : ∀ r ∈ g.accepted, g.pool.shared.Knows r

/-- **No overlap**: no well-formed request loads `Uninitialized` while another that did has not stored yet. -/
def Alone (g : Greeter) (l : Label) : Prop :=
  ((loadedBy g.pool l).isEmpty || (Pool.held Pc.inHand g.pool.threads).isEmpty) = true

instance (g : Greeter) (l : Label) : Decidable (Alone g l) := inferInstanceAs (Decidable (_ = true))

/-! ## One section -/

/-- The threads a server session has. -/
def Pc.Serves (options : ServerOptions) : Pc → Prop
  | done | noteCheck | noteStore _ => True
  | answerCheck o _ | answerParse o _ _ | answerStore o _ _ => o = options
  | _ => False

theorem length_wellFormed : ∀ params : Option Json, (wellFormed params).length ≤ 1
  | none => Nat.zero_le 1
  | some p => by
    simp only [wellFormed]
    cases InitializeParams.fromJson p with
    | error e => exact Nat.zero_le 1
    | ok parsed => exact Nat.le_refl 1

theorem length_loadedBy (p : Pool State Pc) (l : Label) : (loadedBy p l).length ≤ 1 := by
  cases l with
  | step i =>
    cases hpc : p.threads[i]? with
    | none => simp [loadedBy, hpc]
    | some pc =>
      have hloads : (pc.loads p.shared).length ≤ 1 := by
        cases pc with
        | answerCheck options params =>
          simp only [Pc.loads]
          by_cases hs : p.shared.state = .uninitialized
          · rw [if_pos hs]
            exact length_wellFormed params
          · rw [if_neg hs]
            exact Nat.zero_le 1
        | _ => exact Nat.zero_le 1
      simpa [loadedBy, hpc] using hloads
  | _ => exact Nat.zero_le 1

/-- **What a section of a server session does.** -/
structure Served (options : ServerOptions) (s : State) (pc : Pc) (s' : State) (pc' : Pc) : Prop where
  cls : s'.cls = s.cls
  serves : pc'.Serves options
  admitted : pc'.inHand ++ pc.accepts = pc.loads s ++ pc.inHand
  state : s'.state = .uninitialized → s.state = .uninitialized ∧ pc.accepts = []
  loads : pc.loads s ≠ [] → s.state = .uninitialized
  results : s'.results = s.results ++ pc.accepts.map (answer options)
  peer : (∀ r, s.Knows r → s'.Knows r) ∧ pc'.accepts = [] ∨ ∃ r, r ∈ pc.inHand ∧ s'.Knows r

theorem results_append_error (s : State) (e : Error) :
    State.results { s with answers := s.answers ++ [.error e] } = s.results := by
  simp [State.results, Except.toOption]

theorem results_append_ok (s : State) (j : Json) :
    State.results { s with answers := s.answers ++ [.ok j] } = s.results ++ [j] := by
  simp [State.results, Except.toOption]

theorem advance_served {options : ServerOptions} (hre : options.allowReinitialize = false) {s s' : State} {pc pc' : Pc}
    (hserves : pc.Serves options) (h : advance s pc = some (s', pc')) : Served options s pc s' pc' := by
  cases pc with
  | done => cases h
  | answerCheck o params =>
    obtain rfl : o = options := hserves
    simp only [advance, hre] at h
    by_cases hs : s.state = .uninitialized
    · rw [if_pos hs] at h
      obtain ⟨rfl, rfl⟩ := Pool.section_inj h
      have hloads : (Pc.answerCheck o params).loads s = wellFormed params := if_pos hs
      exact ⟨rfl, rfl, by simp [hloads, Pc.inHand, Pc.accepts], fun _ => ⟨hs, rfl⟩, fun _ => hs, by simp [Pc.accepts],
        .inl ⟨fun _ hk => hk, rfl⟩⟩
    · rw [if_neg hs, if_neg Bool.false_ne_true] at h
      obtain ⟨rfl, rfl⟩ := Pool.section_inj h
      have hloads : (Pc.answerCheck o params).loads s = [] := if_neg hs
      exact ⟨rfl, trivial, by simp [hloads, Pc.inHand, Pc.accepts], fun hu => absurd hu hs, fun hl => absurd hloads hl,
        by simp [results_append_error, Pc.accepts], .inl ⟨fun _ hk => hk, rfl⟩⟩
  | answerParse o params seen =>
    obtain rfl : o = options := hserves
    simp only [advance] at h
    cases hparams : params with
    | none =>
      rw [hparams] at h
      obtain ⟨rfl, rfl⟩ := Pool.section_inj h
      exact ⟨rfl, trivial, rfl, fun hu => ⟨hu, rfl⟩, fun hl => absurd rfl hl, by simp [results_append_error, Pc.accepts],
        .inl ⟨fun _ hk => hk, rfl⟩⟩
    | some p =>
      simp only [hparams] at h
      cases hparsed : InitializeParams.fromJson p with
      | error e =>
        rw [hparsed] at h
        obtain ⟨rfl, rfl⟩ := Pool.section_inj h
        exact ⟨rfl, trivial, by simp [Pc.inHand, Pc.accepts, Pc.loads, wellFormed, hparsed], fun hu => ⟨hu, rfl⟩,
          fun hl => absurd rfl hl, by simp [results_append_error, Pc.accepts], .inl ⟨fun _ hk => hk, rfl⟩⟩
      | ok parsed =>
        rw [hparsed] at h
        obtain ⟨rfl, rfl⟩ := Pool.section_inj h
        have hinHand : (Pc.answerParse o (some p) seen).inHand = [parsed] := by simp [Pc.inHand, wellFormed, hparsed]
        -- the peer section: the record is that of this request from here on
        exact ⟨rfl, rfl, by rw [hinHand]; rfl, fun hu => ⟨hu, rfl⟩, fun hl => absurd rfl hl,
          by simp [State.results, Pc.accepts], .inr ⟨parsed, by rw [hinHand]; exact List.mem_singleton_self parsed, rfl, rfl⟩⟩
  | answerStore o parsed seen =>
    obtain rfl : o = options := hserves
    obtain ⟨rfl, rfl⟩ := Pool.section_inj h
    exact ⟨rfl, trivial, rfl, fun hu => (SessionState.noConfusion hu), fun hl => absurd rfl hl,
      results_append_ok s _, .inl ⟨fun _ hk => hk, rfl⟩⟩
  | noteCheck =>
    obtain ⟨rfl, rfl⟩ := Pool.section_inj h
    by_cases hs : s.state = .initializing
    · rw [if_pos hs]
      exact ⟨rfl, trivial, rfl, fun hu => ⟨hu, rfl⟩, fun hl => absurd rfl hl, by simp [Pc.accepts],
        .inl ⟨fun _ hk => hk, rfl⟩⟩
    · rw [if_neg hs]
      exact ⟨rfl, trivial, rfl, fun hu => ⟨hu, rfl⟩, fun hl => absurd rfl hl, by simp [Pc.accepts],
        .inl ⟨fun _ hk => hk, rfl⟩⟩
  | noteStore seen =>
    obtain ⟨rfl, rfl⟩ := Pool.section_inj h
    exact ⟨rfl, trivial, rfl, fun hu => SessionState.noConfusion hu, fun hl => absurd rfl hl, by simp [State.results, Pc.accepts],
      .inl ⟨fun _ hk => hk, rfl⟩⟩
  | _ => exact hserves.elim

/-! ## Runs -/

/-- The well-formed requests that have found the session `Uninitialized`. -/
def Greeter.admitted (g : Greeter) : List InitializeParams := Pool.held Pc.inHand g.pool.threads ++ g.accepted

structure Serving (options : ServerOptions) (g : Greeter) : Prop where
  cls : g.pool.shared.cls = .server options
  serves : ∀ pc ∈ g.pool.threads, pc.Serves options
  unopened : g.pool.shared.state = .uninitialized → g.accepted = []
  results : g.pool.shared.results = g.accepted.map (answer options)

/-- The peer record is that of every request past its peer section. -/
structure Recorded (g : Greeter) : Prop where
  threads : ∀ pc ∈ g.pool.threads, ∀ r ∈ pc.accepts, g.pool.shared.Knows r
  accepted : ∀ r ∈ g.accepted, g.pool.shared.Knows r

theorem accepts_subset_inHand {pc : Pc} {r : InitializeParams} (h : r ∈ pc.accepts) : r ∈ pc.inHand := by
  cases pc with
  | answerStore options parsed seen => exact h
  | _ => cases h

theorem eq_of_length_le_one {α : Type} {l : List α} (h : l.length ≤ 1) {r x : α} (hr : r ∈ l) (hx : x ∈ l) : x = r := by
  cases l with
  | nil => cases hr
  | cons y l =>
    obtain rfl : l = [] := List.eq_nil_of_length_eq_zero (Nat.le_zero.1 (Nat.le_of_succ_le_succ h))
    rw [List.mem_singleton.1 hr, List.mem_singleton.1 hx]

/-- What a step of the session keeps, and whom it admits. -/
structure Steps (options : ServerOptions) (g : Greeter) (l : Label) (g' : Greeter) : Prop where
  serving : Serving options g'
  admitted : g'.admitted.Perm (loadedBy g.pool l ++ g.admitted)
  first : loadedBy g.pool l ≠ [] → g.accepted = []
  recorded : g'.admitted.length ≤ 1 → Recorded g → Recorded g'

theorem Serving.spawn {options : ServerOptions} {g : Greeter} (hg : Serving options g) (pc : Pc) (hserves : pc.Serves options)
    (hinHand : pc.inHand = []) {l : Label} (hloaded : loadedBy g.pool l = []) (haccepted : acceptedBy g.pool l = []) :
    Steps options g l { pool := g.pool.spawn g.pool.shared pc, accepted := g.accepted ++ acceptedBy g.pool l } := by
  rw [haccepted, List.append_nil]
  have haccepts : pc.accepts = [] := List.eq_nil_iff_forall_not_mem.2 fun r hr => by
    have hmem := accepts_subset_inHand hr
    rw [hinHand] at hmem
    cases hmem
  refine ⟨⟨hg.cls, Pool.forall_append_singleton hg.serves hserves, hg.unopened, hg.results⟩, ?_, fun h => absurd hloaded h,
    fun _ hr => ⟨Pool.forall_append_singleton hr.threads (fun r h => by rw [haccepts] at h; cases h), hr.accepted⟩⟩
  rw [hloaded, Greeter.admitted, Pool.spawn, Pool.held_append_singleton, hinHand, List.append_nil]
  exact List.Perm.refl _

theorem Serving.shutdown {options : ServerOptions} {g : Greeter} (hg : Serving options g) {l : Label}
    (hloaded : loadedBy g.pool l = []) (haccepted : acceptedBy g.pool l = []) :
    Steps options g l { pool := { g.pool with shared := g.pool.shared.shutdown }, accepted := g.accepted ++ acceptedBy g.pool l } := by
  rw [haccepted, List.append_nil]
  refine ⟨⟨hg.cls, hg.serves, fun h => SessionState.noConfusion h, hg.results⟩, ?_, fun h => absurd hloaded h,
    fun _ hr => ⟨hr.threads, hr.accepted⟩⟩
  rw [hloaded]
  exact List.Perm.refl _

theorem Serving.stepAt {options : ServerOptions} (hre : options.allowReinitialize = false) {g : Greeter}
    (hg : Serving options g) {i : Nat} {p : Pool State Pc} (h : Pool.stepAt advance g.pool i = some p) :
    Steps options g (.step i) { pool := p, accepted := g.accepted ++ acceptedBy g.pool (.step i) } := by
  obtain ⟨pc, s', pc', hpc, hadv, rfl⟩ := Pool.stepAt_eq_some.1 h
  have hmem := List.mem_of_getElem? hpc
  have hserved := advance_served hre (hg.serves pc hmem) hadv
  have haccepted : acceptedBy g.pool (.step i) = pc.accepts := by simp [acceptedBy, hpc]
  have hloaded : loadedBy g.pool (.step i) = pc.loads g.pool.shared := by simp [loadedBy, hpc]
  rw [haccepted]
  have hadmitted : Greeter.admitted { pool := ⟨s', g.pool.threads.set i pc'⟩, accepted := g.accepted ++ pc.accepts } |>.Perm
      (pc.loads g.pool.shared ++ g.admitted) := by
    have := Classical.decEq InitializeParams
    apply List.perm_iff_count.2
    intro r
    have hexchange := (Pool.held_set_exchange Pc.inHand hpc pc').count_eq r
    have hsame := congrArg (List.count r) hserved.admitted
    simp only [Greeter.admitted, List.count_append] at hexchange hsame ⊢
    omega
  refine ⟨⟨hserved.cls.trans hg.cls, Pool.forall_set hg.serves i hserved.serves, fun hu => ?_, ?_⟩, ?_, fun hl => ?_,
    fun hone hr => ?_⟩
  · obtain ⟨hstate, hnone⟩ := hserved.state hu
    rw [hg.unopened hstate, hnone, List.append_nil]
  · rw [hserved.results, hg.results, List.map_append]
  · rw [hloaded]
    exact hadmitted
  · rw [hloaded] at hl
    exact hg.unopened (hserved.loads hl)
  · rcases hserved.peer with ⟨hkeeps, hnone⟩ | ⟨r, hinHand, hknows⟩
    · refine ⟨Pool.forall_set (fun x hx r h => hkeeps r (hr.threads x hx r h)) i (fun r h => by rw [hnone] at h; cases h),
        fun r h => hkeeps r ?_⟩
      rcases List.mem_append.1 h with h | h
      · exact hr.accepted r h
      · exact hr.threads pc hmem r h
    · -- the only admitted request is the one that has just written the record
      have hin : r ∈ pc.loads g.pool.shared ++ g.admitted :=
        List.mem_append_right _ (List.mem_append_left _ (Pool.mem_held.2 ⟨pc, hmem, hinHand⟩))
      have honly := fun x hx => eq_of_length_le_one hone (hadmitted.mem_iff.2 hin) (x := x) hx
      refine ⟨fun x hx y hy => ?_, fun y hy => ?_⟩
      · rw [honly y (List.mem_append_left _ (Pool.mem_held.2 ⟨x, hx, accepts_subset_inHand hy⟩))]
        exact hknows
      · rw [honly y (List.mem_append_right _ hy)]
        exact hknows

/-- **The step lemma.** -/
theorem Serving.steps {options : ServerOptions} (hre : options.allowReinitialize = false) {g g' : Greeter} {l : Label}
    (hg : Serving options g) (h : greet g l = some g') : Steps options g l g' := by
  obtain ⟨p, hstep, rfl⟩ := Option.map_eq_some_iff.1 h
  cases l with
  | initializeRequest params =>
    simp only [step, hg.cls] at hstep
    obtain rfl := Option.some.inj hstep
    exact hg.spawn (.answerCheck options params) rfl rfl rfl rfl
  | initializedNote =>
    simp only [step, hg.cls] at hstep
    obtain rfl := Option.some.inj hstep
    exact hg.spawn .noteCheck trivial rfl rfl rfl
  | callInitialize =>
    simp only [step, hg.cls] at hstep
    cases hstep
  | response i r =>
    obtain ⟨o, seen, hpc, -⟩ := deliver_eq_some hstep
    exact (hg.serves _ (List.mem_of_getElem? hpc)).elim
  | handleClose | disconnect =>
    obtain rfl := Option.some.inj hstep
    exact hg.shutdown rfl rfl
  | step i => exact hg.stepAt hre hstep

theorem serving_greeter (options : ServerOptions) : Serving options (greeter options) where
  cls := rfl
  serves := fun _ h => by cases h
  unopened := fun _ => rfl
  results := rfl

theorem recorded_greeter (options : ServerOptions) : Recorded (greeter options) where
  threads := fun _ h => by cases h
  accepted := fun _ h => by cases h

/-- **Without an overlap one request is admitted.** -/
theorem Serving.once_of_alone {options : ServerOptions} (hre : options.allowReinitialize = false) {labels : List Label}
    {g : Greeter} (hmeets : Lts.Meets greet Alone (greeter options) labels)
    (hrun : Lts.run greet (greeter options) labels = some g) : g.admitted.length ≤ 1 ∧ Recorded g := by
  have hkeep : ∀ g l g', (Serving options g ∧ g.admitted.length ≤ 1 ∧ Recorded g) → Alone g l → greet g l = some g' →
      Serving options g' ∧ g'.admitted.length ≤ 1 ∧ Recorded g' := by
    rintro g l g' ⟨hg, hone, hr⟩ halone hstep
    have hsteps := hg.steps hre hstep
    have hlen := hsteps.admitted.length_eq
    rw [List.length_append] at hlen
    have hone' : g'.admitted.length ≤ 1 := by
      by_cases hl : loadedBy g.pool l = []
      · rw [hl, List.length_nil] at hlen
        omega
      · -- a load finds the session unopened, and nobody on the way
        have hnobody : Pool.held Pc.inHand g.pool.threads = [] := by
          simpa [Alone, hl] using halone
        have hnone : g.admitted.length = 0 := by
          rw [Greeter.admitted, hnobody, hsteps.first hl]
          rfl
        have hload := length_loadedBy g.pool l
        omega
    exact ⟨hsteps.serving, hone', hsteps.recorded hone' hr⟩
  exact (Lts.meets_invariant hkeep ⟨serving_greeter options, Nat.zero_le 1, recorded_greeter options⟩ hmeets hrun).2

/-- **With one request admitted there was no overlap.** -/
theorem Serving.alone_of_once {options : ServerOptions} (hre : options.allowReinitialize = false) :
    ∀ {labels : List Label} {g g' : Greeter}, Serving options g → Lts.run greet g labels = some g' →
      g'.admitted.length ≤ 1 → g.admitted.length ≤ 1 ∧ Lts.Meets greet Alone g labels
  | [], g, g', _, hrun, hone => by
    obtain rfl := Option.some.inj hrun
    exact ⟨hone, trivial⟩
  | l :: labels, g, g', hg, hrun, hone => by
    obtain ⟨t, hstep, hrest⟩ := Lts.run_cons_eq_some.1 hrun
    have hsteps := hg.steps hre hstep
    obtain ⟨hone', hmeets⟩ := Serving.alone_of_once hre hsteps.serving hrest hone
    have hlen := hsteps.admitted.length_eq
    rw [List.length_append] at hlen
    refine ⟨by omega, ?_, fun u hu => ?_⟩
    · by_cases hl : loadedBy g.pool l = []
      · simp [Alone, hl]
      · have hpos := List.length_pos_iff.2 hl
        have hnone : g.admitted = [] := List.eq_nil_of_length_eq_zero (by omega)
        have hnobody : Pool.held Pc.inHand g.pool.threads = [] := (List.append_eq_nil_iff.1 hnone).1
        simp [Alone, hnobody]
    · obtain rfl : t = u := Option.some.inj (hstep.symm.trans hu)
      exact hmeets

/-- **A server answers one `initialize` in a run without an overlap, and in a finished run with one it answers more.** -/
theorem initialize_once_iff {options : ServerOptions} (hre : options.allowReinitialize = false) {labels : List Label}
    {g : Greeter} (hrun : Lts.run greet (greeter options) labels = some g) :
    g.pool.shared.results = g.accepted.map (answer options) ∧
      (Lts.Meets greet Alone (greeter options) labels → AnswersOnce g) ∧
        ((∀ pc ∈ g.pool.threads, pc = .done) → (AnswersOnce g ↔ Lts.Meets greet Alone (greeter options) labels)) := by
  have hserving : Serving options g :=
    Lts.run_invariant (fun _ _ _ hg hstep => (hg.steps hre hstep).serving) (serving_greeter options) hrun
  have hsound : Lts.Meets greet Alone (greeter options) labels → AnswersOnce g := by
    intro hmeets
    obtain ⟨hone, hr⟩ := Serving.once_of_alone hre hmeets hrun
    rw [Greeter.admitted, List.length_append] at hone
    refine ⟨?_, hr.accepted⟩
    rw [hserving.results, List.length_map]
    omega
  refine ⟨hserving.results, hsound, fun hdone => ⟨fun honce => ?_, hsound⟩⟩
  have hnobody : Pool.held Pc.inHand g.pool.threads = [] := List.flatMap_eq_nil_iff.2 fun pc hpc => by
    rw [hdone pc hpc]
    rfl
  have hone : g.admitted.length ≤ 1 := by
    have hresults := honce.once
    rw [hserving.results, List.length_map] at hresults
    rw [Greeter.admitted, hnobody]
    exact hresults
  exact (Serving.alone_of_once hre (serving_greeter options) hrun hone).2

def someServer : ServerOptions := { serverInfo := { name := bytes "s", version := bytes "1" } }

def hello (name : Bytes) : Option Json :=
  some (InitializeParams.toJson
    { protocolVersion := kProtocolVersion, capabilities := {}, clientInfo := { name, version := bytes "1" } })

/-- The second client comes when the first has been answered. -/
def oneAfterTheOther : List Label :=
  [.initializeRequest (hello (bytes "a")), .step 0, .step 0, .step 0, .initializeRequest (hello (bytes "b")), .step 1]

/-- Both clients load the state before either stores it. -/
def overlapping : List Label :=
  [.initializeRequest (hello (bytes "a")), .initializeRequest (hello (bytes "b")), .step 0, .step 1, .step 0, .step 1, .step 0,
    .step 1]

theorem initialize_once_iff_oneAfterTheOther :
    ∃ g, Lts.run greet (greeter someServer) oneAfterTheOther = some g ∧ g.pool.shared.results.length = 1 ∧ AnswersOnce g := by
  have hlen : (Lts.run greet (greeter someServer) oneAfterTheOther).map (fun g => g.pool.shared.results.length) = some 1 := by
    decide +kernel
  obtain ⟨g, hrun, hone⟩ := Option.map_eq_some_iff.1 hlen
  exact ⟨g, hrun, hone, (initialize_once_iff rfl hrun).2.1 (by decide +kernel)⟩

/-- Both clients are answered with a result, and the peer record is that of the second. -/
theorem overlapping_answeredTwice :
    ∃ g, Lts.run greet (greeter someServer) overlapping = some g ∧ g.pool.shared.results.length = 2 ∧
      g.pool.shared.clientInfo.map (·.name) = some (bytes "b") ∧ ¬ AnswersOnce g := by
  have heval : (Lts.run greet (greeter someServer) overlapping).map
      (fun g => (g.pool.shared.results.length, g.pool.shared.clientInfo.map (·.name))) = some (2, some (bytes "b")) := by
    decide +kernel
  obtain ⟨g, hrun, h⟩ := Option.map_eq_some_iff.1 heval
  have htwo : g.pool.shared.results.length = 2 := congrArg Prod.fst h
  have hname : g.pool.shared.clientInfo.map (·.name) = some (bytes "b") := congrArg Prod.snd h
  refine ⟨g, hrun, htwo, hname, fun honce => ?_⟩
  have hone := honce.once
  omega

end Lifecycle
end Mcp
