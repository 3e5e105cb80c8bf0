import McpSdk.Handshake
/-!
# Reinitialize — what a failed `initialize` leaves behind

The handler fails at three places: the state, missing params, params that cannot be read.  With re-initialization allowed
it empties the peer's record before the last two, so there a failure is not clean, while the state stays what it was.
-/
namespace Mcp
namespace Session

variable {ω : Type}

/-- The params are there and `get<InitializeParams>()` reads them. -/
def readableParams (params : Option Json) : Bool := params.any fun p => (InitializeParams.fromJson p).isOk

/-- The re-initialization mode's first act. -/
def resetPeer (s : Session ω) : Session ω := { s with clientInfo := none, clientCapabilities := none }

/-- **The four ways through the `initialize` handler.** -/
inductive Initialized (options : ServerOptions) (s : Session ω) (params : Option Json) (out : Result Json × Session ω) : Prop
  | refused (started : s.state ≠ .uninitialized) (off : options.allowReinitialize = false) (e : Error) (out_eq : out = (.error e, s))
  | unread (fresh : s.state = .uninitialized) (unreadable : readableParams params = false) (e : Error) (out_eq : out = (.error e, s))
  | unreadAgain (started : s.state ≠ .uninitialized) (on : options.allowReinitialize = true)
      (unreadable : readableParams params = false) (e : Error) (out_eq : out = (.error e, s.resetPeer))
  | accepted (readable : readableParams params = true) (result : Json) (s' : Session ω) (out_eq : out = (.ok result, s'))

theorem runInitialize_initialized (options : ServerOptions) (s : Session ω) (params : Option Json) :
    Initialized options s params (runInitialize options s params) := by
  unfold runInitialize
  by_cases hoff : s.state ≠ .uninitialized ∧ options.allowReinitialize = false
  · rw [if_pos hoff]
    exact .refused hoff.1 hoff.2 _ rfl
  rw [if_neg hoff]
  -- a failure past this point returns the session as the reset left it
  have hfail : ∀ e : Error, readableParams params = false →
      Initialized options s params (.error e, if s.state ≠ .uninitialized then s.resetPeer else s) := by
    intro e hunread
    by_cases hstate : s.state = .uninitialized
    · rw [if_neg (not_not_intro hstate)]
      exact .unread hstate hunread e rfl
    · rw [if_pos hstate]
      refine .unreadAgain hstate ?_ hunread e rfl
      cases hallow : options.allowReinitialize with
      | true => rfl
      | false => exact absurd ⟨hstate, hallow⟩ hoff
  cases params with
  | none => exact hfail _ rfl
  | some p =>
    cases hj : InitializeParams.fromJson p with
    | error e =>
      simp only [hj]
      exact hfail _ (by simp [readableParams, hj, Except.isOk, Except.toBool])
    | ok parsed =>
      simp only [hj]
      exact .accepted (by simp [readableParams, hj, Except.isOk, Except.toBool]) _ _ rfl

/-! ## The property -/

/-- The state and the peer's record are the same. -/
structure SamePeer (s s' : Session ω) : Prop where
  state : s'.state = s.state
  clientInfo : s'.clientInfo = s.clientInfo
  clientCapabilities : s'.clientCapabilities = s.clientCapabilities

/-- An `initialize` request answered with an error. -/
def Handling.failsInitialize (h : Handling ω) : Prop :=
  ∃ r, h.message = .request r ∧ r.method = methods.kInitialize ∧
    ∃ response ∈ h.responses, response.id = some r.id ∧ response.error.isSome = true

/-- **An `initialize` request answered with an error changes neither the state nor the peer's record.** -/
def Handling.FailsCleanly (h : Handling ω) : Prop := h.failsInitialize → SamePeer h.before h.out.session

/-- Nothing is there to lose, or the handler fails before it resets, or it does not fail. -/
def NothingLost (options : ServerOptions) (s : Session ω) (params : Option Json) : Prop :=
  s.state = .uninitialized ∨ options.allowReinitialize = false ∨ readableParams params = true ∨
    s.clientInfo = none ∧ s.clientCapabilities = none

/-- An `initialize` request runs the handler, whatever the state. -/
theorem handling_initialize {options : ServerOptions} {s : Session ω} (hs : Standard options s) (now : TimePoint) (w : ω)
    {r : JsonRpcRequest} (hr : r.method = methods.kInitialize) :
    (handling now s w (.request r)).out.session = (runInitialize options (s.protectId r) r.params).2 ∧
      (handling now s w (.request r)).responses = [respond r.id (.ok (runInitialize options (s.protectId r) r.params).1)] := by
  have hgate : s.checkIncomingRequest r = none := by
    unfold checkIncomingRequest
    rw [hs.cls]
    exact if_pos (.inl hr)
  have hfind : s.router.findRequestHandler r.method = some (.initializeHandler options) := by
    rw [hr]
    exact hs.find_initialize
  cases handleRequest_answered s w r with
  | rejected e gate => rw [hgate] at gate; cases gate
  | missing gate find => rw [hfind] at find; cases find
  | handled handler gate find out_eq =>
    rw [hfind] at find
    obtain rfl := Option.some.inj find
    have hhandling : handling now s w (.request r) = ⟨.request r, s, handleRequest s w r⟩ := rfl
    rw [hhandling, out_eq]
    exact ⟨rfl, rfl⟩

theorem failsInitialize_iff {options : ServerOptions} {s : Session ω} (hs : Standard options s) (now : TimePoint) (w : ω)
    {r : JsonRpcRequest} (hr : r.method = methods.kInitialize) :
    (handling now s w (.request r)).failsInitialize ↔ ∃ e, (runInitialize options (s.protectId r) r.params).1 = .error e := by
  obtain ⟨-, hresponses⟩ := handling_initialize hs now w hr
  constructor
  · rintro ⟨r', hm, -, response, hmem, -, herror⟩
    obtain rfl : r = r' := by injection hm
    rw [hresponses, List.mem_singleton] at hmem
    rw [hmem] at herror
    cases hout : (runInitialize options (s.protectId r) r.params).1 with
    | error e => exact ⟨e, rfl⟩
    | ok result =>
      rw [hout] at herror
      cases herror
  · rintro ⟨e, he⟩
    refine ⟨r, rfl, hr, _, by rw [hresponses]; exact List.mem_singleton_self _, respond_id r.id _, ?_⟩
    rw [he]
    rfl

/-- **A failed `initialize` is clean exactly when nothing is lost by it.** -/
theorem failsCleanly_iff {options : ServerOptions} {s : Session ω} (hs : Standard options s) (now : TimePoint) (w : ω)
    {r : JsonRpcRequest} (hr : r.method = methods.kInitialize) :
    (handling now s w (.request r)).FailsCleanly ↔ NothingLost options s r.params := by
  obtain ⟨hsession, -⟩ := handling_initialize hs now w hr
  have hfails := failsInitialize_iff hs now w hr
  -- protecting the id touches neither the state nor the record
  have hprotect : SamePeer s (s.protectId r) := by
    unfold protectId
    split <;> exact ⟨rfl, rfl, rfl⟩
  unfold Handling.FailsCleanly
  rw [hfails, hsession]
  show (_ → SamePeer s _) ↔ _
  cases runInitialize_initialized options (s.protectId r) r.params with
  | refused started off e out_eq =>
    rw [out_eq]
    exact ⟨fun _ => .inr (.inl off), fun _ _ => hprotect⟩
  | unread fresh unreadable e out_eq =>
    rw [out_eq]
    exact ⟨fun _ => .inl (hprotect.state.symm.trans fresh), fun _ _ => hprotect⟩
  | accepted readable result s' out_eq =>
    rw [out_eq]
    exact ⟨fun _ => .inr (.inr (.inl readable)), fun _ ⟨e, he⟩ => by cases he⟩
  | unreadAgain started on unreadable e out_eq =>
    rw [out_eq]
    constructor
    · intro hclean
      have hsame := hclean ⟨e, rfl⟩
      exact .inr (.inr (.inr ⟨hsame.clientInfo.symm, hsame.clientCapabilities.symm⟩))
    · rintro (hfresh | hoff | hread | ⟨hinfo, hcaps⟩) -
      · exact absurd (hprotect.state.trans hfresh) started
      · rw [hoff] at on
        cases on
      · rw [unreadable] at hread
        cases hread
      · exact ⟨hprotect.state, hinfo.symm, hcaps.symm⟩

/-- A first `initialize` without params fails and leaves the session uninitialized. -/
theorem failsCleanly_iff_first :
    (handling 0 toolSession () (.request { id := .int 1, method := methods.kInitialize })).FailsCleanly :=
  (failsCleanly_iff (Configured.fresh.onRequest (bytes "tools/call") (by decide) (some callTool)).standard.1 0 () rfl).2 (.inl rfl)

def reconnecting : ServerOptions := { toolServer with allowReinitialize := true }

/-- A handshake, and an `initialize` without params. -/
def handshakeThenEmpty : List (TimePoint × Message) :=
  (earlyAndLateCall.drop 1).take 2 ++ [(0, .request { id := .int 9, method := methods.kInitialize })]

/-- With re-initialization allowed the second `initialize` is answered with an error and the operating session has lost
its client's record. -/
theorem reinitialize_forgets :
    ∃ a b c, handleAll (mkServer reconnecting) () handshakeThenEmpty = [a, b, c] ∧
      c.responses.map (fun r => r.error.map Error.code) = [some (-32602)] ∧
      c.before.state = .operating ∧ c.before.clientInfo = some { name := bytes "c", version := bytes "1" } ∧
      c.out.session.state = .operating ∧ c.out.session.clientInfo = none ∧ ¬ c.FailsCleanly := by
  refine ⟨_, _, _, rfl, rfl, rfl, rfl, rfl, rfl, fun hclean => ?_⟩
  have hsame := hclean ⟨_, rfl, rfl, _, List.mem_singleton_self _, rfl, rfl⟩
  cases hsame.clientInfo

end Session
end Mcp
