import McpSdk.Client
import McpSdk.ContentCodec
import McpSdk.Joined
/-!
# ClientReplies — what a server's results do to the client that reads them

The typed wrappers and `ClientSession::initialize`, with every exception of the JSON library where it is raised.  The
`try` block of each holds all its accessors, so that a value or an error comes back for every result; and a result that
`initialize` cannot read leaves the session as it was before the call (`replies_return`).
-/
namespace Mcp
namespace Client

/-! ## The wrappers -/

/-- The `catch` clause of `parse_response`. -/
def catchResponse {T : Type} : Except JsonException (Result T) → Except JsonException (Result T)
  | .ok r => .ok r
  | .error e => .ok (.error (Error.of .internalError (bytes "malformed server response: " ++ e.what)))

def readList {T : Type} (fromJson : Json → Except JsonException T) (key : Bytes) (j : Json) :
    Except JsonException (Result (ListResult T)) :=
  catchResponse do
    let items ← Json.getArray fromJson (← j.at_ key)
    let nextCursor ← getOptional j (bytes "nextCursor") Json.getString
    return .ok { items, nextCursor }

def readCallTool (j : Json) : Except JsonException (Result CallToolResult) :=
  catchResponse do
    match ← readContentList (← j.value (bytes "content") (.array [])) with
    | .error e => return .error e
    | .ok content => return .ok { content, isError := ← j.valueAs (bytes "isError") Json.getBool false }

def readResourceContents (j : Json) : Except JsonException (Result ReadResourceResult) :=
  catchResponse do
    let contents ← Json.getArray ResourceContents.fromJson (← j.at_ (bytes "contents"))
    return .ok { contents }

/-- The loop of `get_prompt`. -/
def readMessages : List Json → Except JsonException (Result (List PromptMessage))
  | [] => .ok (.ok [])
  | message :: messages => do
    match ← readContent (← message.at_ (bytes "content")) with
    | .error e => return .error e
    | .ok content =>
      let role := roleFromString (← message.valueAs (bytes "role") Json.getString (bytes "user"))
      return (← readMessages messages).map ({ role := role.getD .user, content } :: ·)

def readGetPrompt (j : Json) : Except JsonException (Result GetPromptResult) :=
  catchResponse do
    let description ← getOptional j (bytes "description") Json.getString
    let messages ← readMessages (elements (← j.value (bytes "messages") (.array [])))
    return messages.map fun messages => { description, messages }

def readCompletion (j : Json) : Except JsonException (Result CompleteResult) :=
  catchResponse do
    let completion ← j.at_ (bytes "completion")
    let values ← Json.getArray Json.getString (← completion.at_ (bytes "values"))
    let total ← getOptional completion (bytes "total") Json.getInt32
    let hasMore ← getOptional completion (bytes "hasMore") Json.getBool
    return .ok { values, total, hasMore }

namespace Reply

/-- A wrapper once its `request` has returned. -/
def typed {T : Type} (read : Json → Except JsonException (Result T)) : Result Json → Except JsonException (Result T)
  | .error e => .ok (.error e)
  | .ok j => read j

def listTools : Result Json → Except JsonException (Result (ListResult Tool)) :=
  typed (readList Tool.fromJson (bytes "tools"))

def callTool : Result Json → Except JsonException (Result CallToolResult) := typed readCallTool

def listResources : Result Json → Except JsonException (Result (ListResult Resource)) :=
  typed (readList Resource.fromJson (bytes "resources"))

def listResourceTemplates : Result Json → Except JsonException (Result (ListResult ResourceTemplate)) :=
  typed (readList ResourceTemplate.fromJson (bytes "resourceTemplates"))

def readResource : Result Json → Except JsonException (Result ReadResourceResult) := typed readResourceContents

def listPrompts : Result Json → Except JsonException (Result (ListResult Prompt)) :=
  typed (readList Prompt.fromJson (bytes "prompts"))

def getPrompt : Result Json → Except JsonException (Result GetPromptResult) := typed readGetPrompt

def completePrompt : Result Json → Except JsonException (Result CompleteResult) := typed readCompletion

def completeResource : Result Json → Except JsonException (Result CompleteResult) := typed readCompletion

end Reply

/-- The errors that a result which cannot be read is mapped to. -/
def Mapped (e : Error) : Prop := e.code = ErrorCode.internalError.toInt ∨ e.code = ErrorCode.invalidParams.toInt

/-- **A wrapper returns** what its typed parse makes of the response, and nothing is thrown. -/
structure Catches {T : Type} (out : Except JsonException (Result T)) (parse : Json → Result T) (response : Result Json) :
    Prop where
  returned : out = .ok (response.bind parse)
  mapped : ∀ j e, response = .ok j → parse j = .error e → Mapped e

structure WrappersCatch (response : Result Json) : Prop where
  listTools : Catches (Reply.listTools response) (parseList Tool.fromJson (bytes "tools")) response
  callTool : Catches (Reply.callTool response) parseCallTool response
  listResources : Catches (Reply.listResources response) (parseList Resource.fromJson (bytes "resources")) response
  listResourceTemplates :
    Catches (Reply.listResourceTemplates response) (parseList ResourceTemplate.fromJson (bytes "resourceTemplates")) response
  readResource : Catches (Reply.readResource response) parseReadResource response
  listPrompts : Catches (Reply.listPrompts response) (parseList Prompt.fromJson (bytes "prompts")) response
  getPrompt : Catches (Reply.getPrompt response) parseGetPrompt response
  completePrompt : Catches (Reply.completePrompt response) parseCompletion response
  completeResource : Catches (Reply.completeResource response) parseCompletion response

/-! ## No exception gets out -/

theorem catchResponse_eq {T : Type} (x : Except JsonException (Result T)) : catchResponse x = .ok (parseResponse x) := by
  cases x <;> rfl

theorem readMessages_eq (messages : List Json) : readMessages messages = promptMessages messages := by
  induction messages with
  | nil => rfl
  | cons message messages ih =>
    simp only [readMessages, promptMessages, readContent_eq, ih]
    rfl

theorem readCallTool_eq (j : Json) : readCallTool j = .ok (parseCallTool j) := by
  unfold readCallTool
  rw [catchResponse_eq]
  simp only [readContentList_eq]
  rfl

theorem readGetPrompt_eq (j : Json) : readGetPrompt j = .ok (parseGetPrompt j) := by
  unfold readGetPrompt
  rw [catchResponse_eq]
  simp only [readMessages_eq]
  rfl

theorem typed_eq {T : Type} {read : Json → Except JsonException (Result T)} {parse : Json → Result T}
    (h : ∀ j, read j = .ok (parse j)) : ∀ response, Reply.typed read response = .ok (response.bind parse)
  | .error _ => rfl
  | .ok j => h j

/-- The errors that a block returns itself. -/
def ErrorsMapped {T : Type} (x : Except JsonException (Result T)) : Prop := ∀ e, x = .ok (.error e) → Mapped e

theorem errorsMapped_value {T : Type} (v : T) : ErrorsMapped (.ok (.ok v) : Except JsonException (Result T)) := by
  intro e h
  cases h

theorem errorsMapped_bind {α T : Type} (x : Except JsonException α) {f : α → Except JsonException (Result T)}
    (h : ∀ a, ErrorsMapped (f a)) : ErrorsMapped (x >>= f) := by
  intro e he
  cases x with
  | error x => cases he
  | ok a => exact h a e he

theorem errorsMapped_error {T : Type} {e : Error} (h : Mapped e) :
    ErrorsMapped (.ok (.error e) : Except JsonException (Result T)) := by
  intro e' he
  cases he
  exact h

theorem errorsMapped_map {α T : Type} {x : Except JsonException (Result α)} (h : ErrorsMapped x) (f : α → T) :
    ErrorsMapped (x >>= fun r => .ok (r.map f)) := by
  rcases x with x | e | a
  · intro e he
    cases he
  · exact errorsMapped_error (h e rfl)
  · exact errorsMapped_value _

/-- **An error of a typed parse** comes from the `catch` clause or out of the block. -/
theorem mapped_parseResponse {T : Type} {x : Except JsonException (Result T)} (h : ErrorsMapped x) {e : Error}
    (he : parseResponse x = .error e) : Mapped e := by
  cases x with
  | error x =>
    cases he
    exact .inl rfl
  | ok r => exact h e (congrArg Except.ok he)

theorem mapped_parseList {T : Type} (fromJson : Json → Except JsonException T) (key : Bytes) (j : Json) {e : Error}
    (he : parseList fromJson key j = .error e) : Mapped e := by
  refine mapped_parseResponse ?_ he
  refine errorsMapped_bind _ fun list => errorsMapped_bind _ fun items => errorsMapped_bind _ fun cursor => ?_
  exact errorsMapped_value _

theorem mapped_parseCallTool (j : Json) {e : Error} (he : parseCallTool j = .error e) : Mapped e := by
  refine mapped_parseResponse ?_ he
  refine errorsMapped_bind _ fun content => ?_
  cases hcontent : contentListFromJson content with
  | error e' => exact errorsMapped_error (.inr (invalidParams_contentList content e' hcontent))
  | ok items => exact errorsMapped_bind _ fun isError => errorsMapped_value _

theorem mapped_parseReadResource (j : Json) {e : Error} (he : parseReadResource j = .error e) : Mapped e := by
  refine mapped_parseResponse ?_ he
  exact errorsMapped_bind _ fun list => errorsMapped_bind _ fun contents => errorsMapped_value _

theorem errorsMapped_promptMessages (messages : List Json) : ErrorsMapped (promptMessages messages) := by
  induction messages with
  | nil => exact errorsMapped_value _
  | cons message messages ih =>
    unfold promptMessages
    refine errorsMapped_bind _ fun content => ?_
    cases hcontent : contentFromJson content with
    | error e' => exact errorsMapped_error (.inr (invalidParams_content content e' hcontent))
    | ok block => exact errorsMapped_bind _ fun role => errorsMapped_map ih _

theorem mapped_parseGetPrompt (j : Json) {e : Error} (he : parseGetPrompt j = .error e) : Mapped e := by
  refine mapped_parseResponse ?_ he
  refine errorsMapped_bind _ fun description => errorsMapped_bind _ fun list => ?_
  exact errorsMapped_map (errorsMapped_promptMessages _) _

theorem mapped_parseCompletion (j : Json) {e : Error} (he : parseCompletion j = .error e) : Mapped e := by
  refine mapped_parseResponse ?_ he
  refine errorsMapped_bind _ fun completion => errorsMapped_bind _ fun list => errorsMapped_bind _ fun values => ?_
  exact errorsMapped_bind _ fun total => errorsMapped_bind _ fun hasMore => errorsMapped_value _

theorem catches_typed {T : Type} {read : Json → Except JsonException (Result T)} {parse : Json → Result T}
    (hread : ∀ j, read j = .ok (parse j)) (hmapped : ∀ j e, parse j = .error e → Mapped e) (response : Result Json) :
    Catches (Reply.typed read response) parse response where
  returned := typed_eq hread response
  mapped := fun j e _ => hmapped j e

theorem catches_list {T : Type} (fromJson : Json → Except JsonException T) (key : Bytes) (response : Result Json) :
    Catches (Reply.typed (readList fromJson key) response) (parseList fromJson key) response :=
  catches_typed (fun _ => catchResponse_eq _) (fun j _ => mapped_parseList fromJson key j) response

theorem catches_completion (response : Result Json) :
    Catches (Reply.typed readCompletion response) parseCompletion response :=
  catches_typed (fun _ => catchResponse_eq _) (fun j _ => mapped_parseCompletion j) response

/-- **Every wrapper catches** what its decoders throw, for every response. -/
theorem wrappers_catch (response : Result Json) : WrappersCatch response where
  listTools := catches_list Tool.fromJson _ response
  callTool := catches_typed readCallTool_eq (fun j _ => mapped_parseCallTool j) response
  listResources := catches_list Resource.fromJson _ response
  listResourceTemplates := catches_list ResourceTemplate.fromJson _ response
  readResource := catches_typed (fun _ => catchResponse_eq _) (fun j _ => mapped_parseReadResource j) response
  listPrompts := catches_list Prompt.fromJson _ response
  getPrompt := catches_typed readGetPrompt_eq (fun j _ => mapped_parseGetPrompt j) response
  completePrompt := catches_completion response
  completeResource := catches_completion response

end Client

namespace Lifecycle

/-! ## Calls of `initialize()` one after the other -/

open Mcp.Joined (isActive isCheck)

/-- **None finds the state `Uninitialized` while another is on its way.** -/
def OneAtATime (p : Pool State Pc) : Label → Prop
  | .step i => (p.threads[i]?).all (fun pc => isCheck pc && p.shared.state == .uninitialized) = true →
    p.threads.all (fun pc => !isActive pc) = true
  | _ => True

/-- What `initialize()` returns for a response. -/
def initializeResult (options : ClientOptions) : Result Json → Result InitializeResult
  | .error e => .error e
  | .ok j =>
    match InitializeResult.fromJson j with
    | .error x => .error (Error.of .internalError (bytes "invalid initialize result: " ++ x.what))
    | .ok result =>
      if options.supportedVersions.contains result.protocolVersion then .ok result
      else .error (Error.of .invalidRequest (bytes "unsupported protocol version: " ++ result.protocolVersion))

/-- Nothing is known of the server. -/
def State.Unset (s : State) : Prop := s.serverInfo = none ∧ s.serverCapabilities = none

/-- The activities of a client's session. -/
def Pc.isCall : Pc → Bool
  | answerCheck .. | answerReset .. | answerParse .. | answerStore .. | noteCheck | noteStore _ => false
  | _ => true

/-- A call behind its store of `Initializing`. -/
def Pc.stored : Pc → Bool
  | initWait .. | initFail .. | initDisconnect _ | initPeer .. | initNotify .. | initOperate .. => true
  | _ => false

/-- A call before its peer section. -/
def Pc.unread : Pc → Bool
  | initStore .. | initWait .. | initFail .. | initDisconnect _ | initPeer .. => true
  | _ => false

/-- **The invariant**: one call at most is on its way, and the server is known only behind its peer section. -/
structure Sole (p : Pool State Pc) : Prop where
  client : ∃ options, p.shared.cls = .client options
  calls : ∀ pc ∈ p.threads, pc.isCall = true
  sole : p.threads.countP isActive ≤ 1
  stored : ∀ pc ∈ p.threads, pc.stored = true → p.shared.state ≠ .uninitialized
  unread : ∀ pc ∈ p.threads, pc.unread = true → p.shared.Unset
  fresh : p.shared.state = .uninitialized → p.shared.Unset

theorem isActive_of_stored {pc : Pc} (h : pc.stored = true) : isActive pc = true := by
  cases pc <;> first | rfl | cases h

theorem isActive_of_unread {pc : Pc} (h : pc.unread = true) : isActive pc = true := by
  cases pc <;> first | rfl | cases h

/-- A step of the call that is on its way. -/
theorem Sole.active {p : Pool State Pc} (hp : Sole p) {i : Nat} {pc pc' : Pc} {s' : State} (hpc : p.threads[i]? = some pc)
    (hactive : isActive pc = true) (hcls : s'.cls = p.shared.cls) (hcall : pc'.isCall = true)
    (hstored : pc'.stored = true → s'.state ≠ .uninitialized) (hunread : pc'.unread = true → s'.Unset)
    (hfresh : s'.state = .uninitialized → s'.Unset) : Sole ⟨s', p.threads.set i pc'⟩ := by
  have hidle : ∀ j x, p.threads[j]? = some x → j ≠ i → isActive x = false := by
    intro j x hx hne
    by_contra hx'
    exact hne (Pool.eq_of_countP_le_one hp.sole hx hpc (by simpa using hx') hactive)
  have hthreads : ∀ {P : Pc → Prop}, P pc' → (∀ x, isActive x = false → P x) →
      ∀ x ∈ p.threads.set i pc', P x := by
    intro P hnew hother x hx
    obtain ⟨j, hj⟩ := List.getElem?_of_mem hx
    rcases Pool.getElem?_set_cases hj with ⟨-, rfl⟩ | ⟨hne, hj⟩
    · exact hnew
    · exact hother x (hidle j x hj hne)
  have hcount := Pool.countP_set_exchange isActive hpc pc'
  have hsole := hp.sole
  refine ⟨?_, Pool.forall_set hp.calls i hcall, ?_, ?_, ?_, hfresh⟩
  · rw [hcls]
    exact hp.client
  · have hnew : (isActive pc').toNat ≤ 1 := Bool.toNat_le _
    rw [hactive] at hcount
    simp only [Bool.toNat_true] at hcount
    show (p.threads.set i pc').countP isActive ≤ 1
    omega
  · refine hthreads hstored fun x hx hx' => ?_
    rw [isActive_of_stored hx'] at hx
    cases hx
  · refine hthreads hunread fun x hx hx' => ?_
    rw [isActive_of_unread hx'] at hx
    cases hx

/-- The check of a call. -/
theorem Sole.check {p q : Pool State Pc} (hp : Sole p) {i : Nat} {options : ClientOptions}
    (hpc : p.threads[i]? = some (.initCheck options)) (halone : OneAtATime p (.step i))
    (h : Pool.stepAt advance p i = some q) : Sole q := by
  obtain ⟨pc, s', pc', hpc', hadv, rfl⟩ := Pool.stepAt_eq_some.1 h
  obtain rfl := Option.some.inj (hpc.symm.trans hpc')
  have hcount := fun pc' => Pool.countP_set_exchange isActive hpc pc'
  simp only [advance] at hadv
  split at hadv
  · rename_i hfresh
    obtain ⟨rfl, rfl⟩ := Pool.section_inj hadv
    have hidle : ∀ x ∈ p.threads, isActive x = false := by
      have hall := halone (by rw [hpc, hfresh]; rfl)
      simpa using hall
    have hnone : p.threads.countP isActive = 0 := List.countP_eq_zero.2 fun x hx => by simp [hidle x hx]
    refine ⟨hp.client, Pool.forall_set hp.calls i rfl, ?_, Pool.forall_set hp.stored i (fun h => by cases h),
      Pool.forall_set hp.unread i fun _ => hp.fresh hfresh, hp.fresh⟩
    have hnew := hcount (.initStore options p.shared.shutdowns)
    rw [hnone] at hnew
    show (p.threads.set i (.initStore options p.shared.shutdowns)).countP isActive ≤ 1
    exact Nat.le_of_eq hnew
  · obtain ⟨rfl, rfl⟩ := Pool.section_inj hadv
    refine ⟨hp.client, Pool.forall_set hp.calls i rfl, ?_, Pool.forall_set hp.stored i (fun h => by cases h),
      Pool.forall_set hp.unread i (fun h => by cases h), hp.fresh⟩
    have hold := hcount .done
    have hsole := hp.sole
    show (p.threads.set i .done).countP isActive ≤ 1
    simp only [isActive, Bool.toNat_false] at hold
    omega

theorem Sole.stepAt {p q : Pool State Pc} (hp : Sole p) {i : Nat} (halone : OneAtATime p (.step i))
    (h : Pool.stepAt advance p i = some q) : Sole q := by
  obtain ⟨pc, s', pc', hpc, hadv, rfl⟩ := Pool.stepAt_eq_some.1 h
  have hmem := List.mem_of_getElem? hpc
  cases pc with
  | done | initWait => cases hadv
  | answerCheck | answerReset | answerParse | answerStore | noteCheck | noteStore => cases hp.calls _ hmem
  | initCheck options => exact hp.check hpc halone h
  | initStore options seen =>
    obtain ⟨rfl, rfl⟩ := Pool.section_inj hadv
    exact hp.active hpc rfl rfl rfl (fun _ => nofun) (fun _ => hp.unread _ hmem rfl) nofun
  | initFail e seen =>
    obtain ⟨rfl, rfl⟩ := Pool.section_inj hadv
    exact hp.active hpc rfl rfl rfl nofun nofun (fun _ => hp.unread _ hmem rfl)
  | initDisconnect e =>
    obtain ⟨rfl, rfl⟩ := Pool.section_inj hadv
    exact hp.active hpc rfl rfl rfl nofun nofun nofun
  | initPeer result seen =>
    obtain ⟨rfl, rfl⟩ := Pool.section_inj hadv
    exact hp.active hpc rfl rfl rfl (fun _ => hp.stored _ hmem rfl) nofun (fun h => absurd h (hp.stored _ hmem rfl))
  | initNotify result seen =>
    obtain ⟨rfl, rfl⟩ := Pool.section_inj hadv
    exact hp.active hpc rfl rfl rfl (fun _ => hp.stored _ hmem rfl) nofun (fun h => absurd h (hp.stored _ hmem rfl))
  | initOperate result seen =>
    obtain ⟨rfl, rfl⟩ := Pool.section_inj hadv
    exact hp.active hpc rfl rfl rfl nofun nofun nofun

theorem initResponse_stands (options : ClientOptions) (seen : Nat) (r : Result Json) :
    (initResponse options seen r).isCall = true ∧ (initResponse options seen r).stored = true ∧
      (initResponse options seen r).unread = true := by
  unfold initResponse
  (repeat' split) <;> exact ⟨rfl, rfl, rfl⟩

/-- A close stores `Shutdown` and nothing else. -/
theorem Sole.shutdown {p : Pool State Pc} (hp : Sole p) : Sole { p with shared := p.shared.shutdown } where
  client := hp.client
  calls := hp.calls
  sole := hp.sole
  stored := fun _ _ _ => nofun
  unread := hp.unread
  fresh := nofun

/-- **The step lemma.** -/
theorem Sole.step {p q : Pool State Pc} {l : Label} (hp : Sole p) (halone : OneAtATime p l) (h : step p l = some q) :
    Sole q := by
  obtain ⟨options, hclient⟩ := hp.client
  cases l with
  | initializeRequest | initializedNote =>
    simp only [Lifecycle.step, hclient] at h
    cases h
  | callInitialize =>
    simp only [Lifecycle.step, hclient] at h
    obtain rfl := Option.some.inj h
    refine ⟨hp.client, Pool.forall_append_singleton hp.calls rfl, ?_,
      Pool.forall_append_singleton hp.stored (fun h => by cases h),
      Pool.forall_append_singleton hp.unread (fun h => by cases h), hp.fresh⟩
    show (p.threads ++ [Pc.initCheck options]).countP isActive ≤ 1
    rw [List.countP_append]
    exact hp.sole
  | response i r =>
    obtain ⟨options, seen, hpc, rfl⟩ := deliver_eq_some h
    have hmem := List.mem_of_getElem? hpc
    obtain ⟨hcall, -, -⟩ := initResponse_stands options seen r
    exact hp.active hpc rfl rfl hcall (fun _ => hp.stored _ hmem rfl) (fun _ => hp.unread _ hmem rfl) hp.fresh
  | handleClose | disconnect =>
    obtain rfl := Option.some.inj h
    exact hp.shutdown
  | step i => exact hp.stepAt halone h

theorem sole_init (options : ClientOptions) : Sole (init (.client options)) where
  client := ⟨options, rfl⟩
  calls := fun _ h => by cases h
  sole := Nat.zero_le 1
  stored := fun _ h => by cases h
  unread := fun _ h => by cases h
  fresh := fun _ => ⟨rfl, rfl⟩

theorem sole_of_run {options : ClientOptions} {labels : List Label} {p : Pool State Pc}
    (halone : Lts.Meets step OneAtATime (init (.client options)) labels)
    (hrun : Lts.run step (init (.client options)) labels = some p) : Sole p :=
  Lts.meets_invariant (fun _ _ _ hp hG hstep => Sole.step hp hG hstep) (sole_init options) halone hrun

/-! ## One call -/

/-- By steps of its own, thread `i` comes to return `out`. -/
def ReturnsBy (i : Nat) (out : Result InitializeResult) (p : Pool State Pc) : Prop :=
  ∃ n q, Lts.run step p (List.replicate n (.step i)) = some q ∧ q.threads[i]? = some .done ∧
    q.shared.returns = p.shared.returns ++ [out]

theorem own_step {p : Pool State Pc} {i : Nat} {pc pc' : Pc} {s' : State} (hpc : p.threads[i]? = some pc)
    (hadv : advance p.shared pc = some (s', pc')) :
    step p (.step i) = some ⟨s', p.threads.set i pc'⟩ ∧ (p.threads.set i pc')[i]? = some pc' := by
  obtain ⟨hlt, -⟩ := List.getElem?_eq_some_iff.1 hpc
  exact ⟨Pool.stepAt_eq_some.2 ⟨pc, s', pc', hpc, hadv, rfl⟩, List.getElem?_set_self hlt⟩

theorem ReturnsBy.last {p : Pool State Pc} {i : Nat} {pc : Pc} {s' : State} {out : Result InitializeResult}
    (hpc : p.threads[i]? = some pc) (hadv : advance p.shared pc = some (s', .done))
    (hreturns : s'.returns = p.shared.returns ++ [out]) : ReturnsBy i out p := by
  obtain ⟨hstep, hdone⟩ := own_step hpc hadv
  exact ⟨1, _, Lts.run_cons_eq_some.2 ⟨_, hstep, rfl⟩, hdone, hreturns⟩

theorem ReturnsBy.next {p : Pool State Pc} {i : Nat} {pc pc' : Pc} {s' : State} {out : Result InitializeResult}
    (hpc : p.threads[i]? = some pc) (hadv : advance p.shared pc = some (s', pc'))
    (hreturns : s'.returns = p.shared.returns) (h : ReturnsBy i out ⟨s', p.threads.set i pc'⟩) : ReturnsBy i out p := by
  obtain ⟨hstep, -⟩ := own_step hpc hadv
  obtain ⟨n, q, hrun, hdone, hout⟩ := h
  refine ⟨n + 1, q, Lts.run_cons_eq_some.2 ⟨_, hstep, hrun⟩, hdone, ?_⟩
  rw [hout, hreturns]

theorem returnsBy_operate {p : Pool State Pc} {i : Nat} {result : InitializeResult} {seen : Nat}
    (hpc : p.threads[i]? = some (.initOperate result seen)) : ReturnsBy i (.ok result) p :=
  .last hpc rfl rfl

theorem returnsBy_notify {p : Pool State Pc} {i : Nat} {result : InitializeResult} {seen : Nat}
    (hpc : p.threads[i]? = some (.initNotify result seen)) : ReturnsBy i (.ok result) p :=
  .next hpc rfl rfl (returnsBy_operate (own_step hpc rfl).2)

theorem returnsBy_peer {p : Pool State Pc} {i : Nat} {result : InitializeResult} {seen : Nat}
    (hpc : p.threads[i]? = some (.initPeer result seen)) : ReturnsBy i (.ok result) p :=
  .next hpc rfl rfl (returnsBy_notify (own_step hpc rfl).2)

/-- Where the response leads is where its result is returned from. -/
theorem returnsBy_response {p : Pool State Pc} {i : Nat} {options : ClientOptions} {seen : Nat} {r : Result Json}
    (hpc : p.threads[i]? = some (initResponse options seen r)) : ReturnsBy i (initializeResult options r) p := by
  unfold initResponse at hpc
  unfold initializeResult
  cases r with
  | error e => exact .last hpc rfl rfl
  | ok j =>
    dsimp only at hpc ⊢
    cases hresult : InitializeResult.fromJson j with
    | error x =>
      rw [hresult] at hpc
      exact .last hpc rfl rfl
    | ok result =>
      rw [hresult] at hpc
      dsimp only at hpc ⊢
      split
      · rename_i hsupported
        rw [if_pos hsupported] at hpc
        exact returnsBy_peer hpc
      · rename_i hsupported
        rw [if_neg hsupported] at hpc
        exact .last hpc rfl rfl

/-- The steps of others leave a call where it stands. -/
theorem getElem?_of_step {p q : Pool State Pc} {l : Label} {i : Nat} {pc : Pc} (hpc : p.threads[i]? = some pc)
    (hwait : ∀ options seen, pc ≠ .initWait options seen) (hl : l ≠ .step i) (h : step p l = some q) :
    q.threads[i]? = some pc := by
  obtain ⟨hlt, -⟩ := List.getElem?_eq_some_iff.1 hpc
  cases l with
  | initializeRequest | initializedNote | callInitialize =>
    simp only [step] at h
    split at h
    · obtain rfl := Option.some.inj h
      exact (List.getElem?_append_left hlt).trans hpc
    · cases h
  | response j r =>
    obtain ⟨options, seen, hj, rfl⟩ := deliver_eq_some h
    have hne : j ≠ i := by
      rintro rfl
      exact hwait options seen (Option.some.inj (hpc.symm.trans hj))
    exact (List.getElem?_set_ne hne).trans hpc
  | handleClose | disconnect =>
    obtain rfl := Option.some.inj h
    exact hpc
  | step j =>
    obtain ⟨pc₀, s', pc', hj, hadv, rfl⟩ := Pool.stepAt_eq_some.1 h
    have hne : j ≠ i := by
      rintro rfl
      exact hl rfl
    exact (List.getElem?_set_ne hne).trans hpc

theorem getElem?_of_run {i : Nat} {pc : Pc} (hwait : ∀ options seen, pc ≠ .initWait options seen) :
    ∀ {labels : List Label} {p q : Pool State Pc}, p.threads[i]? = some pc → (∀ l ∈ labels, l ≠ .step i) →
      Lts.run step p labels = some q → q.threads[i]? = some pc
  | [], p, q, hpc, _, hrun => by
    obtain rfl := Option.some.inj hrun
    exact hpc
  | l :: labels, p, q, hpc, hlabels, hrun => by
    obtain ⟨t, ht, hrest⟩ := Lts.run_cons_eq_some.1 hrun
    obtain ⟨hl, hlabels⟩ := List.forall_mem_cons.1 hlabels
    exact getElem?_of_run hwait (getElem?_of_step hpc hwait hl ht) hlabels hrest

/-- **What the response of an `initialize` request does** to a call that waits for it, in a session with any other
activities. -/
structure InitializeReturns (cls : SessionClass) (response : Result Json) : Prop where
  /-- The call returns a value or an error. -/
  returns : ∀ labels p i options seen, Lts.run step (init cls) labels = some p →
    p.threads[i]? = some (.initWait options seen) →
      ∃ t, step p (.response i response) = some t ∧ t.shared.returns = p.shared.returns ∧
        ReturnsBy i (initializeResult options response) t
  /-- After a result that cannot be read, whatever happens before the call returns, the session is back in
  `Uninitialized`; its record is the one from before the return, and empty when the calls do not overlap. -/
  malformed : ∀ labels p i options seen j x mid t q, Lts.run step (init cls) labels = some p →
    p.threads[i]? = some (.initWait options seen) → response = .ok j → InitializeResult.fromJson j = .error x →
    (∀ l ∈ mid, l ≠ .step i) → Lts.run step p (.response i response :: mid) = some t → step t (.step i) = some q →
      q.threads[i]? = some .done ∧ q.shared.state = .uninitialized ∧
        q.shared.returns = t.shared.returns ++
          [.error (Error.of .internalError (bytes "invalid initialize result: " ++ x.what))] ∧
        q.shared.serverInfo = t.shared.serverInfo ∧ q.shared.serverCapabilities = t.shared.serverCapabilities ∧
        (Lts.Meets step OneAtATime (init cls) (labels ++ .response i response :: mid ++ [.step i]) → q.shared.Unset)

theorem initialize_returns (options : ClientOptions) (response : Result Json) :
    InitializeReturns (.client options) response where
  returns := by
    intro labels p i options seen _ hpc
    have hdeliver : step p (.response i response) =
        some { p with threads := p.threads.set i (initResponse options seen response) } := by
      simp only [step, deliver, hpc]
    obtain ⟨hlt, -⟩ := List.getElem?_eq_some_iff.1 hpc
    exact ⟨_, hdeliver, rfl, returnsBy_response (List.getElem?_set_self hlt)⟩
  malformed := by
    intro labels p i options' seen j x mid t q hrun hpc hresponse hread hmid hrest hstep
    obtain ⟨hlt, -⟩ := List.getElem?_eq_some_iff.1 hpc
    obtain ⟨u, hu, hmidrun⟩ := Lts.run_cons_eq_some.1 hrest
    obtain ⟨options₀, seen₀, hpc₀, rfl⟩ := deliver_eq_some hu
    have hfail : initResponse options₀ seen₀ response =
        .initFail (Error.of .internalError (bytes "invalid initialize result: " ++ x.what)) seen₀ := by
      unfold initResponse
      rw [hresponse]
      simp only [hread]
    have ht : t.threads[i]? =
        some (.initFail (Error.of .internalError (bytes "invalid initialize result: " ++ x.what)) seen₀) := by
      refine getElem?_of_run (fun _ _ h => by cases h) ?_ hmid hmidrun
      rw [← hfail]
      exact List.getElem?_set_self hlt
    have hall : Lts.run step (init (.client options)) (labels ++ .response i response :: mid ++ [.step i]) = some q :=
      Lts.run_snoc.2 ⟨t, Lts.run_append_eq_some.2 ⟨p, hrun, hrest⟩, hstep⟩
    obtain ⟨hown, hdone⟩ := own_step ht rfl
    obtain rfl := Option.some.inj (hown.symm.trans hstep)
    refine ⟨hdone, rfl, rfl, rfl, rfl, fun halone => ?_⟩
    exact (sole_of_run halone hall).fresh rfl

end Lifecycle

/-! ## The property -/

/-- **For every result a server may send**, every typed wrapper and `ClientSession::initialize` returns a value or an
error, and one that `initialize` cannot read leaves the session as it was. -/
theorem Client.replies_return (options : ClientOptions) (response : Result Json) :
    Client.WrappersCatch response ∧ Lifecycle.InitializeReturns (.client options) response :=
  ⟨Client.wrappers_catch response, Lifecycle.initialize_returns options response⟩

end Mcp
