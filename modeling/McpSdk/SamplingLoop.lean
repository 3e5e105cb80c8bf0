import McpSdk.Sampling
/-!
# SamplingLoop — the tool-use loop of a server

`run_sampling_tool_loop` sends the params, executes the tools that the answer asks for, puts the answer and the results
into the params and starts over.  What it has sent, executed and returned after any number of turns is a function of the
answers (`converses`).  What an answer's decoder throws, or the encoding of a request, leaves the loop
(`returns_iff`).
-/
namespace Mcp

namespace methods

def kSamplingCreateMessage : Bytes := bytes "sampling/createMessage"

end methods

structure ToolUseContent where
  id : Bytes
  name : Bytes
  input : Json

structure ToolResultContent where
  toolUseId : Bytes
  content : List Content
  isError : Bool

def ToolResultContent.toContent (r : ToolResultContent) : Content := .toolResult r.toolUseId r.content r.isError

/-- `std::get_if<ToolUseContent>`. -/
def Content.getToolUse : Content → Option ToolUseContent
  | .toolUse id name input => some { id, name, input }
  | _ => none

def toolUses (content : List Content) : List ToolUseContent := content.filterMap Content.getToolUse

namespace Sampling

variable {σ τ ω : Type}

/-- What the loop calls: `send_request_sync` of the session with its timeout, and the application's executor. -/
structure Callees (ω : Type) where
  sendRequestSync : Bytes → Json → ω → Except JsonException (Result Json) × ω
  executeTool : ToolUseContent → ω → ToolResultContent × ω

/-- The tools of an answer, in the order of its blocks. -/
def executeTools (executeTool : ToolUseContent → ω → ToolResultContent × ω) :
    List ToolUseContent → ω → List ToolResultContent × ω
  | [], w => ([], w)
  | use :: uses, w =>
    let (result, w) := executeTool use w
    let (results, w) := executeTools executeTool uses w
    (result :: results, w)

/-- The messages a turn adds: the answer's blocks, then the results. -/
def turnMessages (content : List Content) (results : List ToolResultContent) : List SamplingMessage :=
  content.map (fun block => ⟨.assistant, block⟩) ++ results.map (fun result => ⟨.user, result.toContent⟩)

def exceededMaxTurns : Error := Error.of .internalError (bytes "sampling tool-use loop exceeded max turns")

/-- The loop with so many turns to go. -/
def turns (c : Callees ω) : Nat → CreateMessageParams → ω → Except JsonException (Result CreateMessageResult) × ω
  | 0, _, w => (.ok (.error exceededMaxTurns), w)
  | left + 1, params, w =>
    match c.sendRequestSync methods.kSamplingCreateMessage params.toJson w with
    | (.error x, w) => (.error x, w)
    | (.ok (.error e), w) => (.ok (.error e), w)
    | (.ok (.ok response), w) =>
      match CreateMessageResult.fromJson response with
      | .error x => (.error x, w)
      | .ok (.error e) => (.ok (.error e), w)
      | .ok (.ok result) =>
        if (toolUses result.content).isEmpty then (.ok (.ok result), w)
        else
          let (results, w) := executeTools c.executeTool (toolUses result.content) w
          turns c left { params with messages := params.messages ++ turnMessages result.content results } w

def runSamplingToolLoop (c : Callees ω) (params : CreateMessageParams) (maxTurns : Int32) (w : ω) :
    Except JsonException (Result CreateMessageResult) × ω := turns c maxTurns.toInt.toNat params w

/-! ## The session and the executor -/

/-- What went out and was executed, and the executor's own state. -/
structure Record (σ : Type) where
  requests : List Json := []
  executed : List ToolUseContent := []
  executor : σ

/-- A client's answers in order, each a result or an error; `refuses` is what the encoding of a request throws. -/
def exchange (refuses : Nat → Json → Option JsonException) (responses : Nat → Result Json)
    (executeTool : ToolUseContent → σ → ToolResultContent × σ) : Callees (Record σ) where
  sendRequestSync _ params w :=
    match refuses w.requests.length params with
    | some x => (.error x, w)
    | none => (.ok (responses w.requests.length), { w with requests := w.requests ++ [params] })
  executeTool use w :=
    let (result, executor) := executeTool use w.executor
    (result, { w with executed := w.executed ++ [use], executor })

/-- The requests are written by `serialize_message`, under the ids the session gives them. -/
def dumping (text : JsonText τ) (ids : Nat → RequestId) (k : Nat) (params : Json) : Option JsonException :=
  match serializeMessage text (.request { id := ids k, method := methods.kSamplingCreateMessage, params := some params }) with
  | .ok _ => none
  | .error x => some x

/-- The requests of a session whose client answers them all. -/
def sending (_ : Nat) (_ : Json) : Option JsonException := none

/-! ## The conversation that the answers make -/

section Conversation

variable (executeTool : ToolUseContent → σ → ToolResultContent × σ) (contents : Nat → List Content)
  (params : CreateMessageParams) (executor : σ)

/-- The executor before turn `k`. -/
def executorAt : Nat → σ
  | 0 => executor
  | k + 1 => (executeTools executeTool (toolUses (contents k)) (executorAt k)).2

def resultsAt (k : Nat) : List ToolResultContent :=
  (executeTools executeTool (toolUses (contents k)) (executorAt executeTool contents executor k)).1

/-- The messages of turn `k`: the first ones, and what each turn before has added. -/
def messagesAt (k : Nat) : List SamplingMessage :=
  params.messages ++ (List.range k).flatMap fun i => turnMessages (contents i) (resultsAt executeTool contents executor i)

def paramsAt (k : Nat) : CreateMessageParams := { params with messages := messagesAt executeTool contents params executor k }

def recordAt (k : Nat) : Record σ where
  requests := (List.range k).map fun i => (paramsAt executeTool contents params executor i).toJson
  executed := (List.range k).flatMap fun i => toolUses (contents i)
  executor := executorAt executeTool contents executor k

end Conversation

/-- The calls are recorded, and the executor sees nothing of it. -/
theorem executeTools_exchange (refuses : Nat → Json → Option JsonException) (responses : Nat → Result Json)
    (executeTool : ToolUseContent → σ → ToolResultContent × σ) : ∀ (uses : List ToolUseContent) (w : Record σ),
    executeTools (exchange refuses responses executeTool).executeTool uses w =
      ((executeTools executeTool uses w.executor).1,
        { w with executed := w.executed ++ uses, executor := (executeTools executeTool uses w.executor).2 })
  | [], _ => by
    simp [executeTools]
  | use :: uses, w => by
    simp only [executeTools]
    rw [executeTools_exchange refuses responses executeTool uses]
    simp [exchange]

section Turns

variable {executeTool : ToolUseContent → σ → ToolResultContent × σ} {contents : Nat → List Content}
  {params : CreateMessageParams} {executor : σ} {refuses : Nat → Json → Option JsonException}
  {responses : Nat → Result Json}

theorem messagesAt_succ (k : Nat) : messagesAt executeTool contents params executor (k + 1) =
    messagesAt executeTool contents params executor k ++
      turnMessages (contents k) (resultsAt executeTool contents executor k) := by
  unfold messagesAt
  rw [List.range_succ, List.flatMap_append, List.append_assoc]
  simp

theorem paramsAt_zero : paramsAt executeTool contents params executor 0 = params := by
  simp [paramsAt, messagesAt]

/-- The record after turn `k`, from the one before. -/
theorem recordAt_succ (k : Nat) : recordAt executeTool contents params executor (k + 1) =
    { requests := (recordAt executeTool contents params executor k).requests ++
        [(paramsAt executeTool contents params executor k).toJson]
      executed := (recordAt executeTool contents params executor k).executed ++ toolUses (contents k)
      executor := (executeTools executeTool (toolUses (contents k))
        (recordAt executeTool contents params executor k).executor).2 } := by
  unfold recordAt
  rw [List.range_succ, List.map_append, List.flatMap_append]
  simp [executorAt]

theorem send_recordAt {k : Nat} (hsend : refuses k (paramsAt executeTool contents params executor k).toJson = none) :
    (exchange refuses responses executeTool).sendRequestSync methods.kSamplingCreateMessage
        (paramsAt executeTool contents params executor k).toJson (recordAt executeTool contents params executor k) =
      (.ok (responses k), { recordAt executeTool contents params executor k with
        requests := (recordAt executeTool contents params executor k).requests ++
          [(paramsAt executeTool contents params executor k).toJson] }) := by
  have hlength : (recordAt executeTool contents params executor k).requests.length = k := by
    simp [recordAt]
  unfold exchange
  dsimp only
  rw [hlength, hsend]

/-- **A turn with tools** leads from one state of the conversation to the next. -/
theorem turns_tools {k left : Nat} {response : Json} {result : CreateMessageResult}
    (hsend : refuses k (paramsAt executeTool contents params executor k).toJson = none)
    (hresponse : responses k = .ok response) (hresult : CreateMessageResult.fromJson response = .ok (.ok result))
    (hcontent : contents k = result.content) (htools : toolUses (contents k) ≠ []) :
    turns (exchange refuses responses executeTool) (left + 1) (paramsAt executeTool contents params executor k)
        (recordAt executeTool contents params executor k) =
      turns (exchange refuses responses executeTool) left (paramsAt executeTool contents params executor (k + 1))
        (recordAt executeTool contents params executor (k + 1)) := by
  rw [turns, send_recordAt hsend, hresponse]
  simp only [hresult]
  rw [← hcontent, if_neg (by simpa using htools), executeTools_exchange, recordAt_succ]
  dsimp only
  congr 1
  unfold paramsAt
  rw [messagesAt_succ]
  rfl

/-- A turn without tools is the last. -/
theorem turns_done {k left : Nat} {response : Json} {result : CreateMessageResult}
    (hsend : refuses k (paramsAt executeTool contents params executor k).toJson = none)
    (hresponse : responses k = .ok response) (hresult : CreateMessageResult.fromJson response = .ok (.ok result))
    (hcontent : contents k = result.content) (htools : toolUses (contents k) = []) :
    turns (exchange refuses responses executeTool) (left + 1) (paramsAt executeTool contents params executor k)
        (recordAt executeTool contents params executor k) =
      (.ok (.ok result), recordAt executeTool contents params executor (k + 1)) := by
  rw [turns, send_recordAt hsend, hresponse]
  simp only [hresult]
  rw [← hcontent, htools, List.isEmpty_nil, if_pos rfl, recordAt_succ, htools]
  simp [executeTools]

/-- **All turns with an answer each**: up to the first one without tools, or through to the last. -/
theorem turns_answered {replies : Nat → Json} {answers : Nat → CreateMessageResult}
    (hreplies : ∀ k, CreateMessageResult.fromJson (replies k) = .ok (.ok (answers k)))
    (hcontents : ∀ k, contents k = (answers k).content) : ∀ left k : Nat,
    (∃ m, k ≤ m ∧ m < k + left ∧ toolUses (contents m) = [] ∧ (∀ i, k ≤ i → i < m → toolUses (contents i) ≠ []) ∧
        turns (exchange sending (fun k => .ok (replies k)) executeTool) left (paramsAt executeTool contents params executor k)
            (recordAt executeTool contents params executor k) =
          (.ok (.ok (answers m)), recordAt executeTool contents params executor (m + 1))) ∨
      ((∀ i, k ≤ i → i < k + left → toolUses (contents i) ≠ []) ∧
        turns (exchange sending (fun k => .ok (replies k)) executeTool) left (paramsAt executeTool contents params executor k)
            (recordAt executeTool contents params executor k) =
          (.ok (.error exceededMaxTurns), recordAt executeTool contents params executor (k + left)))
  | 0, k => .inr ⟨fun i hle hlt => by omega, rfl⟩
  | left + 1, k => by
    by_cases htools : toolUses (contents k) = []
    · refine .inl ⟨k, Nat.le_refl k, by omega, htools, fun i hle hlt => by omega, ?_⟩
      exact turns_done rfl rfl (hreplies k) (hcontents k) htools
    · have hturn : turns (exchange sending (fun k => .ok (replies k)) executeTool) (left + 1)
          (paramsAt executeTool contents params executor k) (recordAt executeTool contents params executor k) = _ :=
        turns_tools rfl rfl (hreplies k) (hcontents k) htools
      have hfirst : ∀ {i m : Nat}, (∀ j, k + 1 ≤ j → j < m → toolUses (contents j) ≠ []) → k ≤ i → i < m →
          toolUses (contents i) ≠ [] := by
        intro i m hrest hle hlt
        rcases Nat.eq_or_lt_of_le hle with rfl | hlater
        · exact htools
        · exact hrest i hlater hlt
      rw [hturn]
      rcases turns_answered hreplies hcontents left (k + 1) with ⟨m, hle, hlt, hnone, hrest, heq⟩ | ⟨hrest, heq⟩
      · exact .inl ⟨m, by omega, by omega, hnone, fun i => hfirst hrest, heq⟩
      · have hend : k + 1 + left = k + (left + 1) := by
          omega
        rw [hend] at hrest heq
        exact .inr ⟨fun i => hfirst hrest, heq⟩

end Turns

/-! ## Answers that can be read -/

/-- **What a loop has done** when it returns: the requests decode to the conversation so far, every tool of every answer
was executed once, and the first answer without tools comes back, if the turns suffice. -/
structure Converses (executeTool : ToolUseContent → σ → ToolResultContent × σ) (answers : Nat → CreateMessageResult)
    (params : CreateMessageParams) (executor : σ) (maxTurns : Int32)
    (out : Except JsonException (Result CreateMessageResult) × Record σ) : Prop where
  bounded : (out.2.requests.length : Int) ≤ max maxTurns.toInt 0
  decoded : ∀ k request, out.2.requests[k]? = some request → CreateMessageParams.fromJson request =
    .ok { params with messages := messagesAt executeTool (fun i => (answers i).content) params executor k }
  executed : out.2.executed = (List.range out.2.requests.length).flatMap fun k => toolUses (answers k).content
  returned : (∃ k : Nat, (k : Int) < maxTurns.toInt ∧ toolUses (answers k).content = [] ∧
      (∀ i < k, toolUses (answers i).content ≠ []) ∧ out.1 = .ok (.ok (answers k)) ∧ out.2.requests.length = k + 1) ∨
    ((∀ k : Nat, (k : Int) < maxTurns.toInt → toolUses (answers k).content ≠ []) ∧
      out.1 = .ok (.error exceededMaxTurns))

theorem decoded_recordAt {executeTool : ToolUseContent → σ → ToolResultContent × σ} {contents : Nat → List Content}
    {params : CreateMessageParams} {executor : σ} (hparams : params.NoNulls) (n : Nat) {k : Nat} {request : Json}
    (h : (recordAt executeTool contents params executor n).requests[k]? = some request) :
    CreateMessageParams.fromJson request = .ok (paramsAt executeTool contents params executor k) := by
  unfold recordAt at h
  rw [List.getElem?_map] at h
  obtain ⟨i, hi, rfl⟩ := Option.map_eq_some_iff.1 h
  obtain ⟨hlt, rfl⟩ := List.getElem?_eq_some_iff.1 hi
  rw [List.getElem_range]
  exact CreateMessageParams.fromJson_toJson ⟨hparams.metadata, hparams.tools, hparams.toolChoice⟩

/-- The turns from the first, in the words of the bound. -/
theorem turns_from (params : CreateMessageParams) (executor : σ)
    (executeTool : ToolUseContent → σ → ToolResultContent × σ) {replies : Nat → Json} {answers : Nat → CreateMessageResult}
    (hreplies : ∀ k, CreateMessageResult.fromJson (replies k) = .ok (.ok (answers k))) (bound : Nat) :
    (∃ m < bound, toolUses (answers m).content = [] ∧ (∀ i < m, toolUses (answers i).content ≠ []) ∧
        turns (exchange sending (fun k => .ok (replies k)) executeTool) bound
            (paramsAt executeTool (fun i => (answers i).content) params executor 0) { executor } =
          (.ok (.ok (answers m)), recordAt executeTool (fun i => (answers i).content) params executor (m + 1))) ∨
      ((∀ i < bound, toolUses (answers i).content ≠ []) ∧
        turns (exchange sending (fun k => .ok (replies k)) executeTool) bound
            (paramsAt executeTool (fun i => (answers i).content) params executor 0) { executor } =
          (.ok (.error exceededMaxTurns), recordAt executeTool (fun i => (answers i).content) params executor bound)) := by
  rcases turns_answered hreplies (fun _ => rfl) bound 0 with ⟨m, -, hlt, hnone, hbefore, heq⟩ | ⟨hall, heq⟩
  · rw [Nat.zero_add] at hlt
    exact .inl ⟨m, hlt, hnone, fun i => hbefore i (Nat.zero_le i), heq⟩
  · rw [Nat.zero_add] at hall heq
    exact .inr ⟨fun i => hall i (Nat.zero_le i), heq⟩

/-- **The conversation of the loop**, for every sequence of answers that decode, every executor and every bound. -/
theorem converses {params : CreateMessageParams} (hparams : params.NoNulls) {replies : Nat → Json}
    {answers : Nat → CreateMessageResult} (hreplies : ∀ k, CreateMessageResult.fromJson (replies k) = .ok (.ok (answers k)))
    (executeTool : ToolUseContent → σ → ToolResultContent × σ) (maxTurns : Int32) (executor : σ) :
    Converses executeTool answers params executor maxTurns
      (runSamplingToolLoop (exchange sending (fun k => .ok (replies k)) executeTool) params maxTurns { executor }) := by
  have hlength : ∀ n, (recordAt executeTool (fun i => (answers i).content) params executor n).requests.length = n := by
    intro n
    simp [recordAt]
  have hexecuted : ∀ n, (recordAt executeTool (fun i => (answers i).content) params executor n).executed =
      (List.range (recordAt executeTool (fun i => (answers i).content) params executor n).requests.length).flatMap
        fun k => toolUses (answers k).content := by
    intro n
    rw [hlength]
    rfl
  have hturns := turns_from params executor executeTool hreplies maxTurns.toInt.toNat
  rw [paramsAt_zero] at hturns
  unfold runSamplingToolLoop
  rcases hturns with ⟨m, hlt, hnone, hbefore, heq⟩ | ⟨hall, heq⟩
  · rw [heq]
    refine ⟨?_, fun k request => decoded_recordAt hparams (m + 1), hexecuted (m + 1),
      .inl ⟨m, ?_, hnone, hbefore, rfl, ?_⟩⟩
    · rw [hlength]
      omega
    · omega
    · exact hlength (m + 1)
  · rw [heq]
    refine ⟨?_, fun k request => decoded_recordAt hparams _, hexecuted _, .inr ⟨fun k hk => hall k (by omega), rfl⟩⟩
    rw [hlength]
    omega

/-- Two tools in the first answer, none in the second. -/
def twoTools (k : Nat) : CreateMessageResult :=
  if k = 0 then
    { content := [textContent (bytes "adding"), .toolUse (bytes "u1") (bytes "add") (.object []),
        .toolUse (bytes "u2") (bytes "add") (.object [])], model := bytes "m" }
  else { content := [textContent (bytes "done")], model := bytes "m" }

def counting (use : ToolUseContent) (n : Nat) : ToolResultContent × Nat :=
  ({ toolUseId := use.id, content := [], isError := n == 0 }, n + 1)

theorem converses_twoTools :
    let out := runSamplingToolLoop (exchange sending (fun k => .ok (twoTools k).toJson) counting) {} 4 { executor := 0 }
    Converses counting twoTools {} 0 4 out ∧ out.2.executed.map ToolUseContent.id = [bytes "u1", bytes "u2"] :=
  ⟨converses ⟨rfl, rfl, rfl⟩ (fun k => (twoTools k).fromJson_toJson) counting 4 0, by decide +kernel⟩

/-! ## Answers of any kind -/

/-- The blocks of an answer that was read. -/
def decodedContent (responses : Nat → Result Json) (k : Nat) : List Content :=
  match responses k with
  | .error _ => []
  | .ok response =>
    match CreateMessageResult.fromJson response with
    | .ok (.ok result) => result.content
    | _ => []

/-- The turns that the loop comes to: all answers before have asked for tools. -/
def Reached (responses : Nat → Result Json) (maxTurns : Int32) (k : Nat) : Prop :=
  (k : Int) < maxTurns.toInt ∧ ∀ i < k, toolUses (decodedContent responses i) ≠ []

/-- The request can be written, and the answer holds strings where its decoder reads them unchecked. -/
def Readable (refuses : Nat → Json → Option JsonException) (responses : Nat → Result Json)
    (executeTool : ToolUseContent → σ → ToolResultContent × σ) (params : CreateMessageParams) (executor : σ) (k : Nat) :
    Prop :=
  refuses k (paramsAt executeTool (decodedContent responses) params executor k).toJson = none ∧
    ∀ response, responses k = .ok response →
      CreateMessageResult.complete response = true → CreateMessageResult.wellTyped response = true

section Returns

variable {executeTool : ToolUseContent → σ → ToolResultContent × σ} {params : CreateMessageParams} {executor : σ}
  {refuses : Nat → Json → Option JsonException} {responses : Nat → Result Json}

/-- The loop from turn `k`, with so many turns to go. -/
def turnsAt (executeTool : ToolUseContent → σ → ToolResultContent × σ) (params : CreateMessageParams) (executor : σ)
    (refuses : Nat → Json → Option JsonException) (responses : Nat → Result Json) (left k : Nat) :
    Except JsonException (Result CreateMessageResult) × Record σ :=
  turns (exchange refuses responses executeTool) left (paramsAt executeTool (decodedContent responses) params executor k)
    (recordAt executeTool (decodedContent responses) params executor k)

theorem runSamplingToolLoop_eq (maxTurns : Int32) :
    runSamplingToolLoop (exchange refuses responses executeTool) params maxTurns { executor } =
      turnsAt executeTool params executor refuses responses maxTurns.toInt.toNat 0 := by
  unfold runSamplingToolLoop turnsAt
  rw [paramsAt_zero]
  rfl

theorem turnsAt_refused {left k : Nat} {x : JsonException}
    (h : refuses k (paramsAt executeTool (decodedContent responses) params executor k).toJson = some x) :
    (turnsAt executeTool params executor refuses responses (left + 1) k).1 = .error x := by
  have hlength : (recordAt executeTool (decodedContent responses) params executor k).requests.length = k := by
    simp [recordAt]
  unfold turnsAt
  rw [turns]
  simp only [exchange, hlength, h]

/-- **One turn returns** when it is readable and, after an answer with tools, the rest returns. -/
theorem turnsAt_returns (left k : Nat) :
    (∃ r, (turnsAt executeTool params executor refuses responses (left + 1) k).1 = .ok r) ↔
      Readable refuses responses executeTool params executor k ∧
        (toolUses (decodedContent responses k) ≠ [] →
          ∃ r, (turnsAt executeTool params executor refuses responses left (k + 1)).1 = .ok r) := by
  cases hsend : refuses k (paramsAt executeTool (decodedContent responses) params executor k).toJson with
  | some x =>
    refine iff_of_false (fun ⟨r, hr⟩ => ?_) fun h => ?_
    · rw [turnsAt_refused hsend] at hr
      cases hr
    · rw [h.1.1] at hsend
      cases hsend
  | none =>
    cases hresponse : responses k with
    | error e =>
      have hcontent : decodedContent responses k = [] := by
        unfold decodedContent
        rw [hresponse]
      refine iff_of_true ⟨.error e, ?_⟩ ⟨⟨hsend, fun response h => ?_⟩, fun h => absurd (by rw [hcontent]; rfl) h⟩
      · unfold turnsAt
        rw [turns, send_recordAt hsend, hresponse]
      · rw [hresponse] at h
        cases h
    | ok response =>
      have hreadable : Readable refuses responses executeTool params executor k ↔
          ∃ r, CreateMessageResult.fromJson response = .ok r := by
        rw [CreateMessageResult.fromJson_returns_iff]
        refine ⟨fun h => h.2 response hresponse, fun h => ⟨hsend, fun other hother => ?_⟩⟩
        rw [hresponse] at hother
        cases hother
        exact h
      rw [hreadable]
      cases hresult : CreateMessageResult.fromJson response with
      | error x =>
        refine iff_of_false (fun ⟨r, hr⟩ => ?_) fun ⟨⟨r, hr⟩, _⟩ => nomatch hr
        unfold turnsAt at hr
        rw [turns, send_recordAt hsend, hresponse] at hr
        simp only [hresult] at hr
        cases hr
      | ok result =>
        cases result with
        | error e =>
          have hcontent : decodedContent responses k = [] := by
            unfold decodedContent
            rw [hresponse]
            simp only [hresult]
          refine iff_of_true ⟨.error e, ?_⟩ ⟨⟨_, rfl⟩, fun h => absurd (by rw [hcontent]; rfl) h⟩
          unfold turnsAt
          rw [turns, send_recordAt hsend, hresponse]
          simp only [hresult]
        | ok result =>
          have hcontent : decodedContent responses k = result.content := by
            unfold decodedContent
            rw [hresponse]
            simp only [hresult]
          by_cases htools : toolUses (decodedContent responses k) = []
          · refine iff_of_true ⟨.ok result, ?_⟩ ⟨⟨_, rfl⟩, fun h => absurd htools h⟩
            unfold turnsAt
            rw [turns_done hsend hresponse hresult hcontent htools]
          · unfold turnsAt
            rw [turns_tools hsend hresponse hresult hcontent htools]
            exact ⟨fun h => ⟨⟨_, rfl⟩, fun _ => h⟩, fun h => h.2 htools⟩

/-- **All turns return** when each one that is come to is readable. -/
theorem turnsAt_returns_iff : ∀ left k : Nat,
    (∃ r, (turnsAt executeTool params executor refuses responses left k).1 = .ok r) ↔
      ∀ m, k ≤ m → m < k + left → (∀ i, k ≤ i → i < m → toolUses (decodedContent responses i) ≠ []) →
        Readable refuses responses executeTool params executor m
  | 0, k => iff_of_true ⟨_, rfl⟩ fun m hle hlt => by omega
  | left + 1, k => by
    rw [turnsAt_returns, turnsAt_returns_iff left (k + 1)]
    constructor
    · rintro ⟨hfirst, hrest⟩ m hle hlt hbefore
      rcases Nat.eq_or_lt_of_le hle with rfl | hlater
      · exact hfirst
      · exact hrest (hbefore k (Nat.le_refl k) hlater) m hlater (by omega) fun i hi => hbefore i (by omega)
    · intro h
      refine ⟨h k (Nat.le_refl k) (by omega) fun i hle hlt => by omega, fun htools m hle hlt hbefore => ?_⟩
      refine h m (by omega) (by omega) fun i hi hm => ?_
      rcases Nat.eq_or_lt_of_le hi with rfl | hlater
      · exact htools
      · exact hbefore i hlater hm

end Returns

/-- **When an exception of the JSON library stays inside**, for every answer to the decoder and every sequence of answers
to the loop. -/
theorem returns_iff (text : JsonText τ) (ids : Nat → RequestId) (responses : Nat → Result Json)
    (executeTool : ToolUseContent → σ → ToolResultContent × σ) (params : CreateMessageParams) (maxTurns : Int32)
    (executor : σ) (answer : Json) :
    ((∃ r, CreateMessageResult.fromJson answer = .ok r) ↔
        (CreateMessageResult.complete answer = true → CreateMessageResult.wellTyped answer = true)) ∧
      ((∃ r, (runSamplingToolLoop (exchange (dumping text ids) responses executeTool) params maxTurns { executor }).1 =
          .ok r) ↔
        ∀ k, Reached responses maxTurns k → Readable (dumping text ids) responses executeTool params executor k) := by
  refine ⟨CreateMessageResult.fromJson_returns_iff answer, ?_⟩
  rw [runSamplingToolLoop_eq, turnsAt_returns_iff]
  refine ⟨fun h k hk => ?_, fun h k hle hlt hbefore => ?_⟩
  · obtain ⟨hlt, hbefore⟩ := hk
    exact h k (Nat.zero_le k) (by omega) fun i _ hi => hbefore i hi
  · exact h k ⟨by omega, fun i hi => hbefore i (Nat.zero_le i) hi⟩

/-- A role that is no string. -/
def numericRole : Json :=
  .object [(bytes "content", contentToJson (textContent (bytes "hi"))), (bytes "model", .string (bytes "m")),
    (bytes "role", .numberInteger 5)]

def anyText : JsonText Unit where
  parse _ := none
  dump _ := .ok ()

/-- The decoder throws, and the loop with it. -/
theorem numericRole_escapes :
    let executeTool : ToolUseContent → Unit → ToolResultContent × Unit := fun use w => (⟨use.id, [], false⟩, w)
    (¬∃ r, CreateMessageResult.fromJson numericRole = .ok r) ∧
      ¬∃ r, (runSamplingToolLoop (exchange (dumping anyText fun _ => .int 0) (fun _ => .ok numericRole) executeTool) {} 8
        { executor := () }).1 = .ok r := by
  have hcomplete : CreateMessageResult.complete numericRole = true := by
    decide +kernel
  have htyped : CreateMessageResult.wellTyped numericRole = false := by
    decide +kernel
  have hthrows : ¬∃ r, CreateMessageResult.fromJson numericRole = .ok r := by
    rw [CreateMessageResult.fromJson_returns_iff, hcomplete, htyped]
    simp
  refine ⟨hthrows, ?_⟩
  rw [runSamplingToolLoop_eq, turnsAt_returns_iff]
  intro h
  obtain ⟨-, htyped'⟩ := h 0 (Nat.le_refl 0) (by decide) fun i hle hlt => by omega
  rw [htyped' numericRole rfl hcomplete] at htyped
  cases htyped

end Sampling

end Mcp
