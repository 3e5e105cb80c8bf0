import McpSdk.PostAnswer
/-!
# PostChannel — what may reach the SSE channel

A response is sent either while its thread has a capture, which takes it, or by `emit_error`, which runs after a 400 and
before any capture: that one is enqueued.  Without it no response ever is (`Quiet`), and what each POST causes is in its
own answer.
-/
namespace Mcp
namespace Post

open Pool (madeBy)

variable {ω τ : Type} {text : JsonText τ}

/-- **The body is one `parse_frame` accepts**, when it goes to an `HttpServerTransport`. -/
def accepts (text : JsonText τ) : Pc ω τ → Bool
  | .parse (.transport _) body =>
    match parseFrame text body with
    | .ok (.error _) => false
    | _ => true
  | _ => true

/-- `accepts` of the section a label runs. -/
def stepAccepts (text : JsonText τ) (p : Pool (State ω τ) (Pc ω τ)) : Label ω τ → Bool
  | .step i _ => (p.threads[i]?).all (accepts text)
  | _ => true

/-- Not about to report a refused frame to the session. -/
def Pc.NoError : Pc ω τ → Prop
  | .emitError .. => False
  | _ => True

theorem writeBadRequest_enqueued (s : State ω τ) (i : Nat) (e : Error) (next : Pc ω τ) :
    (writeBadRequest text s i e next).1.enqueued = s.enqueued := by
  unfold writeBadRequest
  split <;> rfl

theorem writeBadRequest_noError {s : State ω τ} {i : Nat} {e : Error} {next : Pc ω τ} (h : next.NoError) :
    (writeBadRequest text s i e next).2.NoError := by
  unfold writeBadRequest
  split
  · exact h
  · trivial

/-- Where a frame goes, nothing is enqueued or reported. -/
theorem routeFrame_quiet (s : State ω τ) (i : Nat) (frame : ParsedFrame) (target : Target ω) :
    (routeFrame text s i frame target).1.enqueued = s.enqueued ∧ (routeFrame text s i frame target).2.NoError := by
  cases target with
  | transport index | session index | unknown => exact ⟨rfl, trivial⟩
  | fresh created =>
    unfold routeFrame
    dsimp only
    split
    · cases created with
      | none => exact ⟨rfl, trivial⟩
      | some session => exact ⟨rfl, trivial⟩
    · exact ⟨writeBadRequest_enqueued s i _ _, writeBadRequest_noError trivial⟩

theorem parse_quiet {s : State ω τ} {i : Nat} {now : TimePoint} {target : Target ω} {body : τ} {r : State ω τ × Pc ω τ}
    (hok : accepts text (.parse target body) = true) (ha : advance text i now s (.parse target body) = some r) :
    r.1.enqueued = s.enqueued ∧ r.2.NoError := by
  simp only [advance] at ha
  cases hp : parseFrame text body with
  | error x =>
    rw [hp] at ha
    cases ha
    exact ⟨rfl, trivial⟩
  | ok parsed =>
    rw [hp] at ha
    cases parsed with
    | ok frame =>
      cases ha
      exact routeFrame_quiet s i frame target
    | error e =>
      cases ha
      refine ⟨writeBadRequest_enqueued s i e _, writeBadRequest_noError ?_⟩
      cases target with
      | transport index =>
        simp only [accepts, hp] at hok
        cases hok
      | session index | unknown | fresh created => trivial

theorem capture_getD_enqueued (s : State ω τ) (i : Nat) (j : Json) : ((s.capture i j).getD s).enqueued = s.enqueued := by
  cases hc : s.capture i j with
  | none => rfl
  | some s' =>
    obtain ⟨captured, -, rfl⟩ := Option.map_eq_some_iff.1 hc
    rfl

theorem deliver_quiet {s : State ω τ} {i index : Nat} {now : TimePoint} {frame : ParsedFrame} {messages : List Message}
    {r : State ω τ × Pc ω τ} (ha : advance text i now s (.deliver index frame messages) = some r) :
    r.1.enqueued = s.enqueued ∧ r.2.NoError := by
  rcases messages with _ | ⟨q | n | x, messages⟩
  · cases ha
    exact ⟨rfl, trivial⟩
  all_goals
    obtain ⟨session, -, hr⟩ := Option.map_eq_some_iff.1 ha
    dsimp only at hr
    split at hr <;>
      (cases hr
       exact ⟨rfl, trivial⟩)

/-- **A section that reports no refused frame enqueues nothing**: the response of a serving thread goes to its
capture. -/
theorem advance_quiet {s : State ω τ} {i : Nat} {now : TimePoint} {pc : Pc ω τ} {r : State ω τ × Pc ω τ}
    (hinv : ThreadInv text s.sessions.length (s.view i) pc) (hok : accepts text pc = true) (hq : pc.NoError)
    (ha : advance text i now s pc = some r) : r.1.enqueued = s.enqueued ∧ r.2.NoError := by
  cases pc with
  | done | crashed => cases ha
  | parse target body => exact parse_quiet hok ha
  | emitError index e => exact absurd hq not_false
  | construct index frame | destruct =>
    cases ha
    exact ⟨rfl, trivial⟩
  | itemErrors index frame errors =>
    cases errors with
    | nil =>
      cases ha
      exact ⟨rfl, trivial⟩
    | cons e errors =>
      cases ha
      exact ⟨capture_getD_enqueued s i _, trivial⟩
  | deliver index frame messages => exact deliver_quiet ha
  | dispatch index frame q messages =>
    obtain ⟨session, -, hr⟩ := Option.map_eq_some_iff.1 ha
    cases hr
    exact ⟨rfl, trivial⟩
  | send index frame response messages =>
    obtain ⟨-, handled, q, -, -, hs⟩ := hinv
    obtain ⟨s', hsend, henqueued, -⟩ := send_response text (hs.captured_produce response) index response
    simp only [advance, hsend] at ha
    cases ha
    exact ⟨henqueued, trivial⟩
  | finish frame =>
    simp only [advance, Option.some.injEq] at ha
    subst ha
    split
    · exact ⟨rfl, trivial⟩
    · split <;> exact ⟨rfl, trivial⟩

/-- No response has been enqueued, and none is about to be. -/
structure Quiet (text : JsonText τ) (p : Pool (State ω τ) (Pc ω τ)) : Prop where
  served : Served text p
  enqueued : ∀ e ∈ p.shared.enqueued, e.2.isResponse = false
  noError : ∀ pc ∈ p.threads, pc.NoError

/-- **Each step meeting the condition keeps the channel free of responses.** -/
theorem quiet_step {p q : Pool (State ω τ) (Pc ω τ)} {label : Label ω τ} (h : Quiet text p)
    (hok : stepAccepts text p label = true) (hs : step text p label = some q) : Quiet text q := by
  have hserved := served_step h.served hs
  cases label with
  | post target body =>
    simp only [step] at hs
    split at hs
    · cases hs
      exact ⟨hserved, h.enqueued, Pool.forall_append_singleton h.noError trivial⟩
    · cases hs
  | sendOther index m =>
    simp only [step] at hs
    split at hs
    · cases hs
    · rename_i hm
      obtain ⟨t, -, rfl⟩ := Option.map_eq_some_iff.1 hs
      exact ⟨hserved, Pool.forall_append_singleton h.enqueued (Bool.eq_false_of_not_eq_true hm), h.noError⟩
  | other index session world =>
    cases hs
    exact ⟨hserved, h.enqueued, h.noError⟩
  | step i now =>
    obtain ⟨pc, s', pc', hpc, ha, rfl⟩ := Pool.stepAt_eq_some.1 hs
    obtain ⟨henqueued, hnext⟩ := advance_quiet (h.served.thread i pc hpc) (by simpa [stepAccepts, hpc] using hok)
      (h.noError pc (List.mem_of_getElem? hpc)) ha
    exact ⟨hserved, fun e he => h.enqueued e (henqueued ▸ he), Pool.forall_set h.noError i hnext⟩

/-- **What a thread has answered, if anything, is what was made for its POST.** -/
theorem ThreadInv.written {n : Nat} {v : View τ} {pc : Pc ω τ} (h : ThreadInv text n v pc) :
    v.replies = [] ∨ Settled text v := by
  cases pc with
  | done | destruct => exact .inr h
  | emitError index e => exact .inr h.1
  | crashed => exact h
  | parse target body => exact .inl h.1.replies
  | construct index frame => exact .inl h.1.replies
  | itemErrors index frame errors => exact .inl h.2.1
  | deliver index frame messages =>
    obtain ⟨-, handled, -, hs⟩ := h
    exact .inl hs.replies
  | dispatch index frame q messages =>
    obtain ⟨-, handled, -, hs⟩ := h
    exact .inl hs.replies
  | send index frame response messages =>
    obtain ⟨-, handled, q, -, -, hs⟩ := h
    exact .inl hs.replies
  | finish frame => exact .inl (show Serving text v frame frame.messages from h).replies

/-- **No response is on the SSE channel, and each POST's answer, once it has one, is what was made for it**, in every
state of a run in which no body sent to an `HttpServerTransport` is refused by `parse_frame`. -/
theorem channel_responseless {sessions : List (Session ω)} {world : ω} {l : List (Label ω τ)}
    {p : Pool (State ω τ) (Pc ω τ)} (hr : Lts.run (step text) (init sessions world) l = some p)
    (hm : Lts.Meets (step text) (fun p label => stepAccepts text p label = true) (init sessions world) l) :
    (∀ e ∈ p.shared.enqueued, e.2.isResponse = false) ∧
      ∀ i, madeBy i p.shared.replies = [] ∨
        ∃ reply, madeBy i p.shared.replies = [reply] ∧ Written text (p.shared.view i) reply := by
  have hquiet : Quiet text p := Lts.meets_invariant (fun _ _ _ h hok hs => quiet_step h hok hs)
    ⟨served_init sessions world, fun _ he => (by cases he), fun _ hpc => (by cases hpc)⟩ hm hr
  refine ⟨hquiet.enqueued, fun i => ?_⟩
  by_cases hi : i < p.threads.length
  · exact (hquiet.served.thread i _ (List.getElem?_eq_getElem hi)).written
  · exact .inl (hquiet.served.unborn i (Nat.le_of_not_lt hi)).replies

/-- Two POSTs to an `HttpSessionServer`'s session: no JSON, and the mixed batch. -/
def sessionPosts : List (Label Unit Bytes) :=
  [.post (.session 0) (bytes "x"), .post (.session 0) (bodyText mixedBatch)] ++ [0, 1, 1, 1, 1, 1, 1, 1, 1, 1, 1, 1, 1].map (.step · 0)

theorem channel_responseless_session :
    ∃ p, Lts.run (step sampleText) (init [sampleServer] ()) sessionPosts = some p ∧ p.shared.replies.length = 2 ∧
      (∀ e ∈ p.shared.enqueued, e.2.isResponse = false) ∧
      ∀ i, madeBy i p.shared.replies = [] ∨
        ∃ reply, madeBy i p.shared.replies = [reply] ∧ Written sampleText (p.shared.view i) reply := by
  have hrun : (Lts.run (step sampleText) (init [sampleServer] ()) sessionPosts).map (·.shared.replies.length) = some 2 := by
    decide +kernel
  obtain ⟨p, hp, hreplies⟩ := Option.map_eq_some_iff.1 hrun
  exact ⟨p, hp, hreplies, channel_responseless hp (by decide +kernel)⟩

/-- A POST to an `HttpServerTransport` that is not JSON. -/
def refusedPost : List (Label Unit Bytes) := [.post (.transport 0) (bytes "x"), .step 0 0, .step 0 0]

/-- **The error of a refused POST is enqueued**, after its 400 has carried it. -/
theorem refusedPost_enqueued :
    ∃ p, Lts.run (step sampleText) (init [sampleServer] ()) refusedPost = some p ∧ p.shared.replies.length = 1 ∧
      ∃ e ∈ p.shared.enqueued, e.2.isResponse = true := by
  have hrun : (Lts.run (step sampleText) (init [sampleServer] ()) refusedPost).map
      (fun p => (p.shared.replies.length, p.shared.enqueued.any (·.2.isResponse))) = some (1, true) := by
    decide +kernel
  obtain ⟨p, hp, hfacts⟩ := Option.map_eq_some_iff.1 hrun
  exact ⟨p, hp, congrArg Prod.fst hfacts, List.any_eq_true.1 (congrArg Prod.snd hfacts)⟩

end Post
end Mcp
