import McpSdk.Joined
import McpSdk.RequestsOnce
import McpSdk.InitializeCodec
/-!
# ClientCancel — when a client session cancels its `initialize`

`ClientSession::initialize` sends its request with a timeout through `send_request`, so its id stands in the pending table
and among the deadlines like any other.  Ids that are being cancelled come from two places, a round of the timer and a
`cancel_request` that finds the request pending; as long as neither meets an `initialize` request, none is cancelled
(`initialize_never_cancelled`).
-/
namespace Mcp
namespace ClientCancel

open Requests (Pc cancelNote startSend idOf)

/-! ## The client -/

/-- A call of `initialize()`; `sending` are the callback and the thread of its `send_request_sync`. -/
structure Call where
  pc : Lifecycle.Pc
  sending : Option (Callback × Nat) := none

structure State where
  requests : Pool Requests.State Pc
  /-- The ids the `initialize` requests drew. -/
  initializeIds : List RequestId := []

/-- `request_options` of `initialize()`. -/
def initializeOptions (o : ClientOptions) : RequestOptions :=
  { timeout := if 0 < o.initializeTimeout then some o.initializeTimeout else none }

def lifecycle (o : ClientOptions) (s : State) : Lifecycle.State := { cls := .client o, state := s.requests.shared.state }

/-- The next section of a call. -/
def advance (o : ClientOptions) (s : State) (call : Call) : Option (State × Call) :=
  match call.pc, call.sending with
  | .initWait _ _, none =>
    let next := startSend s.requests.shared methods.kInitialize (some (Joined.initializeParams o).toJson) (initializeOptions o)
    some ({ requests := s.requests.spawn next.1 next.2
            initializeIds := s.initializeIds ++ [.int s.requests.shared.nextRequestId] },
      { call with sending := some (s.requests.shared.calls, s.requests.threads.length) })
  | .initWait _ seen, some (callback, thread) =>
    match s.requests.threads[thread]?, s.requests.shared.invoked.find? (fun x => x.1 == callback) with
    | some .done, some (_, result) => some (s, { call with pc := Lifecycle.initResponse o seen result })
    | _, _ => none
  | .initDisconnect _, _ =>
    (Requests.step s.requests (.disconnect false)).map fun requests => ({ s with requests }, { call with pc := .done })
  | pc, _ =>
    (Lifecycle.advance (lifecycle o s) pc).map fun next =>
      ({ s with requests := { s.requests with shared := { s.requests.shared with
          state := next.1.state
          sent := s.requests.shared.sent ++ Joined.notes pc } } },
        { call with pc := next.2 })

inductive Label where
  | callInitialize
  | call (i : Nat)
  /-- Everything else of the session. -/
  | request (l : Requests.Label)

/-- The id a `send_request` of an `initialize` request draws. -/
def drawn (s : Requests.State) : Requests.Label → List RequestId
  | .sendRequest method _ _ => if method = methods.kInitialize then [.int s.nextRequestId] else []
  | _ => []

def step (o : ClientOptions) (p : Pool State Call) : Label → Option (Pool State Call)
  | .callInitialize => some (p.spawn p.shared { pc := .initCheck o })
  | .call i => Pool.stepAt (advance o) p i
  | .request l =>
    (Requests.step p.shared.requests l).map fun requests =>
      { p with shared := { requests, initializeIds := p.shared.initializeIds ++ drawn p.shared.requests.shared l } }

def init (transport : Requests.Transport) : Pool State Call := ⟨{ requests := Requests.init transport }, []⟩

/-! ## The property and the condition -/

/-- **No `notifications/cancelled` for an `initialize` request.** -/
def NeverCancelled (s : State) : Prop := ∀ id ∈ s.initializeIds, ∀ reason, cancelNote id reason ∉ s.requests.shared.sent

/-- The ids a step begins to cancel: those a round of the timer finds expired, and the one a `cancel_request` finds
pending. -/
def cancels (p : Pool Requests.State Pc) : Requests.Label → List RequestId
  | .timerScan => (p.shared.timers.expire p.shared.now).1
  | .step i =>
    match p.threads[i]? with
    | some (.cancelTake id _) => if (p.shared.pending.lookup id).isSome then [id] else []
    | _ => []
  | _ => []

/-- **The step begins to cancel no `initialize` request**, and the request ids have not come round. -/
def Spares (p : Pool State Call) (l : Label) : Prop :=
  p.shared.requests.shared.calls < 2 ^ 64 ∧
    match l with
    | .request l => ∀ id ∈ cancels p.shared.requests l, id ∉ p.shared.initializeIds
    | _ => True

/-! ## What a section can cancel -/

/-- The ids a thread is about to cancel at the peer. -/
def cancelling : Pc → List RequestId
  | .cancelNotify id _ _ => [id]
  | .expired ids => ids
  | .expireTake _ ids => ids
  | .expireCall _ ids => ids
  | _ => []

/-- The id a thread is about to register or to track. -/
def tracking : Pc → List RequestId
  | .sendRegister id _ _ _ _ => [id]
  | .sendTrack id _ _ _ => [id]
  | _ => []

theorem cancelNote_inj {id id' : RequestId} {reason reason' : Option Bytes} (h : cancelNote id reason = cancelNote id' reason') :
    id = id' := by
  have hfind : ∀ (id : RequestId) (reason : Option Bytes),
      (CancelledNotification.toJson ⟨id, reason⟩).find (bytes "requestId") = some (requestIdToJson id) := by
    intro id reason
    unfold CancelledNotification.toJson
    simp (disch := decide) only [find_setOptional_of_ne, find_set_self]
  have hjson : CancelledNotification.toJson ⟨id, reason⟩ = CancelledNotification.toJson ⟨id', reason'⟩ := by
    simpa [cancelNote] using h
  have hid : requestIdToJson id = requestIdToJson id' := by
    have hboth := congrArg (fun j => j.find (bytes "requestId")) hjson
    simp only [hfind, Option.some.injEq] at hboth
    exact hboth
  cases id <;> cases id' <;> simp_all [requestIdToJson]

theorem mem_track {t : Timers} {now : TimePoint} {id k : RequestId} {o : RequestOptions}
    (h : k ∈ (t.track now id o).deadlines) : k = id ∨ k ∈ t.deadlines := by
  unfold Timers.track at h
  dsimp only at h
  split at h
  · exact (AList.mem_insert _).1 h
  · exact .inr h

theorem mem_clear {t : Timers} {id k : RequestId} (h : k ∈ (t.clear id).deadlines) : k ∈ t.deadlines := by
  unfold Timers.clear at h
  split at h
  · exact (AList.mem_erase.1 h).2
  · exact h

theorem mem_progress {t : Timers} {now : TimePoint} {token : ProgressToken} {k : RequestId}
    (h : k ∈ (t.progress now token).2.deadlines) : k ∈ t.deadlines := by
  obtain ⟨e, he, rfl⟩ := List.mem_map.1 h
  obtain ⟨x, hx, rfl⟩ := List.mem_map.1 he
  exact List.mem_map.2 ⟨x, hx, rfl⟩

theorem mem_expire {t : Timers} {now : TimePoint} {k : RequestId} :
    (k ∈ (t.expire now).1 → k ∈ t.deadlines) ∧ (k ∈ (t.expire now).2.deadlines → k ∈ t.deadlines) :=
  ⟨Dict.mem_of_mem_filter, Dict.mem_of_mem_filter⟩

/-- **What a section does to the ids**: it tracks and registers what its thread was about to, cancels what its thread had
in hand, and takes in hand only what it found pending. -/
structure Section (s : Requests.State) (pc : Pc) (s' : Requests.State) (pc' : Pc) : Prop where
  deadlines : ∀ k ∈ s'.timers.deadlines, k ∈ s.timers.deadlines ∨ k ∈ tracking pc
  pending : ∀ k ∈ s'.pending, k ∈ s.pending ∨ k ∈ tracking pc
  tracks : tracking pc' ⊆ tracking pc
  begins : ∀ k ∈ cancelling pc', k ∈ cancelling pc ∨ ∃ reason, pc = .cancelTake k reason ∧ (s.pending.lookup k).isSome = true
  sent : ∀ k reason, cancelNote k reason ∈ s'.sent → cancelNote k reason ∈ s.sent ∨ k ∈ cancelling pc

/-- A section that begins nothing. -/
theorem Section.plain {s s' : Requests.State} {pc pc' : Pc} (hdeadlines : ∀ k ∈ s'.timers.deadlines, k ∈ s.timers.deadlines)
    (hpending : ∀ k ∈ s'.pending, k ∈ s.pending) (htracks : tracking pc' ⊆ tracking pc)
    (hbegins : cancelling pc' ⊆ cancelling pc)
    (hsent : ∀ k reason, cancelNote k reason ∈ s'.sent → cancelNote k reason ∈ s.sent ∨ k ∈ cancelling pc) : Section s pc s' pc' where
  deadlines := fun k hk => .inl (hdeadlines k hk)
  pending := fun k hk => .inl (hpending k hk)
  tracks := htracks
  begins := fun _ hk => .inl (hbegins hk)
  sent := hsent

/-- A section that leaves the tables and sends nothing. -/
theorem Section.idle {s s' : Requests.State} {pc pc' : Pc} (htimers : s'.timers = s.timers) (hpending : s'.pending = s.pending)
    (hsent : s'.sent = s.sent) (htracks : tracking pc' ⊆ tracking pc) (hcancels : cancelling pc' ⊆ cancelling pc) :
    Section s pc s' pc' := by
  refine .plain (fun k hk => ?_) (fun k hk => ?_) htracks hcancels (fun k reason hk => .inl ?_)
  · rwa [htimers] at hk
  · rwa [hpending] at hk
  · rwa [hsent] at hk

/-- A section that takes a request out of the table. -/
theorem Section.take {s s' : Requests.State} {id : RequestId} {pc pc' : Pc} {found : Callback → Pc} {missing : Pc}
    (h : (match takePending s.pending id with
      | (some callback, pending) => some ({ s with pending }, found callback)
      | (none, pending) => some ({ s with pending }, missing)) = some (s', pc'))
    (htracks : ∀ c, tracking (found c) = []) (hmissing : tracking missing = [])
    (hbegins : (s.pending.lookup id).isSome = true → ∀ c, ∀ k ∈ cancelling (found c), k ∈ cancelling pc ∨
      ∃ reason, pc = .cancelTake k reason ∧ (s.pending.lookup k).isSome = true)
    (hleft : cancelling missing ⊆ cancelling pc) : Section s pc s' pc' := by
  simp only [takePending] at h
  have herase : ∀ k ∈ s.pending.erase id, k ∈ s.pending := fun k hk => (AList.mem_erase.1 hk).2
  cases hl : s.pending.lookup id with
  | none =>
    rw [hl] at h
    obtain ⟨rfl, rfl⟩ := Pool.section_inj h
    exact .plain (fun _ hk => hk) herase (by rw [hmissing]; exact List.nil_subset _) hleft (fun _ _ h => .inl h)
  | some c =>
    rw [hl] at h
    obtain ⟨rfl, rfl⟩ := Pool.section_inj h
    exact {
      deadlines := fun _ hk => .inl hk
      pending := fun k hk => .inl (herase k hk)
      tracks := by
        rw [htracks c]
        exact List.nil_subset _
      begins := hbegins (by rw [hl]; rfl) c
      sent := fun _ _ h => .inl h }

theorem stop_ids (t : Requests.Transport) (own onReader : Bool) :
    tracking (t.stop own onReader).2 = [] ∧ cancelling (t.stop own onReader).2 = [] := by
  fun_cases Requests.Transport.stop <;> exact ⟨rfl, rfl⟩

theorem mem_sent_append {sent : List Message} {m : Message} {k : RequestId} {reason : Option Bytes}
    (h : cancelNote k reason ∈ sent ++ [m]) : cancelNote k reason ∈ sent ∨ cancelNote k reason = m := by
  rcases List.mem_append.1 h with h | h
  · exact .inl h
  · exact .inr (List.mem_singleton.1 h)

/-- **The spec of a section.** -/
theorem advance_section {s s' : Requests.State} {pc pc' : Pc} (h : Requests.advance s pc = some (s', pc')) : Section s pc s' pc' := by
  cases pc with
  | done => cases h
  | sendRegister id callback method params options =>
    obtain ⟨rfl, rfl⟩ := Pool.section_inj h
    refine ⟨fun _ hk => .inl hk, fun k hk => ?_, fun _ hk => hk, fun _ hk => .inl hk, fun _ _ h => .inl h⟩
    rcases (AList.mem_insert _).1 hk with rfl | hk
    · exact .inr (List.mem_singleton_self k)
    · exact .inl hk
  | sendTrack id method params options =>
    obtain ⟨rfl, rfl⟩ := Pool.section_inj h
    refine ⟨fun k hk => ?_, fun _ hk => .inl hk, List.nil_subset _, fun _ hk => .inl hk, fun _ _ h => .inl h⟩
    rcases mem_track hk with rfl | hk
    · exact .inr (List.mem_singleton_self k)
    · exact .inl hk
  | sendMessage id method params =>
    obtain ⟨rfl, rfl⟩ := Pool.section_inj h
    refine .plain (fun _ hk => hk) (fun _ hk => hk) (List.nil_subset _) (List.nil_subset _) (fun k reason h => ?_)
    exact (mem_sent_append h).elim .inl (fun h => by cases h)
  | responseClear id r =>
    obtain ⟨rfl, rfl⟩ := Pool.section_inj h
    exact .plain (fun _ hk => mem_clear hk) (fun _ hk => hk) (List.nil_subset _) (List.nil_subset _) (fun _ _ h => .inl h)
  | responseTake id r => exact .take h (fun _ => rfl) rfl (fun _ _ _ hk => by cases hk) (List.nil_subset _)
  | progressClock note =>
    simp only [Requests.advance] at h
    have hkeys : ∀ k ∈ (s.timers.progress s.now note.progressToken).2.deadlines, k ∈ s.timers.deadlines :=
      fun _ hk => mem_progress hk
    generalize s.timers.progress s.now note.progressToken = out at h hkeys
    obtain ⟨callback, timers⟩ := out
    cases callback <;> (
      obtain ⟨rfl, rfl⟩ := Pool.section_inj h
      exact .plain hkeys (fun _ hk => hk) (List.nil_subset _) (List.nil_subset _) (fun _ _ h => .inl h))
  | cancelClear id reason =>
    obtain ⟨rfl, rfl⟩ := Pool.section_inj h
    exact .plain (fun _ hk => mem_clear hk) (fun _ hk => hk) (List.nil_subset _) (List.nil_subset _) (fun _ _ h => .inl h)
  | cancelTake id reason =>
    refine .take h (fun _ => rfl) rfl (fun hsome c k hk => .inr ?_) (List.nil_subset _)
    obtain rfl := List.mem_singleton.1 hk
    exact ⟨reason, rfl, hsome⟩
  | cancelNotify id reason callback =>
    obtain ⟨rfl, rfl⟩ := Pool.section_inj h
    refine .plain (fun _ hk => hk) (fun _ hk => hk) (List.nil_subset _) (List.nil_subset _) (fun k reason' h => ?_)
    exact (mem_sent_append h).imp_right (fun h => List.mem_singleton.2 (cancelNote_inj h))
  | expired ids =>
    cases ids with
    | nil =>
      obtain ⟨rfl, rfl⟩ := Pool.section_inj h
      exact .idle rfl rfl rfl (List.nil_subset _) (List.nil_subset _)
    | cons id ids =>
      obtain ⟨rfl, rfl⟩ := Pool.section_inj h
      refine .plain (fun _ hk => hk) (fun _ hk => hk) (List.nil_subset _) (List.subset_cons_self id ids) (fun k reason h => ?_)
      exact (mem_sent_append h).imp_right (fun h => by rw [cancelNote_inj h]; exact List.mem_cons_self)
  | expireTake id ids => exact .take h (fun _ => rfl) rfl (fun _ _ _ hk => .inl hk) (fun _ hk => hk)
  | closeClear k =>
    obtain ⟨rfl, rfl⟩ := Pool.section_inj h
    exact .plain (fun _ hk => by cases hk) (fun _ hk => hk) (List.nil_subset _) (List.nil_subset _) (fun _ _ h => .inl h)
  | closeSwap k =>
    obtain ⟨rfl, rfl⟩ := Pool.section_inj h
    exact .plain (fun _ hk => hk) (fun _ hk => by cases hk) (List.nil_subset _) (List.nil_subset _) (fun _ _ h => .inl h)
  | closeCalls k callbacks =>
    cases callbacks with
    | nil =>
      obtain ⟨rfl, rfl⟩ := Pool.section_inj h
      cases k <;> exact .idle rfl rfl rfl (List.nil_subset _) (List.nil_subset _)
    | cons c callbacks =>
      obtain ⟨rfl, rfl⟩ := Pool.section_inj h
      exact .idle rfl rfl rfl (List.nil_subset _) (List.nil_subset _)
  | transportStop own onReader =>
    obtain ⟨rfl, rfl⟩ := Pool.section_inj h
    obtain ⟨htracks, hcancels⟩ := stop_ids s.transport own onReader
    exact .idle rfl rfl rfl (by rw [htracks]; exact List.nil_subset _) (by rw [hcancels]; exact List.nil_subset _)
  | transportJoin own onReader =>
    simp only [Requests.advance] at h
    split at h
    · obtain ⟨rfl, rfl⟩ := Pool.section_inj h
      exact .idle rfl rfl rfl (List.nil_subset _) (List.nil_subset _)
    · cases h
  | responseCall | progressCall | cancelCall | expireCall | closeState | transportReturn =>
    obtain ⟨rfl, rfl⟩ := Pool.section_inj h
    exact .idle rfl rfl rfl (fun _ hk => hk) (fun _ hk => hk)

/-! ## Invariant -/

/-- The id of one of the first `n` requests. -/
def Drawn (n : Nat) (id : RequestId) : Prop := ∃ c < n, id = idOf c

theorem Drawn.mono {n m : Nat} {id : RequestId} (h : Drawn n id) (hnm : n ≤ m) : Drawn m id := by
  obtain ⟨c, hc, rfl⟩ := h
  exact ⟨c, Nat.lt_of_lt_of_le hc hnm, rfl⟩

/-- The id of the next request is a new one, until the ids come round. -/
theorem Drawn.ne_next {n : Nat} {id : RequestId} (h : Drawn n id) (hn : n < 2 ^ 64) : id ≠ idOf n := by
  obtain ⟨c, hc, rfl⟩ := h
  intro heq
  exact Nat.ne_of_lt hc (Requests.idOf_inj (Nat.lt_trans hc hn) hn heq)

/-- **The invariant**: only drawn ids are registered or tracked, and none that is cancelled belongs to an `initialize`
request. -/
structure Ids (p : Pool Requests.State Pc) (inits : List RequestId) : Prop where
  next : p.shared.nextRequestId = Int64.ofNat (p.shared.calls + 1)
  deadlines : ∀ k ∈ p.shared.timers.deadlines, Drawn p.shared.calls k
  pending : ∀ k ∈ p.shared.pending, Drawn p.shared.calls k
  tracks : ∀ pc ∈ p.threads, ∀ k ∈ tracking pc, Drawn p.shared.calls k
  begins : ∀ pc ∈ p.threads, ∀ k ∈ cancelling pc, Drawn p.shared.calls k ∧ k ∉ inits
  sent : ∀ k reason, cancelNote k reason ∈ p.shared.sent → Drawn p.shared.calls k ∧ k ∉ inits

section Steps

variable {p q : Pool Requests.State Pc} {inits : List RequestId}

theorem ids_init (transport : Requests.Transport) : Ids (Requests.init transport) [] where
  next := rfl
  deadlines := fun _ h => by cases h
  pending := fun _ h => by cases h
  tracks := fun _ h => by cases h
  begins := fun _ h => by cases h
  sent := fun _ _ h => by cases h

theorem Ids.drawn (h : Ids p inits) : RequestId.int p.shared.nextRequestId = idOf p.shared.calls := by
  rw [h.next]
  rfl

/-- A change of the shared state that draws, registers and cancels nothing. -/
theorem Ids.quiet (h : Ids p inits) {s : Requests.State} (hnext : s.nextRequestId = p.shared.nextRequestId)
    (hcalls : s.calls = p.shared.calls) (hdeadlines : ∀ k ∈ s.timers.deadlines, k ∈ p.shared.timers.deadlines)
    (hpending : s.pending = p.shared.pending)
    (hsent : ∀ k reason, cancelNote k reason ∈ s.sent → cancelNote k reason ∈ p.shared.sent) : Ids ⟨s, p.threads⟩ inits where
  next := by
    show s.nextRequestId = Int64.ofNat (s.calls + 1)
    rw [hnext, hcalls, h.next]
  deadlines := fun k hk => hcalls ▸ h.deadlines k (hdeadlines k hk)
  pending := fun k hk => hcalls ▸ h.pending k (hpending ▸ hk)
  tracks := fun pc hpc k hk => hcalls ▸ h.tracks pc hpc k hk
  begins := fun pc hpc k hk => hcalls ▸ h.begins pc hpc k hk
  sent := fun k reason hk => hcalls ▸ h.sent k reason (hsent k reason hk)

/-- A thread that starts with nothing to track. -/
theorem Ids.start (h : Ids p inits) {pc : Pc} (htracks : tracking pc = [])
    (hbegins : ∀ k ∈ cancelling pc, Drawn p.shared.calls k ∧ k ∉ inits) : Ids ⟨p.shared, p.threads ++ [pc]⟩ inits where
  next := h.next
  deadlines := h.deadlines
  pending := h.pending
  tracks := Pool.forall_append_singleton h.tracks (fun k hk => by rw [htracks] at hk; cases hk)
  begins := Pool.forall_append_singleton h.begins hbegins
  sent := h.sent

/-- **A request draws a new id**, whether it is an `initialize` request or not. -/
theorem Ids.startSend (h : Ids p inits) (hcalls : p.shared.calls < 2 ^ 64) (method : Bytes) (params : Option Json)
    (options : RequestOptions) {new : List RequestId} (hnew : ∀ k ∈ new, k = .int p.shared.nextRequestId) :
    Ids (p.spawn (startSend p.shared method params options).1 (startSend p.shared method params options).2) (inits ++ new) := by
  have hgrows : ∀ {k : RequestId}, Drawn p.shared.calls k → Drawn (p.shared.calls + 1) k := fun hk => hk.mono (Nat.le_succ _)
  have hkeeps : ∀ {k : RequestId}, Drawn p.shared.calls k ∧ k ∉ inits → Drawn (p.shared.calls + 1) k ∧ k ∉ inits ++ new := by
    rintro k ⟨hk, hout⟩
    refine ⟨hgrows hk, fun hmem => ?_⟩
    rcases List.mem_append.1 hmem with hmem | hmem
    · exact hout hmem
    · exact hk.ne_next hcalls ((hnew k hmem).trans h.drawn)
  have hnext : p.shared.nextRequestId + 1 = Int64.ofNat (p.shared.calls + 1 + 1) := by
    rw [h.next, Int64.ofNat_add (p.shared.calls + 1) 1]
    rfl
  have hall : ∀ (passed : List Callback) (pc : Pc), (∀ k ∈ tracking pc, k = .int p.shared.nextRequestId) → cancelling pc = [] →
      Ids (p.spawn { p.shared with
        nextRequestId := p.shared.nextRequestId + 1
        calls := p.shared.calls + 1
        issued := p.shared.issued ++ [(p.shared.calls, .int p.shared.nextRequestId)]
        passed } pc) (inits ++ new) := by
    intro passed pc htracks hbegins
    refine ⟨hnext, fun k hk => hgrows (h.deadlines k hk), fun k hk => hgrows (h.pending k hk), ?_, ?_,
      fun k reason hk => hkeeps (h.sent k reason hk)⟩
    · exact Pool.forall_append_singleton (fun x hx k hk => hgrows (h.tracks x hx k hk))
        (fun k hk => ⟨p.shared.calls, Nat.lt_succ_self _, (htracks k hk).trans h.drawn⟩)
    · exact Pool.forall_append_singleton (fun x hx k hk => hkeeps (h.begins x hx k hk)) (fun k hk => by rw [hbegins] at hk; cases hk)
  unfold Requests.startSend
  cases Requests.requestParams params options with
  | error e => exact hall p.shared.passed .done (fun _ hk => by cases hk) rfl
  | ok params => exact hall _ _ (fun k hk => List.mem_singleton.1 hk) rfl

theorem Ids.stepAt (h : Ids p inits) {i : Nat} (hspares : ∀ k ∈ cancels p (.step i), k ∉ inits)
    (hq : Pool.stepAt Requests.advance p i = some q) : Ids q inits := by
  obtain ⟨pc, s', pc', hpc, hadv, rfl⟩ := Pool.stepAt_eq_some.1 hq
  have hmem := List.mem_of_getElem? hpc
  obtain ⟨hsame, -⟩ := Requests.advance_move hadv
  have hsection := advance_section hadv
  have hbegins : ∀ k ∈ cancelling pc', Drawn p.shared.calls k ∧ k ∉ inits := by
    intro k hk
    rcases hsection.begins k hk with hk | ⟨reason, rfl, hsome⟩
    · exact h.begins pc hmem k hk
    · exact ⟨h.pending k (AList.lookup_isSome.1 hsome), hspares k (by simp [cancels, hpc, hsome])⟩
  refine ⟨?_, fun k hk => ?_, fun k hk => ?_, ?_, ?_, fun k reason hk => ?_⟩
  · show s'.nextRequestId = Int64.ofNat (s'.calls + 1)
    rw [hsame.next, hsame.calls, h.next]
  · show Drawn s'.calls k
    rw [hsame.calls]
    exact (hsection.deadlines k hk).elim (h.deadlines k) (h.tracks pc hmem k)
  · show Drawn s'.calls k
    rw [hsame.calls]
    exact (hsection.pending k hk).elim (h.pending k) (h.tracks pc hmem k)
  · show ∀ x ∈ p.threads.set i pc', ∀ k ∈ tracking x, Drawn s'.calls k
    rw [hsame.calls]
    exact Pool.forall_set h.tracks i (fun k hk => h.tracks pc hmem k (hsection.tracks hk))
  · show ∀ x ∈ p.threads.set i pc', ∀ k ∈ cancelling x, Drawn s'.calls k ∧ k ∉ inits
    rw [hsame.calls]
    exact Pool.forall_set h.begins i hbegins
  · show Drawn s'.calls k ∧ k ∉ inits
    rw [hsame.calls]
    exact (hsection.sent k reason hk).elim (h.sent k reason) (h.begins pc hmem k)

/-- **The step lemma, for the session under `initialize()`.** -/
theorem Ids.step (h : Ids p inits) {l : Requests.Label} (hcalls : p.shared.calls < 2 ^ 64) (hspares : ∀ k ∈ cancels p l, k ∉ inits)
    (hq : Requests.step p l = some q) : Ids q (inits ++ ClientCancel.drawn p.shared l) := by
  cases l with
  | sendRequest method params options =>
    obtain rfl := Option.some.inj hq
    refine h.startSend hcalls method params options (fun k hk => ?_)
    simp only [ClientCancel.drawn] at hk
    split at hk
    · exact List.mem_singleton.1 hk
    · cases hk
  | step i =>
    show Ids q (inits ++ [])
    rw [List.append_nil]
    exact h.stepAt hspares hq
  | timerScan =>
    show Ids q (inits ++ [])
    rw [List.append_nil]
    simp only [Requests.step] at hq
    split at hq
    · cases hq
    · obtain rfl := Option.some.inj hq
      have hquiet : Ids ⟨{ p.shared with timers := (p.shared.timers.expire p.shared.now).2 }, p.threads⟩ inits :=
        h.quiet rfl rfl (fun _ hk => mem_expire.2 hk) rfl (fun _ _ hk => hk)
      exact hquiet.start rfl (fun k hk => ⟨h.deadlines k (mem_expire.1 hk), hspares k hk⟩)
  | readerCloses =>
    show Ids q (inits ++ [])
    rw [List.append_nil]
    obtain ⟨⟨t, pc⟩, ht, rfl⟩ := Option.map_eq_some_iff.1 hq
    have hquiet : Ids ⟨{ p.shared with transport := t }, p.threads⟩ inits :=
      h.quiet rfl rfl (fun _ hk => hk) rfl (fun _ _ hk => hk)
    rcases Requests.readerCloses_pc ht with rfl | rfl <;> exact hquiet.start rfl (fun _ hk => by cases hk)
  | readerReturns =>
    show Ids q (inits ++ [])
    rw [List.append_nil]
    obtain ⟨t, -, rfl⟩ := Option.map_eq_some_iff.1 hq
    exact h.quiet rfl rfl (fun _ hk => hk) rfl (fun _ _ hk => hk)
  | response r =>
    show Ids q (inits ++ [])
    rw [List.append_nil]
    obtain rfl := Option.some.inj hq
    have hquiet : Ids ⟨{ p.shared with received := p.shared.received ++ [r] }, p.threads⟩ inits :=
      h.quiet rfl rfl (fun _ hk => hk) rfl (fun _ _ hk => hk)
    refine hquiet.start ?_ ?_
    · cases r.id <;> rfl
    · cases r.id <;> exact fun _ hk => by cases hk
  | connect | tick =>
    show Ids q (inits ++ [])
    rw [List.append_nil]
    obtain rfl := Option.some.inj hq
    exact h.quiet rfl rfl (fun _ hk => hk) rfl (fun _ _ hk => hk)
  | progress | cancelRequest | transportDisconnect =>
    show Ids q (inits ++ [])
    rw [List.append_nil]
    obtain rfl := Option.some.inj hq
    exact h.start rfl (fun _ hk => by cases hk)
  | disconnect onReader =>
    show Ids q (inits ++ [])
    rw [List.append_nil]
    obtain rfl := Option.some.inj hq
    have hquiet : Ids ⟨{ p.shared with state := .shutdown }, p.threads⟩ inits :=
      h.quiet rfl rfl (fun _ hk => hk) rfl (fun _ _ hk => hk)
    exact hquiet.start rfl (fun _ hk => by cases hk)

end Steps

/-! ## The client's runs -/

/-- No section of `initialize()` besides its `send_request` touches an id. -/
theorem notes_plain {pc : Lifecycle.Pc} {sent : List Message} {k : RequestId} {reason : Option Bytes}
    (h : cancelNote k reason ∈ sent ++ Joined.notes pc) : cancelNote k reason ∈ sent := by
  rcases List.mem_append.1 h with h | h
  · exact h
  · cases pc with
    | initNotify result seen =>
      have hmethod : methods.kNotificationCancelled ≠ methods.kNotificationInitialized := by decide
      have heq := List.mem_singleton.1 h
      simp only [cancelNote, Message.notification.injEq, JsonRpcNotification.mk.injEq] at heq
      exact absurd heq.1 hmethod
    | _ => cases h

theorem advance_ids {o : ClientOptions} {s s' : State} {call call' : Call} (h : Ids s.requests s.initializeIds)
    (hcalls : s.requests.shared.calls < 2 ^ 64) (hadv : advance o s call = some (s', call')) : Ids s'.requests s'.initializeIds := by
  obtain ⟨pc, sending⟩ := call
  have hsection : (Lifecycle.advance (lifecycle o s) pc).map (fun next =>
      (({ s with requests := { s.requests with shared := { s.requests.shared with
          state := next.1.state
          sent := s.requests.shared.sent ++ Joined.notes pc } } } : State), (⟨next.2, sending⟩ : Call))) = some (s', call') →
        Ids s'.requests s'.initializeIds := by
    intro hmap
    obtain ⟨next, -, heq⟩ := Option.map_eq_some_iff.1 hmap
    cases heq
    exact h.quiet rfl rfl (fun _ hk => hk) rfl (fun _ _ hk => notes_plain hk)
  cases pc with
  | initWait options seen =>
    cases sending with
    | none =>
      obtain ⟨rfl, rfl⟩ := Pool.section_inj hadv
      exact h.startSend hcalls _ _ _ (fun k hk => List.mem_singleton.1 hk)
    | some sent =>
      simp only [advance] at hadv
      split at hadv
      · obtain ⟨rfl, rfl⟩ := Pool.section_inj hadv
        exact h
      · cases hadv
  | initDisconnect e =>
    have hadv' : (Requests.step s.requests (.disconnect false)).map (fun requests =>
        (({ s with requests } : State), (⟨.done, sending⟩ : Call))) = some (s', call') := by
      cases sending <;> exact hadv
    obtain ⟨requests, hstep, heq⟩ := Option.map_eq_some_iff.1 hadv'
    cases heq
    have hnone : ∀ k ∈ cancels s.requests (.disconnect false), k ∉ s.initializeIds := fun _ hk => by cases hk
    have hids := h.step hcalls hnone hstep
    rwa [show drawn s.requests.shared (.disconnect false) = [] from rfl, List.append_nil] at hids
  | _ => cases sending <;> exact hsection hadv

theorem step_ids {o : ClientOptions} {p q : Pool State Call} {l : Label} (h : Ids p.shared.requests p.shared.initializeIds)
    (hl : Spares p l) (hq : step o p l = some q) : Ids q.shared.requests q.shared.initializeIds := by
  cases l with
  | callInitialize =>
    obtain rfl := Option.some.inj hq
    exact h
  | call i =>
    obtain ⟨call, s', call', -, hadv, rfl⟩ := Pool.stepAt_eq_some.1 hq
    exact advance_ids h hl.1 hadv
  | request l =>
    obtain ⟨requests, hstep, rfl⟩ := Option.map_eq_some_iff.1 hq
    exact h.step hl.1 hl.2 hstep

/-- **No `initialize` request is cancelled** in a run whose timer rounds and `cancel_request` calls meet none, before the
request ids come round. -/
theorem initialize_never_cancelled (o : ClientOptions) (transport : Requests.Transport) {labels : List Label}
    {p : Pool State Call} (hrun : Lts.run (step o) (init transport) labels = some p)
    (hspares : Lts.Meets (step o) Spares (init transport) labels) : NeverCancelled p.shared := by
  have hids : Ids p.shared.requests p.shared.initializeIds :=
    Lts.meets_invariant (I := fun p => Ids p.shared.requests p.shared.initializeIds)
      (fun _ _ _ h hl hq => step_ids h hl hq) (ids_init transport) hspares hrun
  exact fun id hid reason hsent => (hids.sent id reason hsent).2 hid

/-! ## A handshake that times out -/

def anyClient : ClientOptions := { clientInfo := { name := bytes "c", version := bytes "1" } }

/-- `initialize()` is called, and its request is sent. -/
def calling : List Label :=
  [.callInitialize, .call 0, .call 0, .call 0, .request (.step 0), .request (.step 0), .request (.step 0)]

/-- Another request is cancelled, and `initialize()` is answered in time. -/
def answeredInTime : List Label :=
  calling ++ [.request (.sendRequest (bytes "tools/list") none {}), .request (.step 1), .request (.step 1), .request (.step 1),
    .request (.cancelRequest (.int 2) none), .request (.step 2), .request (.step 2), .request (.step 2),
    .request (.response { id := some (.int 1), result := some (.object []) }), .request (.step 3), .request (.step 3)]

/-- Whether a label meets the condition, for a run. -/
instance (p : Pool State Call) (l : Label) : Decidable (Spares p l) := by
  unfold Spares
  cases l <;> infer_instance

theorem initialize_never_cancelled_inTime :
    ∃ p, Lts.run (step anyClient) (init (.stdio true .running)) answeredInTime = some p ∧
      p.shared.initializeIds = [.int 1] ∧ p.shared.requests.shared.sent.length = 3 ∧ NeverCancelled p.shared := by
  have hrun : (Lts.run (step anyClient) (init (.stdio true .running)) answeredInTime).map (fun p =>
      (p.shared.initializeIds, p.shared.requests.shared.sent.length)) = some ([.int 1], 3) := by decide +kernel
  obtain ⟨p, hp, heq⟩ := Option.map_eq_some_iff.1 hrun
  simp only [Prod.mk.injEq] at heq
  exact ⟨p, hp, heq.1, heq.2, initialize_never_cancelled anyClient _ hp (by decide +kernel)⟩

/-- Ten seconds pass, and the timer fires. -/
def timingOut : List Label := calling ++ [.request (.tick 10000000000), .request .timerScan, .request (.step 1)]

/-- `cancel_request` is called for the request. -/
def cancellingIt : List Label :=
  calling ++ [.request (.cancelRequest (.int 1) none), .request (.step 1), .request (.step 1), .request (.step 1)]

/-- **An `initialize` that times out is cancelled at the peer**, and so is one that `cancel_request` is called for. -/
theorem initialize_timedOut_cancelled :
    (∃ p, Lts.run (step anyClient) (init (.stdio true .running)) timingOut = some p ∧ ¬ NeverCancelled p.shared) ∧
      ∃ p, Lts.run (step anyClient) (init (.stdio true .running)) cancellingIt = some p ∧ ¬ NeverCancelled p.shared := by
  have hcancelled : ∀ {labels : List Label} {reason : Option Bytes}, (Lts.run (step anyClient) (init (.stdio true .running)) labels).map
      (fun p => (p.shared.initializeIds, p.shared.requests.shared.sent.getLast?)) = some ([.int 1], some (cancelNote (.int 1) reason)) →
      ∃ p, Lts.run (step anyClient) (init (.stdio true .running)) labels = some p ∧ ¬ NeverCancelled p.shared := by
    intro labels reason hrun
    obtain ⟨p, hp, heq⟩ := Option.map_eq_some_iff.1 hrun
    simp only [Prod.mk.injEq] at heq
    have hid : RequestId.int 1 ∈ p.shared.initializeIds := by rw [heq.1]; exact List.mem_singleton_self _
    exact ⟨p, hp, fun h => h _ hid reason (List.mem_of_getLast? heq.2)⟩
  exact ⟨hcancelled rfl, hcancelled rfl⟩

end ClientCancel
end Mcp
