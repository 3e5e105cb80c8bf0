import McpSdk.Session
/-!
# CancelledIncoming — the initialize request cannot be cancelled

`is_cancelled` must not report an initialize request.  The session remembers one protected id, the last one, and refuses
a cancellation of it; a cancellation that came before, or one of an earlier initialize request, is recorded.
-/
namespace Mcp
namespace Session

variable {ω : Type}

/-- `is_cancelled`. -/
def isCancelled (s : Session ω) (id : RequestId) : Bool := decide (id ∈ s.cancelledIncoming)

/-- The session after messages, each with the time it was received. -/
def received (s : Session ω) (w : ω) : List (TimePoint × Message) → Session ω × ω
  | [] => (s, w)
  | (now, m) :: ms => received (handleMessage now s w m).session (handleMessage now s w m).world ms

def initializeId : Message → Option RequestId
  | .request r => if r.method = methods.kInitialize then some r.id else none
  | _ => none

def initializeIds (ms : List (TimePoint × Message)) : List RequestId := ms.filterMap (fun x => initializeId x.2)

/-- The id in a notification that reaches `handle_cancelled`. -/
def cancelledId (s : Session ω) : Message → Option RequestId
  | .notification n =>
    match s.router.findNotificationHandler n.method, n.params.map CancelledNotification.fromJson with
    | some .cancelled, some (.ok (.ok note)) => some note.requestId
    | _, _ => none
  | _ => none

/-- Every initialize request of the sequence stays uncancelled from its receipt on. -/
def InitializeUncancelled (s : Session ω) (w : ω) (ms : List (TimePoint × Message)) : Prop :=
  ∀ pre x more rest i, ms = pre ++ x :: (more ++ rest) → initializeId x.2 = some i →
    (received s w (pre ++ x :: more)).1.isCancelled i = false

/-- No initialize request has an id whose cancellation is still recorded, and no cancellation names an earlier
initialize request but the last one. -/
def CancelledInTime (s : Session ω) (w : ω) (ms : List (TimePoint × Message)) : Prop :=
  ∀ pre x post i, ms = pre ++ x :: post →
    (initializeId x.2 = some i → i ∉ (received s w pre).1.cancelledIncoming) ∧
      (s.cancelledId x.2 = some i → i ∈ initializeIds pre → (initializeIds pre).getLast? = some i)

/-! ## One message -/

/-- What a cancellation of `id` leaves in the set. -/
def recorded (tracked : Finset RequestId) (id : RequestId) : Finset RequestId :=
  insert id (if kMaxTrackedCancellations ≤ tracked.card then ∅ else tracked)

theorem runInitialize_tables (options : ServerOptions) (s : Session ω) (params : Option Json) :
    (runInitialize options s params).2.cancelledIncoming = s.cancelledIncoming ∧
      (runInitialize options s params).2.protectedRequestId = s.protectedRequestId ∧
      (runInitialize options s params).2.router = s.router := by
  unfold runInitialize
  split
  · exact ⟨rfl, rfl, rfl⟩
  by_cases hstate : s.state = .uninitialized
  · rw [if_neg (not_not.2 hstate)]
    cases params with
    | none => exact ⟨rfl, rfl, rfl⟩
    | some p =>
      dsimp only
      cases InitializeParams.fromJson p <;> exact ⟨rfl, rfl, rfl⟩
  · rw [if_pos hstate]
    cases params with
    | none => exact ⟨rfl, rfl, rfl⟩
    | some p =>
      dsimp only
      cases InitializeParams.fromJson p <;> exact ⟨rfl, rfl, rfl⟩

theorem dispatchRequest_tables (s : Session ω) (w : ω) (r : JsonRpcRequest) :
    (s.dispatchRequest w r).2.1.cancelledIncoming = s.cancelledIncoming ∧
      (s.dispatchRequest w r).2.1.protectedRequestId = s.protectedRequestId ∧
      (s.dispatchRequest w r).2.1.router = s.router := by
  unfold dispatchRequest
  cases s.router.findRequestHandler r.method with
  | none => exact ⟨rfl, rfl, rfl⟩
  | some handler =>
    cases handler with
    | initializeHandler options => exact runInitialize_tables options s r.params
    | _ => exact ⟨rfl, rfl, rfl⟩

theorem protectId_tables (s : Session ω) (r : JsonRpcRequest) :
    (s.protectId r).cancelledIncoming = s.cancelledIncoming ∧
      (s.protectId r).protectedRequestId = (initializeId (.request r)).or s.protectedRequestId ∧
      (s.protectId r).router = s.router := by
  dsimp only [protectId, initializeId]
  by_cases hm : r.method = methods.kInitialize
  · rw [if_pos hm, if_pos hm]
    exact ⟨rfl, rfl, rfl⟩
  · rw [if_neg hm, if_neg hm]
    exact ⟨rfl, rfl, rfl⟩

/-- **What one message does to the tables**: an initialize request sets the protected id, a cancellation of any other id
is recorded, and the notification handlers stay. -/
theorem handleMessage_tables (now : TimePoint) (s : Session ω) (w : ω) (m : Message) :
    (handleMessage now s w m).session.cancelledIncoming =
        (match s.cancelledId m with
        | some i => if s.protectedRequestId = some i then s.cancelledIncoming else recorded s.cancelledIncoming i
        | none => s.cancelledIncoming) ∧
      (handleMessage now s w m).session.protectedRequestId = (initializeId m).or s.protectedRequestId ∧
      (handleMessage now s w m).session.router.findNotificationHandler = s.router.findNotificationHandler := by
  cases m with
  | request r =>
    obtain ⟨hcancelled, hprotected, hrouter⟩ := dispatchRequest_tables (s.protectId r) w r
    obtain ⟨hset, hid, hsame⟩ := protectId_tables s r
    dsimp only [handleMessage, handleRequest, cancelledId]
    cases (s.protectId r).checkIncomingRequest r with
    | some e => exact ⟨hset, hid, congrArg _ hsame⟩
    | none => exact ⟨hcancelled.trans hset, hprotected.trans hid, congrArg _ (hrouter.trans hsame)⟩
  | notification n =>
    dsimp only [handleMessage, dispatchNotification, cancelledId]
    cases s.router.findNotificationHandler n.method with
    | none => exact ⟨rfl, rfl, rfl⟩
    | some handler =>
      cases handler with
      | progress =>
        dsimp only [handleProgress]
        cases n.params with
        | none => exact ⟨rfl, rfl, rfl⟩
        | some p =>
          dsimp only
          rcases ProgressNotification.fromJson p with _ | _ | note <;> exact ⟨rfl, rfl, rfl⟩
      | cancelled =>
        dsimp only [handleCancelled]
        cases n.params with
        | none => exact ⟨rfl, rfl, rfl⟩
        | some p =>
          dsimp only [Option.map_some]
          rcases CancelledNotification.fromJson p with _ | _ | note
          · exact ⟨rfl, rfl, rfl⟩
          · exact ⟨rfl, rfl, rfl⟩
          · dsimp only
            by_cases hp : s.protectedRequestId = some note.requestId
            · rw [if_pos hp, if_pos hp]
              exact ⟨rfl, rfl, rfl⟩
            · rw [if_neg hp, if_neg hp]
              exact ⟨rfl, rfl, rfl⟩
      | initialized =>
        dsimp only [handleInitialized]
        split <;> exact ⟨rfl, rfl, rfl⟩
      | user run => exact ⟨rfl, rfl, rfl⟩
  | response r =>
    dsimp only [handleMessage, handleResponse, cancelledId]
    cases r.id with
    | none => exact ⟨rfl, rfl, rfl⟩
    | some id => exact ⟨rfl, rfl, rfl⟩

theorem cancelledIncoming_of_initialize {s : Session ω} {m : Message} {i : RequestId} (hm : initializeId m = some i)
    (now : TimePoint) (w : ω) : (handleMessage now s w m).session.cancelledIncoming = s.cancelledIncoming := by
  have hnone : s.cancelledId m = none := by
    cases m with
    | notification n => cases hm
    | _ => rfl
  rw [(handleMessage_tables now s w m).1, hnone]

theorem cancelledId_handleMessage (now : TimePoint) (s : Session ω) (w : ω) (m x : Message) :
    (handleMessage now s w m).session.cancelledId x = s.cancelledId x := by
  unfold cancelledId
  rw [(handleMessage_tables now s w m).2.2]

/-! ## A sequence of messages -/

theorem received_append (s : Session ω) (w : ω) : ∀ pre ms : List (TimePoint × Message),
    received s w (pre ++ ms) = received (received s w pre).1 (received s w pre).2 ms
  | [], _ => rfl
  | (now, m) :: pre, ms => received_append (handleMessage now s w m).session (handleMessage now s w m).world pre ms

theorem cancelledId_received (x : Message) : ∀ (ms : List (TimePoint × Message)) (s : Session ω) (w : ω),
    (received s w ms).1.cancelledId x = s.cancelledId x
  | [], _, _ => rfl
  | (now, m) :: ms, s, w => (cancelledId_received x ms _ _).trans (cancelledId_handleMessage now s w m x)

/-- The protected id is that of the last initialize request. -/
theorem protectedRequestId_received : ∀ (ms : List (TimePoint × Message)) (s : Session ω) (w : ω),
    (received s w ms).1.protectedRequestId =
      (initializeIds ms).getLast?.or s.protectedRequestId
  | [], _, _ => rfl
  | (now, m) :: ms, s, w => by
    rw [received, protectedRequestId_received ms, (handleMessage_tables now s w m).2.1]
    cases hm : initializeId m with
    | none => simp [initializeIds, hm]
    | some i =>
      have hcons : initializeIds ((now, m) :: ms) = i :: initializeIds ms := by simp [initializeIds, hm]
      rw [hcons, List.getLast?_cons]
      cases (initializeIds ms).getLast? <;> rfl

/-- An id that no message records stays out of the set. -/
theorem not_mem_received {i : RequestId} : ∀ (ms : List (TimePoint × Message)) (s : Session ω) (w : ω),
    i ∉ s.cancelledIncoming →
    (∀ pre x post, ms = pre ++ x :: post → s.cancelledId x.2 = some i →
      (received s w pre).1.protectedRequestId = some i) →
    i ∉ (received s w ms).1.cancelledIncoming
  | [], _, _, hi, _ => hi
  | (now, m) :: ms, s, w, hi, hms => by
    apply not_mem_received ms
    · rw [(handleMessage_tables now s w m).1]
      cases hc : s.cancelledId m with
      | none => exact hi
      | some k =>
        dsimp only
        by_cases hp : s.protectedRequestId = some k
        · rw [if_pos hp]
          exact hi
        rw [if_neg hp, recorded, Finset.mem_insert, not_or]
        constructor
        · rintro rfl
          exact hp (hms [] (now, m) ms rfl hc)
        · split
          · exact Finset.notMem_empty i
          · exact hi
    · intro pre x post hsplit hx
      rw [cancelledId_handleMessage] at hx
      exact hms ((now, m) :: pre) x post (by rw [hsplit]; rfl) hx

/-- **The initialize requests of a sequence stay uncancelled exactly when their cancellations come in time**: after the
request and before the next initialize request. -/
theorem initialize_uncancelled_iff (s : Session ω) (w : ω) (ms : List (TimePoint × Message)) :
    InitializeUncancelled s w ms ↔ CancelledInTime s w ms := by
  constructor
  · intro h pre x post i hsplit
    constructor
    · intro hx hi
      have hafter := h pre x [] post i (by rw [hsplit]; rfl) hx
      rw [received_append, isCancelled, decide_eq_false_iff_not] at hafter
      apply hafter
      rw [received, received, cancelledIncoming_of_initialize hx]
      exact hi
    · intro hx hi
      by_contra hlast
      obtain ⟨y, hy, hyi⟩ := List.mem_filterMap.1 hi
      obtain ⟨a, b, rfl⟩ := List.append_of_mem hy
      have hafter := h a y (b ++ [x]) post i (by simp [hsplit]) hyi
      rw [isCancelled, decide_eq_false_iff_not] at hafter
      apply hafter
      have hprotected : (received s w (a ++ y :: b)).1.protectedRequestId ≠ some i := by
        rw [protectedRequestId_received]
        cases hl : (initializeIds (a ++ y :: b)).getLast? with
        | none => simp [List.getLast?_eq_none_iff.1 hl] at hi
        | some k => rwa [Option.some_or, ← hl]
      rw [show a ++ y :: (b ++ [x]) = (a ++ y :: b) ++ [x] by simp, received_append]
      rw [received, received, (handleMessage_tables _ _ _ x.2).1, cancelledId_received, hx]
      dsimp only
      rw [if_neg hprotected, recorded]
      exact Finset.mem_insert_self _ _
  · intro h pre x more rest i hsplit hx
    rw [isCancelled, decide_eq_false_iff_not, show pre ++ x :: more = (pre ++ [x]) ++ more by simp, received_append]
    have hprefix : ∀ a y b, more = a ++ y :: b → ms = ((pre ++ [x]) ++ a) ++ y :: (b ++ rest) := by
      intro a y b hmore
      simp [hsplit, hmore]
    apply not_mem_received
    · rw [received_append]
      rw [received, received, cancelledIncoming_of_initialize hx]
      exact (h pre x (more ++ rest) i hsplit).1 hx
    · intro a y b hmore hy
      rw [cancelledId_received] at hy
      rw [← received_append, protectedRequestId_received,
        (h _ y _ i ( hprefix a y b hmore)).2 hy (List.mem_filterMap.2 ⟨x, by simp, hx⟩), Option.some_or]

/-! ## Two sequences -/

def initializeWith (id : Int64) : TimePoint × Message := (0, .request { id := .int id, method := methods.kInitialize })

def cancelOf (id : Int64) : TimePoint × Message :=
  (0, .notification {
    method := methods.kNotificationCancelled
    params := some (.object [(bytes "requestId", .numberInteger id)]) })

def plainServer : Session Unit := mkServer { serverInfo := { name := bytes "s", version := bytes "1" } }

/-- A cancellation that comes before its request, and one that comes after another initialize request. -/
theorem initialize_cancelled :
    ¬ InitializeUncancelled plainServer () [cancelOf 1, initializeWith 1] ∧
      ¬ InitializeUncancelled plainServer () [initializeWith 1, initializeWith 2, cancelOf 1] := by
  constructor
  · intro h
    have hafter := h [cancelOf 1] (initializeWith 1) [] [] (.int 1) rfl (by decide)
    revert hafter
    decide
  · intro h
    have hafter := h [] (initializeWith 1) [initializeWith 2, cancelOf 1] [] (.int 1) rfl (by decide)
    revert hafter
    decide

end Session
end Mcp
