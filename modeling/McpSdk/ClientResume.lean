import McpSdk.HttpClient
import McpSdk.Lib.Run
import McpSdk.SseChannel
/-!
# ClientResume — what `HttpClientTransport` resumes with

The replies to POSTs set and clear `session_id_`, the events of the GET stream set `last_event_id_`, and a GET sends
both.  Each is a critical section of its own, and none that changes the session forgets the event id.  A GET resumes in
the session its event id comes from as long as the session changes only while there is no id to keep, and ids come only
from streams of the current session (`gets_paired`).
-/
namespace Mcp
namespace ClientResume

/-! ## Requests -/

/-- The headers of the GET in `run_sse_once`. -/
def getHeaders (o : HttpClientOptions) (sessionId lastEventId : Bytes) : HeaderList :=
  [(bytes "Host", o.host ++ bytes ":" ++ decimal o.port.toNat), (bytes "Accept", bytes "text/event-stream"),
    (bytes "MCP-Protocol-Version", kProtocolVersion), (bytes "Cache-Control", bytes "no-cache")] ++
    (o.origin.map fun origin => (bytes "Origin", origin)).toList ++
    (if lastEventId.isEmpty then [] else [(bytes "Last-Event-ID", lastEventId)]) ++
    (if sessionId.isEmpty then [] else [(bytes "Mcp-Session-Id", sessionId)]) ++ o.headers

/-- The value a header has for the server: the last one counts. -/
def headerOf (name : Bytes) (headers : HeaderList) : Option Bytes :=
  (headers.filter (fun h => toLower h.1 == name)).getLast?.map Prod.snd

/-- The session a request names; the empty id stands for none. -/
def sessionOf (headers : HeaderList) : Bytes := (headerOf (bytes "mcp-session-id") headers).getD []

/-- A GET, and what its client had received before it: the ids, each with the session of its stream. -/
structure Get where
  headers : HeaderList
  received : List (Bytes × Bytes)

/-- **The id comes from a stream of the session it is sent with.** -/
def Get.Paired (g : Get) : Prop :=
  ∀ id, headerOf (bytes "last-event-id") g.headers = some id → (sessionOf g.headers, id) ∈ g.received

/-! ## Sections -/

/-- The connection of `run_sse_once`: the session of its GET, and the events the loop has not got to. -/
structure Stream where
  session : Bytes
  reader : Sse.Reader
  events : List SseEvent

structure Shared where
  sessionId : Bytes := []
  lastEventId : Bytes := []
  stream : Option Stream := none
  received : List (Bytes × Bytes) := []
  gets : List Get := []

/-- Where a `post_payload` stands. -/
inductive Post where
  | waiting
  /-- The head has been read. -/
  | replied (head : HttpHead)
  /-- Its session id has been captured, and its status is an error. -/
  | captured (head : HttpHead)
  | done

/-- The session id after the first section of a reply. -/
def capture (head : HttpHead) (sessionId : Bytes) : Bytes :=
  if head.header (bytes "mcp-session-id") = [] then sessionId else head.header (bytes "mcp-session-id")

/-- And after the second. -/
def expire (head : HttpHead) (sessionId : Bytes) : Bytes := if head.status = 404 ∧ sessionId ≠ [] then [] else sessionId

/-- **Back to back the two sections do what `post_payload` does** with the session id. -/
theorem receiveReply_sessionId {σ : Type} (text : JsonText Bytes) (handlers : Handlers σ) (sessionId : Bytes) {reads rest : List Bytes}
    {head : HttpHead} {buffer : Bytes} (h : HttpClient.readReplyHead [] reads = .ok (head, buffer, rest)) (s : σ) :
    (HttpClient.receiveReply text handlers sessionId reads s).1 =
      if head.status = 202 ∨ head.status = 200 then capture head sessionId else expire head (capture head sessionId) := by
  unfold HttpClient.receiveReply
  rw [h]
  simp only
  by_cases haccepted : head.status = 202
  · rw [if_pos haccepted, if_pos (Or.inl haccepted)]
    rfl
  · rw [if_neg haccepted]
    by_cases hok : head.status = 200
    · rw [if_neg (not_not.2 hok), if_pos (Or.inr hok)]
      split
      · rfl
      · split <;> rfl
    · rw [if_pos hok, if_neg (not_or.2 ⟨haccepted, hok⟩)]
      have hexpire : expire head (capture head sessionId) = if head.status = 404 then [] else capture head sessionId := by
        unfold expire
        by_cases hempty : capture head sessionId = []
        · simp [hempty]
        · simp [hempty]
      exact hexpire.symm

def advance (s : Shared) : Post → Option (Shared × Post)
  | .replied head =>
    some ({ s with sessionId := capture head s.sessionId },
      if head.status = 202 ∨ head.status = 200 then .done else .captured head)
  | .captured head => some ({ s with sessionId := expire head s.sessionId }, .done)
  | _ => none

def reply (head : HttpHead) (s : Shared) : Post → Option (Shared × Post)
  | .waiting => some (s, .replied head)
  | _ => none

/-- One read of `run_sse_once`; `none` closes the connection. -/
def Stream.read (stream : Stream) (chunk : Bytes) : Option Stream :=
  match stream.reader with
  | .events parser => some { stream with reader := .events (parser.feed chunk).1, events := (parser.feed chunk).2 }
  | .head buffer =>
    match parseHead false (buffer ++ chunk) with
    | .incomplete => some { stream with reader := .head (buffer ++ chunk) }
    | .malformed _ => none
    | .parsed head consumed =>
      if head.status ≠ 200 ∨ head.headerContains (bytes "content-type") (bytes "text/event-stream") = false then none
      else
        let fed := ({} : SseParser).feed ((buffer ++ chunk).drop consumed)
        some { stream with reader := .events fed.1, events := fed.2 }

/-- The ids among the events, with the session of their stream. -/
def Stream.ids (stream : Stream) : List (Bytes × Bytes) := (stream.events.filterMap SseEvent.id).map (stream.session, ·)

inductive Label where
  /-- A `send` writes its request. -/
  | post
  | reply (i : Nat) (head : HttpHead)
  /-- The next section of a reply. -/
  | thread (i : Nat)
  /-- `run_sse_once` writes its GET. -/
  | get
  | read (chunk : Bytes)
  /-- The loop takes the next event. -/
  | event
  /-- The connection ends. -/
  | drop

def step (o : HttpClientOptions) (p : Pool Shared Post) : Label → Option (Pool Shared Post)
  | .post => some (p.spawn p.shared .waiting)
  | .reply i head => Pool.stepAt (reply head) p i
  | .thread i => Pool.stepAt advance p i
  | .get =>
    match p.shared.stream with
    | some _ => none
    | none =>
      let headers := getHeaders o p.shared.sessionId p.shared.lastEventId
      some { p with shared := { p.shared with
        stream := some ⟨sessionOf headers, .head [], []⟩
        gets := p.shared.gets ++ [⟨headers, p.shared.received⟩] } }
  | .read chunk =>
    match p.shared.stream with
    | some ⟨session, reader, []⟩ =>
      if chunk = [] ∨ 8192 < chunk.length then none
      else
        let stream := Stream.read ⟨session, reader, []⟩ chunk
        some { p with shared := { p.shared with
          stream
          received := p.shared.received ++ (stream.map Stream.ids).getD [] } }
    | _ => none
  | .event =>
    match p.shared.stream with
    | some ⟨session, reader, e :: events⟩ =>
      some { p with shared := { p.shared with
        lastEventId := e.id.getD p.shared.lastEventId
        stream := some ⟨session, reader, events⟩ } }
    | _ => none
  | .drop =>
    match p.shared.stream with
    | some ⟨_, _, []⟩ => some { p with shared := { p.shared with stream := none } }
    | _ => none

def init : Pool Shared Post := ⟨{}, []⟩

/-! ## The condition -/

/-- The session may become `sessionId`: it is already, or there is no id to keep, or the id was received there too. -/
def MayChange (s : Shared) (sessionId : Bytes) : Prop :=
  sessionId = s.sessionId ∨ s.lastEventId = [] ∨ (sessionId, s.lastEventId) ∈ s.received

/-- The id of an event may be kept: it is empty, or the stream is of the current session, or the id was received there too. -/
def MayKeep (s : Shared) (session id : Bytes) : Prop := id = [] ∨ session = s.sessionId ∨ (s.sessionId, id) ∈ s.received

/-- **What each step must keep to**: a reply changes the session only where the id kept so far may stay, and an event
brings an id only where that may be kept. -/
def Keeps (p : Pool Shared Post) : Label → Prop
  | .thread i =>
    match p.threads[i]? with
    | some (.replied head) => MayChange p.shared (capture head p.shared.sessionId)
    | some (.captured head) => MayChange p.shared (expire head p.shared.sessionId)
    | _ => True
  | .event =>
    match p.shared.stream with
    | some ⟨session, _, e :: _⟩ => ∀ id ∈ e.id, MayKeep p.shared session id
    | _ => True
  | _ => True

/-- No extra header takes the place of the two. -/
def NoOverride (o : HttpClientOptions) : Prop :=
  ∀ h ∈ o.headers, toLower h.1 ≠ bytes "last-event-id" ∧ toLower h.1 ≠ bytes "mcp-session-id"

/-! ## The invariant -/

/-- Among the headers of a GET only these two have their names. -/
theorem filter_getHeaders {o : HttpClientOptions} (h : NoOverride o) (sessionId lastEventId : Bytes) :
    (getHeaders o sessionId lastEventId).filter (fun h => toLower h.1 == bytes "last-event-id") =
        (if lastEventId.isEmpty then [] else [(bytes "Last-Event-ID", lastEventId)]) ∧
      (getHeaders o sessionId lastEventId).filter (fun h => toLower h.1 == bytes "mcp-session-id") =
        (if sessionId.isEmpty then [] else [(bytes "Mcp-Session-Id", sessionId)]) := by
  have hid : o.headers.filter (fun h => toLower h.1 == bytes "last-event-id") = [] :=
    List.filter_eq_nil_iff.2 (fun x hx => by simpa using (h x hx).1)
  have hsession : o.headers.filter (fun h => toLower h.1 == bytes "mcp-session-id") = [] :=
    List.filter_eq_nil_iff.2 (fun x hx => by simpa using (h x hx).2)
  unfold getHeaders
  simp only [List.filter_append, hid, hsession, List.append_nil]
  constructor
  · cases o.origin <;> cases lastEventId <;> cases sessionId <;> rfl
  · cases o.origin <;> cases lastEventId <;> cases sessionId <;> rfl

theorem headerOf_getHeaders {o : HttpClientOptions} (h : NoOverride o) (sessionId lastEventId : Bytes) :
    headerOf (bytes "last-event-id") (getHeaders o sessionId lastEventId) = (if lastEventId = [] then none else some lastEventId) ∧
      sessionOf (getHeaders o sessionId lastEventId) = sessionId := by
  obtain ⟨hid, hsession⟩ := filter_getHeaders h sessionId lastEventId
  unfold sessionOf headerOf
  rw [hid, hsession]
  constructor
  · cases lastEventId <;> rfl
  · cases sessionId <;> rfl

/-- The event id is one of the current session, and so will be the ids that wait. -/
structure Inv (s : Shared) : Prop where
  paired : s.lastEventId = [] ∨ (s.sessionId, s.lastEventId) ∈ s.received
  pending : ∀ stream, s.stream = some stream → ∀ x ∈ stream.ids, x ∈ s.received
  gets : ∀ g ∈ s.gets, g.Paired

theorem Inv.change {s : Shared} (h : Inv s) {sessionId : Bytes} (hmay : MayChange s sessionId) : Inv { s with sessionId } where
  paired := by
    rcases hmay with rfl | hnone | hreceived
    · exact h.paired
    · exact Or.inl hnone
    · exact Or.inr hreceived
  pending := h.pending
  gets := h.gets

/-- What a GET says of the state it is sent from. -/
theorem Inv.get {o : HttpClientOptions} (ho : NoOverride o) {s : Shared} (h : Inv s) :
    Get.Paired ⟨getHeaders o s.sessionId s.lastEventId, s.received⟩ := by
  intro id hid
  obtain ⟨hlast, hsession⟩ := headerOf_getHeaders ho s.sessionId s.lastEventId
  rw [hsession]
  rw [hlast] at hid
  split at hid
  · cases hid
  · rename_i hne
    cases hid
    exact h.paired.resolve_left hne

theorem Inv.connect {o : HttpClientOptions} (ho : NoOverride o) {s : Shared} (h : Inv s) :
    Inv { s with
      stream := some ⟨sessionOf (getHeaders o s.sessionId s.lastEventId), .head [], []⟩
      gets := s.gets ++ [⟨getHeaders o s.sessionId s.lastEventId, s.received⟩] } where
  paired := h.paired
  pending := by
    rintro stream ⟨⟩ x hx
    cases hx
  gets := by
    intro g hg
    rcases List.mem_append.1 hg with hg | hg
    · exact h.gets g hg
    · rw [List.mem_singleton.1 hg]
      exact h.get ho

/-- The ids of what is read have been received. -/
theorem Inv.read {s : Shared} (h : Inv s) (stream : Option Stream) :
    Inv { s with stream, received := s.received ++ (stream.map Stream.ids).getD [] } where
  paired := h.paired.imp_right (fun hmem => List.mem_append_left _ hmem)
  pending := by
    rintro stream' rfl x hx
    exact List.mem_append_right _ hx
  gets := h.gets

theorem ids_tail (session : Bytes) (reader : Sse.Reader) (e : SseEvent) (events : List SseEvent) :
    ∀ x ∈ Stream.ids ⟨session, reader, events⟩, x ∈ Stream.ids ⟨session, reader, e :: events⟩ := by
  intro x hx
  obtain ⟨id, hid, rfl⟩ := List.mem_map.1 hx
  obtain ⟨e', he', hid'⟩ := List.mem_filterMap.1 hid
  exact List.mem_map_of_mem (List.mem_filterMap.2 ⟨e', List.mem_cons_of_mem e he', hid'⟩)

/-- An id that may be kept is one of the current session. -/
theorem Inv.keep {s : Shared} (h : Inv s) {session : Bytes} {reader : Sse.Reader} {e : SseEvent} {events : List SseEvent}
    (hstream : s.stream = some ⟨session, reader, e :: events⟩) (hmay : ∀ id ∈ e.id, MayKeep s session id) :
    Inv { s with lastEventId := e.id.getD s.lastEventId, stream := some ⟨session, reader, events⟩ } where
  paired := by
    cases he : e.id with
    | none => exact h.paired
    | some id =>
      have hids : (session, id) ∈ Stream.ids ⟨session, reader, e :: events⟩ := by simp [Stream.ids, he]
      have hreceived := h.pending _ hstream _ hids
      rcases hmay id he with hnil | rfl | hthere
      · exact Or.inl hnil
      · exact Or.inr hreceived
      · exact Or.inr hthere
  pending := by
    rintro stream ⟨⟩ x hx
    exact h.pending _ hstream x (ids_tail session reader e events x hx)
  gets := h.gets

theorem Inv.drop {s : Shared} (h : Inv s) : Inv { s with stream := none } where
  paired := h.paired
  pending := by
    rintro stream ⟨⟩
  gets := h.gets

/-! ## Steps -/

theorem step_get {o : HttpClientOptions} {p q : Pool Shared Post} (h : step o p .get = some q) :
    q.shared = { p.shared with
      stream := some ⟨sessionOf (getHeaders o p.shared.sessionId p.shared.lastEventId), .head [], []⟩
      gets := p.shared.gets ++ [⟨getHeaders o p.shared.sessionId p.shared.lastEventId, p.shared.received⟩] } := by
  unfold step at h
  cases hstream : p.shared.stream with
  | some stream =>
    simp only [hstream] at h
    cases h
  | none =>
    simp only [hstream] at h
    cases h
    rfl

theorem step_read {o : HttpClientOptions} {p q : Pool Shared Post} {chunk : Bytes} (h : step o p (.read chunk) = some q) :
    ∃ stream : Option Stream,
      q.shared = { p.shared with stream, received := p.shared.received ++ (stream.map Stream.ids).getD [] } := by
  unfold step at h
  match hstream : p.shared.stream with
  | none =>
    simp only [hstream] at h
    cases h
  | some ⟨session, reader, e :: events⟩ =>
    simp only [hstream] at h
    cases h
  | some ⟨session, reader, []⟩ =>
    simp only [hstream] at h
    split at h
    · cases h
    · cases h
      exact ⟨_, rfl⟩

theorem step_event {o : HttpClientOptions} {p q : Pool Shared Post} (h : step o p .event = some q) :
    ∃ session reader e events, p.shared.stream = some ⟨session, reader, e :: events⟩ ∧
      q.shared = { p.shared with lastEventId := e.id.getD p.shared.lastEventId, stream := some ⟨session, reader, events⟩ } := by
  unfold step at h
  match hstream : p.shared.stream with
  | none =>
    simp only [hstream] at h
    cases h
  | some ⟨session, reader, []⟩ =>
    simp only [hstream] at h
    cases h
  | some ⟨session, reader, e :: events⟩ =>
    simp only [hstream] at h
    cases h
    exact ⟨session, reader, e, events, rfl, rfl⟩

theorem step_drop {o : HttpClientOptions} {p q : Pool Shared Post} (h : step o p .drop = some q) :
    q.shared = { p.shared with stream := none } := by
  unfold step at h
  match hstream : p.shared.stream with
  | none =>
    simp only [hstream] at h
    cases h
  | some ⟨session, reader, e :: events⟩ =>
    simp only [hstream] at h
    cases h
  | some ⟨session, reader, []⟩ =>
    simp only [hstream] at h
    cases h
    rfl

/-- **One step keeps the invariant**, as long as it keeps to the condition. -/
theorem inv_step {o : HttpClientOptions} (ho : NoOverride o) (p : Pool Shared Post) (l : Label) (q : Pool Shared Post)
    (h : Inv p.shared) (hkeeps : Keeps p l) (hstep : step o p l = some q) : Inv q.shared := by
  cases l with
  | post =>
    cases hstep
    exact h
  | reply i head =>
    obtain ⟨pc, s', pc', -, hreply, rfl⟩ := Pool.stepAt_eq_some.1 hstep
    cases pc with
    | waiting =>
      cases hreply
      exact h
    | replied head => cases hreply
    | captured head => cases hreply
    | done => cases hreply
  | thread i =>
    obtain ⟨pc, s', pc', hpc, hadvance, rfl⟩ := Pool.stepAt_eq_some.1 hstep
    simp only [Keeps, hpc] at hkeeps
    cases pc with
    | waiting => cases hadvance
    | replied head =>
      cases hadvance
      exact h.change hkeeps
    | captured head =>
      cases hadvance
      exact h.change hkeeps
    | done => cases hadvance
  | get =>
    rw [step_get hstep]
    exact h.connect ho
  | read chunk =>
    obtain ⟨stream, hq⟩ := step_read hstep
    rw [hq]
    exact h.read stream
  | event =>
    obtain ⟨session, reader, e, events, hstream, hq⟩ := step_event hstep
    simp only [Keeps, hstream] at hkeeps
    rw [hq]
    exact h.keep hstream hkeeps
  | drop =>
    rw [step_drop hstep]
    exact h.drop

theorem inv_init : Inv init.shared where
  paired := Or.inl rfl
  pending := by
    rintro stream ⟨⟩
  gets := List.forall_mem_nil _

/-- **A GET resumes in the session its event id comes from**, in every run that keeps to the condition. -/
theorem gets_paired {o : HttpClientOptions} (ho : NoOverride o) {labels : List Label} {p : Pool Shared Post}
    (hkeeps : Lts.Meets (step o) Keeps init labels) (hrun : Lts.run (step o) init labels = some p) : ∀ g ∈ p.shared.gets, g.Paired :=
  (Lts.meets_invariant (I := fun p => Inv p.shared) (inv_step ho) inv_init hkeeps hrun).gets

/-! ## Two runs -/

instance (s : Shared) (sessionId : Bytes) : Decidable (MayChange s sessionId) := inferInstanceAs (Decidable (_ ∨ _ ∨ _))

instance (s : Shared) (session id : Bytes) : Decidable (MayKeep s session id) := inferInstanceAs (Decidable (_ ∨ _ ∨ _))

instance decidableKeeps (p : Pool Shared Post) : ∀ l, Decidable (Keeps p l)
  | .thread i =>
    match h : p.threads[i]? with
    | some (.replied head) => decidable_of_iff (MayChange p.shared (capture head p.shared.sessionId)) (by simp only [Keeps, h])
    | some (.captured head) => decidable_of_iff (MayChange p.shared (expire head p.shared.sessionId)) (by simp only [Keeps, h])
    | some .waiting => isTrue (by simp only [Keeps, h])
    | some .done => isTrue (by simp only [Keeps, h])
    | none => isTrue (by simp only [Keeps, h])
  | .event =>
    match h : p.shared.stream with
    | some ⟨session, _, e :: _⟩ => decidable_of_iff (∀ id ∈ e.id, MayKeep p.shared session id) (by simp only [Keeps, h])
    | some ⟨_, _, []⟩ => isTrue (by simp only [Keeps, h])
    | none => isTrue (by simp only [Keeps, h])
  | .post => isTrue trivial
  | .reply _ _ => isTrue trivial
  | .get => isTrue trivial
  | .read _ => isTrue trivial
  | .drop => isTrue trivial

/-- The head of a reply that assigns this session. -/
def assigns (sessionId : Bytes) : HttpHead :=
  { status := 200, reason := bytes "OK", headers := (∅ : Dict Bytes Bytes).insert (bytes "mcp-session-id") sessionId }

def expired : HttpHead := { status := 404, reason := bytes "Not Found" }

/-- Event 5 of session `A` arrives. -/
def fifth : List Label :=
  [.post, .reply 0 (assigns (bytes "A")), .thread 0, .get,
    .read (bytes "HTTP/1.1 200 OK\r\nContent-Type: text/event-stream\r\n\r\nid: 5\ndata: x\n\n"), .event]

/-- What a GET names, the session and the event id, and what had been received. -/
def Get.named (g : Get) : Bytes × Option Bytes × List (Bytes × Bytes) :=
  (sessionOf g.headers, headerOf (bytes "last-event-id") g.headers, g.received)

theorem gets_paired_reconnect :
    ∃ p, Lts.run (step {}) init (fifth ++ [.drop, .get]) = some p ∧
      p.shared.gets.map Get.named = [(bytes "A", none, []), (bytes "A", some (bytes "5"), [(bytes "A", bytes "5")])] ∧
      ∀ g ∈ p.shared.gets, g.Paired := by
  have hnamed : (Lts.run (step {}) init (fifth ++ [.drop, .get])).map (fun p => p.shared.gets.map Get.named) =
      some [(bytes "A", none, []), (bytes "A", some (bytes "5"), [(bytes "A", bytes "5")])] := by rfl
  have hplain : NoOverride {} := List.forall_mem_nil _
  obtain ⟨p, hrun, hp⟩ := Option.map_eq_some_iff.1 hnamed
  exact ⟨p, hrun, hp, gets_paired hplain (by decide) hrun⟩

/-- The session expires, the next `initialize` gets another one, and the stream reconnects. -/
def reinitialized : List Label :=
  fifth ++ [.post, .reply 1 expired, .thread 1, .thread 1, .post, .reply 2 (assigns (bytes "B")), .thread 2, .drop, .get]

/-- **The old session's event id is sent with the new session.** -/
theorem reinitialized_unpaired :
    ∃ p, Lts.run (step {}) init reinitialized = some p ∧
      p.shared.gets.map Get.named = [(bytes "A", none, []), (bytes "B", some (bytes "5"), [(bytes "A", bytes "5")])] ∧
      ¬ ∀ g ∈ p.shared.gets, g.Paired := by
  have hnamed : (Lts.run (step {}) init reinitialized).map (fun p => p.shared.gets.map Get.named) =
      some [(bytes "A", none, []), (bytes "B", some (bytes "5"), [(bytes "A", bytes "5")])] := by rfl
  obtain ⟨p, hrun, hp⟩ := Option.map_eq_some_iff.1 hnamed
  refine ⟨p, hrun, hp, fun hpaired => ?_⟩
  have hmem : (bytes "B", some (bytes "5"), [(bytes "A", bytes "5")]) ∈ p.shared.gets.map Get.named := by
    rw [hp]
    exact List.mem_cons_of_mem _ List.mem_cons_self
  obtain ⟨g, hg, hgnamed⟩ := List.mem_map.1 hmem
  obtain ⟨hsession, hid, hreceived⟩ : sessionOf g.headers = bytes "B" ∧ headerOf (bytes "last-event-id") g.headers = some (bytes "5") ∧
      g.received = [(bytes "A", bytes "5")] := by simpa [Get.named] using hgnamed
  have hthere := hpaired g hg (bytes "5") hid
  rw [hsession, hreceived] at hthere
  exact absurd hthere (by decide)

end ClientResume
end Mcp
