import McpSdk.HttpSessionServer
import McpSdk.PostAnswer
/-!
# SessionAuthority — only the id of a session gives access to it

Requests of any kind are handled one after the other.  What a request reaches is the session it makes or the one
registered under the id it presents; an id that was terminated or evicted stays without a session.  A POST whose body
makes `parse_frame` throw is not answered at all, and the requests of a history are rejected as they should be exactly
when none that has to be is such a POST (`authority_iff`).
-/
namespace Mcp
namespace HttpSessionServer

/-! ## Histories -/

def Event.issues : Event → Option Bytes
  | created id _ => some id
  | _ => none

def Event.ends : Event → Option Bytes
  | evicted id _ | terminated id _ => some id
  | _ => none

/-- The session a message or a stream reaches. -/
def Event.reaches : Event → Option Nat
  | attached session _ | delivered session _ => some session
  | _ => none

structure State where
  registry : SessionRegistry := ∅
  /-- The id each session was created under. -/
  issued : List Bytes := []
  /-- The ids terminated or evicted. -/
  ended : List Bytes := []
  /-- An exception has left a connection thread, and the process is gone. -/
  crashed : Bool := false

def turn (o : HttpSessionServerOptions) (text : JsonText Bytes) (s : State) (r : SessionRequest) : Turn :=
  handleRequest o text s.registry s.issued.length r

def step (o : HttpSessionServerOptions) (text : JsonText Bytes) (s : State) (r : SessionRequest) : Option State :=
  if s.crashed then none
  else some
    { registry := (turn o text s r).registry
      issued := s.issued ++ (turn o text s r).events.filterMap Event.issues
      ended := s.ended ++ (turn o text s r).events.filterMap Event.ends
      crashed := (turn o text s r).escaped }

/-! ## The property and the condition -/

/-- A POST whose frame contains an `initialize` request. -/
def Opens (text : JsonText Bytes) (r : SessionRequest) : Prop :=
  r.head.method = bytes "POST" ∧
    ∃ frame, parseFrame text r.body = .ok (.ok frame) ∧ Post.frameContainsInitialize frame = true

/-- **Rejected**: answered with a 4xx status, with nothing delivered or attached and no session created. -/
structure Rejected (turn : Turn) : Prop where
  status : ∃ status reason body extraHeaders, .answered status reason body extraHeaders ∈ turn.events ∧ 400 ≤ status ∧
    status < 500
  unreached : ∀ e ∈ turn.events, e.reaches = none
  uncreated : ∀ e ∈ turn.events, e.issues = none

/-- **The id is the only authority** in one request. -/
structure Authority (o : HttpSessionServerOptions) (text : JsonText Bytes) (s : State) (r : SessionRequest) : Prop where
  /-- A session is reached by the `initialize` POST that creates it, or under the id it was created under and is registered
  under. -/
  reaches : ∀ e ∈ (turn o text s r).events, ∀ session, e.reaches = some session →
    (sessionId r = [] ∧ Opens text r ∧ .created (newId r) session ∈ (turn o text s r).events) ∨
      (sessionId r ≠ [] ∧ s.issued[session]? = some (sessionId r) ∧
        (s.registry.lookup (sessionId r)).map (·.session) = some session)
  ended : sessionId r ∈ s.ended → Rejected (turn o text s r)
  anonymous : sessionId r = [] → ¬ Opens text r → Rejected (turn o text s r)

/-- `generate_session_id` has not made this id before. -/
def Fresh (o : HttpSessionServerOptions) (text : JsonText Bytes) (s : State) (r : SessionRequest) : Prop :=
  ∀ id ∈ (turn o text s r).events.filterMap Event.issues, id ∉ s.issued

instance (o : HttpSessionServerOptions) (text : JsonText Bytes) (s : State) (r : SessionRequest) : Decidable (Fresh o text s r) :=
  inferInstanceAs (Decidable (∀ id ∈ _, _))

/-- **The body of a request that has to be rejected does not make `parse_frame` throw.** -/
def Parses (text : JsonText Bytes) (s : State) (r : SessionRequest) : Prop :=
  r.head.method = bytes "POST" → sessionId r = [] ∨ sessionId r ∈ s.ended → (parseFrame text r.body).isOk = true

instance (text : JsonText Bytes) (s : State) (r : SessionRequest) : Decidable (Parses text s r) :=
  inferInstanceAs (Decidable (_ → _ → _))

/-! ## One request -/

/-- Nothing is said about ids, and no session is reached but `session`. -/
def Event.Serves (session : Nat) (e : Event) : Prop :=
  e.issues = none ∧ e.ends = none ∧ ∀ k, e.reaches = some k → k = session

theorem deliverAll_serves (text : JsonText Bytes) (r : SessionRequest) (session : Nat) (frame : ParsedFrame)
    (extraHeaders : HeaderList) : ∀ (i : Nat) (messages : List Message) (captured : List Json),
    ∀ e ∈ (deliverAll text r session frame extraHeaders i messages captured).1, e.Serves session
  | i, [], [], e, he => by
    rw [deliverAll, List.mem_singleton] at he
    rw [he]
    exact ⟨rfl, rfl, fun k h => by cases h⟩
  | i, [], first :: rest, e, he => by
    rw [deliverAll] at he
    cases hdump : text.dump (Post.captureBody frame.wasBatch first rest) with
    | error x =>
      rw [hdump] at he
      cases he
    | ok body =>
      rw [hdump, List.mem_singleton] at he
      rw [he]
      exact ⟨rfl, rfl, fun k h => by cases h⟩
  | i, m :: messages, captured, e, he => by
    have hone : (Event.delivered session m).Serves session := ⟨rfl, rfl, fun k h => (Option.some.inj h).symm⟩
    rw [deliverAll] at he
    cases hreaction : r.reaction i with
    | error x =>
      rw [hreaction, List.mem_singleton] at he
      rw [he]
      exact hone
    | ok responses =>
      rw [hreaction] at he
      rcases List.mem_cons.1 he with rfl | he
      · exact hone
      · exact deliverAll_serves text r session frame extraHeaders (i + 1) messages (captured ++ responses) e he

/-- **What a request does to the registry.** -/
inductive Dispatched (text : JsonText Bytes) (registry : SessionRegistry) (next : Nat) (r : SessionRequest) (turn : Turn) : Prop
  | rejects (status : Nat) (reason body : Bytes) (range : 400 ≤ status ∧ status < 500) (same : turn.registry = registry)
      (events : turn.events = [.answered status reason body []])
  | throws (post : r.head.method = bytes "POST") (escapes : ∃ e, parseFrame text r.body = .error e)
      (same : turn.registry = registry) (events : turn.events = [])
  | terminates (entry : Entry) (id : sessionId r ≠ []) (found : registry.lookup (sessionId r) = some entry)
      (erased : turn.registry = registry.erase (sessionId r))
      (events : ∃ rest, turn.events = .terminated (sessionId r) entry.session :: rest ∧ ∀ e ∈ rest, e.Serves entry.session)
  | serves (entry : Entry) (id : sessionId r ≠ []) (found : registry.lookup (sessionId r) = some entry)
      (touched : turn.registry = registry.insert (sessionId r) { entry with lastActivity := r.now })
      (events : ∀ e ∈ turn.events, e.Serves entry.session)
  | opens (anonymous : sessionId r = []) (asked : Opens text r)
      (created : turn.registry = registry.insert (newId r) { session := next, lastActivity := r.now })
      (events : ∃ rest, turn.events = .created (newId r) next :: rest ∧ ∀ e ∈ rest, e.Serves next)
  | fails (anonymous : sessionId r = []) (asked : Opens text r) (same : turn.registry = registry)
      (events : ∀ e ∈ turn.events, e.Serves next ∧ e.reaches = none)

theorem badRequest_refuses {text : JsonText Bytes} (htext : text.Lawful) {e : Error} (he : e.validUtf8 = true) :
    ∃ body, badRequest text e = .refuse 400 (bytes "Bad Request") body := by
  obtain ⟨body, hbody⟩ := htext.dump _ (responseToJson_validUtf8 (Post.nullIdError_validUtf8 he))
  refine ⟨body, ?_⟩
  rw [badRequest, show serializeMessage text (.response (Post.nullIdError e)) = .ok body from hbody]

theorem route_refuses {o : HttpSessionServerOptions} {text : JsonText Bytes} {registry : SessionRegistry} {next : Nat}
    {r : SessionRequest} {status : Nat} {reason body : Bytes} (h : route o text r = .refuse status reason body)
    (hrange : 400 ≤ status ∧ status < 500) : Dispatched text registry next r (dispatch o text registry next r) := by
  rw [dispatch, h]
  exact .rejects status reason body hrange rfl rfl

theorem dispatch_delete {o : HttpSessionServerOptions} {text : JsonText Bytes} (registry : SessionRegistry) (next : Nat)
    {r : SessionRequest} (hdelete : r.head.method = bytes "DELETE") :
    Dispatched text registry next r (dispatch o text registry next r) := by
  by_cases hid : sessionId r = []
  · exact route_refuses (by rw [route, if_pos hdelete, if_pos hid]) (by decide)
  by_cases hallow : o.allowClientTermination = true
  · have hroute : route o text r = .terminate := by
      rw [route, if_pos hdelete, if_neg hid, hallow]
      rfl
    rw [dispatch, hroute, SessionRegistry.remove]
    cases hfound : registry.lookup (sessionId r) with
    | none => exact .rejects 404 _ _ (by decide) rfl rfl
    | some entry =>
      refine .terminates entry hid hfound rfl ⟨_, rfl, fun e he => ?_⟩
      rw [List.mem_singleton.1 he]
      exact ⟨rfl, rfl, fun k h => by cases h⟩
  · have hroute : route o text r = .refuse 405 (bytes "Method Not Allowed") (bytes "session termination disabled") := by
      rw [route, if_pos hdelete, if_neg hid, Bool.eq_false_iff.2 hallow]
      rfl
    exact route_refuses hroute (by decide)

theorem dispatch_get {o : HttpSessionServerOptions} {text : JsonText Bytes} (registry : SessionRegistry) (next : Nat)
    {r : SessionRequest} (hdelete : r.head.method ≠ bytes "DELETE") (hget : r.head.method = bytes "GET") :
    Dispatched text registry next r (dispatch o text registry next r) := by
  by_cases haccept : r.head.headerContains (bytes "accept") (bytes "text/event-stream") = false
  · exact route_refuses (by rw [route, if_neg hdelete, if_pos hget, if_pos haccept]) (by decide)
  by_cases hid : sessionId r = []
  · exact route_refuses (by rw [route, if_neg hdelete, if_pos hget, if_neg haccept, if_pos hid]) (by decide)
  have hroute : route o text r = .attach := by rw [route, if_neg hdelete, if_pos hget, if_neg haccept, if_neg hid]
  rw [dispatch, hroute, SessionRegistry.find]
  cases hfound : registry.lookup (sessionId r) with
  | none => exact .rejects 404 _ _ (by decide) rfl rfl
  | some entry =>
    refine .serves entry hid hfound rfl fun e he => ?_
    rw [List.mem_singleton.1 he]
    exact ⟨rfl, rfl, fun k h => (Option.some.inj h).symm⟩

theorem dispatch_post {o : HttpSessionServerOptions} {text : JsonText Bytes} (htext : text.Lawful)
    (registry : SessionRegistry) (next : Nat) {r : SessionRequest} (hdelete : r.head.method ≠ bytes "DELETE")
    (hget : r.head.method ≠ bytes "GET") (hpost : r.head.method = bytes "POST") :
    Dispatched text registry next r (dispatch o text registry next r) := by
  obtain ⟨-, herror⟩ := parseFrame_spec htext r.body
  have hroute := route.eq_1 o text r
  rw [if_neg hdelete, if_neg hget, if_neg (not_not_intro hpost)] at hroute
  cases hframe : parseFrame text r.body with
  | error e =>
    rw [hframe] at hroute
    rw [dispatch, hroute]
    exact .throws hpost ⟨e, hframe⟩ rfl rfl
  | ok result =>
    cases result with
    | error e =>
      obtain ⟨body, hbody⟩ := badRequest_refuses htext (herror e hframe)
      rw [hframe] at hroute
      exact route_refuses (hroute.trans hbody) (by decide)
    | ok frame =>
      rw [hframe] at hroute
      simp only at hroute
      by_cases hid : sessionId r = []
      · by_cases hopens : Post.frameContainsInitialize frame = true
        · have hasked : Opens text r := ⟨hpost, frame, hframe, hopens⟩
          rw [if_pos hid, if_pos hopens] at hroute
          rw [dispatch, hroute]
          by_cases hfactory : r.factory = true
          · simp only [hfactory, if_true]
            exact .opens hid hasked rfl ⟨_, rfl, deliverAll_serves text r next frame _ 0 _ _⟩
          · simp only [hfactory]
            refine .fails hid hasked rfl fun e he => ?_
            rw [List.mem_singleton.1 he]
            exact ⟨⟨rfl, rfl, fun k h => by cases h⟩, rfl⟩
        · obtain ⟨body, hbody⟩ := badRequest_refuses htext Post.sessionIdRequired_validUtf8
          rw [if_pos hid, if_neg hopens] at hroute
          exact route_refuses (hroute.trans hbody) (by decide)
      · rw [if_neg hid] at hroute
        rw [dispatch, hroute, SessionRegistry.find]
        cases hfound : registry.lookup (sessionId r) with
        | none => exact .rejects 404 _ _ (by decide) rfl rfl
        | some entry => exact .serves entry hid hfound rfl (deliverAll_serves text r entry.session frame _ 0 _ _)

/-- **The spec of `handle_request` behind the sweep.** -/
theorem dispatch_spec {o : HttpSessionServerOptions} {text : JsonText Bytes} (htext : text.Lawful) (registry : SessionRegistry)
    (next : Nat) (r : SessionRequest) : Dispatched text registry next r (dispatch o text registry next r) := by
  by_cases hdelete : r.head.method = bytes "DELETE"
  · exact dispatch_delete registry next hdelete
  by_cases hget : r.head.method = bytes "GET"
  · exact dispatch_get registry next hdelete hget
  by_cases hpost : r.head.method = bytes "POST"
  · exact dispatch_post htext registry next hdelete hget hpost
  · exact route_refuses (by rw [route, if_neg hdelete, if_neg hget, if_pos hpost]) (by decide)

/-! ## The sweep -/

/-- The registry once the idle sessions are gone. -/
def swept (o : HttpSessionServerOptions) (s : State) (r : SessionRequest) : SessionRegistry :=
  (s.registry.removeIdle o.sessionIdleTimeout r.sweepTime).2

def evictions (o : HttpSessionServerOptions) (s : State) (r : SessionRequest) : List Event :=
  (s.registry.removeIdle o.sessionIdleTimeout r.sweepTime).1.map fun e => .evicted e.1 e.2.session

theorem lookup_swept {o : HttpSessionServerOptions} {s : State} {r : SessionRequest} {id : Bytes} {entry : Entry}
    (h : (swept o s r).lookup id = some entry) : s.registry.lookup id = some entry := by
  rw [swept, SessionRegistry.removeIdle, Dict.lookup_filter] at h
  exact (Option.filter_eq_some_iff.1 h).1

theorem lookup_swept_none {o : HttpSessionServerOptions} {s : State} {r : SessionRequest} {id : Bytes}
    (h : s.registry.lookup id = none) : (swept o s r).lookup id = none := by
  rw [swept, SessionRegistry.removeIdle, Dict.lookup_filter, h]
  rfl

theorem mem_evictions {o : HttpSessionServerOptions} {s : State} {r : SessionRequest} {e : Event} (h : e ∈ evictions o s r) :
    ∃ id entry, e = .evicted id entry.session ∧ s.registry.lookup id = some entry ∧ (swept o s r).lookup id = none := by
  obtain ⟨⟨id, entry⟩, hmem, rfl⟩ := List.mem_map.1 h
  obtain ⟨hentry, hidle⟩ := List.mem_filter.1 hmem
  have hfound : s.registry.lookup id = some entry := AList.mem_lookup_iff.2 hentry
  refine ⟨id, entry, rfl, hfound, ?_⟩
  rw [swept, SessionRegistry.removeIdle, Dict.lookup_filter, hfound, Option.filter_some, hidle]
  rfl

theorem turn_events (o : HttpSessionServerOptions) (text : JsonText Bytes) (s : State) (r : SessionRequest) :
    (turn o text s r).events = evictions o s r ++ (dispatch o text (swept o s r) s.issued.length r).events := rfl

theorem evictions_reach_nothing {o : HttpSessionServerOptions} {s : State} {r : SessionRequest} {e : Event}
    (h : e ∈ evictions o s r) : e.reaches = none ∧ e.issues = none := by
  obtain ⟨id, entry, rfl, -⟩ := mem_evictions h
  exact ⟨rfl, rfl⟩

/-! ## The invariant -/

structure Inv (s : State) : Prop where
  registered : ∀ id entry, s.registry.lookup id = some entry → s.issued[entry.session]? = some id
  ended : ∀ id ∈ s.ended, id ∈ s.issued ∧ s.registry.lookup id = none
  nonempty : ∀ id ∈ s.issued, id ≠ []

/-- Of the ids: what a request adds to those issued, whom the registry then holds, and which it has ended. -/
structure Accounts (registry : SessionRegistry) (next : Nat) (r : SessionRequest) (turn : Turn) : Prop where
  issues : turn.events.filterMap Event.issues = [] ∨ turn.events.filterMap Event.issues = [newId r]
  holds : ∀ id entry, turn.registry.lookup id = some entry →
    (∃ old, registry.lookup id = some old ∧ old.session = entry.session) ∨
      (turn.events.filterMap Event.issues = [newId r] ∧ id = newId r ∧ entry.session = next)
  ends : ∀ id ∈ turn.events.filterMap Event.ends, (∃ old, registry.lookup id = some old) ∧ turn.registry.lookup id = none

theorem filterMap_serves {session : Nat} {events : List Event} (h : ∀ e ∈ events, e.Serves session) :
    events.filterMap Event.issues = [] ∧ events.filterMap Event.ends = [] :=
  ⟨List.filterMap_eq_nil_iff.2 fun e he => (h e he).1, List.filterMap_eq_nil_iff.2 fun e he => (h e he).2.1⟩

theorem Dispatched.accounts {text : JsonText Bytes} {registry : SessionRegistry} {next : Nat} {r : SessionRequest} {turn : Turn}
    (h : Dispatched text registry next r turn) : Accounts registry next r turn := by
  have still : turn.registry = registry → turn.events.filterMap Event.issues = [] → turn.events.filterMap Event.ends = [] →
      Accounts registry next r turn := by
    intro hsame hissues hends
    refine ⟨.inl hissues, fun id entry hfound => .inl ⟨entry, ?_, rfl⟩, fun id hid => ?_⟩
    · rw [← hsame]
      exact hfound
    · rw [hends] at hid
      cases hid
  cases h with
  | rejects status reason body range same events => exact still same (by rw [events]; rfl) (by rw [events]; rfl)
  | throws post escapes same events => exact still same (by rw [events]; rfl) (by rw [events]; rfl)
  | fails anonymous asked same events =>
    obtain ⟨hissues, hends⟩ := filterMap_serves fun e he => (events e he).1
    exact still same hissues hends
  | terminates entry id found erased events =>
    obtain ⟨rest, hevents, hrest⟩ := events
    obtain ⟨hissues, hends⟩ := filterMap_serves hrest
    refine ⟨.inl (by rw [hevents]; exact hissues), fun id entry hfound => .inl ⟨entry, ?_, rfl⟩, fun id hid => ?_⟩
    · rw [erased] at hfound
      exact (Dict.lookup_erase_eq_some.1 hfound).2
    · have hone : turn.events.filterMap Event.ends = [sessionId r] := by
        rw [hevents, List.filterMap_cons, hends]
        rfl
      rw [hone, List.mem_singleton] at hid
      rw [hid, erased]
      exact ⟨⟨entry, found⟩, AList.lookup_erase _ _⟩
  | serves entry id found touched events =>
    obtain ⟨hissues, hends⟩ := filterMap_serves events
    refine ⟨.inl hissues, fun id new hfound => .inl ?_, fun id hid => ?_⟩
    · rw [touched] at hfound
      rcases Dict.lookup_insert_eq_some.1 hfound with ⟨rfl, rfl⟩ | ⟨-, hold⟩
      · exact ⟨entry, found, rfl⟩
      · exact ⟨new, hold, rfl⟩
    · rw [hends] at hid
      cases hid
  | opens anonymous asked created events =>
    obtain ⟨rest, hevents, hrest⟩ := events
    obtain ⟨hissues, hends⟩ := filterMap_serves hrest
    have hnew : turn.events.filterMap Event.issues = [newId r] := by
      rw [hevents, List.filterMap_cons, hissues]
      rfl
    refine ⟨.inr hnew, fun id entry hfound => ?_, fun id hid => ?_⟩
    · rw [created] at hfound
      rcases Dict.lookup_insert_eq_some.1 hfound with ⟨hsame, rfl⟩ | ⟨-, hold⟩
      · exact .inr ⟨hnew, hsame, rfl⟩
      · exact .inl ⟨entry, hold, rfl⟩
    · have hnone : turn.events.filterMap Event.ends = [] := by
        rw [hevents, List.filterMap_cons, hends]
        rfl
      rw [hnone] at hid
      cases hid

theorem inv_init : Inv {} where
  registered := fun id entry h => by cases h
  ended := fun id h => by cases h
  nonempty := fun id h => by cases h

/-- **The step lemma.** -/
theorem Inv.step {o : HttpSessionServerOptions} {text : JsonText Bytes} (htext : text.Lawful) {s t : State} {r : SessionRequest}
    (h : Inv s) (hfresh : Fresh o text s r) (hstep : step o text s r = some t) : Inv t := by
  have haccounts := (dispatch_spec (o := o) htext (swept o s r) s.issued.length r).accounts
  have hissues : (turn o text s r).events.filterMap Event.issues =
      (dispatch o text (swept o s r) s.issued.length r).events.filterMap Event.issues := by
    have hnone : (evictions o s r).filterMap Event.issues = [] :=
      List.filterMap_eq_nil_iff.2 fun e he => (evictions_reach_nothing he).2
    rw [turn_events, List.filterMap_append, hnone, List.nil_append]
  rw [HttpSessionServer.step] at hstep
  split at hstep
  · cases hstep
  obtain rfl := Option.some.inj hstep
  -- an id that is registered has been issued, and a new one has not
  have hfree : ∀ id ∈ s.issued, (turn o text s r).events.filterMap Event.issues = [newId r] → id ≠ newId r := by
    rintro id hid hnew rfl
    exact hfresh (newId r) (by rw [hnew]; exact List.mem_singleton_self _) hid
  have hissued : ∀ id entry, s.registry.lookup id = some entry → id ∈ s.issued := fun id entry hfound =>
    List.mem_of_getElem? (h.registered id entry hfound)
  have hlost : ∀ id ∈ s.issued, (swept o s r).lookup id = none → (turn o text s r).registry.lookup id = none := by
    intro id hid hnone
    cases hfound : (turn o text s r).registry.lookup id with
    | none => rfl
    | some entry =>
      rcases haccounts.holds id entry hfound with ⟨old, hold, -⟩ | ⟨hnew, hsame, -⟩
      · rw [hnone] at hold
        cases hold
      · exact absurd hsame (hfree id hid (hissues.trans hnew))
  refine ⟨fun id entry hfound => ?_, fun id hid => ?_, fun id hid => ?_⟩
  · rcases haccounts.holds id entry hfound with ⟨old, hold, hsession⟩ | ⟨hnew, rfl, hsession⟩
    · have hget := h.registered id old (lookup_swept hold)
      rw [← hsession]
      exact (List.getElem?_append_left (List.getElem?_eq_some_iff.1 hget).1).trans hget
    · show (s.issued ++ (turn o text s r).events.filterMap Event.issues)[entry.session]? = _
      rw [hissues, hnew, hsession, List.getElem?_append_right (Nat.le_refl _), Nat.sub_self]
      rfl
  · rcases List.mem_append.1 hid with hid | hid
    · obtain ⟨hin, hnone⟩ := h.ended id hid
      exact ⟨List.mem_append_left _ hin, hlost id hin (lookup_swept_none hnone)⟩
    · rw [turn_events, List.filterMap_append] at hid
      rcases List.mem_append.1 hid with hid | hid
      · obtain ⟨e, he, hends⟩ := List.mem_filterMap.1 hid
        obtain ⟨id', entry, rfl, hfound, hnone⟩ := mem_evictions he
        obtain rfl : id' = id := Option.some.inj hends
        have hin := hissued id' entry hfound
        exact ⟨List.mem_append_left _ hin, hlost id' hin hnone⟩
      · obtain ⟨⟨old, hold⟩, hnone⟩ := haccounts.ends id hid
        exact ⟨List.mem_append_left _ (hissued id old (lookup_swept hold)), hnone⟩
  · rcases List.mem_append.1 hid with hid | hid
    · exact h.nonempty id hid
    · rw [hissues] at hid
      rcases haccounts.issues with hnone | hnew
      · rw [hnone] at hid
        cases hid
      · rw [hnew, List.mem_singleton] at hid
        rw [hid]
        exact generateSessionId_ne_nil _ _ _ _

/-! ## The property -/

theorem rejected_of_rejects {o : HttpSessionServerOptions} {text : JsonText Bytes} {s : State} {r : SessionRequest} {status : Nat}
    {reason body : Bytes} (hrange : 400 ≤ status ∧ status < 500)
    (hevents : (dispatch o text (swept o s r) s.issued.length r).events = [.answered status reason body []]) :
    Rejected (turn o text s r) := by
  have hturn := turn_events o text s r
  rw [hevents] at hturn
  refine ⟨⟨status, reason, body, [], ?_, hrange⟩, fun e he => ?_, fun e he => ?_⟩
  · rw [hturn]
    exact List.mem_append_right _ (List.mem_singleton_self _)
  all_goals
    rw [hturn] at he
    rcases List.mem_append.1 he with he | he
  · exact (evictions_reach_nothing he).1
  · rw [List.mem_singleton.1 he]
    rfl
  · exact (evictions_reach_nothing he).2
  · rw [List.mem_singleton.1 he]
    rfl

/-- **A request that no session is to see is rejected**, when `parse_frame` returns from its body. -/
theorem Dispatched.rejected {o : HttpSessionServerOptions} {text : JsonText Bytes} {s : State} {r : SessionRequest}
    (h : Dispatched text (swept o s r) s.issued.length r (dispatch o text (swept o s r) s.issued.length r))
    (hparses : r.head.method = bytes "POST" → (parseFrame text r.body).isOk = true)
    (hunknown : sessionId r ≠ [] → (swept o s r).lookup (sessionId r) = none)
    (hasks : sessionId r = [] → ¬ Opens text r) : Rejected (turn o text s r) := by
  cases h with
  | rejects status reason body range same events => exact rejected_of_rejects range events
  | throws post escapes same events =>
    obtain ⟨e, he⟩ := escapes
    have hok := hparses post
    rw [he] at hok
    cases hok
  | terminates entry id found erased events =>
    rw [hunknown id] at found
    cases found
  | serves entry id found touched events =>
    rw [hunknown id] at found
    cases found
  | opens anonymous asked created events => exact absurd asked (hasks anonymous)
  | fails anonymous asked same events => exact absurd asked (hasks anonymous)

/-- **What a request reaches** is the session it has created, or the one registered under the id it presents. -/
theorem Dispatched.reaches {text : JsonText Bytes} {registry : SessionRegistry} {next : Nat} {r : SessionRequest} {turn : Turn}
    (h : Dispatched text registry next r turn) {e : Event} (he : e ∈ turn.events) {k : Nat} (hk : e.reaches = some k) :
    (sessionId r = [] ∧ Opens text r ∧ .created (newId r) k ∈ turn.events) ∨
      sessionId r ≠ [] ∧ ∃ entry, registry.lookup (sessionId r) = some entry ∧ k = entry.session := by
  cases h with
  | rejects status reason body range same events =>
    rw [events, List.mem_singleton] at he
    rw [he] at hk
    cases hk
  | throws post escapes same events =>
    rw [events] at he
    cases he
  | terminates entry id found erased events =>
    obtain ⟨rest, hevents, hrest⟩ := events
    rw [hevents] at he
    rcases List.mem_cons.1 he with rfl | he
    · cases hk
    · exact .inr ⟨id, entry, found, (hrest e he).2.2 k hk⟩
  | serves entry id found touched events => exact .inr ⟨id, entry, found, (events e he).2.2 k hk⟩
  | opens anonymous asked created events =>
    obtain ⟨rest, hevents, hrest⟩ := events
    rw [hevents] at he ⊢
    rcases List.mem_cons.1 he with rfl | he
    · cases hk
    · obtain rfl := (hrest e he).2.2 k hk
      exact .inl ⟨anonymous, asked, List.mem_cons_self⟩
  | fails anonymous asked same events =>
    rw [(events e he).2] at hk
    cases hk

theorem Inv.authority {o : HttpSessionServerOptions} {text : JsonText Bytes} (htext : text.Lawful) {s : State} {r : SessionRequest}
    (h : Inv s) (hparses : Parses text s r) : Authority o text s r := by
  have hspec := dispatch_spec (o := o) htext (swept o s r) s.issued.length r
  constructor
  · intro e he k hk
    rw [turn_events] at he ⊢
    rcases List.mem_append.1 he with he | he
    · rw [(evictions_reach_nothing he).1] at hk
      cases hk
    rcases hspec.reaches he hk with ⟨hanonymous, hasked, hmem⟩ | ⟨hid, entry, hfound, rfl⟩
    · exact .inl ⟨hanonymous, hasked, List.mem_append_right _ hmem⟩
    · have hlookup := lookup_swept hfound
      exact .inr ⟨hid, h.registered _ _ hlookup, by rw [hlookup]; rfl⟩
  · intro hid
    obtain ⟨hin, hnone⟩ := h.ended _ hid
    exact hspec.rejected (fun hpost => hparses hpost (.inr hid)) (fun _ => lookup_swept_none hnone)
      (fun hanonymous => absurd hanonymous (h.nonempty _ hin))
  · intro hanonymous hasks
    exact hspec.rejected (fun hpost => hparses hpost (.inl hanonymous)) (fun hid => absurd hanonymous hid) (fun _ => hasks)

/-- A POST whose body makes `parse_frame` throw is not rejected: nothing is answered. -/
theorem not_rejected_of_throws {o : HttpSessionServerOptions} {text : JsonText Bytes} {s : State} {r : SessionRequest}
    (hpost : r.head.method = bytes "POST") {e : JsonException} (he : parseFrame text r.body = .error e) :
    ¬ Rejected (turn o text s r) := by
  have hroute : route o text r = .escape := by
    rw [route, if_neg (by rw [hpost]; decide), if_neg (by rw [hpost]; decide), if_neg (not_not_intro hpost), he]
  intro hrejected
  obtain ⟨status, reason, body, extraHeaders, hmem, -⟩ := hrejected.status
  rw [turn_events, dispatch, hroute, List.append_nil] at hmem
  obtain ⟨id, entry, hevicted, -⟩ := mem_evictions hmem
  cases hevicted

theorem parses_of_authority {o : HttpSessionServerOptions} {text : JsonText Bytes} {s : State} {r : SessionRequest}
    (h : Authority o text s r) : Parses text s r := by
  intro hpost hid
  cases hparse : parseFrame text r.body with
  | ok result => rfl
  | error e =>
    refine absurd ?_ (not_rejected_of_throws (o := o) (s := s) hpost hparse)
    rcases hid with hanonymous | hended
    · refine h.anonymous hanonymous fun hopens => ?_
      obtain ⟨-, frame, hframe, -⟩ := hopens
      rw [hparse] at hframe
      cases hframe
    · exact h.ended hended

/-- **In a history whose ids never repeat, the id is the only authority in every request exactly when the body of each
request that has to be rejected is one `parse_frame` returns from.** -/
theorem authority_iff {o : HttpSessionServerOptions} {text : JsonText Bytes} (htext : text.Lawful) :
    ∀ {requests : List SessionRequest}, Lts.Meets (step o text) (Fresh o text) {} requests →
      (Lts.Meets (step o text) (Authority o text) {} requests ↔ Lts.Meets (step o text) (Parses text) {} requests) := by
  suffices hall : ∀ {requests : List SessionRequest} {s : State}, Inv s → Lts.Meets (step o text) (Fresh o text) s requests →
      (Lts.Meets (step o text) (Authority o text) s requests ↔ Lts.Meets (step o text) (Parses text) s requests) from
    @fun _ hfresh => hall inv_init hfresh
  intro requests
  induction requests with
  | nil => exact fun _ _ => Iff.rfl
  | cons r requests ih =>
    intro s hinv hfresh
    constructor
    · rintro ⟨hone, hrest⟩
      exact ⟨parses_of_authority hone, fun t ht =>
        (ih (hinv.step htext hfresh.1 ht) (hfresh.2 t ht)).1 (hrest t ht)⟩
    · rintro ⟨hone, hrest⟩
      exact ⟨hinv.authority htext hone, fun t ht => (ih (hinv.step htext hfresh.1 ht) (hfresh.2 t ht)).2 (hrest t ht)⟩

def callText (method : Bytes) : Json := messageToJson (.request { id := .int 1, method })

/-- An error object whose code is a string. -/
def malformedError : Json :=
  .object [(bytes "error", .object [(bytes "code", .string (bytes "x")), (bytes "message", .string (bytes "m"))]),
    (bytes "id", .numberUnsigned 1), (bytes "jsonrpc", .string (bytes "2.0"))]

def sessionText : JsonText Bytes :=
  tableText (fun _ => []) [(bytes "hello", callText methods.kInitialize), (bytes "ping", callText methods.kPing),
    (bytes "oops", malformedError)]

def request (method id body : Bytes) : SessionRequest where
  head := { method, headers := (∅ : Dict Bytes Bytes).insert (bytes "mcp-session-id") id }
  body := body
  sweepTime := 0
  now := 0
  device := (1, 2, 3, 4)

/-- A session is opened, used and terminated, and its id presented once more. -/
def openUseTerminate : List SessionRequest :=
  let id := generateSessionId 1 2 3 4
  [request (bytes "POST") [] (bytes "hello"), request (bytes "POST") id (bytes "ping"), request (bytes "DELETE") id [],
    request (bytes "POST") id (bytes "ping")]

theorem authority_iff_openUseTerminate :
    Lts.Meets (step {} sessionText) (Authority {} sessionText) {} openUseTerminate ∧
      (Lts.run (step {} sessionText) {} openUseTerminate).map (fun s => (s.issued.length, s.ended.length)) = some (1, 1) :=
  ⟨(authority_iff (tableText_lawful _ _) (by decide +kernel)).2 (by decide +kernel), by decide +kernel⟩

/-- A POST without an id whose error object is malformed: nothing is answered, and the process is gone. -/
theorem malformedError_unanswered :
    Lts.Meets (step {} sessionText) (Fresh {} sessionText) {} [request (bytes "POST") [] (bytes "oops")] ∧
      (turn {} sessionText {} (request (bytes "POST") [] (bytes "oops"))).events.length = 0 ∧
      (turn {} sessionText {} (request (bytes "POST") [] (bytes "oops"))).escaped = true ∧
      ¬ Lts.Meets (step {} sessionText) (Authority {} sessionText) {} [request (bytes "POST") [] (bytes "oops")] :=
  ⟨by decide +kernel, by decide +kernel, by decide +kernel, fun h => absurd (parses_of_authority h.1) (by decide +kernel)⟩

end HttpSessionServer
end Mcp
