import McpSdk.Interference
/-!
# HandlerTables — what every handler of a router does

A property of every handler stands in the tables under a name or a wildcard alike (`Every`); what each of them keeps of the
state it runs on, `handle_message` keeps (`handleMessage_keeps`).
-/
namespace Mcp
namespace Router

variable {ω : Type}

/-- **Every handler of the tables**, under a name or a wildcard. -/
structure Every (P : RequestHandler ω → Prop) (Q : NotificationHandler ω → Prop) (r : Router ω) : Prop where
  requests : ∀ method h, r.requestHandlers.lookup method = some (some h) → P h
  wildcardRequests : ∀ p h, (p, some h) ∈ r.wildcardRequestHandlers → P h
  notes : ∀ method h, r.notificationHandlers.lookup method = some (some h) → Q h
  wildcardNotes : ∀ p h, (p, some h) ∈ r.wildcardNotificationHandlers → Q h

variable {P : RequestHandler ω → Prop} {Q : NotificationHandler ω → Prop} {r : Router ω}

theorem Every.request (h : Every P Q r) {method : Bytes} {handler : RequestHandler ω}
    (find : r.findRequestHandler method = some handler) : P handler := by
  rcases Router.findRequestHandler_eq_some find with hl | ⟨p, hmem⟩
  · exact h.requests _ _ hl
  · exact h.wildcardRequests _ _ hmem

theorem Every.note (h : Every P Q r) {method : Bytes} {handler : NotificationHandler ω}
    (find : r.findNotificationHandler method = some handler) : Q handler := by
  rcases Router.findNotificationHandler_eq_some find with hl | ⟨p, hmem⟩
  · exact h.notes _ _ hl
  · exact h.wildcardNotes _ _ hmem

theorem Every.setRequestHandler (h : Every P Q r) (method : Bytes) {handler : RequestHandler ω} (hP : P handler) :
    Every P Q (r.setRequestHandler method (some handler)) := by
  obtain ⟨hexact, hwild, -⟩ := Router.setRequestHandler_cases r method (some handler)
  obtain ⟨hnotes, hwildNotes⟩ := Router.setRequestHandler_notifications r method (some handler)
  refine ⟨fun key g hl => ?_, fun p g hmem => ?_, fun key g => ?_, fun p g => ?_⟩
  · exact (hexact key g hl).elim (h.requests key g) fun heq => Option.some.inj heq ▸ hP
  · exact (hwild p g hmem).elim (h.wildcardRequests p g) fun heq => Option.some.inj heq ▸ hP
  · rw [hnotes]
    exact h.notes key g
  · rw [hwildNotes]
    exact h.wildcardNotes p g

theorem Every.setNotificationHandler (h : Every P Q r) (method : Bytes) {handler : NotificationHandler ω} (hQ : Q handler) :
    Every P Q (r.setNotificationHandler method (some handler)) := by
  obtain ⟨hexact, hwild⟩ := Router.setNotificationHandler_cases r method (some handler)
  obtain ⟨hrequests, hwildRequests⟩ := Router.setNotificationHandler_requests r method (some handler)
  refine ⟨fun key g => ?_, fun p g => ?_, fun key g hl => ?_, fun p g hmem => ?_⟩
  · rw [hrequests]
    exact h.requests key g
  · rw [hwildRequests]
    exact h.wildcardRequests p g
  · exact (hexact key g hl).elim (h.notes key g) fun heq => Option.some.inj heq ▸ hQ
  · exact (hwild p g hmem).elim (h.wildcardNotes p g) fun heq => Option.some.inj heq ▸ hQ

theorem Every.foldl_requests : ∀ {hs : List (Bytes × (Option Json → ω → Except Exn (Result Json) × ω))} {r : Router ω},
    Every P Q r → (∀ h ∈ hs, P (.user h.2)) →
      Every P Q (hs.foldl (fun r h => r.setRequestHandler h.1 (some (.user h.2))) r)
  | [], _, h, _ => h
  | g :: hs, _, h, hP => by
    rw [List.foldl_cons]
    exact Every.foldl_requests (h.setRequestHandler g.1 (hP g List.mem_cons_self)) fun x hx =>
      hP x (List.mem_cons_of_mem g hx)

theorem Every.foldl_notes : ∀ {hs : List (Bytes × (Option Json → ω → ω))} {r : Router ω},
    Every P Q r → (∀ h ∈ hs, Q (.user h.2)) →
      Every P Q (hs.foldl (fun r h => r.setNotificationHandler h.1 (some (.user h.2))) r)
  | [], _, h, _ => h
  | g :: hs, _, h, hQ => by
    rw [List.foldl_cons]
    exact Every.foldl_notes (h.setNotificationHandler g.1 (hQ g List.mem_cons_self)) fun x hx =>
      hQ x (List.mem_cons_of_mem g hx)

theorem Every.of_sameTables {s t : Session ω} (h : Every P Q s.router) (hs : Session.SameTables s t) : Every P Q t.router := by
  refine ⟨?_, ?_, ?_, ?_⟩
  · rw [hs.requests]
    exact h.requests
  · rw [hs.wildcardRequests]
    exact h.wildcardRequests
  · rw [hs.notes]
    exact h.notes
  · rw [hs.wildcardNotes]
    exact h.wildcardNotes

/-- What the constructor of `Session` registers. -/
theorem every_baseRouter (hping : P .ping) (hprogress : Q .progress) (hcancelled : Q .cancelled) :
    Every P Q (Session.baseRouter : Router ω) where
  requests := by
    intro method h hl
    have htable : (Session.baseRouter : Router ω).requestHandlers =
        (∅ : Dict Bytes (Option (RequestHandler ω))).insert methods.kPing (some .ping) := rfl
    rw [htable, Dict.lookup_insert_ite, AList.lookup_empty] at hl
    split at hl
    · cases hl
      exact hping
    · cases hl
  wildcardRequests := fun p h hmem => by cases hmem
  notes := by
    intro method h hl
    have htable : (Session.baseRouter : Router ω).notificationHandlers =
        ((∅ : Dict Bytes (Option (NotificationHandler ω))).insert methods.kNotificationProgress (some .progress)).insert
          methods.kNotificationCancelled (some .cancelled) := rfl
    rw [htable, Dict.lookup_insert_ite, Dict.lookup_insert_ite, AList.lookup_empty] at hl
    split at hl
    · cases hl
      exact hcancelled
    · split at hl
      · cases hl
        exact hprogress
      · cases hl
  wildcardNotes := fun p h hmem => by cases hmem

/-! ## What the handlers keep -/

/-- A handler keeps a relation between the state before and after. -/
def KeepsRequest (R : ω → ω → Prop) : RequestHandler ω → Prop
  | .user run => ∀ params w, R w (run params w).2
  | _ => True

def KeepsNote (R : ω → ω → Prop) : NotificationHandler ω → Prop
  | .user run => ∀ params w, R w (run params w)
  | _ => True

/-- **`handle_message` keeps what every handler keeps.** -/
theorem handleMessage_keeps {R : ω → ω → Prop} (hrefl : ∀ w, R w w) {s : Session ω}
    (h : Every (KeepsRequest R) (KeepsNote R) s.router) (now : TimePoint) (w : ω) (m : Message) :
    R w (s.handleMessage now w m).world := by
  cases m with
  | request r =>
    show R w (s.handleRequest w r).world
    cases Session.handleRequest_answered s w r with
    | rejected e gate out_eq =>
      rw [out_eq]
      exact hrefl w
    | missing gate find out_eq =>
      rw [out_eq]
      exact hrefl w
    | handled handler gate find out_eq =>
      have hkeeps := h.request find
      rw [out_eq]
      cases handler with
      | ping => exact hrefl w
      | initializeHandler options => exact hrefl w
      | user run => exact hkeeps r.params w
  | notification n =>
    show R w (s.dispatchNotification now w n).world
    cases find : s.router.findNotificationHandler n.method with
    | none =>
      simp only [Session.dispatchNotification, find]
      exact hrefl w
    | some handler =>
      have hkeeps := h.note find
      simp only [Session.dispatchNotification, find]
      cases handler with
      | progress =>
        simp only [Session.handleProgress]
        (repeat' split) <;> exact hrefl w
      | cancelled =>
        simp only [Session.handleCancelled]
        (repeat' split) <;> exact hrefl w
      | initialized => exact hrefl w
      | user run => exact hkeeps n.params w
  | response r =>
    simp only [Session.handleMessage, Session.handleResponse]
    split <;> exact hrefl w

end Router
end Mcp
