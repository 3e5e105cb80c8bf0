import McpSdk.Post
import McpSdk.Encoding
/-!
# PostReply — the HTTP answer of a POST carries what was made for it

What a thread may touch of the shared tables is its own entry of each (`State.view`), so its answer is settled by its own
sections alone: while it serves a frame, its capture holds the errors of the frame's invalid items and one response for
each request so far (`Serving`), and its answer is written from there (`Replied`).
-/
namespace Mcp
namespace Post

open Pool (madeBy)

variable {ω τ : Type} {text : JsonText τ}

/-! ## A thread's own view -/

/-- The part of the shared state that belongs to one thread. -/
structure View (τ : Type) where
  captured : Option (List Json)
  produced : List JsonRpcResponse
  replies : List (Reply τ)
  delivered : List ParsedFrame
  post : Option τ

def State.view (s : State ω τ) (i : Nat) : View τ where
  captured := s.captureTable.lookup i
  produced := madeBy i s.produced
  replies := madeBy i s.replies
  delivered := madeBy i s.delivered
  post := s.posts[i]?

/-- A change that leaves every other thread's view alone. -/
structure Own (i : Nat) (s s' : State ω τ) : Prop where
  view : ∀ j, j ≠ i → s'.view j = s.view j
  sessions : s.sessions.length ≤ s'.sessions.length
  posts : s'.posts = s.posts

theorem Own.refl (i : Nat) (s : State ω τ) : Own i s s := ⟨fun _ _ => rfl, Nat.le_refl _, rfl⟩

theorem Own.trans {i : Nat} {s t u : State ω τ} (h : Own i s t) (h' : Own i t u) : Own i s u :=
  ⟨fun j hj => (h'.view j hj).trans (h.view j hj), Nat.le_trans h.sessions h'.sessions, h'.posts.trans h.posts⟩

theorem own_reply (s : State ω τ) (i : Nat) (r : Reply τ) : Own i s (s.reply i r) :=
  ⟨fun j hj => by simp [State.view, State.reply, Pool.madeBy_append_of_ne hj], Nat.le_refl _, rfl⟩

theorem own_produce (s : State ω τ) (i : Nat) (r : JsonRpcResponse) : Own i s (s.produce i r) :=
  ⟨fun j hj => by simp [State.view, State.produce, Pool.madeBy_append_of_ne hj], Nat.le_refl _, rfl⟩

theorem own_construct (s : State ω τ) (i : Nat) (frame : ParsedFrame) : Own i s (s.construct i frame) :=
  ⟨fun j hj => by simp [State.view, State.construct, Pool.madeBy_append_of_ne hj, AList.lookup_insert_ne hj],
    Nat.le_refl _, rfl⟩

theorem own_destruct (s : State ω τ) (i : Nat) : Own i s (s.destruct i) :=
  ⟨fun j hj => by simp [State.view, State.destruct, AList.lookup_erase_ne hj], Nat.le_refl _, rfl⟩

theorem own_enqueue (s : State ω τ) (i index : Nat) (m : Message) : Own i s (s.enqueue index m) :=
  ⟨fun _ _ => rfl, Nat.le_refl _, rfl⟩

theorem own_setSession (s : State ω τ) (i index : Nat) (session : Session ω) (world : ω) :
    Own i s (s.setSession index session world) :=
  ⟨fun _ _ => rfl, by simp [State.setSession], rfl⟩

theorem own_capture {s s' : State ω τ} {i : Nat} {j : Json} (h : s.capture i j = some s') : Own i s s' := by
  obtain ⟨captured, -, rfl⟩ := Option.map_eq_some_iff.1 h
  exact ⟨fun k hk => by simp [State.view, AList.lookup_insert_ne hk], Nat.le_refl _, rfl⟩

theorem own_send {s s' : State ω τ} {i index : Nat} {m : Message} (h : send text s i index m = .ok s') : Own i s s' := by
  unfold send at h
  cases hc : tryCapture s i m with
  | some s'' =>
    rw [hc] at h
    cases h
    unfold tryCapture at hc
    split at hc
    · exact own_capture hc
    · cases hc
  | none =>
    rw [hc] at h
    cases ht : serializeMessage text m with
    | error e =>
      rw [ht] at h
      cases h
    | ok t =>
      rw [ht] at h
      cases h
      exact own_enqueue s i index m

theorem own_sendAll {i index : Nat} {effects : List Effect} {s s' : State ω τ}
    (h : sendAll text i index effects s = .ok s') : Own i s s' := by
  induction effects generalizing s with
  | nil =>
    cases h
    exact Own.refl i _
  | cons effect effects ih =>
    cases effect with
    | send m =>
      simp only [sendAll] at h
      cases hm : send text s i index m with
      | ok t =>
        rw [hm] at h
        exact (own_send hm).trans (ih h)
      | error e =>
        rw [hm] at h
        cases h
    | _ => exact ih h

/-! ## What a thread has done so far -/

/-- The captured JSON of the invalid items of a frame. -/
def errorJsons (errors : List Error) : List Json := errors.map (fun e => responseToJson (nullIdError e))

/-- The thread's POST carried this frame. -/
def View.Carries (text : JsonText τ) (v : View τ) (frame : ParsedFrame) : Prop :=
  ∃ body, v.post = some body ∧ parseFrame text body = .ok (.ok frame)

/-- Nothing has been done. -/
structure View.Fresh (v : View τ) : Prop where
  produced : v.produced = []
  replies : v.replies = []
  delivered : v.delivered = []

/-- **A frame is being served**, its `handled` messages done: one response for each request among them, captured behind
the errors of the invalid items. -/
structure Serving (text : JsonText τ) (v : View τ) (frame : ParsedFrame) (handled : List Message) : Prop where
  delivered : v.delivered = [frame]
  replies : v.replies = []
  carries : v.Carries text frame
  ids : v.produced.map JsonRpcResponse.id = (requests handled).map (fun r => some r.id)
  captured : v.captured = some (errorJsons frame.itemErrors ++ v.produced.map responseToJson)

/-- **The answer to a frame**: one response for each of its requests, in order and under its id; 202 when there is
nothing to answer, else the dump of the errors of its invalid items and these responses. -/
structure Replied (text : JsonText τ) (frame : ParsedFrame) (responses : List JsonRpcResponse) (reply : Reply τ) : Prop where
  ids : responses.map JsonRpcResponse.id = (requests frame.messages).map (fun r => some r.id)
  reply : match errorJsons frame.itemErrors ++ responses.map responseToJson with
    | [] => reply = .accepted
    | first :: rest => ∃ t, reply = .answered t ∧ text.dump (captureBody frame.wasBatch first rest) = .ok t

/-- The answer to a POST that reaches no session. -/
inductive Rejected (text : JsonText τ) (post : Option τ) (reply : Reply τ) : Prop
  | refused (body : τ) (e : Error) (t : τ) (posted : post = some body) (parsed : parseFrame text body = .ok (.error e))
      (dumped : serializeMessage text (.response (nullIdError e)) = .ok t) (answer : reply = .badRequest t)
  | noSession (t : τ) (dumped : serializeMessage text (.response (nullIdError sessionIdRequired)) = .ok t)
      (answer : reply = .badRequest t)
  | unknown (answer : reply = .notFound)
  | failed (answer : reply = .failed)

/-- What was made for the POST is in its answer. -/
def Written (text : JsonText τ) (v : View τ) (reply : Reply τ) : Prop :=
  (∃ frame, v.delivered = [frame] ∧ v.Carries text frame ∧ Replied text frame v.produced reply) ∨
    (v.delivered = [] ∧ v.produced = [] ∧ Rejected text v.post reply)

/-- The POST is answered, once. -/
def Settled (text : JsonText τ) (v : View τ) : Prop := ∃ reply, v.replies = [reply] ∧ Written text v reply

/-- **Where a thread stands and what it has done fit together.** -/
def ThreadInv (text : JsonText τ) (n : Nat) (v : View τ) : Pc ω τ → Prop
  | .done => Settled text v
  | .crashed => v.replies = [] ∨ Settled text v
  | .parse target body => v.Fresh ∧ v.post = some body ∧ target.inRange n = true
  | .emitError index _ => Settled text v ∧ index < n
  | .construct index frame => v.Fresh ∧ v.Carries text frame ∧ index < n
  | .itemErrors index frame errors =>
    v.delivered = [frame] ∧ v.replies = [] ∧ v.produced = [] ∧ v.Carries text frame ∧ index < n ∧
      ∃ added, frame.itemErrors = added ++ errors ∧ v.captured = some (errorJsons added)
  | .deliver index frame messages => index < n ∧ ∃ handled, frame.messages = handled ++ messages ∧ Serving text v frame handled
  | .dispatch index frame r messages =>
    index < n ∧ ∃ handled, frame.messages = handled ++ .request r :: messages ∧ Serving text v frame handled
  | .send index frame response messages =>
    index < n ∧ ∃ handled r, frame.messages = handled ++ .request r :: messages ∧ response.id = some r.id ∧
      Serving text v frame handled
  | .finish frame => Serving text v frame frame.messages
  | .destruct => Settled text v

/-- **The invariant of every run.** -/
structure Served (text : JsonText τ) (p : Pool (State ω τ) (Pc ω τ)) : Prop where
  posts : p.shared.posts.length = p.threads.length
  unborn : ∀ i, p.threads.length ≤ i → (p.shared.view i).Fresh
  thread : ∀ i pc, p.threads[i]? = some pc → ThreadInv text p.shared.sessions.length (p.shared.view i) pc

/-! ## Sections -/

@[simp] theorem view_reply (s : State ω τ) (i : Nat) (r : Reply τ) :
    (s.reply i r).view i = { s.view i with replies := (s.view i).replies ++ [r] } := by
  simp [State.view, State.reply]

@[simp] theorem view_produce (s : State ω τ) (i : Nat) (r : JsonRpcResponse) :
    (s.produce i r).view i = { s.view i with produced := (s.view i).produced ++ [r] } := by
  simp [State.view, State.produce]

@[simp] theorem view_construct (s : State ω τ) (i : Nat) (frame : ParsedFrame) :
    (s.construct i frame).view i =
      { s.view i with captured := some [], delivered := (s.view i).delivered ++ [frame] } := by
  simp [State.view, State.construct]

@[simp] theorem view_destruct (s : State ω τ) (i : Nat) : (s.destruct i).view i = { s.view i with captured := none } := by
  simp [State.view, State.destruct]

@[simp] theorem view_setSession (s : State ω τ) (i index : Nat) (session : Session ω) (world : ω) :
    (s.setSession index session world).view i = s.view i := rfl

theorem capture_eq_some {s : State ω τ} {i : Nat} {captured : List Json} (h : s.captureTable.lookup i = some captured)
    (j : Json) : s.capture i j = some { s with captureTable := s.captureTable.insert i (captured ++ [j]) } := by
  unfold State.capture
  rw [h]
  rfl

/-- **A response sent while the thread has a capture goes there**, and nowhere else. -/
theorem send_response (text : JsonText τ) {s : State ω τ} {i : Nat} {captured : List Json} (h : (s.view i).captured = some captured)
    (index : Nat) (r : JsonRpcResponse) :
    ∃ s', send text s i index (.response r) = .ok s' ∧ s'.enqueued = s.enqueued ∧
      s'.view i = { s.view i with captured := some (captured ++ [responseToJson r]) } := by
  refine ⟨{ s with captureTable := s.captureTable.insert i (captured ++ [responseToJson r]) }, ?_, rfl, ?_⟩
  · unfold send tryCapture
    rw [if_pos (show Message.isResponse (.response r) = true from rfl), capture_eq_some h]
    rfl
  · simp [State.view]

theorem send_logs {s s' : State ω τ} {i index : Nat} {m : Message} (h : send text s i index m = .ok s') :
    s'.produced = s.produced ∧ s'.replies = s.replies ∧ s'.delivered = s.delivered := by
  unfold send at h
  cases hc : tryCapture s i m with
  | some s'' =>
    rw [hc] at h
    cases h
    unfold tryCapture at hc
    split at hc
    · obtain ⟨captured, -, rfl⟩ := Option.map_eq_some_iff.1 hc
      exact ⟨rfl, rfl, rfl⟩
    · cases hc
  | none =>
    rw [hc] at h
    cases ht : serializeMessage text m with
    | error e =>
      rw [ht] at h
      cases h
    | ok t =>
      rw [ht] at h
      cases h
      exact ⟨rfl, rfl, rfl⟩

theorem sendAll_logs {i index : Nat} {effects : List Effect} {s s' : State ω τ}
    (h : sendAll text i index effects s = .ok s') :
    s'.produced = s.produced ∧ s'.replies = s.replies ∧ s'.delivered = s.delivered := by
  induction effects generalizing s with
  | nil =>
    cases h
    exact ⟨rfl, rfl, rfl⟩
  | cons effect effects ih =>
    cases effect with
    | send m =>
      simp only [sendAll] at h
      cases hm : send text s i index m with
      | ok t =>
        rw [hm] at h
        obtain ⟨hp, hr, hd⟩ := send_logs hm
        obtain ⟨hp', hr', hd'⟩ := ih h
        exact ⟨hp'.trans hp, hr'.trans hr, hd'.trans hd⟩
      | error e =>
        rw [hm] at h
        cases h
    | _ => exact ih h

theorem settled_of_logs {v v' : View τ} (h : Settled text v) (hp : v'.produced = v.produced)
    (hr : v'.replies = v.replies) (hd : v'.delivered = v.delivered) (hpost : v'.post = v.post) : Settled text v' := by
  obtain ⟨reply, hreplies, hw⟩ := h
  refine ⟨reply, hr.trans hreplies, ?_⟩
  unfold Written View.Carries
  rw [hp, hd, hpost]
  exact hw

theorem ThreadInv.mono {n m : Nat} (h : n ≤ m) {v : View τ} : ∀ {pc : Pc ω τ}, ThreadInv text n v pc → ThreadInv text m v pc
  | .done, hinv | .crashed, hinv | .finish _, hinv | .destruct, hinv => hinv
  | .parse (.transport _) _, hinv | .parse (.session _) _, hinv =>
    ⟨hinv.1, hinv.2.1, decide_eq_true (Nat.lt_of_lt_of_le (of_decide_eq_true hinv.2.2) h)⟩
  | .parse .unknown _, hinv | .parse (.fresh _) _, hinv => hinv
  | .emitError .., hinv => ⟨hinv.1, Nat.lt_of_lt_of_le hinv.2 h⟩
  | .construct .., hinv => ⟨hinv.1, hinv.2.1, Nat.lt_of_lt_of_le hinv.2.2 h⟩
  | .itemErrors .., hinv =>
    ⟨hinv.1, hinv.2.1, hinv.2.2.1, hinv.2.2.2.1, Nat.lt_of_lt_of_le hinv.2.2.2.2.1 h, hinv.2.2.2.2.2⟩
  | .deliver .., hinv | .dispatch .., hinv | .send .., hinv => ⟨Nat.lt_of_lt_of_le hinv.1 h, hinv.2⟩

theorem View.Fresh.settle {v : View τ} (h : v.Fresh) {reply : Reply τ} (hr : Rejected text v.post reply) :
    Settled text { v with replies := v.replies ++ [reply] } :=
  ⟨reply, by rw [h.replies]; rfl, .inr ⟨h.delivered, h.produced, hr⟩⟩

/-- A 400 settles a fresh POST, and the thread goes on to `next`, or the dump throws. -/
theorem writeBadRequest_inv {s : State ω τ} {i n : Nat} {e : Error} {next : Pc ω τ} (hfresh : (s.view i).Fresh)
    (hr : ∀ t, serializeMessage text (.response (nullIdError e)) = .ok t → Rejected text (s.view i).post (.badRequest t))
    (hnext : ∀ v, Settled text v → ThreadInv text n v next) :
    Own i s (writeBadRequest text s i e next).1 ∧
      (writeBadRequest text s i e next).1.sessions = s.sessions ∧
      ThreadInv text n ((writeBadRequest text s i e next).1.view i) (writeBadRequest text s i e next).2 := by
  unfold writeBadRequest
  cases ht : serializeMessage text (.response (nullIdError e)) with
  | error x => exact ⟨Own.refl i s, rfl, .inl hfresh.replies⟩
  | ok t =>
    refine ⟨own_reply s i _, rfl, hnext _ ?_⟩
    rw [view_reply]
    exact hfresh.settle (hr t ht)

theorem routeFrame_inv {s : State ω τ} {i : Nat} {frame : ParsedFrame} {target : Target ω} (hfresh : (s.view i).Fresh)
    (hc : (s.view i).Carries text frame) (hrange : target.inRange s.sessions.length = true) :
    Own i s (routeFrame text s i frame target).1 ∧
      ThreadInv text (routeFrame text s i frame target).1.sessions.length ((routeFrame text s i frame target).1.view i)
        (routeFrame text s i frame target).2 := by
  cases target with
  | transport index | session index => exact ⟨Own.refl i s, hfresh, hc, of_decide_eq_true hrange⟩
  | unknown =>
    refine ⟨own_reply s i _, ?_⟩
    show Settled text ((s.reply i .notFound).view i)
    rw [view_reply]
    exact hfresh.settle (.unknown rfl)
  | fresh created =>
    unfold routeFrame
    dsimp only
    split
    · cases created with
      | none =>
        refine ⟨own_reply s i _, ?_⟩
        show Settled text ((s.reply i .failed).view i)
        rw [view_reply]
        exact hfresh.settle (.failed rfl)
      | some session =>
        refine ⟨⟨fun _ _ => rfl, by simp, rfl⟩, hfresh, hc, ?_⟩
        simp
    · have hnext : ∀ v : View τ, Settled text v → ThreadInv text s.sessions.length v (.done : Pc ω τ) := fun v hv => hv
      have hw := writeBadRequest_inv hfresh (fun t ht => Rejected.noSession t ht rfl) hnext
      refine ⟨hw.1, ?_⟩
      rw [hw.2.1]
      exact hw.2.2

/-- What a section does: its thread's invariant holds where it stands then, and no other thread's view changes. -/
structure Kept (text : JsonText τ) (i : Nat) (s : State ω τ) (r : State ω τ × Pc ω τ) : Prop where
  own : Own i s r.1
  inv : ThreadInv text r.1.sessions.length (r.1.view i) r.2

theorem crashed_kept {s : State ω τ} {i : Nat} (h : (s.view i).replies = [] ∨ Settled text (s.view i)) :
    Kept text i s (s, .crashed) := ⟨Own.refl i s, h⟩

theorem parse_kept {s : State ω τ} {i : Nat} {now : TimePoint} {target : Target ω} {body : τ} {r : State ω τ × Pc ω τ}
    (h : ThreadInv text s.sessions.length (s.view i) (.parse target body))
    (ha : advance text i now s (.parse target body) = some r) : Kept text i s r := by
  obtain ⟨hfresh, hpost, hrange⟩ := h
  simp only [advance] at ha
  cases hp : parseFrame text body with
  | error e =>
    rw [hp] at ha
    cases ha
    exact crashed_kept (.inl hfresh.replies)
  | ok parsed =>
    rw [hp] at ha
    cases parsed with
    | error e =>
      have hnext : ∀ v : View τ, Settled text v → ThreadInv text s.sessions.length v (afterRefusal e target) := by
        intro v hv
        cases target with
        | transport index => exact ⟨hv, of_decide_eq_true hrange⟩
        | session index | unknown | fresh created => exact hv
      have hw := writeBadRequest_inv hfresh (fun t ht => Rejected.refused body e t hpost hp ht rfl) hnext
      cases ha
      refine ⟨hw.1, ?_⟩
      rw [hw.2.1]
      exact hw.2.2
    | ok frame =>
      have hr := routeFrame_inv hfresh ⟨body, hpost, hp⟩ hrange
      cases ha
      exact ⟨hr.1, hr.2⟩

theorem emitError_kept {s : State ω τ} {i index : Nat} {now : TimePoint} {e : Error} {r : State ω τ × Pc ω τ}
    (h : ThreadInv (ω := ω) text s.sessions.length (s.view i) (.emitError index e))
    (ha : advance text i now s (.emitError index e) = some r) : Kept text i s r := by
  obtain ⟨session, -, hr⟩ := Option.map_eq_some_iff.1 ha
  cases hs : sendAll text i index (session.onTransportError e) s with
  | error x =>
    rw [hs] at hr
    cases hr
    exact crashed_kept (.inr h.1)
  | ok s' =>
    rw [hs] at hr
    cases hr
    have hown := own_sendAll hs
    obtain ⟨hp, hrep, hd⟩ := sendAll_logs hs
    refine ⟨hown, settled_of_logs h.1 ?_ ?_ ?_ ?_⟩
    · simp only [State.view, hp]
    · simp only [State.view, hrep]
    · simp only [State.view, hd]
    · simp only [State.view, hown.posts]

theorem construct_kept {s : State ω τ} {i index : Nat} {frame : ParsedFrame}
    (h : ThreadInv (ω := ω) text s.sessions.length (s.view i) (.construct index frame)) :
    Kept text i s (s.construct i frame, .itemErrors index frame frame.itemErrors) := by
  obtain ⟨hfresh, hc, hindex⟩ := h
  refine ⟨own_construct s i frame, ?_⟩
  rw [view_construct]
  exact ⟨by rw [hfresh.delivered]; rfl, hfresh.replies, hfresh.produced, hc, hindex, [], rfl, rfl⟩

theorem itemErrors_kept {s : State ω τ} {i index : Nat} {now : TimePoint} {frame : ParsedFrame} {errors : List Error}
    {r : State ω τ × Pc ω τ}
    (h : ThreadInv (ω := ω) text s.sessions.length (s.view i) (.itemErrors index frame errors))
    (ha : advance text i now s (.itemErrors index frame errors) = some r) : Kept text i s r := by
  obtain ⟨hd, hr, hp, hc, hindex, added, herrors, hcaptured⟩ := h
  cases errors with
  | nil =>
    cases ha
    refine ⟨Own.refl i s, hindex, [], rfl, hd, hr, hc, ?_, ?_⟩
    · rw [hp]
      rfl
    · rw [hp, hcaptured, herrors, List.append_nil]
      simp
  | cons e errors =>
    have hcap := capture_eq_some (ω := ω) (τ := τ) hcaptured (responseToJson (nullIdError e))
    have hown := own_capture hcap
    cases ha
    rw [hcap]
    refine ⟨hown, hd, hr, hp, hc, hindex, added ++ [e], by rw [herrors, List.append_assoc]; rfl, ?_⟩
    simp [State.view, errorJsons]

/-- Serving does not depend on a message that is no request. -/
theorem Serving.handle_other {v : View τ} {frame : ParsedFrame} {handled : List Message} (h : Serving text v frame handled)
    {m : Message} (hm : requests [m] = []) : Serving text v frame (handled ++ [m]) :=
  ⟨h.delivered, h.replies, h.carries, by rw [requests_append, hm, List.append_nil]; exact h.ids, h.captured⟩

/-- **The response to the next request is captured behind the others.** -/
theorem Serving.handle_request {v : View τ} {frame : ParsedFrame} {handled : List Message}
    (h : Serving text v frame handled) {r : JsonRpcRequest} {response : JsonRpcResponse} (hid : response.id = some r.id) :
    Serving text
      { v with
        produced := v.produced ++ [response]
        captured := some (errorJsons frame.itemErrors ++ v.produced.map responseToJson ++ [responseToJson response]) }
      frame (handled ++ [.request r]) where
  delivered := h.delivered
  replies := h.replies
  carries := h.carries
  ids := by
    rw [requests_append, List.map_append, List.map_append, h.ids]
    simp [requests, hid]
  captured := by simp

theorem deliver_kept {s : State ω τ} {i index : Nat} {now : TimePoint} {frame : ParsedFrame} {messages : List Message}
    {r : State ω τ × Pc ω τ}
    (h : ThreadInv (ω := ω) text s.sessions.length (s.view i) (.deliver index frame messages))
    (ha : advance text i now s (.deliver index frame messages) = some r) : Kept text i s r := by
  obtain ⟨hindex, handled, hframe, hserving⟩ := h
  cases messages with
  | nil =>
    cases ha
    rw [List.append_nil] at hframe
    refine ⟨Own.refl i s, ?_⟩
    show Serving text (s.view i) frame frame.messages
    rw [hframe]
    exact hserving
  | cons m messages =>
    have hset : ∀ session world, index < (s.setSession index session world).sessions.length := fun session world =>
      Nat.lt_of_lt_of_le hindex (own_setSession s i index session world).sessions
    have hother : requests [m] = [] → ∀ out : Session.Handled ω,
        Kept text i s (s.setSession index out.session out.world, Pc.crashed) ∧
          Kept text i s (s.setSession index out.session out.world, .deliver index frame messages) := by
      intro hm out
      have hown := own_setSession s i index out.session out.world
      exact ⟨⟨hown, .inl hserving.replies⟩, ⟨hown, hset out.session out.world, handled ++ [m],
        by rw [hframe, List.append_assoc]; rfl, hserving.handle_other hm⟩⟩
    cases m with
    | notification n | response x =>
      obtain ⟨session, -, hr⟩ := Option.map_eq_some_iff.1 ha
      dsimp only at hr
      split at hr
      · subst hr
        exact (hother rfl _).1
      · subst hr
        exact (hother rfl _).2
    | request q =>
      obtain ⟨session, -, hr⟩ := Option.map_eq_some_iff.1 ha
      dsimp only at hr
      cases hg : session.checkIncomingRequest q with
      | some e =>
        rw [hg] at hr
        cases hr
        exact ⟨own_setSession s i index _ _, hset _ _, handled, q, hframe, rfl, hserving⟩
      | none =>
        rw [hg] at hr
        cases hr
        exact ⟨own_setSession s i index _ _, hset _ _, handled, hframe, hserving⟩

theorem dispatch_kept {s : State ω τ} {i index : Nat} {now : TimePoint} {frame : ParsedFrame} {q : JsonRpcRequest}
    {messages : List Message} {r : State ω τ × Pc ω τ}
    (h : ThreadInv (ω := ω) text s.sessions.length (s.view i) (.dispatch index frame q messages))
    (ha : advance text i now s (.dispatch index frame q messages) = some r) : Kept text i s r := by
  obtain ⟨hindex, handled, hframe, hserving⟩ := h
  obtain ⟨session, -, hr⟩ := Option.map_eq_some_iff.1 ha
  cases hr
  exact ⟨own_setSession s i index _ _, Nat.lt_of_lt_of_le hindex (own_setSession s i index _ _).sessions, handled, q, hframe,
    session.dispatchRequest_id s.world q, hserving⟩

/-- Making a response captures nothing. -/
theorem Serving.captured_produce {s : State ω τ} {i : Nat} {frame : ParsedFrame} {handled : List Message}
    (h : Serving text (s.view i) frame handled) (response : JsonRpcResponse) :
    ((s.produce i response).view i).captured =
      some (errorJsons frame.itemErrors ++ (s.view i).produced.map responseToJson) := by
  rw [view_produce]
  exact h.captured

theorem send_kept {s : State ω τ} {i index : Nat} {now : TimePoint} {frame : ParsedFrame} {response : JsonRpcResponse}
    {messages : List Message} {r : State ω τ × Pc ω τ}
    (h : ThreadInv (ω := ω) text s.sessions.length (s.view i) (.send index frame response messages))
    (ha : advance text i now s (.send index frame response messages) = some r) : Kept text i s r := by
  obtain ⟨hindex, handled, q, hframe, hid, hserving⟩ := h
  obtain ⟨s', hs, -, hview⟩ := send_response text (hserving.captured_produce response) index response
  simp only [advance] at ha
  rw [hs] at ha
  cases ha
  have hown := (own_produce s i response).trans (own_send hs)
  refine ⟨hown, Nat.lt_of_lt_of_le hindex hown.sessions, handled ++ [.request q], ?_, ?_⟩
  · rw [hframe, List.append_assoc]
    rfl
  · rw [hview, view_produce]
    exact hserving.handle_request hid

theorem finish_kept {s : State ω τ} {i : Nat} {now : TimePoint} {frame : ParsedFrame} {r : State ω τ × Pc ω τ}
    (h : ThreadInv (ω := ω) text s.sessions.length (s.view i) (.finish frame))
    (ha : advance text i now s (.finish frame) = some r) : Kept text i s r := by
  have hserving : Serving text (s.view i) frame frame.messages := h
  have hsettled : ∀ reply : Reply τ, (match errorJsons frame.itemErrors ++ (s.view i).produced.map responseToJson with
      | [] => reply = .accepted
      | first :: rest => ∃ t, reply = .answered t ∧ text.dump (captureBody frame.wasBatch first rest) = .ok t) →
      Kept text i s (s.reply i reply, .destruct) := by
    intro reply hreply
    refine ⟨own_reply s i reply, reply, ?_, .inl ⟨frame, ?_⟩⟩
    · rw [view_reply, hserving.replies]
      rfl
    · rw [view_reply]
      exact ⟨hserving.delivered, hserving.carries, hserving.ids, hreply⟩
  have hcaptured : s.captureTable.lookup i = _ := hserving.captured
  simp only [advance] at ha
  rw [hcaptured, Option.getD_some] at ha
  cases hc : errorJsons frame.itemErrors ++ (s.view i).produced.map responseToJson with
  | nil =>
    rw [hc] at ha hsettled
    cases ha
    exact hsettled _ rfl
  | cons first rest =>
    rw [hc] at ha hsettled
    cases ht : text.dump (captureBody frame.wasBatch first rest) with
    | ok t =>
      rw [Option.some.injEq] at ha
      simp only [ht] at ha
      subst ha
      exact hsettled _ ⟨t, rfl, ht⟩
    | error x =>
      rw [Option.some.injEq] at ha
      simp only [ht] at ha
      subst ha
      exact crashed_kept (.inl hserving.replies)

/-- **Each section keeps its thread's invariant.** -/
theorem advance_kept {s : State ω τ} {i : Nat} {now : TimePoint} {pc : Pc ω τ} {r : State ω τ × Pc ω τ}
    (h : ThreadInv text s.sessions.length (s.view i) pc) (ha : advance text i now s pc = some r) : Kept text i s r := by
  cases pc with
  | done | crashed => cases ha
  | parse target body => exact parse_kept h ha
  | emitError index e => exact emitError_kept h ha
  | construct index frame =>
    cases ha
    exact construct_kept h
  | itemErrors index frame errors => exact itemErrors_kept h ha
  | deliver index frame messages => exact deliver_kept h ha
  | dispatch index frame q messages => exact dispatch_kept h ha
  | send index frame response messages => exact send_kept h ha
  | finish frame => exact finish_kept h ha
  | destruct =>
    cases ha
    refine ⟨own_destruct s i, ?_⟩
    show Settled text ((s.destruct i).view i)
    rw [view_destruct]
    exact settled_of_logs h rfl rfl rfl rfl

/-! ## Runs -/

theorem view_eq_of_lt {s : State ω τ} {posts : List τ} {i : Nat} (h : i < s.posts.length) (hposts : s.posts <+: posts) :
    ({ s with posts } : State ω τ).view i = s.view i := by
  obtain ⟨more, rfl⟩ := hposts
  simp [State.view, List.getElem?_append_left h]

theorem served_post {p : Pool (State ω τ) (Pc ω τ)} (h : Served text p) {target : Target ω} (body : τ)
    (hrange : target.inRange p.shared.sessions.length = true) :
    Served text (p.spawn { p.shared with posts := p.shared.posts ++ [body] } (.parse target body)) where
  posts := by simp [Pool.spawn, h.posts]
  unborn := by
    intro i hi
    rw [Pool.spawn, List.length_append] at hi
    have hfresh := h.unborn i (by omega)
    exact ⟨hfresh.produced, hfresh.replies, hfresh.delivered⟩
  thread := by
    refine Pool.forall_getElem?_append h.thread (fun j pc hj hinv => ?_) ?_
    · show ThreadInv text _ (({ p.shared with posts := p.shared.posts ++ [body] } : State ω τ).view j) pc
      rw [view_eq_of_lt (h.posts ▸ hj) (List.prefix_append _ _)]
      exact hinv
    · have hfresh := h.unborn p.threads.length (Nat.le_refl _)
      refine ⟨⟨hfresh.produced, hfresh.replies, hfresh.delivered⟩, ?_, hrange⟩
      show (p.shared.posts ++ [body])[p.threads.length]? = some body
      rw [← h.posts]
      simp

/-- A change that leaves every view alone keeps the invariant. -/
theorem served_of_view {p : Pool (State ω τ) (Pc ω τ)} (h : Served text p) {s : State ω τ}
    (hview : ∀ i, s.view i = p.shared.view i) (hsessions : s.sessions.length = p.shared.sessions.length)
    (hposts : s.posts = p.shared.posts) : Served text { p with shared := s } where
  posts := hposts ▸ h.posts
  unborn := fun i hi => by
    rw [hview]
    exact h.unborn i hi
  thread := fun i pc hpc => by
    rw [hview, hsessions]
    exact h.thread i pc hpc

/-- **The invariant holds of the threads that did not move, whatever moved.** -/
theorem served_stepAt {p q : Pool (State ω τ) (Pc ω τ)} (h : Served text p) {i : Nat} {now : TimePoint}
    (hs : Pool.stepAt (advance text i now) p i = some q) : Served text q := by
  obtain ⟨pc, s', pc', hpc, ha, rfl⟩ := Pool.stepAt_eq_some.1 hs
  have hk := advance_kept (h.thread i pc hpc) ha
  have hi : i < p.threads.length := (List.getElem?_eq_some_iff.1 hpc).1
  constructor
  · rw [List.length_set]
    exact (congrArg List.length hk.own.posts).trans h.posts
  · intro j hj
    rw [List.length_set] at hj
    rw [hk.own.view j (Nat.ne_of_gt (Nat.lt_of_lt_of_le hi hj))]
    exact h.unborn j hj
  · refine Pool.forall_getElem?_set h.thread (fun j x hj hinv => ?_) hk.inv
    rw [hk.own.view j hj]
    exact hinv.mono hk.own.sessions

/-- **Each step keeps the invariant.** -/
theorem served_step {p q : Pool (State ω τ) (Pc ω τ)} {label : Label ω τ} (h : Served text p)
    (hs : step text p label = some q) : Served text q := by
  cases label with
  | post target body =>
    unfold step at hs
    dsimp only at hs
    split at hs
    · rename_i hrange
      cases hs
      exact served_post h body hrange
    · cases hs
  | sendOther index m =>
    unfold step at hs
    dsimp only at hs
    split at hs
    · cases hs
    · obtain ⟨t, -, rfl⟩ := Option.map_eq_some_iff.1 hs
      exact served_of_view h (fun _ => rfl) rfl rfl
  | other index session world =>
    cases hs
    exact served_of_view h (fun _ => rfl) (by simp [State.setSession]) rfl
  | step i now => exact served_stepAt h hs

theorem served_init (sessions : List (Session ω)) (world : ω) : Served text (init sessions world) where
  posts := rfl
  unborn := fun _ _ => ⟨rfl, rfl, rfl⟩
  thread := fun i pc hpc => by cases hpc

end Post
end Mcp
