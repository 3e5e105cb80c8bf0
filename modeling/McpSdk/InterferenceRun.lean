import McpSdk.Interference
import McpSdk.JsonDump
/-!
# InterferenceRun — two runs that differ in the other sessions' sharing requests

The observer `a` is not shown the other sessions' `resources/subscribe`, `resources/unsubscribe` and `logging/setLevel`
requests, nor when the others send.  `Alike` is what two runs with equal shown labels keep, for any choice of the messages
of `a` that are compared (`visible`).
-/
namespace Mcp
namespace Attached

open Server (Agree sharing)

variable {ι α : Type}

/-! ## What two runs have in common -/

/-- The verdict on a call, at the server it is made of. -/
def verdictAt (s : State ι α) : Label ι α → Option Bool
  | .call c => verdict s.server c
  | _ => none

/-- **What two runs keep in common**: everything but what is shared and what the others send, and of the observer's
messages the visible ones. -/
structure Alike (a : ι) (visible : Message → Bool) (s t : State ι α) : Prop where
  server : Agree s.server t.server
  sessions : s.sessions = t.sessions
  calls : s.calls.map (Option.filter visible) = t.calls.map (Option.filter visible)
  session : ∀ i, (s.peer i).session = (t.peer i).session
  nextRequestId : ∀ i, (s.peer i).nextRequestId = (t.peer i).nextRequestId
  inHand : (s.peer a).inHand = (t.peer a).inHand
  sent : (s.peer a).sent.filter visible = (t.peer a).sent.filter visible
  wired : ∀ i, Wired (s.peer i).session.router

theorem Alike.symm {a : ι} {visible : Message → Bool} {s t : State ι α} (h : Alike a visible s t) :
    Alike a visible t s where
  server := h.server.symm
  sessions := h.sessions.symm
  calls := h.calls.symm
  session := fun i => (h.session i).symm
  nextRequestId := fun i => (h.nextRequestId i).symm
  inHand := h.inHand.symm
  sent := h.sent.symm
  wired := fun i => h.session i ▸ h.wired i

theorem Alike.refl (a : ι) (visible : Message → Bool) {s : State ι α} (h : ∀ i, Wired (s.peer i).session.router) :
    Alike a visible s s :=
  ⟨Agree.refl _, rfl, rfl, fun _ => rfl, fun _ => rfl, rfl, rfl, h⟩

theorem Alike.withServer {a : ι} {visible : Message → Bool} {s t : State ι α} (h : Alike a visible s t)
    {w w' : Server α} (hw : Agree w w') : Alike a visible { s with server := w } { t with server := w' } :=
  ⟨hw, h.sessions, h.calls, h.session, h.nextRequestId, h.inHand, h.sent, h.wired⟩

/-- **The first section of an API call**, when what it announces looks the same. -/
theorem Alike.call {a : ι} {visible : Message → Bool} {s t : State ι α} (h : Alike a visible s t) (c : ApiCall α)
    (hnote : (applyCall s.server c).2.filter visible = (applyCall t.server c).2.filter visible) :
    Alike a visible { s with server := (applyCall s.server c).1, calls := s.calls ++ [(applyCall s.server c).2] }
      { t with server := (applyCall t.server c).1, calls := t.calls ++ [(applyCall t.server c).2] } := by
  refine ⟨(applyCall_agree h.server c).1, h.sessions, ?_, h.session, h.nextRequestId, h.inHand, h.sent, h.wired⟩
  simp only [List.map_append, List.map_cons, List.map_nil, h.calls, hnote]

/-! ## Steps -/

variable [DecidableEq ι] {a : ι} {visible : Message → Bool} {s t : State ι α}

/-- **Replacing one session's peer on both sides**; what it sends only counts for the observer. -/
theorem Alike.setPeer (h : Alike a visible s t) (i : ι) {p q : Peer α} (hsession : p.session = q.session)
    (hnext : p.nextRequestId = q.nextRequestId) (hinHand : i = a → p.inHand = q.inHand)
    (hsent : i = a → p.sent.filter visible = q.sent.filter visible) (hwired : Wired p.session.router) :
    Alike a visible (s.setPeer i p) (t.setPeer i q) where
  server := h.server
  sessions := h.sessions
  calls := h.calls
  session := by
    intro j
    by_cases hj : j = i
    · simp [hj, hsession]
    · simp [hj, h.session j]
  nextRequestId := by
    intro j
    by_cases hj : j = i
    · simp [hj, hnext]
    · simp [hj, h.nextRequestId j]
  inHand := by
    by_cases ha : a = i
    · simp [ha, hinHand ha.symm]
    · simp [ha, h.inHand]
  sent := by
    by_cases ha : a = i
    · simp [ha, hsent ha.symm]
    · simp [ha, h.sent]
  wired := by
    intro j
    by_cases hj : j = i
    · simpa [hj] using hwired
    · simpa [hj] using h.wired j

/-- Replacing another session's replies and messages on one side. -/
theorem Alike.setOther (h : Alike a visible s t) {i : ι} (hi : i ≠ a) {p : Peer α}
    (hsession : p.session = (s.peer i).session) (hnext : p.nextRequestId = (s.peer i).nextRequestId) :
    Alike a visible (s.setPeer i p) t := by
  have hself : t.setPeer i (t.peer i) = t := by
    unfold State.setPeer
    rw [Function.update_eq_self]
  rw [← hself]
  refine h.setPeer i (hsession.trans (h.session i)) (hnext.trans (h.nextRequestId i)) (fun he => absurd he hi)
    (fun he => absurd he hi) ?_
  rw [hsession]
  exact h.wired i

/-- **A broadcast reaches the same sessions**, so notes that look the same leave the observer the same messages. -/
theorem Alike.broadcast (h : Alike a visible s t) {note note' : Option Message}
    (hnote : note.filter visible = note'.filter visible) : Alike a visible (s.broadcast note) (t.broadcast note') where
  server := h.server
  sessions := h.sessions
  calls := h.calls
  session := by simpa using h.session
  nextRequestId := by simpa using h.nextRequestId
  inHand := by simpa using h.inHand
  wired := by simpa using h.wired
  sent := by
    have hlist : note.toList.filter visible = note'.toList.filter visible := by
      rw [← Option.toList_filter, ← Option.toList_filter, hnote]
    rw [broadcast_sent, broadcast_sent, h.sessions, h.session a, List.filter_append, List.filter_append, h.sent]
    by_cases hto : a ∈ t.sessions ∧ (t.peer a).session.state = .operating
    · rw [if_pos hto, if_pos hto, hlist]
    · rw [if_neg hto, if_neg hto]

theorem applySessionCall_same {ω : Type} (session : Session ω) (next : Int64) (c : SessionCall) :
    Session.SameTables session (applySessionCall session next c).1 := by
  cases c with
  | sendRequest now method params options callback =>
    simp only [applySessionCall]
    split <;> exact ⟨rfl, rfl, rfl, rfl, rfl⟩
  | _ => exact ⟨rfl, rfl, rfl, rfl, rfl⟩

/-- **A session's own call** does not depend on the server. -/
theorem Alike.sessionCall (h : Alike a visible s t) (i : ι) (c : SessionCall) :
    Alike a visible (s.sessionCall i c) (t.sessionCall i c) := by
  have hcall : applySessionCall (s.peer i).session (s.peer i).nextRequestId c =
      applySessionCall (t.peer i).session (t.peer i).nextRequestId c := by
    rw [h.session i, h.nextRequestId i]
  refine h.setPeer i ?_ ?_ ?_ ?_ ?_
  · exact congrArg Prod.fst hcall
  · exact congrArg (fun out => out.2.1) hcall
  · rintro rfl
    exact h.inHand
  · rintro rfl
    simp only [hcall, List.filter_append, h.sent]
  · exact (h.wired i).of_sameTables (applySessionCall_same _ _ c)

/-- **A message both sides handle.** -/
theorem Alike.receive (h : Alike a visible s t) {i : ι} {now : TimePoint} {m : Message} {u v : State ι α}
    (hu : s.receive i now m = some u) (hv : t.receive i now m = some v) : Alike a visible u v := by
  have hout := Session.handleMessage_agree (h.wired i) now h.server m
  have hsession := h.session i
  have hwired := (h.wired i).of_sameTables (Session.handleMessage_same now (s.peer i).session s.server m)
  unfold State.receive at hu hv
  rw [← hsession] at hv
  simp only [← hout.escaped] at hv
  cases he : ((s.peer i).session.handleMessage now s.server m).escaped with
  | some e =>
    simp only [he] at hu
    cases hu
  | none =>
    simp only [he, Option.some.injEq] at hu hv
    subst hu hv
    refine (h.withServer hout.world).setPeer i hout.session (h.nextRequestId i) ?_ ?_ hwired
    · rintro rfl
      simp only [h.inHand, hout.effects]
    · rintro rfl
      exact h.sent

/-- **A reply the observer sends.** -/
theorem Alike.transmit (h : Alike a visible s t) {k : Nat} {u v : State ι α} (hu : s.transmit a k = some u)
    (hv : t.transmit a k = some v) : Alike a visible u v := by
  unfold State.transmit at hu hv
  obtain ⟨m, hm, rfl⟩ := Option.map_eq_some_iff.1 hu
  obtain ⟨m', hm', rfl⟩ := Option.map_eq_some_iff.1 hv
  rw [h.inHand, hm', Option.some.injEq] at hm
  subst hm
  refine h.setPeer a (h.session a) (h.nextRequestId a) (fun _ => ?_) (fun _ => ?_) (h.wired a)
  · simp only [h.inHand]
  · simp only [List.filter_append, h.sent]

/-- **The second section of an API call.** -/
theorem Alike.finish (h : Alike a visible s t) {k : Nat} {note note' : Option Message} (hs : s.calls[k]? = some note)
    (ht : t.calls[k]? = some note') :
    Alike a visible ({ s with calls := s.calls.set k none }.broadcast note)
      ({ t with calls := t.calls.set k none }.broadcast note') := by
  have hnote : note.filter visible = note'.filter visible := by
    have hk := congrArg (fun calls => calls[k]?) h.calls
    simpa [hs, ht] using hk
  have hcalls : (s.calls.set k none).map (Option.filter visible) = (t.calls.set k none).map (Option.filter visible) := by
    rw [List.map_set, List.map_set, h.calls]
  have hset : Alike a visible { s with calls := s.calls.set k none } { t with calls := t.calls.set k none } :=
    ⟨h.server, h.sessions, hcalls, h.session, h.nextRequestId, h.inHand, h.sent, h.wired⟩
  exact hset.broadcast hnote

theorem Alike.attach (text : JsonText Bytes) (h : Alike a visible s t) (i : ι) :
    Alike a visible (s.attach text i) (t.attach text i) := by
  have hs : Alike a visible { s with sessions := if i ∈ s.sessions then s.sessions else s.sessions ++ [i] }
      { t with sessions := if i ∈ t.sessions then t.sessions else t.sessions ++ [i] } :=
    ⟨h.server, by rw [h.sessions], h.calls, h.session, h.nextRequestId, h.inHand, h.sent, h.wired⟩
  refine hs.setPeer i ?_ (h.nextRequestId i) ?_ ?_ ((h.wired i).attachRouter text)
  · rw [h.session i]
  · rintro rfl
    exact h.inHand
  · rintro rfl
    exact h.sent

theorem Alike.detach (h : Alike a visible s t) (i : ι) : Alike a visible (s.detach i) (t.detach i) :=
  ⟨h.server, by simp only [State.detach, h.sessions], h.calls, h.session, h.nextRequestId, h.inHand, h.sent, h.wired⟩

/-- **Step consistency**: a shown label keeps two states alike when what it announces looks the same. -/
theorem step_alike (text : JsonText Bytes) (h : Alike a visible s t) {i : Label ι α} (hi : shown a i = true)
    (hnote : ∀ c, i = .call c →
      (applyCall s.server c).2.filter visible = (applyCall t.server c).2.filter visible)
    {u v : State ι α} (hu : step text s i = some u) (hv : step text t i = some v) : Alike a visible u v := by
  cases i with
  | receive i now m => exact h.receive hu hv
  | transmit i k =>
    obtain rfl : i = a := by simpa [shown] using hi
    exact h.transmit hu hv
  | call c =>
    cases hu
    cases hv
    exact h.call c (hnote c rfl)
  | finish k =>
    obtain ⟨note, hs, rfl⟩ := Option.map_eq_some_iff.1 hu
    obtain ⟨note', ht, rfl⟩ := Option.map_eq_some_iff.1 hv
    exact h.finish hs ht
  | session i c =>
    cases hu
    cases hv
    exact h.sessionCall i c
  | attach i =>
    cases hu
    cases hv
    exact h.attach text i
  | detach i =>
    cases hu
    cases hv
    exact h.detach i

/-- **Local respect**: a label that is not shown changes nothing the observer depends on. -/
theorem step_hidden (text : JsonText Bytes) (h : Alike a visible s t) {i : Label ι α} (hi : shown a i = false)
    {u : State ι α} (hu : step text s i = some u) : Alike a visible u t := by
  cases i with
  | receive i now m =>
    cases m with
    | request r =>
      have hhidden : i ≠ a ∧ r.method ∈ sharing := by simpa [shown] using hi
      obtain ⟨hsession, hworld⟩ := Session.handleMessage_sharing (h.wired i) now s.server hhidden.2
      simp only [step, State.receive] at hu
      split at hu
      · cases hu
      · cases hu
        exact (h.withServer (hworld.symm.trans h.server)).setOther hhidden.1 hsession rfl
    | notification n => cases hi
    | response r => cases hi
  | transmit i k =>
    have hne : i ≠ a := by simpa [shown] using hi
    obtain ⟨m, -, rfl⟩ := Option.map_eq_some_iff.1 hu
    exact h.setOther hne rfl rfl
  | call c => cases hi
  | finish k => cases hi
  | session i c => cases hi
  | attach i => cases hi
  | detach i => cases hi

/-! ## Whole runs -/

/-- **Every session of every reachable state is wired.** -/
theorem wired_run (text : JsonText Bytes) (server : Server α) (options : ι → ServerOptions) {pre : List (Label ι α)}
    {s : State ι α} (hs : Lts.run (step text) (start server options) pre = some s) (i : ι) :
    Wired (s.peer i).session.router := by
  refine Lts.run_invariant (I := fun s => ∀ i, Wired (s.peer i).session.router) (fun s c u h hu => ?_)
    (fun i => wired_mkServer (options i)) hs i
  have hself : Alike i (fun _ => true) s s := .refl i _ h
  cases hc : shown i c with
  | true => exact (step_alike text hself hc (fun _ _ => rfl) hu hu).wired
  | false => exact (step_hidden text hself hc hu).wired

/-- Hidden labels on either side, with any observation of the shown ones under which the announcements look the same. -/
theorem unwinding (text : JsonText Bytes) (a : ι) {visible : Message → Bool} {κ : Type}
    {obs : State ι α → Label ι α → κ}
    (hnote : ∀ (s t : State ι α) c, Agree s.server t.server → obs s (.call c) = obs t (.call c) →
      (applyCall s.server c).2.filter visible = (applyCall t.server c).2.filter visible) :
    Lts.Unwinding (step text) (shown a) obs (Alike a visible) where
  left := fun h hi hu => step_hidden text h hi hu
  right := fun h hi hv => (step_hidden text h.symm hi hv).symm
  both := by
    intro s t u v i h hi hobs hu hv
    refine step_alike text h hi ?_ hu hv
    rintro c rfl
    exact hnote s t c h.server hobs

/-- **Other sessions reach the observer only through what the server shares.**  Take two runs from one reachable state with
equal labels but for the sharing requests of the other sessions.  The observer is sent the same messages other than
`notifications/resources/updated` and `notifications/message`; and the same messages altogether when each
`notify_resource_updated` finds its URI subscribed in both runs or in neither, and each log event is at or above the
threshold in both or in neither. -/
theorem observer_sent (text : JsonText Bytes) (server : Server α) (options : ι → ServerOptions) (a : ι)
    {pre l m : List (Label ι α)} {s t u : State ι α} (hs : Lts.run (step text) (start server options) pre = some s)
    (hshown : l.filter (shown a) = m.filter (shown a)) (hl : Lts.run (step text) s l = some t)
    (hm : Lts.run (step text) s m = some u) :
    (t.peer a).sent.filter unshared = (u.peer a).sent.filter unshared ∧
      (Lts.trace (step text) (shown a) verdictAt s l = Lts.trace (step text) (shown a) verdictAt s m →
        (t.peer a).sent = (u.peer a).sent) := by
  have hwired := wired_run text server options hs
  constructor
  · have hunwinding : Lts.Unwinding (step text) (shown a) (fun _ _ => ()) (Alike (α := α) a unshared) :=
      unwinding text a fun s t c hw _ => (applyCall_agree hw c).2.unshared
    exact (hunwinding.run_blind (.refl a _ hwired) hshown hl hm).sent
  · intro htrace
    have hunwinding : Lts.Unwinding (step text) (shown a) verdictAt (Alike (α := α) a (fun _ => true)) :=
      unwinding text a fun s t c hw hv => by rw [(applyCall_agree hw c).2.all hv]
    have halike := hunwinding.run l m (.refl a _ hwired) hshown htrace hl hm
    simpa using halike.sent

/-! ## The sharing shows -/

/-- **The other sessions' sharing requests do not reach the observer**, from a state on. -/
def Insulated (text : JsonText Bytes) (a : ι) (s : State ι α) : Prop :=
  ∀ l m t u, l.filter (shown a) = m.filter (shown a) → Lts.run (step text) s l = some t →
    Lts.run (step text) s m = some u → (t.peer a).sent = (u.peer a).sent

def plainText : JsonText Bytes := tableText (fun _ => bytes "0.0") []

def doc : Bytes := bytes "mem://doc"

def docServer : Server Unit where
  info := { name := bytes "s", version := bytes "1" }
  resources := { resources := [({ uri := doc, name := bytes "doc" }, none)] }
  app := ()

/-- Two sessions of that server: the observer is `false`. -/
def docStart : State Bool Unit := start docServer (fun _ => docServer.serverOptions)

def initializeRequest : Message :=
  .request
    { id := .int 1, method := methods.kInitialize
      params := some (.object [(bytes "capabilities", .object []),
        (bytes "clientInfo", .object [(bytes "name", .string (bytes "c")), (bytes "version", .string (bytes "1"))]),
        (bytes "protocolVersion", .string kProtocolVersion)]) }

def ask (method key value : Bytes) : Message :=
  .request { id := .int 2, method, params := some (.object [(key, .string value)]) }

/-- Both sessions are attached and go through the handshake. -/
def opening : List (Label Bool Unit) :=
  [.attach false, .attach true] ++ [false, true].flatMap fun i =>
    [.receive i 0 initializeRequest, .receive i 0 (.notification { method := methods.kNotificationInitialized })]

def update : List (Label Bool Unit) := [.call (.notifyResourceUpdated doc), .finish 0]

def logInfo : List (Label Bool Unit) := [.call (.log .info .null none), .finish 0]

def subscribing : List (Label Bool Unit) :=
  [.receive false 0 (ask methods.kResourcesSubscribe (bytes "uri") doc)]

def otherUnsubscribes : Label Bool Unit := .receive true 0 (ask methods.kResourcesUnsubscribe (bytes "uri") doc)

def otherSubscribes : Label Bool Unit := .receive true 0 (ask methods.kResourcesSubscribe (bytes "uri") doc)

def otherSetsLevel : Label Bool Unit := .receive true 0 (ask methods.kLoggingSetLevel (bytes "level") (bytes "error"))

def State.bothOperate (s : State Bool Unit) : Bool :=
  [false, true].all fun i => s.sessions.contains i && decide ((s.peer i).session.state = .operating)

/-- How many messages the observer was sent. -/
def State.count (s : State Bool Unit) : Nat := (s.peer false).sent.length

/-- **Two runs with equal shown labels**, from a state where both sessions operate, send the observer `x` and `y`
messages. -/
def Sends (pre l m : List (Label Bool Unit)) (x y : Nat) : Prop :=
  ∃ s t u, Lts.run (step plainText) docStart pre = some s ∧ s.bothOperate = true ∧
    l.filter (shown false) = m.filter (shown false) ∧ Lts.run (step plainText) s l = some t ∧ t.count = x ∧
    Lts.run (step plainText) s m = some u ∧ u.count = y

/-- A hidden label in front of the second run.  The three runs are one evaluation, so that `pre` is played once. -/
theorem sends_of_run {pre l : List (Label Bool Unit)} {i : Label Bool Unit} {x y : Nat} (hi : shown false i = false)
    (h : (Lts.run (step plainText) docStart pre).map (fun s => (s.bothOperate,
      (Lts.run (step plainText) s l).map State.count, (Lts.run (step plainText) s (i :: l)).map State.count)) =
        some (true, some x, some y)) : Sends pre l (i :: l) x y := by
  obtain ⟨s, hs, h⟩ := Option.map_eq_some_iff.1 h
  simp only [Prod.mk.injEq] at h
  obtain ⟨hop, hl, hm⟩ := h
  obtain ⟨t, ht, hx⟩ := Option.map_eq_some_iff.1 hl
  obtain ⟨u, hu, hy⟩ := Option.map_eq_some_iff.1 hm
  have hshown : l.filter (shown false) = (i :: l).filter (shown false) := by simp [hi]
  exact ⟨s, t, u, hs, hop, hshown, ht, hx, hu, hy⟩

theorem Sends.not_insulated {pre l m : List (Label Bool Unit)} {x y : Nat} (h : Sends pre l m x y) (hne : x ≠ y) :
    ∃ s, Lts.Reaches (step plainText) docStart s ∧ s.bothOperate = true ∧ ¬ Insulated plainText false s := by
  obtain ⟨s, t, u, hs, hop, hshown, ht, rfl, hu, rfl⟩ := h
  refine ⟨s, ⟨pre, hs⟩, hop, fun hins => hne ?_⟩
  unfold State.count
  rw [hins l m t u hshown ht hu]

/-- The other session's threshold does not touch the observer's subscription. -/
theorem sends_levelThenUpdate : Sends (opening ++ subscribing) update (otherSetsLevel :: update) 1 1 :=
  sends_of_run (by decide +kernel) (by decide +kernel)

/-- **Another session's `resources/unsubscribe` silences the observer's subscription**, its `resources/subscribe` adds
updates the observer never asked for, and its `logging/setLevel` silences log events. -/
theorem sharing_interferes :
    Sends (opening ++ subscribing) update (otherUnsubscribes :: update) 1 0 ∧
      Sends opening update (otherSubscribes :: update) 0 1 ∧ Sends opening logInfo (otherSetsLevel :: logInfo) 1 0 ∧
      ¬ ∀ s : State Bool Unit, Lts.Reaches (step plainText) docStart s → s.bothOperate = true →
        Insulated plainText false s := by
  have hsilenced : Sends (opening ++ subscribing) update (otherUnsubscribes :: update) 1 0 :=
    sends_of_run (by decide +kernel) (by decide +kernel)
  have hadded : Sends opening update (otherSubscribes :: update) 0 1 :=
    sends_of_run (by decide +kernel) (by decide +kernel)
  have hmuted : Sends opening logInfo (otherSetsLevel :: logInfo) 1 0 :=
    sends_of_run (by decide +kernel) (by decide +kernel)
  refine ⟨hsilenced, hadded, hmuted, fun hall => ?_⟩
  obtain ⟨s, hreach, hop, hnot⟩ := hsilenced.not_insulated (by decide)
  exact hnot (hall s hreach hop)

/-- Two runs with the same verdicts: the other session sets the threshold, and the observer's update still comes. -/
theorem observer_sent_update :
    ∃ s t u, Lts.run (step plainText) docStart (opening ++ subscribing) = some s ∧
      Lts.run (step plainText) s update = some t ∧ Lts.run (step plainText) s (otherSetsLevel :: update) = some u ∧
      t.count = 1 ∧ (t.peer false).sent.filter unshared = (u.peer false).sent.filter unshared ∧
      (t.peer false).sent = (u.peer false).sent := by
  obtain ⟨s, t, u, hs, -, hshown, ht, hx, hu, -⟩ := sends_levelThenUpdate
  have htrace : Lts.trace (step plainText) (shown false) verdictAt s update =
      Lts.trace (step plainText) (shown false) verdictAt s (otherSetsLevel :: update) := by
    have h : (Lts.run (step plainText) docStart (opening ++ subscribing)).all (fun s =>
        decide (Lts.trace (step plainText) (shown false) verdictAt s update =
          Lts.trace (step plainText) (shown false) verdictAt s (otherSetsLevel :: update))) = true := by decide +kernel
    rw [hs, Option.all_some] at h
    exact of_decide_eq_true h
  obtain ⟨hother, hall⟩ := observer_sent plainText docServer _ false hs hshown ht hu
  exact ⟨s, t, u, hs, ht, hu, hx, hother, hall htrace⟩

end Attached
end Mcp
