import McpSdk.Agreement
/-!
# AgreementOrder — calls of `initialize()` one after the other

With one call on its way at a time, the channels keep the order of the calls: the request of the pending one is the last
`initialize` in front of the server, behind those of the calls that timed out.  So when its response is back, the server
has no `initialize` left to handle, and none comes while the client operates (`Ordered`).
-/
namespace Mcp
namespace Joined

open Requests (idOf)
open Lifecycle (Pc)

variable {c : ClientOptions} {o : ServerOptions} {p q : Pool State Call} {l : Label}

/-! ## What the server has still to answer -/

def initializeId : Message → Option RequestId
  | .request r => if r.method = methods.kInitialize then some r.id else none
  | _ => none

/-- The `initialize` requests the server has not answered, in order. -/
def outstanding (s : State) : List RequestId := (s.handling.bind Handling.id).toList ++ s.toServer.filterMap initializeId

def Unanswered (s : State) (id : RequestId) : Prop := ∀ r, .response r ∈ s.toClient → r.id ≠ some id

def isEarly : Pc → Bool
  | .initCheck _ | .initStore .. => true
  | _ => false

def isWaiting : Pc → Bool
  | .initWait .. => true
  | _ => false

/-- How far the request of a waiting call is. -/
structure Turn (s : State) (call : Call) (id : RequestId) : Prop where
  waits : isWaiting call.pc = true
  slot : call.slot = none
  place : call.sending = .drawn id ∧ Unanswered s id ∧ id ∉ outstanding s ∨
    call.sending = .sent ∧ (outstanding s = [] ∨ Unanswered s id ∧ ∃ before, id ∉ before ∧ outstanding s = before ++ [id])

def Settled (call : Call) : Prop :=
  match call.pc with
  | .initPeer .. | .initNotify .. | .initOperate .. => True
  | .initWait .. => ∃ j, call.slot = some (.ok j)
  | _ => False

/-- **The order of the calls.** -/
structure Ordered (p : Pool State Call) : Prop where
  one : ∀ (i j : Nat) (x y : Call), p.threads[i]? = some x → p.threads[j]? = some y → isActive x.pc = true →
    isActive y.pc = true → i = j
  early : ∀ call ∈ p.threads, isEarly call.pc = true → call.sending = .undrawn
  undrawn : ∀ call ∈ p.threads, call.sending = .undrawn → call.slot = none
  unsent : ∀ call ∈ p.threads, ∀ id, call.sending = .drawn id → ∀ j, call.slot ≠ some (.ok j)
  single : ∀ id ∈ p.shared.pending, ∀ id' ∈ p.shared.pending, id = id'
  turn : ∀ id i, p.shared.pending.lookup id = some i → ∃ call, p.threads[i]? = some call ∧ Turn p.shared call id
  settled : ∀ call ∈ p.threads, Settled call → outstanding p.shared = []
  operating : p.shared.client.state = .operating →
    outstanding p.shared = [] ∧ ∀ call ∈ p.threads, isActive call.pc = false

theorem isActive_of_isWaiting {pc : Pc} (h : isWaiting pc = true) : isActive pc = true := by
  cases pc <;> first | rfl | cases h

theorem isEarly_of_isWaiting {pc : Pc} (h : isWaiting pc = true) : isEarly pc = false := by
  cases pc <;> first | rfl | cases h

theorem Settled.active {call : Call} (h : Settled call) : isActive call.pc = true := by
  unfold Settled at h
  cases hpc : call.pc with
  | initPeer => rfl
  | initNotify => rfl
  | initOperate => rfl
  | initWait => rfl
  | _ =>
    rw [hpc] at h
    exact h.elim

theorem mem_pending {s : State} {id : RequestId} {i : Nat} (h : s.pending.lookup id = some i) : id ∈ s.pending :=
  AList.lookup_isSome.1 (by rw [h]; rfl)

theorem outstanding_append {s : State} {m : Message} (h : initializeId m = none) :
    outstanding { s with toServer := s.toServer ++ [m] } = outstanding s := by
  unfold outstanding
  rw [List.filterMap_append, List.filterMap_cons_none h, List.filterMap_nil, List.append_nil]

theorem outstanding_tail {s : State} {m : Message} {rest : List Message} (head : s.toServer = m :: rest)
    (h : initializeId m = none) : outstanding { s with toServer := rest } = outstanding s := by
  unfold outstanding
  rw [head, List.filterMap_cons_none h]

theorem Turn.mono {s s' : State} {call : Call} {id : RequestId} (h : Turn s call id)
    (hout : outstanding s' = outstanding s) (hun : Unanswered s id → Unanswered s' id) : Turn s' call id := by
  refine ⟨h.waits, h.slot, ?_⟩
  rw [hout]
  rcases h.place with ⟨hsending, hid, hmem⟩ | ⟨hsending, hdone | ⟨hid, hlast⟩⟩
  · exact .inl ⟨hsending, hun hid, hmem⟩
  · exact .inr ⟨hsending, .inl hdone⟩
  · exact .inr ⟨hsending, .inr ⟨hun hid, hlast⟩⟩

/-- While a call is on its way the client does not operate. -/
theorem Ordered.not_operating (hp : Ordered p) {call : Call} (hcall : call ∈ p.threads) (hactive : isActive call.pc = true) :
    p.shared.client.state ≠ .operating := by
  intro hs
  have hidle := (hp.operating hs).2 call hcall
  rw [hactive] at hidle
  cases hidle

/-- A pending request is that of the call on its way. -/
theorem Ordered.turn_of_active (hp : Ordered p) {i j : Nat} {call : Call} {id : RequestId}
    (hcall : p.threads[i]? = some call) (hactive : isActive call.pc = true) (hj : p.shared.pending.lookup id = some j) :
    j = i ∧ Turn p.shared call id := by
  obtain ⟨other, hother, hturn⟩ := hp.turn id j hj
  obtain rfl := hp.one i j call other hcall hother hactive (isActive_of_isWaiting hturn.waits)
  obtain rfl : call = other := Option.some.inj (hcall.symm.trans hother)
  exact ⟨rfl, hturn⟩

/-! ## Steps of the channels -/

/-- When no call moves and no `initialize` enters or leaves. -/
theorem Ordered.wire (hp : Ordered p) {s' : State}
    (hpending : ∀ id i, s'.pending.lookup id = some i → p.shared.pending.lookup id = some i)
    (hout : outstanding s' = outstanding p.shared)
    (hun : ∀ id ∈ p.shared.pending, Unanswered p.shared id → Unanswered s' id)
    (hstate : s'.client.state = .operating → p.shared.client.state = .operating) : Ordered { p with shared := s' } := by
  have hmem : ∀ id ∈ s'.pending, id ∈ p.shared.pending := by
    intro id hid
    obtain ⟨i, hi⟩ := Option.isSome_iff_exists.1 (AList.lookup_isSome.2 hid)
    exact mem_pending (hpending id i hi)
  exact { hp with
    single := fun id hid id' hid' => hp.single id (hmem id hid) id' (hmem id' hid')
    turn := fun id i hi => by
      obtain ⟨call, hcall, hturn⟩ := hp.turn id i (hpending id i hi)
      exact ⟨call, hcall, hturn.mono hout (hun id (mem_pending (hpending id i hi)))⟩
    settled := fun call hcall hsettled => hout.trans (hp.settled call hcall hsettled)
    operating := fun hs => ⟨hout.trans (hp.operating (hstate hs)).1, (hp.operating (hstate hs)).2⟩ }

/-- **The server answers the first of the outstanding requests.** -/
theorem Ordered.answer (hp : Ordered p) {s' : State} {id : RequestId} {response : Message}
    (hpending : s'.pending = p.shared.pending) (hclient : s'.client = p.shared.client)
    (hout : outstanding p.shared = id :: outstanding s') (htoClient : s'.toClient = p.shared.toClient ++ [response])
    (hresponse : ∀ r, response = .response r → r.id = some id) : Ordered { p with shared := s' } := by
  have hun : ∀ x, x ≠ id → Unanswered p.shared x → Unanswered s' x := by
    intro x hne hx r hr hid
    rw [htoClient] at hr
    rcases List.mem_append.1 hr with hr | hr
    · exact hx r hr hid
    · rw [hresponse r (List.mem_singleton.1 hr).symm] at hid
      exact hne (Option.some.inj hid).symm
  exact { hp with
    single := by
      show ∀ id ∈ s'.pending, ∀ id' ∈ s'.pending, id = id'
      rw [hpending]
      exact hp.single
    turn := fun x i hi => by
      obtain ⟨call, hcall, hturn⟩ := hp.turn x i (by rw [← hpending]; exact hi)
      refine ⟨call, hcall, hturn.waits, hturn.slot, ?_⟩
      have hplace := hturn.place
      rw [hout] at hplace
      rcases hplace with ⟨hsending, hx, hmem⟩ | ⟨hsending, hdone | ⟨hx, before, hbefore, hlast⟩⟩
      · rw [List.mem_cons, not_or] at hmem
        exact .inl ⟨hsending, hun x hmem.1 hx, hmem.2⟩
      · cases hdone
      · -- it is this one's own turn, or there is another in front of it
        cases before with
        | nil =>
          rw [List.nil_append, List.cons.injEq] at hlast
          exact .inr ⟨hsending, .inl hlast.2⟩
        | cons first before =>
          rw [List.cons_append, List.cons.injEq] at hlast
          rw [List.mem_cons, not_or] at hbefore
          refine .inr ⟨hsending, .inr ⟨hun x ?_ hx, before, hbefore.2, hlast.2⟩⟩
          rw [hlast.1]
          exact hbefore.1
    settled := fun call hcall hsettled => by
      have hnil := hp.settled call hcall hsettled
      rw [hout] at hnil
      cases hnil
    operating := fun hs => by
      have hs' : p.shared.client.state = .operating := by rw [← hclient]; exact hs
      have hnil := (hp.operating hs').1
      rw [hout] at hnil
      cases hnil }

/-! ## Steps of the calls -/

/-- A call that was on its way, or is not, leaves at most one on its way. -/
theorem Ordered.one_set (hp : Ordered p) {i : Nat} {call call' : Call} (hcall : p.threads[i]? = some call)
    (hactive : isActive call'.pc = true → isActive call.pc = true) (a b : Nat) (x y : Call)
    (hx : (p.threads.set i call')[a]? = some x) (hy : (p.threads.set i call')[b]? = some y) (hxa : isActive x.pc = true)
    (hya : isActive y.pc = true) : a = b := by
  have was : ∀ {j : Nat} {x : Call}, (p.threads.set i call')[j]? = some x → isActive x.pc = true →
      ∃ y, p.threads[j]? = some y ∧ isActive y.pc = true := by
    intro j x hx hxa
    rcases Pool.getElem?_set_cases hx with ⟨rfl, rfl⟩ | ⟨-, hx⟩
    · exact ⟨call, hcall, hactive hxa⟩
    · exact ⟨x, hx, hxa⟩
  obtain ⟨x', hx', hxa'⟩ := was hx hxa
  obtain ⟨y', hy', hya'⟩ := was hy hya
  exact hp.one a b x' y' hx' hy' hxa' hya'

/-- A call without a pending request moves on. -/
theorem Ordered.move (hp : Ordered p) {i : Nat} {call : Call} (hcall : p.threads[i]? = some call) {s' : State} {pc : Pc}
    (hpending : s'.pending = p.shared.pending) (hout : outstanding s' = outstanding p.shared)
    (htoClient : s'.toClient = p.shared.toClient) (hactive : isActive pc = true → isActive call.pc = true)
    (hearly : isEarly pc = false) (hfree : isWaiting call.pc = true → call.slot ≠ none)
    (hsettled : Settled { call with pc } → outstanding p.shared = [])
    (hoperating : s'.client.state = .operating → p.shared.client.state = .operating ∧ isActive pc = false ∨
      outstanding p.shared = [] ∧ isActive call.pc = true ∧ isActive pc = false) :
    Ordered ⟨s', p.threads.set i { call with pc }⟩ := by
  have hmem := List.mem_of_getElem? hcall
  exact {
    one := hp.one_set hcall hactive
    early := Pool.forall_set hp.early i (fun h => by rw [hearly] at h; cases h)
    undrawn := Pool.forall_set hp.undrawn i (hp.undrawn call hmem)
    unsent := Pool.forall_set hp.unsent i (hp.unsent call hmem)
    single := by
      show ∀ id ∈ s'.pending, ∀ id' ∈ s'.pending, id = id'
      rw [hpending]
      exact hp.single
    turn := fun id j hj => by
      obtain ⟨x, hx, hturn⟩ := hp.turn id j (by rw [← hpending]; exact hj)
      have hne : i ≠ j := by
        rintro rfl
        obtain rfl : call = x := Option.some.inj (hcall.symm.trans hx)
        exact hfree hturn.waits hturn.slot
      refine ⟨x, (List.getElem?_set_ne hne).trans hx, hturn.mono hout (fun hun r hr => hun r ?_)⟩
      rw [← htoClient]
      exact hr
    settled := Pool.forall_set (fun x hx h => hout.trans (hp.settled x hx h)) i (fun h => hout.trans (hsettled h))
    operating := fun hs => by
      rcases hoperating hs with ⟨hs, hpc⟩ | ⟨hnil, hcallActive, hpc⟩
      · exact ⟨hout.trans (hp.operating hs).1, Pool.forall_set (hp.operating hs).2 i hpc⟩
      · refine ⟨hout.trans hnil, fun x hx => ?_⟩
        obtain ⟨j, hj⟩ := List.getElem?_of_mem hx
        rcases Pool.getElem?_set_cases hj with ⟨-, rfl⟩ | ⟨hne, hj⟩
        · exact hpc
        · by_contra hxa
          exact hne (hp.one j i x call hj hcall (by simpa using hxa) hcallActive) }

/-- **A call passes its check** when no other is on its way. -/
theorem Ordered.check (hp : Ordered p) {i : Nat} {call : Call} (hcall : p.threads[i]? = some call)
    {options : ClientOptions} {seen : Nat} (hpc : call.pc = .initCheck options)
    (hstate : p.shared.client.state = .uninitialized) (hidle : ∀ call ∈ p.threads, isActive call.pc = false) :
    Ordered ⟨p.shared, p.threads.set i { call with pc := .initStore options seen }⟩ := by
  have hmem := List.mem_of_getElem? hcall
  have hearly : call.sending = .undrawn := hp.early call hmem (by rw [hpc]; rfl)
  have alone : ∀ {j : Nat} {x : Call}, (p.threads.set i { call with pc := .initStore options seen })[j]? = some x →
      isActive x.pc = true → j = i := by
    intro j x hx hxa
    rcases Pool.getElem?_set_cases hx with ⟨rfl, -⟩ | ⟨-, hx⟩
    · rfl
    · rw [hidle x (List.mem_of_getElem? hx)] at hxa
      cases hxa
  exact {
    one := fun a b x y hx hy hxa hya => (alone hx hxa).trans (alone hy hya).symm
    early := Pool.forall_set hp.early i (fun _ => hearly)
    undrawn := Pool.forall_set hp.undrawn i (hp.undrawn call hmem)
    unsent := Pool.forall_set hp.unsent i (hp.unsent call hmem)
    single := hp.single
    turn := fun id j hj => by
      obtain ⟨x, hx, hturn⟩ := hp.turn id j hj
      have hxa := isActive_of_isWaiting hturn.waits
      rw [hidle x (List.mem_of_getElem? hx)] at hxa
      cases hxa
    settled := Pool.forall_set hp.settled i (fun h => h.elim)
    operating := fun hs => by
      rw [hstate] at hs
      cases hs }

/-- **A call draws an id**, when no other request is pending. -/
theorem Ordered.draw (hp : Ordered p) {i : Nat} {call : Call} (hcall : p.threads[i]? = some call) {id : RequestId}
    (hwaits : isWaiting call.pc = true) (hsending : call.sending = .undrawn) (hun : Unanswered p.shared id)
    (hmem : id ∉ outstanding p.shared) :
    Ordered ⟨{ p.shared with
        requests := p.shared.requests + 1, pending := registerPending p.shared.pending id i },
      p.threads.set i { call with sending := .drawn id }⟩ := by
  have hactive := isActive_of_isWaiting hwaits
  have hthread := List.mem_of_getElem? hcall
  have hslot := hp.undrawn call hthread hsending
  -- a pending request would be this call's, which has drawn none
  have none_pending : ∀ x j, p.shared.pending.lookup x ≠ some j := by
    intro x j hj
    obtain ⟨-, hturn⟩ := hp.turn_of_active hcall hactive hj
    rcases hturn.place with ⟨h, -⟩ | ⟨h, -⟩ <;> rw [hsending] at h <;> cases h
  have only : ∀ x ∈ registerPending p.shared.pending id i, x = id := by
    intro x hx
    rcases (AList.mem_insert _).1 hx with hx | hx
    · exact hx
    · obtain ⟨j, hj⟩ := Option.isSome_iff_exists.1 (AList.lookup_isSome.2 hx)
      exact absurd hj (none_pending x j)
  have hset : ∀ {P : Call → Prop}, (∀ x ∈ p.threads, P x) → P { call with sending := .drawn id } →
      ∀ x ∈ p.threads.set i { call with sending := .drawn id }, P x := fun h hnew => Pool.forall_set h i hnew
  exact {
    one := hp.one_set hcall (fun h => h)
    early := hset hp.early (fun h => by
      rw [isEarly_of_isWaiting hwaits] at h
      cases h)
    undrawn := hset hp.undrawn (fun h => by cases h)
    unsent := hset hp.unsent (fun x _ j h => by rw [hslot] at h; cases h)
    single := fun x hx y hy => (only x hx).trans (only y hy).symm
    turn := fun x j hj => by
      obtain rfl := only x (mem_pending hj)
      have hj' : (p.shared.pending.insert x i).lookup x = some j := hj
      rw [AList.lookup_insert] at hj'
      obtain rfl := Option.some.inj hj'
      obtain ⟨hi, -⟩ := List.getElem?_eq_some_iff.1 hcall
      refine ⟨{ call with sending := .drawn x }, List.getElem?_set_self hi, hwaits, hslot, .inl ⟨rfl, hun, hmem⟩⟩
    settled := hset hp.settled (fun h => hp.settled call hthread h)
    operating := fun hs => absurd hs (hp.not_operating hthread hactive) }

/-- **A call sends its request**, behind all the others. -/
theorem Ordered.send (hp : Ordered p) {i : Nat} {call : Call} (hcall : p.threads[i]? = some call) {id : RequestId}
    {params : Option Json} (hwaits : isWaiting call.pc = true) (hsending : call.sending = .drawn id) :
    Ordered ⟨{ p.shared with
        toServer := p.shared.toServer ++ [.request { id, method := methods.kInitialize, params }] },
      p.threads.set i { call with sending := .sent }⟩ := by
  have hactive := isActive_of_isWaiting hwaits
  have hthread := List.mem_of_getElem? hcall
  have hout : outstanding { p.shared with
      toServer := p.shared.toServer ++ [.request { id, method := methods.kInitialize, params }] } =
      outstanding p.shared ++ [id] := by
    unfold outstanding
    rw [List.filterMap_append, ← List.append_assoc]
    rfl
  -- the only call on its way is this one, and it has no result
  have unsettled : ∀ x ∈ p.threads.set i { call with sending := .sent }, ¬ Settled x := by
    intro x hx hsettled
    obtain ⟨j, hj⟩ := List.getElem?_of_mem hx
    rcases Pool.getElem?_set_cases hj with ⟨-, rfl⟩ | ⟨hne, hj⟩
    · unfold Settled at hsettled
      cases hpc : call.pc with
      | initWait =>
        rw [hpc] at hsettled
        obtain ⟨result, hresult⟩ := hsettled
        exact hp.unsent call hthread id hsending result hresult
      | _ => rw [hpc] at hwaits; cases hwaits
    · exact hne (hp.one j i x call hj hcall hsettled.active hactive)
  exact {
    one := hp.one_set hcall (fun h => h)
    early := Pool.forall_set hp.early i (fun h => by
      rw [isEarly_of_isWaiting hwaits] at h
      cases h)
    undrawn := Pool.forall_set hp.undrawn i (fun h => by cases h)
    unsent := Pool.forall_set hp.unsent i (fun x h => by cases h)
    single := hp.single
    turn := fun x j hj => by
      obtain ⟨rfl, hturn⟩ := hp.turn_of_active hcall hactive hj
      obtain ⟨hi, -⟩ := List.getElem?_eq_some_iff.1 hcall
      refine ⟨{ call with sending := .sent }, List.getElem?_set_self hi, hwaits, hturn.slot, .inr ⟨rfl, .inr ?_⟩⟩
      rcases hturn.place with ⟨h, hun, hmem⟩ | ⟨h, -⟩
      · rw [hsending] at h
        injection h with h
        rw [← h] at hun hmem ⊢
        exact ⟨hun, outstanding p.shared, hmem, hout⟩
      · rw [hsending] at h
        cases h
    settled := fun x hx hsettled => absurd hsettled (unsettled x hx)
    operating := fun hs => absurd hs (hp.not_operating hthread hactive) }

/-- **A pending request is over**: with an error, or with a response when the server has nothing left to answer. -/
theorem Ordered.complete (hp : Ordered p) {id : RequestId} {r : Result Json}
    (hr : ∀ j, r = .ok j → id ∈ p.shared.pending →
      outstanding p.shared = [] ∧ ∀ i call, p.shared.pending.lookup id = some i → p.threads[i]? = some call →
        ∀ x, call.sending ≠ .drawn x) : Ordered (complete p id r) := by
  rcases complete_cases p id r with ⟨h, -⟩ | ⟨i, hi, h⟩
  · rw [h]
    exact hp
  · rw [h]
    obtain ⟨call, hcall, hturn⟩ := hp.turn id i hi
    have hthread := List.mem_of_getElem? hcall
    have hcalls : p.threads.modify i (fun call => { call with slot := some r }) =
        p.threads.set i { call with slot := some r } := by
      rw [List.modify_eq_set_getElem?, hcall]
      rfl
    rw [hcalls]
    have gone : ∀ x ∈ p.shared.pending.erase id, False := by
      intro x hx
      obtain ⟨hne, hx⟩ := AList.mem_erase.1 hx
      exact hne (hp.single x hx id (mem_pending hi))
    exact {
      one := hp.one_set hcall (fun h => h)
      early := Pool.forall_set hp.early i (hp.early call hthread)
      undrawn := Pool.forall_set hp.undrawn i (fun h => by
        rcases hturn.place with ⟨h', -⟩ | ⟨h', -⟩
        · rw [show call.sending = .undrawn from h] at h'
          cases h'
        · rw [show call.sending = .undrawn from h] at h'
          cases h')
      unsent := Pool.forall_set hp.unsent i (fun x h j hj => by
        exact (hr j (Option.some.inj hj) (mem_pending hi)).2 i call hi hcall x h)
      single := fun x hx => (gone x hx).elim
      turn := fun x j hj => (gone x (mem_pending (s := { p.shared with pending := p.shared.pending.erase id }) hj)).elim
      settled := Pool.forall_set hp.settled i (fun h => by
        unfold Settled at h
        cases hpc : call.pc with
        | initWait =>
          rw [hpc] at h
          obtain ⟨j, hj⟩ := h
          exact (hr j (Option.some.inj hj) (mem_pending hi)).1
        | _ =>
          have hwaits := hturn.waits
          rw [hpc] at hwaits
          cases hwaits)
      operating := fun hs => ⟨(hp.operating hs).1, Pool.forall_set (hp.operating hs).2 i ((hp.operating hs).2 call hthread)⟩ }

/-! ## A step -/

theorem Ordered.call (hp : Ordered p) (hcontent : Content c o p) (hbound : p.shared.requests < 2 ^ 64) {i : Nat}
    {call call' : Call} {s' : State} (hcall : p.threads[i]? = some call)
    (halone : isCheck call.pc = true → p.shared.client.state = .uninitialized → ∀ x ∈ p.threads, isActive x.pc = false)
    (hmoves : Moves i p.shared call s' call') : Ordered ⟨s', p.threads.set i call'⟩ := by
  have hthread := List.mem_of_getElem? hcall
  cases hmoves with
  | check options pc state => exact hp.check hcall pc state (halone (by rw [pc]; rfl) state)
  | refuse options e pc =>
    exact hp.move hcall rfl rfl rfl (fun h => by cases h) rfl (fun h => by rw [pc] at h; cases h) (fun h => h.elim)
      (fun hs => .inl ⟨hs, rfl⟩)
  | store options seen pc =>
    have hslot := hp.undrawn call hthread (hp.early call hthread (by rw [pc]; rfl))
    refine hp.move hcall rfl rfl rfl (fun _ => by rw [pc]; rfl) rfl (fun h => by rw [pc] at h; cases h) (fun h => ?_)
      (fun hs => by cases hs)
    obtain ⟨j, hj⟩ := h
    rw [show call.slot = some (.ok j) from hj] at hslot
    cases hslot
  | draw options seen pc sending =>
    refine hp.draw hcall (by rw [pc]; rfl) sending (fun r hr hid => ?_) (fun hid => ?_)
    · exact (hcontent.toClient _ hr r _ rfl hid).1.ne_next hbound rfl
    · unfold outstanding at hid
      rcases List.mem_append.1 hid with hid | hid
      · obtain ⟨h, hh, hid⟩ := Option.bind_eq_some_iff.1 (Option.mem_toList.1 hid)
        exact (hcontent.handling h _ hh hid).ne_next hbound rfl
      · obtain ⟨m, hm, hid⟩ := List.mem_filterMap.1 hid
        cases m with
        | request r =>
          by_cases hmethod : r.method = methods.kInitialize
          · simp only [initializeId, if_pos hmethod] at hid
            exact (hcontent.toServer _ hm r rfl).1.ne_next hbound (Option.some.inj hid)
          · simp only [initializeId, if_neg hmethod] at hid
            cases hid
        | _ => cases hid
  | send options seen id pc sending => exact hp.send hcall (by rw [pc]; rfl) sending
  | get options seen r pc sending slot =>
    refine hp.move hcall rfl rfl rfl (fun _ => by rw [pc]; rfl) ?_ (fun _ h => by rw [slot] at h; cases h) (fun h => ?_)
      (fun hs => absurd hs (hp.not_operating hthread (by rw [pc]; rfl)))
    · unfold Lifecycle.initResponse
      (repeat' split) <;> rfl
    · cases r with
      | error e => exact h.elim
      | ok j =>
        apply hp.settled call hthread
        unfold Settled
        rw [pc]
        exact ⟨j, slot⟩
  | fail e seen pc =>
    exact hp.move hcall rfl rfl rfl (fun h => by cases h) rfl (fun h => by rw [pc] at h; cases h) (fun h => h.elim)
      (fun hs => by cases hs)
  | disconnect e pc =>
    exact hp.move hcall rfl rfl rfl (fun h => by cases h) rfl (fun h => by rw [pc] at h; cases h) (fun h => h.elim)
      (fun hs => by cases hs)
  | peer result seen pc =>
    have hnil := hp.settled call hthread (by unfold Settled; rw [pc]; trivial)
    exact hp.move hcall rfl rfl rfl (fun _ => by rw [pc]; rfl) rfl (fun h => by rw [pc] at h; cases h) (fun _ => hnil)
      (fun hs => absurd hs (hp.not_operating hthread (by rw [pc]; rfl)))
  | notify result seen pc =>
    have hnil := hp.settled call hthread (by unfold Settled; rw [pc]; trivial)
    exact hp.move hcall rfl (outstanding_append rfl) rfl (fun _ => by rw [pc]; rfl) rfl
      (fun h => by rw [pc] at h; cases h) (fun _ => hnil)
      (fun hs => absurd hs (hp.not_operating hthread (by rw [pc]; rfl)))
  | operate result seen pc =>
    have hnil := hp.settled call hthread (by unfold Settled; rw [pc]; trivial)
    exact hp.move hcall rfl rfl rfl (fun h => by cases h) rfl (fun h => by rw [pc] at h; cases h) (fun h => h.elim)
      (fun _ => .inr ⟨hnil, by rw [pc]; rfl, rfl⟩)

theorem Ordered.handle (hp : Ordered p) (hcontent : Content c o p) {h : Handling} {s' : State}
    (hhandling : p.shared.handling = some h) (hhandles : Handles c o p.shared h s') : Ordered { p with shared := s' } := by
  have hserves := hcontent.serves h hhandling
  have hold : outstanding p.shared = h.id.toList ++ p.shared.toServer.filterMap initializeId := by
    unfold outstanding
    rw [hhandling]
    rfl
  have goes : ∀ {s : State}, outstanding s = h.id.toList ++ p.shared.toServer.filterMap initializeId →
      outstanding s = outstanding p.shared := fun hs => hs.trans hold.symm
  have answers : ∀ {s : State} {r : Result Json}, s.pending = p.shared.pending → s.client = p.shared.client →
      outstanding s = p.shared.toServer.filterMap initializeId → s.toClient = p.shared.toClient ++ reply h.id r →
      Ordered { p with shared := s } := by
    intro s r hpending hclient hout htoClient
    cases hid : h.id with
    | none =>
      rw [hid] at hold htoClient
      refine hp.wire (fun x i hi => by rw [← hpending]; exact hi) (hout.trans hold.symm) (fun x _ hx r' hr => hx r' ?_)
        (fun hs => by rw [← hclient]; exact hs)
      rw [htoClient, reply, Option.map_none, Option.toList_none, List.append_nil] at hr
      exact hr
    | some x =>
      rw [hid] at hold htoClient
      refine hp.answer hpending hclient (by rw [hold, hout]; rfl) htoClient (fun response hresponse => ?_)
      injection hresponse with hresponse
      rw [← hresponse]
      exact Session.respond_id x _
  cases hhandles with
  | first params pc state | again params pc state reinitialize | reset params seen pc | parse params seen pc | note pc state =>
    exact hp.wire (fun _ _ h => h) (goes rfl) (fun _ _ h => h) (fun h => h)
  | refuse params e pc => exact answers rfl rfl rfl rfl
  | store seen pc => exact answers rfl rfl rfl rfl
  | ignore pc =>
    rw [Serves, pc] at hserves
    refine hp.wire (fun _ _ h => h) (goes ?_) (fun _ _ h => h) (fun h => h)
    rw [show h.id = none from hserves]
    rfl
  | operate seen pc =>
    rw [Serves, pc] at hserves
    refine hp.wire (fun _ _ h => h) (goes ?_) (fun _ _ h => h) (fun h => h)
    rw [show h.id = none from hserves]
    rfl

theorem Ordered.toClient_tail (hp : Ordered p) {m : Message} {rest : List Message} (head : p.shared.toClient = m :: rest) :
    Ordered { p with shared := { p.shared with toClient := rest } } :=
  hp.wire (fun _ _ h => h) rfl (fun _ _ hun r hr => hun r (by rw [head]; exact List.mem_cons_of_mem _ hr)) (fun h => h)

/-- **A response that arrives is to the last outstanding request**, which has been sent. -/
theorem Ordered.answered_of_response (hp : Ordered p) {r : JsonRpcResponse} {id : RequestId}
    (hmem : .response r ∈ p.shared.toClient) (hanswered : r.id = some id) (hpending : id ∈ p.shared.pending) :
    outstanding p.shared = [] ∧ ∀ i call, p.shared.pending.lookup id = some i → p.threads[i]? = some call →
      ∀ x, call.sending ≠ .drawn x := by
  have hresponse : ¬ Unanswered p.shared id := fun hun => hun r hmem hanswered
  obtain ⟨i, hi⟩ := Option.isSome_iff_exists.1 (AList.lookup_isSome.2 hpending)
  obtain ⟨call, hcall, hturn⟩ := hp.turn id i hi
  rcases hturn.place with ⟨-, hun, -⟩ | ⟨hsending, hnil | ⟨hun, -⟩⟩
  · exact absurd hun hresponse
  · refine ⟨hnil, fun i' call' hi' hcall' x hx => ?_⟩
    obtain rfl : i = i' := Option.some.inj (hi.symm.trans hi')
    obtain rfl : call = call' := Option.some.inj (hcall.symm.trans hcall')
    rw [hsending] at hx
    cases hx
  · exact absurd hun hresponse

/-- A call that starts is not on its way yet. -/
theorem Ordered.spawn (hp : Ordered p) (options : ClientOptions) :
    Ordered (p.spawn p.shared { pc := .initCheck options }) := by
  have old : ∀ {j : Nat} {x : Call}, (p.threads ++ [{ pc := .initCheck options }])[j]? = some x →
      isActive x.pc = true → p.threads[j]? = some x := by
    intro j x hx hxa
    rcases Nat.lt_or_ge j p.threads.length with hj | hj
    · rwa [List.getElem?_append_left hj] at hx
    · rw [List.getElem?_append_right hj] at hx
      obtain rfl := List.mem_singleton.1 (List.mem_of_getElem? hx)
      cases hxa
  exact { hp with
    one := fun i j x y hx hy hxa hya => hp.one i j x y (old hx hxa) (old hy hya) hxa hya
    early := Pool.forall_append_singleton hp.early (fun _ => rfl)
    undrawn := Pool.forall_append_singleton hp.undrawn (fun _ => rfl)
    unsent := Pool.forall_append_singleton hp.unsent (fun id h => by cases h)
    turn := fun id i hi => by
      obtain ⟨call, hcall, hturn⟩ := hp.turn id i hi
      obtain ⟨hlt, -⟩ := List.getElem?_eq_some_iff.1 hcall
      exact ⟨call, (List.getElem?_append_left hlt).trans hcall, hturn⟩
    settled := Pool.forall_append_singleton hp.settled (fun h => h.elim)
    operating := fun hs => ⟨(hp.operating hs).1, Pool.forall_append_singleton (hp.operating hs).2 rfl⟩ }

theorem Ordered.steps (hp : Ordered p) (hcontent : Content c o p) (hbound : p.shared.requests < 2 ^ 64)
    (halone : OneAtATime p l) (h : Steps c o p l q) : Ordered q := by
  cases h with
  | spawn => exact hp.spawn c
  | call i call call' s' thread moves =>
    refine hp.call hcontent hbound thread (fun hcheck hstate x hx => ?_) moves
    have hall := halone (by simp [thread, hcheck, hstate])
    simpa using List.all_eq_true.1 hall x hx
  | fail id e => exact hp.complete (fun j h => by cases h)
  | request method params other =>
    refine hp.wire (fun id i hi => ?_) (outstanding_append (if_neg other)) (fun _ _ h => h) (fun h => h)
    exact (Dict.lookup_erase_eq_some.1 hi).2
  | send m aside =>
    refine hp.wire (fun _ _ h => h) (outstanding_append ?_) (fun _ _ h => h) (fun h => h)
    cases m with
    | request r => cases aside
    | _ => rfl
  | response result r id rest head answered =>
    have harrived : .response r ∈ p.shared.toClient := by
      rw [head]
      exact List.mem_cons_self
    exact (hp.toClient_tail head).complete (fun j _ hmem => hp.answered_of_response harrived answered hmem)
  | skip result m rest head => exact hp.toClient_tail head
  | answer result r rest head =>
    exact (hp.toClient_tail head).wire (fun _ _ h => h) (outstanding_append rfl) (fun _ _ h => h) (fun h => h)
  | take result r rest idle head asks =>
    refine hp.wire (fun _ _ h => h) ?_ (fun _ _ h => h) (fun h => h)
    have hid : initializeId (.request r) = some r.id := if_pos asks
    unfold outstanding
    rw [idle, head, List.filterMap_cons_some hid]
    rfl
  | takeNote result n rest idle head =>
    refine hp.wire (fun _ _ h => h) ?_ (fun _ _ h => h) (fun h => h)
    unfold outstanding
    rw [idle, head]
    rfl
  | reply result r rest head other =>
    have hid : initializeId (.request r) = none := if_neg other
    have hmem : Message.request r ∈ p.shared.toServer := by
      rw [head]
      exact List.mem_cons_self
    obtain ⟨-, hforeign⟩ := hcontent.toServer _ hmem r rfl
    rw [if_neg other] at hforeign
    refine hp.wire (fun _ _ h => h) (outstanding_tail head hid) (fun id hpending hun response hresponse hid' => ?_) (fun h => h)
    rcases List.mem_append.1 hresponse with hresponse | hresponse
    · exact hun response hresponse hid'
    · injection List.mem_singleton.1 hresponse with hresponse
      rw [hresponse, Session.respond_id] at hid'
      rw [← Option.some.inj hid'] at hpending
      exact hforeign hpending
  | drop result m rest head quiet =>
    have hid : initializeId m = none := by
      cases m with
      | request r => exact absurd rfl (quiet r)
      | _ => rfl
    exact hp.wire (fun _ _ h => h) (outstanding_tail head hid) (fun _ _ h => h) (fun h => h)
  | handle h s' handling handles => exact hp.handle hcontent handling handles
  | serverSend m quiet =>
    refine hp.wire (fun _ _ h => h) rfl (fun id _ hun r hr => ?_) (fun h => h)
    rcases List.mem_append.1 hr with hr | hr
    · exact hun r hr
    · exact absurd (List.mem_singleton.1 hr).symm (quiet r)
  | clientClose closed => exact hp.wire (fun _ _ h => h) rfl (fun _ _ h => h) (fun h => by cases h)
  | serverClose closed => exact hp.wire (fun _ _ h => h) rfl (fun _ _ h => h) (fun h => h)

theorem ordered_init : Ordered (init c o) where
  one := fun i j x y hx => by cases hx
  early := fun _ h => by cases h
  undrawn := fun _ h => by cases h
  unsent := fun _ h => by cases h
  single := fun _ h => by cases h
  turn := fun id i h => by cases h
  settled := fun _ h => by cases h
  operating := fun h => by cases h

/-! ## Runs -/

theorem content_of_run (he : Encodable c o) {labels : List Label}
    (hrun : Lts.run (step c o) (init c o) labels = some p) (hbound : p.shared.requests < 2 ^ 64) :
    Content c o p ∧ ((agreed c o).protocolVersion ∈ c.supportedVersions → Tracks c o p.shared) := by
  refine Lts.run_invariant (I := fun p => p.shared.requests < 2 ^ 64 →
    Content c o p ∧ ((agreed c o).protocolVersion ∈ c.supportedVersions → Tracks c o p.shared))
    (fun s l t hs hstep ht => ?_) (fun _ => ⟨content_init, fun _ => tracks_init⟩) hrun hbound
  have hlt := Nat.lt_of_le_of_lt (requests_le_of_step hstep) ht
  obtain ⟨hcontent, htracks⟩ := hs hlt
  have hsteps := hcontent.step_cases he hstep
  exact ⟨hcontent.steps he.result hlt hsteps, fun hversion => (htracks hversion).steps hversion hcontent hsteps⟩

theorem ordered_of_run (he : Encodable c o) {labels : List Label}
    (hrun : Lts.run (step c o) (init c o) labels = some p) (hbound : p.shared.requests < 2 ^ 64)
    (hmeets : Lts.Meets (step c o) OneAtATime (init c o) labels) : Ordered p := by
  refine (Lts.meets_invariant (I := fun p => p.shared.requests < 2 ^ 64 → Content c o p ∧ Ordered p)
    (fun s l t hs halone hstep ht => ?_) (fun _ => ⟨content_init, ordered_init⟩) hmeets hrun hbound).2
  have hlt := Nat.lt_of_le_of_lt (requests_le_of_step hstep) ht
  obtain ⟨hcontent, hordered⟩ := hs hlt
  have hsteps := hcontent.step_cases he hstep
  exact ⟨hcontent.steps he.result hlt hsteps, hordered.steps hcontent hlt halone hsteps⟩

/-- With one call at a time the client does not operate while the server resets its record. -/
theorem not_resetting_of_ordered (hp : Ordered p) (hcontent : Content c o p)
    (hoperating : p.shared.client.state = .operating) : resetting p.shared = false := by
  have hnil := (hp.operating hoperating).1
  cases hhandling : p.shared.handling with
  | none => simp [resetting, hhandling]
  | some h =>
    obtain ⟨pc, id⟩ := h
    have hserves := hcontent.serves _ hhandling
    cases pc with
    | answerParse options params seen =>
      obtain ⟨-, -, hid⟩ := hserves
      unfold outstanding at hnil
      rw [hhandling] at hnil
      exact absurd (Option.toList_eq_nil_iff.1 (List.append_eq_nil_iff.1 hnil).1) hid
    | _ => simp [resetting, hhandling]

/-- **The two ends of a handshake agree** whenever the client operates, exactly when the server is not between resetting
its record of the client and reading the next; and always, when the server does not reinitialize or the calls of
`initialize()` come one after the other. -/
theorem agreement_iff (hversions : o.supportedVersions ≠ [])
    (hclient : ∀ e, c.capabilities.experimental = some e → e.value.isNull = false)
    (hserver : ∀ e, o.capabilities.experimental = some e → e.value.isNull = false) {labels : List Label}
    (hrun : Lts.run (step c o) (init c o) labels = some p) (hrequests : p.shared.requests < 2 ^ 64)
    (hoperating : p.shared.client.state = .operating) :
    (Agreement c o p.shared ↔ resetting p.shared = false) ∧
      (o.allowReinitialize = false ∨ Lts.Meets (step c o) OneAtATime (init c o) labels → Agreement c o p.shared) := by
  have he : Encodable c o := ⟨InitializeParams.fromJson_toJson hclient, InitializeResult.fromJson_toJson hserver⟩
  obtain ⟨hcontent, htracks⟩ := content_of_run he hrun hrequests
  have htracks := htracks (hcontent.version_of_operating hoperating)
  have hiff : Agreement c o p.shared ↔ resetting p.shared = false := by
    refine ⟨fun h => ?_, agreement_of_content hversions hcontent htracks hoperating⟩
    by_contra hresetting
    have hforgotten := (forgotten_of_resetting htracks (by simpa using hresetting)).1
    rw [h.clientInfo] at hforgotten
    cases hforgotten
  refine ⟨hiff, fun hcondition => hiff.2 ?_⟩
  rcases hcondition with hre | hmeets
  · by_contra hresetting
    obtain ⟨-, hstate | hallow⟩ := forgotten_of_resetting htracks (by simpa using hresetting)
    · obtain ⟨⟨result, hreturned⟩, -⟩ := hcontent.operating hoperating
      obtain ⟨rfl, -, hanswer⟩ := hcontent.returns result hreturned
      rcases htracks.state hanswer with h | h <;> rw [hstate] at h <;> cases h
    · rw [hre] at hallow
      cases hallow
  · exact not_resetting_of_ordered (ordered_of_run he hrun hrequests hmeets) hcontent hoperating

/-! ## Two runs -/

def someClient : ClientOptions := { clientInfo := { name := bytes "c", version := bytes "1" } }

def someServer : ServerOptions :=
  { serverInfo := { name := bytes "s", version := bytes "1" }, allowReinitialize := true }

/-- A call passes its check and sends its request. -/
def sends (i : Nat) : List Label := [.call i, .call i, .call i, .call i]

/-- The client takes a response, and call `i` returns with it. -/
def returns (i : Nat) : List Label := .clientReceives (.ok .null) :: List.replicate 4 (.call i)

/-- The first request times out and is answered all the same, when the second call is on its way. -/
def secondTry : List Label :=
  .callInitialize :: sends 0 ++ [.fail (idOf 0) Requests.timedOutError, .call 0, .call 0, .callInitialize] ++ sends 1 ++
    .serverReceives (.ok .null) :: List.replicate 3 .serverStep ++ [.clientReceives (.ok .null)] ++
    .serverReceives (.ok .null) :: List.replicate 4 .serverStep ++ returns 1

/-- Two calls pass their checks together; one returns, and the server resets its record for the other. -/
def twoTogether : List Label :=
  [.callInitialize, .callInitialize, .call 0, .call 1, .call 0, .call 0, .call 0, .call 1, .call 1, .call 1,
    .serverReceives (.ok .null), .serverStep, .serverStep, .serverStep] ++ returns 0 ++
    [.serverReceives (.ok .null), .serverStep, .serverStep]

theorem agreement_iff_secondTry :
    ∃ p, Lts.run (step someClient someServer) (init someClient someServer) secondTry = some p ∧
      p.shared.client.state = .operating ∧ Agreement someClient someServer p.shared := by
  have heval : (Lts.run (step someClient someServer) (init someClient someServer) secondTry).map
      (fun p => (p.shared.client.state, p.shared.requests)) = some (.operating, 2) := by decide +kernel
  obtain ⟨p, hrun, h⟩ := Option.map_eq_some_iff.1 heval
  obtain ⟨hstate, hrequests⟩ := Prod.mk.inj h
  have hmeets : Lts.Meets (step someClient someServer) OneAtATime (init someClient someServer) secondTry := by
    decide +kernel
  exact ⟨p, hrun, hstate, (agreement_iff (by decide) (fun e h => by cases h) (fun e h => by cases h) hrun
    (by rw [hrequests]; decide) hstate).2 (.inr hmeets)⟩

/-- The client operates, and the server does not know it. -/
theorem twoTogether_forgotten :
    ∃ p, Lts.run (step someClient someServer) (init someClient someServer) twoTogether = some p ∧
      p.shared.client.state = .operating ∧ p.shared.server.clientInfo = none ∧
      ¬ Agreement someClient someServer p.shared := by
  have heval : (Lts.run (step someClient someServer) (init someClient someServer) twoTogether).map
      (fun p => (p.shared.client.state, p.shared.server.clientInfo.isNone)) = some (.operating, true) := by decide +kernel
  obtain ⟨p, hrun, h⟩ := Option.map_eq_some_iff.1 heval
  obtain ⟨hstate, hinfo⟩ := Prod.mk.inj h
  have hnone := Option.isNone_iff_eq_none.1 hinfo
  refine ⟨p, hrun, hstate, hnone, fun hagreement => ?_⟩
  have hsome := hagreement.clientInfo
  rw [hnone] at hsome
  cases hsome

end Joined
end Mcp
