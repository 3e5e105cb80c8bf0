import McpSdk.SessionStop
/-!
# SessionIdle — the sweep and the requests it does not see

The connection threads of `SessionStop` under one clock.  A session's activity is a time, set when it is opened and when
a request finds it; what the request does afterwards, for however long, leaves it where it is.  So a sweep of any other
client takes out a session whose own request is still in service, unless the session was found within the timeout
(`spares_iff`).
-/
namespace Mcp
namespace SessionIdle

open HttpSessionServer (Route route sessionId)
open SessionStop (Pc advance)

/-! ## State and steps -/

/-- The threads and the clock, and what is known of the requests of each session. -/
structure State where
  pool : Pool SessionStop.State Pc := SessionStop.init
  now : TimePoint := 0
  /-- What a thread has read off the clock for the cutoff of its sweep. -/
  cutoff : Nat → Option TimePoint := fun _ => none
  /-- The session whose id a thread's POST or GET presents, while it is in service. -/
  serving : Nat → Option Nat := fun _ => none
  /-- The times at which a session was opened, or found for a request. -/
  touched : List (Nat × TimePoint) := []
  /-- The times at which its requests went out of service. -/
  served : List (Nat × TimePoint) := []

def State.registry (s : State) : SessionRegistry := s.pool.shared.registry

/-- A thread's section with the clock it reads.  The cutoff of a sweep is read before the lock is taken, the time of a new
session after its `connect`. -/
def State.stamped (s : State) (i : Nat) : Pc → Option Pc
  | .sweep r => (s.cutoff i).map fun sweepTime => .sweep { r with sweepTime }
  | .route r => some (.route { r with now := s.now })
  | .connect r frame session => some (.connect { r with now := s.now } frame session)
  | pc => some pc

/-- The session a section finds under the id its request presents. -/
def found (o : HttpSessionServerOptions) (text : JsonText Bytes) (registry : SessionRegistry) : Pc → Option Nat
  | .route r =>
    match route o text r with
    | .attach | .post _ => (registry.lookup (sessionId r)).map (·.session)
    | _ => none
  | _ => none

/-- The activity a section notes. -/
def touch (o : HttpSessionServerOptions) (text : JsonText Bytes) (registry : SessionRegistry) (now : TimePoint) :
    Pc → List (Nat × TimePoint)
  | .create r _ session => [(session, r.now)]
  | pc => (found o text registry pc).toList.map fun session => (session, now)

inductive Label where
  | accept (r : SessionRequest)
  /-- A thread reads the clock for its sweep. -/
  | read (thread : Nat)
  | step (thread : Nat)
  | stop
  | tick (d : Nat)

/-- What a section of thread `i` leaves. -/
def State.advanced (o : HttpSessionServerOptions) (text : JsonText Bytes) (s : State) (i : Nat) (pc : Pc)
    (shared : SessionStop.State) (pc' : Pc) : State :=
  { s with
    pool := ⟨shared, s.pool.threads.set i pc'⟩
    serving := Function.update s.serving i (found o text s.registry pc)
    touched := s.touched ++ touch o text s.registry s.now pc
    served := s.served ++ (s.serving i).toList.map fun session => (session, s.now) }

def step (o : HttpSessionServerOptions) (text : JsonText Bytes) (s : State) : Label → Option State
  | .accept r => (SessionStop.step o text s.pool (.accept r)).map fun pool => { s with pool }
  | .read i =>
    match s.pool.threads[i]?, s.cutoff i with
    | some (.sweep _), none => some { s with cutoff := Function.update s.cutoff i (some s.now) }
    | _, _ => none
  | .step i =>
    (s.pool.threads[i]?).bind fun pc => (s.stamped i pc).bind fun pc =>
      (advance o text s.pool.shared pc).map fun next => s.advanced o text i pc next.1 next.2
  | .stop => (SessionStop.step o text s.pool .stop).map fun pool => { s with pool }
  | .tick d => some { s with now := s.now + d }

/-! ## The property and the condition -/

/-- The time a thread has read for the sweep it is about to make. -/
def State.sweepTime (s : State) (i : Nat) : Option TimePoint :=
  match s.pool.threads[i]? with
  | some (.sweep _) => s.cutoff i
  | _ => none

/-- The sessions that `remove_idle` takes out in a step. -/
def evictions (o : HttpSessionServerOptions) (s : State) : Label → List Nat
  | .step i =>
    match s.sweepTime i with
    | some cutoff => (s.registry.removeIdle o.sessionIdleTimeout cutoff).1.map fun e => e.2.session
    | none => []
  | _ => []

/-- The timeout in the clock's unit. -/
def timeout (o : HttpSessionServerOptions) : Int := o.sessionIdleTimeout * 1000000

/-- **A request of the session is in service, or was within the timeout.** -/
def Busy (o : HttpSessionServerOptions) (s : State) (session : Nat) : Prop :=
  (∃ i, s.serving i = some session) ∨ ∃ t, (session, t) ∈ s.served ∧ s.now ≤ t + timeout o

/-- **A step evicts only what is idle**: no request of the session has been in service for longer than the timeout, and
none has come or opened it. -/
def Spares (o : HttpSessionServerOptions) (s : State) (l : Label) : Prop :=
  ∀ session ∈ evictions o s l, ¬ Busy o s session ∧ ∀ t, (session, t) ∈ s.touched → t + timeout o < s.now

/-- **A sweep comes in time**: every registered session that is busy was opened or found within the timeout. -/
def InTime (o : HttpSessionServerOptions) (s : State) : Label → Prop
  | .step i => ∀ cutoff, s.sweepTime i = some cutoff → ∀ id entry, s.registry.lookup id = some entry →
      Busy o s entry.session → ∃ t, (entry.session, t) ∈ s.touched ∧ cutoff - timeout o ≤ t
  | _ => True

/-! ## What a section does -/

/-- The session a thread is about to register. -/
def coming : Pc → Option Nat
  | .connect _ _ session | .create _ _ session => some session
  | _ => none

/-- **What a section does to the registry**, and the activity that is noted for it. -/
inductive Notes (now : TimePoint) (s : SessionStop.State) (pc : Pc) (s' : SessionStop.State) (pc' : Pc)
    (noted : List (Nat × TimePoint)) : Prop where
  | keeps (registry : ∀ id entry, s'.registry.lookup id = some entry → s.registry.lookup id = some entry)
      (made : s'.made = s.made) (still : coming pc' = coming pc) (none : noted = [])
  | finds (id : Bytes) (entry : Entry) (there : s.registry.lookup id = some entry)
      (registry : s'.registry = s.registry.insert id { entry with lastActivity := now }) (made : s'.made = s.made)
      (still : coming pc' = .none) (one : noted = [(entry.session, now)])
  | makes (registry : s'.registry = s.registry) (made : s'.made = s.made + 1) (comes : coming pc' = some s.made)
      (none : noted = [])
  | registers (id : Bytes) (r : SessionRequest) (frame : ParsedFrame) (session : Nat) (creates : pc = .create r frame session)
      (registry : s'.registry = s.registry.insert id { session, lastActivity := r.now }) (made : s'.made = s.made)
      (still : coming pc' = .none) (one : noted = [(session, r.now)])

/-- The requests that find a session touch it, and the one that opens a session makes it. -/
theorem route_notes {o : HttpSessionServerOptions} {text : JsonText Bytes} {r : SessionRequest} {s s' : SessionStop.State} {pc' : Pc}
    (h : advance o text s (.route r) = some (s', pc')) :
    Notes r.now s (.route r) s' pc' (touch o text s.registry r.now (.route r)) := by
  have hquiet : ∀ {pc' : Pc}, coming pc' = none → touch o text s.registry r.now (.route r) = [] →
      Notes r.now s (.route r) s pc' (touch o text s.registry r.now (.route r)) := fun hcoming hnone =>
    .keeps (fun _ _ h => h) rfl hcoming hnone
  rw [SessionStop.advance] at h
  cases hroute : route o text r with
  | refuse status reason body | escape =>
    rw [hroute] at h
    cases h
    exact hquiet rfl (by simp [touch, found, hroute])
  | terminate =>
    rw [hroute] at h
    simp only [SessionRegistry.remove] at h
    have hnone : touch o text s.registry r.now (.route r) = [] := by simp [touch, found, hroute]
    cases hlookup : s.registry.lookup (sessionId r) with
    | none =>
      rw [hlookup] at h
      cases h
      exact hquiet rfl hnone
    | some entry =>
      rw [hlookup] at h
      cases h
      exact .keeps (fun _ _ hother => (Dict.lookup_erase_eq_some.1 hother).2) rfl rfl hnone
  | attach | post frame =>
    rw [hroute] at h
    simp only [SessionRegistry.find] at h
    cases hlookup : s.registry.lookup (sessionId r) with
    | none =>
      rw [hlookup] at h
      cases h
      exact hquiet rfl (by simp [touch, found, hroute, hlookup])
    | some entry =>
      rw [hlookup] at h
      cases h
      exact .finds _ entry hlookup rfl rfl rfl (by simp [touch, found, hroute, hlookup])
  | «open» frame =>
    rw [hroute] at h
    have hnone : touch o text s.registry r.now (.route r) = [] := by simp [touch, found, hroute]
    by_cases hfactory : r.factory = true
    · simp only [hfactory, if_true] at h
      cases h
      exact .makes rfl rfl rfl hnone
    · simp only [hfactory] at h
      cases h
      exact hquiet rfl hnone

theorem advance_notes {o : HttpSessionServerOptions} {text : JsonText Bytes} {now : TimePoint} {s s' : SessionStop.State}
    {pc pc' : Pc} (hnow : ∀ r, pc = .route r → r.now = now) (h : advance o text s pc = some (s', pc')) :
    Notes now s pc s' pc' (touch o text s.registry now pc) := by
  have hquiet : ∀ {pc pc' : Pc}, coming pc' = coming pc → touch o text s.registry now pc = [] →
      Notes now s pc s pc' (touch o text s.registry now pc) := fun hcoming hnone =>
    .keeps (fun _ _ h => h) rfl hcoming hnone
  cases pc with
  | done | crashed => cases h
  | sweep r =>
    cases h
    refine .keeps (fun id entry hlookup => ?_) rfl rfl rfl
    have hfilter := Dict.lookup_filter (fun _ entry => !SessionRegistry.isIdle o.sessionIdleTimeout r.sweepTime entry)
      s.registry id
    exact (Option.filter_eq_some_iff.1 (hfilter.symm.trans hlookup)).1
  | evict r rest =>
    cases rest with
    | nil =>
      cases h
      exact hquiet rfl rfl
    | cons session rest =>
      cases h
      exact .keeps (fun _ _ h => h) rfl rfl rfl
  | evicted r session rest =>
    cases h
    exact .keeps (fun _ _ h => h) rfl rfl rfl
  | route r =>
    obtain rfl := hnow r rfl
    exact route_notes h
  | terminate session | terminated session =>
    cases h
    exact .keeps (fun _ _ h => h) rfl rfl rfl
  | attached =>
    cases h
    exact hquiet rfl rfl
  | connect r frame session =>
    cases h
    exact hquiet rfl rfl
  | create r frame session =>
    cases h
    exact .registers _ r frame session rfl rfl rfl rfl rfl
  | deliver escapes =>
    cases h
    cases escapes <;> exact hquiet rfl rfl

/-- A thread is about to register only what it has connected, at the time it has read. -/
theorem advance_create {o : HttpSessionServerOptions} {text : JsonText Bytes} {s s' : SessionStop.State} {pc : Pc}
    {r : SessionRequest} {frame : ParsedFrame} {session : Nat}
    (h : advance o text s pc = some (s', .create r frame session)) : pc = .connect r frame session := by
  cases pc with
  | connect r' frame' session' =>
    cases h
    rfl
  | route r' =>
    exfalso
    simp only [SessionStop.advance] at h
    (repeat' split at h) <;> cases h
  | evict r' rest =>
    cases rest <;> cases h
  | deliver escapes =>
    cases escapes <;> cases h
  | _ => cases h

/-! ## The invariant -/

/-- What is noted for a registered session is the last of its touches. -/
def Latest (registry : SessionRegistry) (touched : List (Nat × TimePoint)) : Prop :=
  ∀ id entry, registry.lookup id = some entry →
    (entry.session, entry.lastActivity) ∈ touched ∧ ∀ t, (entry.session, t) ∈ touched → t ≤ entry.lastActivity

/-- **The invariant**: activity is the last touch, and a session on its way to the registry has none. -/
structure Current (s : State) : Prop where
  accounted : SessionStop.Accounted s.pool
  latest : Latest s.registry s.touched
  past : ∀ session t, (session, t) ∈ s.touched → t ≤ s.now
  known : ∀ session t, (session, t) ∈ s.touched →
    session < s.pool.shared.made ∧ ∀ pc ∈ s.pool.threads, coming pc ≠ some session
  creating : ∀ pc ∈ s.pool.threads, ∀ r frame session, pc = .create r frame session → r.now ≤ s.now
  cutoffs : ∀ i cutoff, s.cutoff i = some cutoff → cutoff ≤ s.now

theorem count_range_le (made session : Nat) : (List.range made).count session ≤ 1 := by
  rw [List.nodup_range.count]
  split <;> omega

/-- A session is registered under one id. -/
theorem registered_once {p : Pool SessionStop.State Pc} (h : SessionStop.Accounted p) {id id' : Bytes} {entry entry' : Entry}
    (hid : p.shared.registry.lookup id = some entry) (hid' : p.shared.registry.lookup id' = some entry')
    (hsession : entry'.session = entry.session) : id' = id := by
  by_contra hne
  have hplaces := h.places entry.session
  have hone := count_range_le p.shared.made entry.session
  have hfirst := SessionStop.count_sessions_erase hid entry.session
  have hsecond := SessionStop.count_sessions_erase (Dict.lookup_erase_eq_some.2 ⟨hne, hid'⟩) entry.session
  rw [List.count_singleton_self] at hfirst
  rw [hsession, List.count_singleton_self] at hsecond
  simp only [SessionStop.State.rest] at hplaces
  omega

theorem hand_of_coming {pc : Pc} {session : Nat} (h : coming pc = some session) : pc.hand = [session] := by
  cases pc with
  | connect r frame k | create r frame k => rw [← Option.some.inj h]; rfl
  | _ => cases h

/-- One thread brings a session. -/
theorem coming_once {p : Pool SessionStop.State Pc} (h : SessionStop.Accounted p) {i : Nat} {pc pc' : Pc} {session : Nat}
    (hpc : p.threads[i]? = some pc) (hcoming : coming pc = some session) (hpc' : coming pc' ≠ some session) :
    ∀ x ∈ p.threads.set i pc', coming x ≠ some session := by
  intro x hx hbrings
  obtain ⟨hi, -⟩ := List.getElem?_eq_some_iff.1 hpc
  have hplaces := h.places session
  have hone := count_range_le p.shared.made session
  have hheld := (Pool.held_perm_of_getElem? Pc.hand hpc).count_eq session
  rw [hand_of_coming hcoming, List.count_append, List.count_singleton_self] at hheld
  rcases List.mem_cons.1 ((List.set_perm_cons_eraseIdx hi pc').mem_iff.1 hx) with rfl | hx
  · exact hpc' hbrings
  · have hmem : session ∈ Pool.held Pc.hand (p.threads.eraseIdx i) :=
      Pool.mem_held.2 ⟨x, hx, by rw [hand_of_coming hbrings]; exact List.mem_singleton_self _⟩
    have hpos := List.count_pos_iff.2 hmem
    omega

theorem coming_made {p : Pool SessionStop.State Pc} (h : SessionStop.Accounted p) {pc : Pc} {session : Nat}
    (hpc : pc ∈ p.threads) (hcoming : coming pc = some session) : session < p.shared.made := by
  have hmem : session ∈ Pool.held Pc.hand p.threads :=
    Pool.mem_held.2 ⟨pc, hpc, by rw [hand_of_coming hcoming]; exact List.mem_singleton_self _⟩
  have hpos := List.count_pos_iff.2 hmem
  have hplaces := h.places session
  exact List.mem_range.1 (List.count_pos_iff.1 (by omega))

theorem Latest.insert {registry : SessionRegistry} {touched : List (Nat × TimePoint)} (h : Latest registry touched)
    {id : Bytes} {session : Nat} {now : TimePoint} (hlast : ∀ t, (session, t) ∈ touched → t ≤ now)
    (hother : ∀ key entry, key ≠ id → registry.lookup key = some entry → entry.session ≠ session) :
    Latest (registry.insert id { session, lastActivity := now }) (touched ++ [(session, now)]) := by
  intro key entry hlookup
  rcases Dict.lookup_insert_eq_some.1 hlookup with ⟨-, rfl⟩ | ⟨hkey, hlookup⟩
  · refine ⟨List.mem_append_right _ (List.mem_singleton_self _), fun t ht => ?_⟩
    rcases List.mem_append.1 ht with ht | ht
    · exact hlast t ht
    · cases List.mem_singleton.1 ht
      exact le_refl now
  · obtain ⟨hmem, hle⟩ := h key entry hlookup
    refine ⟨List.mem_append_left _ hmem, fun t ht => ?_⟩
    rcases List.mem_append.1 ht with ht | ht
    · exact hle t ht
    · exact absurd (congrArg Prod.fst (List.mem_singleton.1 ht)) (hother key entry hkey hlookup)

theorem current_init : Current {} where
  accounted := SessionStop.accounted_init
  latest := fun _ _ h => by cases h
  past := fun _ _ h => by cases h
  known := fun _ _ h => by cases h
  creating := fun _ h => by cases h
  cutoffs := fun _ _ h => by cases h

/-- A step that registers and touches nothing, and brings no session. -/
theorem Current.quiet {s t : State} (h : Current s) (haccounted : SessionStop.Accounted t.pool)
    (hregistry : ∀ id entry, t.registry.lookup id = some entry → s.registry.lookup id = some entry)
    (htouched : t.touched = s.touched) (hmade : t.pool.shared.made = s.pool.shared.made)
    (hcoming : ∀ pc ∈ t.pool.threads, ∀ session, coming pc = some session → ∃ x ∈ s.pool.threads, coming x = some session)
    (hcreating : ∀ pc ∈ t.pool.threads, ∀ r frame session, pc = .create r frame session → r.now ≤ t.now)
    (hnow : s.now ≤ t.now) (hcutoffs : ∀ i cutoff, t.cutoff i = some cutoff → cutoff ≤ t.now) : Current t where
  accounted := haccounted
  latest := fun id entry hlookup => by
    rw [htouched]
    exact h.latest id entry (hregistry id entry hlookup)
  past := fun session time hmem => by
    rw [htouched] at hmem
    exact le_trans (h.past session time hmem) hnow
  known := fun session time hmem => by
    rw [htouched] at hmem
    obtain ⟨hlt, hnone⟩ := h.known session time hmem
    refine ⟨by rwa [hmade], fun pc hpc hbrings => ?_⟩
    obtain ⟨x, hx, hxbrings⟩ := hcoming pc hpc session hbrings
    exact hnone x hx hxbrings
  creating := hcreating
  cutoffs := hcutoffs

/-- A step that notes one touch. -/
theorem Current.touching {s t : State} {id : Bytes} {session : Nat} {time : TimePoint} (h : Current s)
    (haccounted : SessionStop.Accounted t.pool) (hregistry : t.registry = s.registry.insert id { session, lastActivity := time })
    (htouched : t.touched = s.touched ++ [(session, time)]) (hmade : t.pool.shared.made = s.pool.shared.made)
    (hnow : t.now = s.now) (hcutoff : t.cutoff = s.cutoff) (hlast : ∀ t, (session, t) ∈ s.touched → t ≤ time)
    (hother : ∀ key entry, key ≠ id → s.registry.lookup key = some entry → entry.session ≠ session) (htime : time ≤ s.now)
    (hsession : session < s.pool.shared.made) (hgone : ∀ x ∈ t.pool.threads, coming x ≠ some session)
    (hcoming : ∀ pc ∈ t.pool.threads, ∀ session, coming pc = some session → ∃ x ∈ s.pool.threads, coming x = some session)
    (hcreating : ∀ pc ∈ t.pool.threads, ∀ r frame session, pc = .create r frame session → r.now ≤ s.now) : Current t where
  accounted := haccounted
  latest := by
    rw [hregistry, htouched]
    exact h.latest.insert hlast hother
  past := fun k time' hmem => by
    rw [htouched] at hmem
    rw [hnow]
    rcases List.mem_append.1 hmem with hmem | hmem
    · exact h.past k time' hmem
    · cases List.mem_singleton.1 hmem
      exact htime
  known := fun k time' hmem => by
    rw [htouched] at hmem
    rw [hmade]
    rcases List.mem_append.1 hmem with hmem | hmem
    · obtain ⟨hlt, hnone⟩ := h.known k time' hmem
      refine ⟨hlt, fun pc hpc hbrings => ?_⟩
      obtain ⟨x, hx, hxbrings⟩ := hcoming pc hpc k hbrings
      exact hnone x hx hxbrings
    · cases List.mem_singleton.1 hmem
      exact ⟨hsession, hgone⟩
  creating := fun pc hpc r frame k hcreate => by
    rw [hnow]
    exact hcreating pc hpc r frame k hcreate
  cutoffs := fun i cutoff hc => by
    rw [hcutoff] at hc
    rw [hnow]
    exact h.cutoffs i cutoff hc

/-! ## Steps -/

theorem stamped_same {s : State} {i : Nat} {pc pc' : Pc} (h : s.stamped i pc = some pc') :
    pc'.hand = pc.hand ∧ coming pc' = coming pc ∧ (pc = .done → pc' = .done) := by
  cases pc with
  | sweep r =>
    obtain ⟨time, -, rfl⟩ := Option.map_eq_some_iff.1 h
    exact ⟨rfl, rfl, fun hdone => by cases hdone⟩
  | done =>
    cases h
    exact ⟨rfl, rfl, fun _ => rfl⟩
  | _ =>
    cases h
    exact ⟨rfl, rfl, fun hdone => by cases hdone⟩

/-- The clock is read by a request on its way to a session and by one that is connected; a session that is registered has
its time from before. -/
theorem stamped_now {s : State} {i : Nat} {pc pc' : Pc} (h : s.stamped i pc = some pc') :
    (∀ r, pc' = .route r → r.now = s.now) ∧ (∀ r frame session, pc' = .connect r frame session → r.now = s.now) ∧
      ∀ r frame session, pc' = .create r frame session → pc = .create r frame session := by
  cases pc with
  | sweep r =>
    obtain ⟨time, -, rfl⟩ := Option.map_eq_some_iff.1 h
    exact ⟨(fun _ hr => by cases hr), (fun _ _ _ hr => by cases hr), (fun _ _ _ hr => by cases hr)⟩
  | route r =>
    cases h
    refine ⟨fun r' hr => ?_, (fun _ _ _ hr => by cases hr), (fun _ _ _ hr => by cases hr)⟩
    cases hr
    rfl
  | connect r frame session =>
    cases h
    refine ⟨(fun _ hr => by cases hr), fun r' frame' session' hr => ?_, (fun _ _ _ hr => by cases hr)⟩
    cases hr
    rfl
  | create r frame session =>
    cases h
    exact ⟨(fun _ hr => by cases hr), (fun _ _ _ hr => by cases hr), fun _ _ _ hr => hr⟩
  | _ =>
    cases h
    exact ⟨(fun _ hr => by cases hr), (fun _ _ _ hr => by cases hr), (fun _ _ _ hr => by cases hr)⟩

theorem accounted_advanced {o : HttpSessionServerOptions} {text : JsonText Bytes} {s : State} {i : Nat} {pc pc' pc'' : Pc}
    {shared : SessionStop.State} (h : SessionStop.Accounted s.pool) (hpc : s.pool.threads[i]? = some pc)
    (hstamped : s.stamped i pc = some pc') (hadvance : advance o text s.pool.shared pc' = some (shared, pc'')) :
    SessionStop.Accounted ⟨shared, s.pool.threads.set i pc''⟩ := by
  obtain ⟨hhand, -, hdone⟩ := stamped_same hstamped
  obtain ⟨hi, -⟩ := List.getElem?_eq_some_iff.1 hpc
  have hset : SessionStop.Accounted ⟨s.pool.shared, s.pool.threads.set i pc'⟩ := by
    refine ⟨fun k => ?_, h.late, fun rest hrest => ?_, h.accepting⟩
    · have hexchange := (Pool.held_set_exchange Pc.hand hpc pc').count_eq k
      have hplaces := h.places k
      simp only [List.count_append, hhand] at hexchange
      show (Pool.held Pc.hand (s.pool.threads.set i pc')).count k + s.pool.shared.rest k =
        (List.range s.pool.shared.made).count k
      omega
    · obtain ⟨hclosed, hall⟩ := h.joined rest hrest
      exact ⟨hclosed, Pool.forall_set hall i (hdone (hall pc (List.mem_of_getElem? hpc)))⟩
  refine hset.stepAt (i := i) (Pool.stepAt_eq_some.2 ⟨pc', shared, pc'', ?_, hadvance, ?_⟩)
  · rw [List.getElem?_set_self hi]
  · rw [List.set_set]

theorem coming_set {threads : List Pc} {i : Nat} {pc pc' : Pc} (hpc : threads[i]? = some pc)
    (h : ∀ session, coming pc' = some session → coming pc = some session) :
    ∀ x ∈ threads.set i pc', ∀ session, coming x = some session → ∃ y ∈ threads, coming y = some session := by
  intro x hx session hbrings
  rcases List.mem_or_eq_of_mem_set hx with hx | rfl
  · exact ⟨x, hx, hbrings⟩
  · exact ⟨pc, List.mem_of_getElem? hpc, h session hbrings⟩

/-- **The step lemma, for a thread.** -/
theorem Current.advanced {o : HttpSessionServerOptions} {text : JsonText Bytes} {s : State} {i : Nat} {pc pc' pc'' : Pc}
    {shared : SessionStop.State} (h : Current s) (hpc : s.pool.threads[i]? = some pc) (hstamped : s.stamped i pc = some pc')
    (hadvance : advance o text s.pool.shared pc' = some (shared, pc'')) : Current (s.advanced o text i pc' shared pc'') := by
  have haccounted := accounted_advanced h.accounted hpc hstamped hadvance
  have hsame := (stamped_same hstamped).2.1
  obtain ⟨hnow, hconnect, hcreate⟩ := stamped_now hstamped
  have hread : ∀ r frame session, pc'' = .create r frame session → r.now = s.now := by
    rintro r frame session rfl
    exact hconnect r frame session (advance_create hadvance)
  have hcreating : ∀ x ∈ s.pool.threads.set i pc'', ∀ r frame session, x = .create r frame session → r.now ≤ s.now :=
    Pool.forall_set h.creating i fun r frame session hx => (hread r frame session hx).le
  have hmem := List.mem_of_getElem? hpc
  cases advance_notes hnow hadvance with
  | keeps registry made still none =>
    refine h.quiet haccounted registry ?_ made (coming_set hpc ?_) hcreating (le_refl _) h.cutoffs
    · show s.touched ++ touch o text s.registry s.now pc' = s.touched
      rw [show touch o text s.registry s.now pc' = [] from none, List.append_nil]
    · intro session hbrings
      rw [← hsame, ← still, hbrings]
  | finds id entry there registry made still one =>
    obtain ⟨htouch, hlast⟩ := h.latest id entry there
    obtain ⟨hmade, hnone⟩ := h.known _ _ htouch
    have hcoming : ∀ x ∈ s.pool.threads.set i pc'', ∀ session, coming x = some session →
        ∃ y ∈ s.pool.threads, coming y = some session :=
      coming_set hpc fun session hbrings => by rw [still] at hbrings; cases hbrings
    refine h.touching haccounted registry (congrArg (s.touched ++ ·) one) made rfl rfl (fun t ht => h.past _ t ht) ?_ (le_refl _)
      hmade ?_ hcoming hcreating
    · exact fun key other hkey hother hsession => hkey (registered_once h.accounted there hother hsession)
    · intro x hx hbrings
      obtain ⟨y, hy, hybrings⟩ := hcoming x hx _ hbrings
      exact hnone y hy hybrings
  | makes registry made comes none =>
    have htouched : (s.advanced o text i pc' shared pc'').touched = s.touched := by
      show s.touched ++ touch o text s.registry s.now pc' = s.touched
      rw [show touch o text s.registry s.now pc' = [] from none, List.append_nil]
    refine ⟨haccounted, ?_, fun session time ht => ?_, fun session time ht => ?_, hcreating, h.cutoffs⟩
    · show Latest shared.registry _
      rw [registry, htouched]
      exact h.latest
    · rw [htouched] at ht
      exact h.past session time ht
    · rw [htouched] at ht
      obtain ⟨hlt, hnone⟩ := h.known session time ht
      refine ⟨?_, Pool.forall_set hnone i fun hbrings => ?_⟩
      · show session < shared.made
        omega
      · rw [comes] at hbrings
        cases hbrings
        exact lt_irrefl _ hlt
  | registers id r frame session creates registry made still one =>
    have hbrings : coming pc = some session := by rw [← hsame, creates]; rfl
    have huntouched : ∀ t, (session, t) ∉ s.touched := fun t ht => (h.known session t ht).2 pc hmem hbrings
    refine h.touching haccounted registry (congrArg (s.touched ++ ·) one) made rfl rfl
      (fun t ht => absurd ht (huntouched t)) ?_ (h.creating pc hmem r frame session (hcreate r frame session creates))
      (coming_made h.accounted hmem hbrings)
      (coming_once h.accounted hpc hbrings (by rw [still]; exact (Option.some_ne_none session).symm)) ?_ hcreating
    · rintro key other - hother rfl
      exact huntouched _ (h.latest key other hother).1
    · exact coming_set hpc fun k hk => by rw [still] at hk; cases hk

/-- `stop()` leaves the threads alone, and registers nothing. -/
theorem advanceStop_keeps {p q : Pool SessionStop.State Pc} (h : SessionStop.advanceStop p = some q) :
    q.threads = p.threads ∧ q.shared.made = p.shared.made ∧
      ∀ id entry, q.shared.registry.lookup id = some entry → p.shared.registry.lookup id = some entry := by
  unfold SessionStop.advanceStop at h
  split at h
  · cases h
    exact ⟨rfl, rfl, fun id entry hlookup => by cases hlookup⟩
  · cases h
    exact ⟨rfl, rfl, fun _ _ hlookup => hlookup⟩
  · cases h
    exact ⟨rfl, rfl, fun _ _ hlookup => hlookup⟩
  · split at h
    · cases h
      exact ⟨rfl, rfl, fun _ _ hlookup => hlookup⟩
    · cases h
  · cases h
    exact ⟨rfl, rfl, fun _ _ hlookup => hlookup⟩
  · cases h
    exact ⟨rfl, rfl, fun _ _ hlookup => hlookup⟩
  · cases h

/-- **The step lemma.** -/
theorem Current.step {o : HttpSessionServerOptions} {text : JsonText Bytes} {s t : State} {l : Label} (h : Current s)
    (ht : step o text s l = some t) : Current t := by
  have hsame : ∀ pc ∈ s.pool.threads, ∀ session, coming pc = some session → ∃ x ∈ s.pool.threads, coming x = some session :=
    fun pc hpc session hbrings => ⟨pc, hpc, hbrings⟩
  cases l with
  | accept r =>
    obtain ⟨pool, hpool, rfl⟩ := Option.map_eq_some_iff.1 ht
    have haccounted := h.accounted.step hpool
    simp only [SessionStop.step] at hpool
    split at hpool
    · cases hpool
      refine h.quiet haccounted (fun _ _ hlookup => hlookup) rfl rfl ?_ ?_ (le_refl _) h.cutoffs
      · refine Pool.forall_append_singleton hsame ?_
        exact fun session hbrings => by cases hbrings
      · exact Pool.forall_append_singleton h.creating (fun r frame session hcreate => by cases hcreate)
    · cases hpool
  | read i =>
    simp only [SessionIdle.step] at ht
    split at ht
    · cases ht
      refine h.quiet h.accounted (fun _ _ hlookup => hlookup) rfl rfl hsame h.creating (le_refl _) fun j cutoff hcutoff => ?_
      by_cases hji : j = i
      · rw [hji] at hcutoff
        simp only [Function.update_self, Option.some.injEq] at hcutoff
        exact hcutoff.ge
      · simp only [Function.update_of_ne hji] at hcutoff
        exact h.cutoffs j cutoff hcutoff
    · cases ht
  | step i =>
    obtain ⟨pc, hpc, ht⟩ := Option.bind_eq_some_iff.1 ht
    obtain ⟨pc', hstamped, ht⟩ := Option.bind_eq_some_iff.1 ht
    obtain ⟨next, hadvance, rfl⟩ := Option.map_eq_some_iff.1 ht
    exact h.advanced hpc hstamped hadvance
  | stop =>
    obtain ⟨pool, hpool, rfl⟩ := Option.map_eq_some_iff.1 ht
    obtain ⟨hthreads, hmade, hregistry⟩ := advanceStop_keeps hpool
    refine h.quiet (h.accounted.advanceStop hpool) hregistry rfl hmade ?_ ?_ (le_refl _) h.cutoffs
    · show ∀ pc ∈ pool.threads, _
      rw [hthreads]
      exact hsame
    · show ∀ pc ∈ pool.threads, _
      rw [hthreads]
      exact h.creating
  | tick d =>
    cases ht
    have hlater : s.now ≤ s.now + d := Int.le_add_of_nonneg_right (Int.natCast_nonneg d)
    exact h.quiet h.accounted (fun _ _ hlookup => hlookup) rfl rfl hsame
      (fun pc hpc r frame session hcreate => le_trans (h.creating pc hpc r frame session hcreate) hlater) hlater
      (fun i cutoff hcutoff => le_trans (h.cutoffs i cutoff hcutoff) hlater)

/-- **A sweep evicts what it takes out**: its thread disconnects these sessions next. -/
theorem step_evicts {o : HttpSessionServerOptions} {text : JsonText Bytes} {s t : State} {i : Nat} {cutoff : TimePoint}
    (hsweep : s.sweepTime i = some cutoff) (ht : step o text s (.step i) = some t) :
    ∃ r, t.pool.threads[i]? = some (.evict r (evictions o s (.step i))) := by
  obtain ⟨pc, hpc, ht⟩ := Option.bind_eq_some_iff.1 ht
  obtain ⟨pc', hstamped, ht⟩ := Option.bind_eq_some_iff.1 ht
  obtain ⟨next, hadvance, rfl⟩ := Option.map_eq_some_iff.1 ht
  obtain ⟨hi, -⟩ := List.getElem?_eq_some_iff.1 hpc
  have hevicts : evictions o s (.step i) =
      (s.registry.removeIdle o.sessionIdleTimeout cutoff).1.map fun e => e.2.session := by simp [evictions, hsweep]
  rw [State.sweepTime, hpc] at hsweep
  cases pc with
  | sweep r =>
    have hcutoff : s.cutoff i = some cutoff := hsweep
    rw [State.stamped, hcutoff] at hstamped
    cases hstamped
    cases hadvance
    exact ⟨_, by rw [hevicts]; exact List.getElem?_set_self hi⟩
  | _ => cases hsweep

/-! ## When a session in use is spared -/

theorem mem_removeIdle {registry : SessionRegistry} {o : HttpSessionServerOptions} (hpositive : 0 < o.sessionIdleTimeout)
    {cutoff : TimePoint} {session : Nat} :
    session ∈ (registry.removeIdle o.sessionIdleTimeout cutoff).1.map (fun e => e.2.session) ↔
      ∃ id entry, registry.lookup id = some entry ∧ entry.session = session ∧ entry.lastActivity < cutoff - timeout o := by
  rw [List.mem_map]
  constructor
  · rintro ⟨⟨id, entry⟩, hmem, rfl⟩
    obtain ⟨hentry, hidle⟩ := List.mem_filter.1 hmem
    simp only [SessionRegistry.isIdle, Bool.and_eq_true, decide_eq_true_eq] at hidle
    exact ⟨id, entry, AList.mem_lookup_iff.2 hentry, rfl, hidle.2⟩
  · rintro ⟨id, entry, hlookup, rfl, hidle⟩
    refine ⟨⟨id, entry⟩, List.mem_filter.2 ⟨AList.mem_lookup_iff.1 hlookup, ?_⟩, rfl⟩
    simp only [SessionRegistry.isIdle, Bool.and_eq_true, decide_eq_true_eq]
    exact ⟨hpositive, hidle⟩

/-- What a sweep takes out has not been opened or found within the timeout. -/
theorem Current.untouched {o : HttpSessionServerOptions} {s : State} (h : Current s) {i : Nat} {cutoff : TimePoint}
    (hsweep : s.sweepTime i = some cutoff) {id : Bytes} {entry : Entry} (hlookup : s.registry.lookup id = some entry)
    (hidle : entry.lastActivity < cutoff - timeout o) {t : TimePoint} (ht : (entry.session, t) ∈ s.touched) :
    t + timeout o < s.now := by
  have hle := (h.latest id entry hlookup).2 t ht
  have hpast : cutoff ≤ s.now := by
    unfold State.sweepTime at hsweep
    split at hsweep
    · exact h.cutoffs i cutoff hsweep
    · cases hsweep
  exact lt_of_lt_of_le (Int.add_lt_of_lt_sub_right (lt_of_le_of_lt hle hidle)) hpast

/-- **A step spares what is in use exactly when its sweep comes in time.** -/
theorem Current.spares_iff_inTime {o : HttpSessionServerOptions} (hpositive : 0 < o.sessionIdleTimeout) {s : State} (h : Current s)
    (l : Label) : Spares o s l ↔ InTime o s l := by
  cases l with
  | step i =>
    cases hsweep : s.sweepTime i with
    | none => simp [Spares, InTime, evictions, hsweep]
    | some cutoff =>
      have hevicts : evictions o s (.step i) =
          (s.registry.removeIdle o.sessionIdleTimeout cutoff).1.map fun e => e.2.session := by simp [evictions, hsweep]
      constructor
      · intro hspares cutoff' hcutoff id entry hlookup hbusy
        cases hsweep.symm.trans hcutoff
        refine ⟨entry.lastActivity, (h.latest id entry hlookup).1, ?_⟩
        by_contra hlate
        refine (hspares entry.session ?_).1 hbusy
        rw [hevicts, mem_removeIdle hpositive]
        exact ⟨id, entry, hlookup, rfl, not_le.1 hlate⟩
      · intro hintime session hmem
        rw [hevicts, mem_removeIdle hpositive] at hmem
        obtain ⟨id, entry, hlookup, rfl, hidle⟩ := hmem
        refine ⟨fun hbusy => ?_, fun t ht => h.untouched hsweep hlookup hidle ht⟩
        obtain ⟨t, ht, hrecent⟩ := hintime cutoff hsweep id entry hlookup hbusy
        have hle := (h.latest id entry hlookup).2 t ht
        exact absurd (lt_of_le_of_lt hle hidle) (not_lt.2 hrecent)
  | _ => simp [Spares, InTime, evictions]

/-- **Sessions in use are spared exactly when the sweeps come in time**: in a run of the server with a positive timeout, no
step evicts a session that has a request in service or had one within the timeout, if and only if whenever a sweep runs,
each such session was opened or found within the timeout before it. -/
theorem spares_iff {o : HttpSessionServerOptions} (text : JsonText Bytes) (hpositive : 0 < o.sessionIdleTimeout)
    (labels : List Label) : Lts.Meets (step o text) (Spares o) {} labels ↔ Lts.Meets (step o text) (InTime o) {} labels :=
  Lts.meets_congr (fun _ _ _ h ht => h.step ht) (fun _ l h => h.spares_iff_inTime hpositive l) current_init

/-! ## A stream that is cut off -/

open HttpSessionServer (sessionText)
open SessionStop (helloRequest)

def shortTimeout : HttpSessionServerOptions := { sessionIdleTimeout := 1 }

/-- A GET with the id of the session that `helloRequest` opens. -/
def streamRequest : SessionRequest :=
  { helloRequest with
    head := {
      method := bytes "GET"
      headers := ((∅ : Dict Bytes Bytes).insert (bytes "mcp-session-id") (HttpSessionServer.newId helloRequest)).insert
        (bytes "accept") (bytes "text/event-stream") } }

/-- A thread up to the end of its `n`-th section. -/
def sections (thread n : Nat) : List Label := .read thread :: List.replicate n (.step thread)

/-- A session is opened and left alone for two milliseconds. -/
def openAndLeave : List Label := .accept helloRequest :: sections 0 6 ++ [.tick 2000000]

theorem spares_iff_openAndLeave :
    (Lts.run (step shortTimeout sessionText) {} (openAndLeave ++ [.accept helloRequest, .read 1])).map
        (fun s => evictions shortTimeout s (.step 1)) = some [0] ∧
      (Lts.Meets (step shortTimeout sessionText) (Spares shortTimeout) {} (openAndLeave ++ .accept helloRequest :: sections 1 1) ↔
        Lts.Meets (step shortTimeout sessionText) (InTime shortTimeout) {}
          (openAndLeave ++ .accept helloRequest :: sections 1 1)) :=
  ⟨by decide +kernel, spares_iff sessionText (by decide) _⟩

/-- A session with a stream attached, and the request of another client two milliseconds later. -/
def attachAndWait : List Label :=
  .accept helloRequest :: sections 0 6 ++ .accept streamRequest :: sections 1 3 ++ [.tick 2000000, .accept helloRequest, .read 2]

/-- **A live stream is cut off**: the sweep of another client's request takes out the session. -/
theorem attached_evicted :
    (∃ s, Lts.run (step shortTimeout sessionText) {} attachAndWait = some s ∧ s.serving 1 = some 0 ∧
        0 ∈ evictions shortTimeout s (.step 2)) ∧
      ¬ Lts.Meets (step shortTimeout sessionText) (Spares shortTimeout) {} (attachAndWait ++ [.step 2]) := by
  have heval : (Lts.run (step shortTimeout sessionText) {} attachAndWait).map
      (fun s => (s.serving 1, evictions shortTimeout s (.step 2))) = some (some 0, [0]) := by decide +kernel
  obtain ⟨s, hrun, h⟩ := Option.map_eq_some_iff.1 heval
  obtain ⟨hserving, hevictions⟩ := Prod.mk.inj h
  have hmem : 0 ∈ evictions shortTimeout s (.step 2) := by rw [hevictions]; exact List.mem_singleton_self 0
  exact ⟨⟨s, hrun, hserving, hmem⟩, fun hmeets => ((hmeets.append_right hrun).1 0 hmem).1 (.inl ⟨1, hserving⟩)⟩

end SessionIdle
end Mcp
