import McpSdk.SessionAuthority
import Mathlib.Data.List.Count
/-!
# SessionStop — `stop()` against the connection threads

`HttpSessionServer::stop` empties the registry first and joins the connection threads later, so a thread that is still on
its way from the factory to the registry puts its session into an empty registry nobody looks at again.  Where each
session is — with a thread, in the registry, with `stop()`, closed, or lost to an overwriting — is one of these at any
time (`Accounted`), and what is left over at the end is what was overwritten or came too late (`stop_closes_iff`).
-/
namespace Mcp
namespace SessionStop

open HttpSessionServer (Route route sessionId newId deliverFrame)

/-! ## State and steps -/

/-- Where `stop()` stands; `all` are the sessions it has taken out of the registry. -/
inductive Stop where
  | idle
  | disconnecting (all rest : List Nat)
  | joining (all : List Nat)
  | notifying (rest : List Nat)
  | returned

structure State where
  registry : SessionRegistry := ∅
  /-- The sessions the factory has returned. -/
  made : Nat := 0
  disconnected : List Nat := []
  /-- The calls of `on_session_closed`. -/
  closed : List Nat := []
  /-- `running_` of the endpoint. -/
  accepting : Bool := true
  stop : Stop := .idle
  /-- The sessions whose entry a `create` has overwritten. -/
  overwritten : List Nat := []
  /-- The sessions registered since `remove_all` that no DELETE and no sweep has taken out. -/
  late : List Nat := []

/-- Where a connection thread stands. -/
inductive Pc where
  | done
  | crashed
  | sweep (r : SessionRequest)
  | evict (r : SessionRequest) (rest : List Nat)
  | evicted (r : SessionRequest) (session : Nat) (rest : List Nat)
  | route (r : SessionRequest)
  | terminate (session : Nat)
  | terminated (session : Nat)
  /-- The stream of a GET. -/
  | attached
  | connect (r : SessionRequest) (frame : ParsedFrame) (session : Nat)
  | create (r : SessionRequest) (frame : ParsedFrame) (session : Nat)
  | deliver (escapes : Bool)

def isIdle : Stop → Bool
  | .idle => true
  | _ => false

def advance (o : HttpSessionServerOptions) (text : JsonText Bytes) (s : State) : Pc → Option (State × Pc)
  | .done | .crashed => none
  | .sweep r =>
    let (idle, registry) := s.registry.removeIdle o.sessionIdleTimeout r.sweepTime
    let sessions := idle.map fun e => e.2.session
    some ({ s with registry, late := s.late.diff sessions }, .evict r sessions)
  | .evict r [] => some (s, .route r)
  | .evict r (session :: rest) =>
    some ({ s with disconnected := s.disconnected ++ [session] }, .evicted r session rest)
  | .evicted r session rest => some ({ s with closed := s.closed ++ [session] }, .evict r rest)
  | .route r =>
    match route o text r with
    | .refuse .. => some (s, .done)
    | .escape => some (s, .crashed)
    | .terminate =>
      match s.registry.remove (sessionId r) with
      | none => some (s, .done)
      | some (entry, registry) =>
        some ({ s with registry, late := s.late.diff [entry.session] }, .terminate entry.session)
    | .attach =>
      match s.registry.find (sessionId r) r.now with
      | none => some (s, .done)
      | some (_, registry) => some ({ s with registry }, .attached)
    | .post frame =>
      match s.registry.find (sessionId r) r.now with
      | none => some (s, .done)
      | some (entry, registry) => some ({ s with registry }, .deliver (deliverFrame text r entry.session frame []).2)
    | .open frame =>
      if r.factory then some ({ s with made := s.made + 1 }, .connect r frame s.made) else some (s, .done)
  | .terminate session => some ({ s with disconnected := s.disconnected ++ [session] }, .terminated session)
  | .terminated session => some ({ s with closed := s.closed ++ [session] }, .done)
  | .attached => some (s, .done)
  | .connect r frame session => some (s, .create r frame session)
  | .create r frame session =>
    let overwritten := ((s.registry.lookup (newId r)).map (·.session)).toList
    some
      ({ s with
          registry := s.registry.create (newId r) { session, lastActivity := r.now }
          overwritten := s.overwritten ++ overwritten
          late := s.late.diff overwritten ++ if isIdle s.stop then [] else [session] },
        .deliver (deliverFrame text r session frame [(bytes "Mcp-Session-Id", newId r)]).2)
  | .deliver escapes => some (s, if escapes then .crashed else .done)

inductive Label where
  /-- A connection is accepted, and its request read on a thread of its own. -/
  | accept (r : SessionRequest)
  | step (thread : Nat)
  /-- The next section of `stop()`. -/
  | stop

def Pc.isDone : Pc → Bool
  | done => true
  | _ => false

def sessions (registry : SessionRegistry) : List Nat := registry.values.map (·.session)

/-- The next section of `stop()`: `remove_all`, a disconnect each, the endpoint's `running_`, the joins, and a callback
each. -/
def advanceStop (p : Pool State Pc) : Option (Pool State Pc) :=
  match p.shared.stop with
  | .idle =>
    some { p with shared := { p.shared with
      registry := p.shared.registry.removeAll.2
      stop := .disconnecting (sessions p.shared.registry) (sessions p.shared.registry) } }
  | .disconnecting all (session :: rest) =>
    some { p with shared := { p.shared with
      disconnected := p.shared.disconnected ++ [session], stop := .disconnecting all rest } }
  | .disconnecting all [] => some { p with shared := { p.shared with accepting := false, stop := .joining all } }
  | .joining all =>
    if p.threads.all Pc.isDone then some { p with shared := { p.shared with stop := .notifying all } } else none
  | .notifying (session :: rest) =>
    some { p with shared := { p.shared with closed := p.shared.closed ++ [session], stop := .notifying rest } }
  | .notifying [] => some { p with shared := { p.shared with stop := .returned } }
  | .returned => none

def step (o : HttpSessionServerOptions) (text : JsonText Bytes) (p : Pool State Pc) : Label → Option (Pool State Pc)
  | .accept r => if p.shared.accepting then some (p.spawn p.shared (.sweep r)) else none
  | .step i => Pool.stepAt (advance o text) p i
  | .stop => advanceStop p

def init : Pool State Pc := ⟨{}, []⟩

/-! ## The property and the condition -/

/-- **Everything is closed**: `on_session_closed` was called once for every session the factory returned, and the registry
is empty. -/
structure Closed (s : State) : Prop where
  once : ∀ session < s.made, s.closed.count session = 1
  empty : s.registry = ∅

/-- **No session is left behind**: none is overwritten in the registry, and each one that is registered after `remove_all`
is taken out again by a DELETE or a sweep. -/
def NoneLeft (s : State) : Prop := s.overwritten = [] ∧ s.late = []

/-- **A session is registered in time**: before `remove_all`, and under an id that is not in use. -/
def Pc.timely (s : State) : Pc → Bool
  | create r _ _ => isIdle s.stop && (s.registry.lookup (newId r)).isNone
  | _ => true

def Timely (p : Pool State Pc) : Label → Prop
  | .step i => (p.threads[i]?).all (Pc.timely p.shared) = true
  | _ => True

instance : ∀ (p : Pool State Pc) (l : Label), Decidable (Timely p l)
  | _, .step _ => inferInstanceAs (Decidable (_ = true))
  | _, .accept _ => isTrue trivial
  | _, .stop => isTrue trivial

/-! ## Where the sessions are -/

/-- The sessions a thread has to close or to register. -/
def Pc.hand : Pc → List Nat
  | evict _ rest => rest
  | evicted _ session rest => session :: rest
  | terminate session | terminated session | connect _ _ session | create _ _ session => [session]
  | _ => []

def Stop.hand : Stop → List Nat
  | disconnecting all _ | joining all | notifying all => all
  | _ => []

/-- How often a session is in a place that is no thread. -/
def State.rest (s : State) (session : Nat) : Nat :=
  (sessions s.registry).count session + s.closed.count session + s.overwritten.count session + s.stop.hand.count session

/-- How often it has come too late. -/
def State.lateIn (s : State) (session : Nat) : Nat := if isIdle s.stop then 0 else (sessions s.registry).count session

/-- **Every session is in one place**, and since `remove_all` those in the registry are the late ones. -/
structure Accounted (p : Pool State Pc) : Prop where
  places : ∀ k, (Pool.held Pc.hand p.threads).count k + p.shared.rest k = (List.range p.shared.made).count k
  late : ∀ k, p.shared.late.count k = p.shared.lateIn k
  /-- Once the joins are done there is no thread left. -/
  joined : ∀ rest, p.shared.stop = .notifying rest ∨ p.shared.stop = .returned →
    p.shared.accepting = false ∧ ∀ pc ∈ p.threads, pc = .done
  accepting : ∀ all, p.shared.stop = .joining all → p.shared.accepting = false

/-! ## The registry -/

theorem count_sessions_erase {registry : SessionRegistry} {id : Bytes} {entry : Entry} (h : registry.lookup id = some entry)
    (k : Nat) : (sessions registry).count k = [entry.session].count k + (sessions (registry.erase id)).count k := by
  have hperm : (sessions registry).Perm (entry.session :: sessions (registry.erase id)) :=
    (Dict.values_perm_of_lookup h).map Entry.session
  rw [hperm.count_eq, ← List.singleton_append, List.count_append]

theorem count_sessions_insert (registry : SessionRegistry) (id : Bytes) (entry : Entry) (k : Nat) :
    (sessions (registry.insert id entry)).count k = [entry.session].count k + (sessions (registry.erase id)).count k := by
  have hvalues : sessions (registry.insert id entry) = entry.session :: sessions (registry.erase id) := by
    unfold sessions Dict.values
    rw [AList.entries_insert]
    rfl
  rw [hvalues, ← List.singleton_append, List.count_append]

theorem count_sessions_lookup (registry : SessionRegistry) (id : Bytes) (k : Nat) :
    (sessions registry).count k =
      ((registry.lookup id).map (·.session)).toList.count k + (sessions (registry.erase id)).count k := by
  cases h : registry.lookup id with
  | none => simp [Dict.erase_of_lookup_none h]
  | some entry => exact count_sessions_erase h k

theorem count_sessions_removeIdle (registry : SessionRegistry) (timeout : Int) (now : TimePoint) (k : Nat) :
    (sessions registry).count k =
      ((registry.removeIdle timeout now).1.map fun e => e.2.session).count k +
        (sessions (registry.removeIdle timeout now).2).count k := by
  have hperm := (List.filter_append_perm (fun e : (_ : Bytes) × Entry => SessionRegistry.isIdle timeout now e.2)
    registry.entries).map (fun e => e.2.session)
  have hcount := hperm.count_eq k
  rw [List.map_append, List.count_append] at hcount
  simpa [sessions, Dict.values, SessionRegistry.removeIdle, Dict.filter, Function.comp_def] using hcount.symm

/-! ## Sections -/

/-- **What a section of a connection thread does with the sessions.** -/
structure Moves (s : State) (pc : Pc) (s' : State) (pc' : Pc) : Prop where
  stop : s'.stop = s.stop
  accepting : s'.accepting = s.accepting
  places : ∀ k, pc'.hand.count k + s'.rest k + (List.range s.made).count k =
    pc.hand.count k + s.rest k + (List.range s'.made).count k
  late : (∀ k, s.late.count k = s.lateIn k) → ∀ k, s'.late.count k = s'.lateIn k
  left : pc.timely s = true → NoneLeft s → NoneLeft s'

/-- A section that leaves the registry and the closed alone. -/
theorem Moves.quiet {s : State} {pc pc' : Pc} (h : pc'.hand = pc.hand) : Moves s pc s pc' :=
  ⟨rfl, rfl, fun k => by rw [h], fun hl => hl, fun _ hn => hn⟩

theorem Moves.disconnects {s : State} {pc pc' : Pc} (session : Nat) (h : pc'.hand = pc.hand) :
    Moves s pc { s with disconnected := s.disconnected ++ [session] } pc' :=
  ⟨rfl, rfl, fun k => by rw [h]; rfl, fun hl => hl, fun _ hn => hn⟩

theorem Moves.closes {s : State} {pc pc' : Pc} {session : Nat} (h : pc.hand = session :: pc'.hand) :
    Moves s pc { s with closed := s.closed ++ [session] } pc' := by
  refine ⟨rfl, rfl, fun k => ?_, fun hl => hl, fun _ hn => hn⟩
  simp only [State.rest, h, List.count_append, ← List.singleton_append (l := pc'.hand)]
  omega

/-- A look at the registry that touches an entry. -/
theorem Moves.touches {s : State} {pc pc' : Pc} {id : Bytes} {entry : Entry} (hfound : s.registry.lookup id = some entry)
    (now : TimePoint) (h : pc'.hand = pc.hand) :
    Moves s pc { s with registry := s.registry.insert id { entry with lastActivity := now } } pc' := by
  have hsame : ∀ k, (sessions (s.registry.insert id { entry with lastActivity := now })).count k =
      (sessions s.registry).count k := fun k => by
    rw [count_sessions_insert, count_sessions_erase hfound]
  refine ⟨rfl, rfl, fun k => ?_, fun hl k => ?_, fun _ hn => hn⟩
  · simp only [State.rest, h, hsame]
  · simpa only [State.lateIn, hsame] using hl k

/-- Sessions taken out of the registry by a thread. -/
theorem Moves.takes {s : State} {pc pc' : Pc} {registry : SessionRegistry} {taken : List Nat}
    (hcount : ∀ k, (sessions s.registry).count k = taken.count k + (sessions registry).count k) (hbefore : pc.hand = [])
    (hafter : pc'.hand = taken) : Moves s pc { s with registry, late := s.late.diff taken } pc' := by
  refine ⟨rfl, rfl, fun k => ?_, fun hl k => ?_, fun _ hn => ⟨hn.1, by simp only [hn.2, List.nil_diff]⟩⟩
  · have hk := hcount k
    simp only [State.rest, hbefore, hafter, List.count_nil]
    omega
  · have hk := hcount k
    have hlate := hl k
    simp only [State.lateIn, List.count_diff] at hlate ⊢
    by_cases hidle : isIdle s.stop = true
    · simp only [hidle, if_true] at hlate ⊢
      omega
    · simp only [hidle] at hlate ⊢
      simp only [Bool.false_eq_true, if_false] at hlate ⊢
      omega

theorem Moves.makes {s : State} {r r' : SessionRequest} {frame : ParsedFrame} :
    Moves s (.route r) { s with made := s.made + 1 } (.connect r' frame s.made) := by
  refine ⟨rfl, rfl, fun k => ?_, fun hl => hl, fun _ hn => hn⟩
  simp only [State.rest, Pc.hand, List.range_succ, List.count_append, List.count_nil]
  omega

theorem Moves.registers {s : State} {r : SessionRequest} {frame : ParsedFrame} {session : Nat} {id : Bytes} {now : TimePoint}
    {escapes : Bool} {lost : List Nat} (hid : id = newId r)
    (hlost : lost = ((s.registry.lookup id).map (·.session)).toList) :
    Moves s (.create r frame session)
      { s with
        registry := s.registry.create id { session, lastActivity := now }
        overwritten := s.overwritten ++ lost
        late := s.late.diff lost ++ if isIdle s.stop then [] else [session] } (.deliver escapes) := by
  have hbefore := fun k => count_sessions_lookup s.registry id k
  have hafter : ∀ k, (sessions (s.registry.insert id { session, lastActivity := now })).count k =
      [session].count k + (sessions (s.registry.erase id)).count k := fun k => count_sessions_insert s.registry id _ k
  rw [← hlost] at hbefore
  refine ⟨rfl, rfl, fun k => ?_, fun hl k => ?_, fun htimely hn => ?_⟩
  · have hb := hbefore k
    have ha := hafter k
    simp only [State.rest, Pc.hand, SessionRegistry.create, List.count_append, List.count_nil]
    omega
  · have hb := hbefore k
    have ha := hafter k
    have hlate := hl k
    simp only [State.lateIn, SessionRegistry.create, List.count_append, List.count_diff] at hlate ⊢
    by_cases hidle : isIdle s.stop = true
    · simp only [hidle, if_true, List.count_nil] at hlate ⊢
      omega
    · simp only [hidle, Bool.false_eq_true, if_false] at hlate ⊢
      omega
  · simp only [Pc.timely, Bool.and_eq_true] at htimely
    obtain ⟨hidle, hfree⟩ := htimely
    rw [← hid, Option.isNone_iff_eq_none] at hfree
    rw [hfree] at hlost
    simp [NoneLeft, hlost, hn.1, hn.2, hidle]

/-- **The spec of a section.** -/
theorem advance_moves {o : HttpSessionServerOptions} {text : JsonText Bytes} {s s' : State} {pc pc' : Pc}
    (h : advance o text s pc = some (s', pc')) : Moves s pc s' pc' := by
  cases pc with
  | done | crashed => cases h
  | sweep r =>
    cases h
    exact Moves.takes (fun k => count_sessions_removeIdle s.registry o.sessionIdleTimeout r.sweepTime k) rfl rfl
  | evict r rest =>
    cases rest with
    | nil =>
      cases h
      exact .quiet rfl
    | cons session rest =>
      cases h
      exact .disconnects session rfl
  | evicted r session rest =>
    cases h
    exact .closes rfl
  | route r =>
    rw [advance] at h
    cases hroute : route o text r with
    | refuse status reason body | escape =>
      rw [hroute] at h
      cases h
      exact .quiet rfl
    | terminate =>
      rw [hroute] at h
      simp only [SessionRegistry.remove] at h
      cases hfound : s.registry.lookup (sessionId r) with
      | none =>
        rw [hfound] at h
        cases h
        exact .quiet rfl
      | some entry =>
        rw [hfound] at h
        cases h
        exact Moves.takes (fun k => count_sessions_erase hfound k) rfl rfl
    | attach | post frame =>
      rw [hroute] at h
      simp only [SessionRegistry.find] at h
      cases hfound : s.registry.lookup (sessionId r) with
      | none =>
        rw [hfound] at h
        cases h
        exact .quiet rfl
      | some entry =>
        rw [hfound] at h
        cases h
        exact .touches hfound r.now rfl
    | «open» frame =>
      rw [hroute] at h
      by_cases hfactory : r.factory = true
      · simp only [hfactory, if_true] at h
        cases h
        exact .makes
      · simp only [hfactory] at h
        cases h
        exact .quiet rfl
  | terminate session =>
    cases h
    exact .disconnects session rfl
  | terminated session =>
    cases h
    exact .closes rfl
  | attached =>
    cases h
    exact .quiet rfl
  | connect r frame session =>
    cases h
    exact .quiet rfl
  | create r frame session =>
    cases h
    exact .registers rfl rfl
  | deliver escapes =>
    cases h
    cases escapes <;> exact .quiet rfl

/-! ## Steps -/

theorem accounted_init : Accounted init where
  places := fun k => rfl
  late := fun k => rfl
  joined := by
    rintro rest (h | h) <;> cases h
  accepting := fun all h => by cases h

theorem Accounted.stepAt {o : HttpSessionServerOptions} {text : JsonText Bytes} {p q : Pool State Pc} {i : Nat}
    (h : Accounted p) (hstep : Pool.stepAt (advance o text) p i = some q) : Accounted q := by
  obtain ⟨pc, s', pc', hpc, hadv, rfl⟩ := Pool.stepAt_eq_some.1 hstep
  have hmoves := advance_moves hadv
  refine ⟨fun k => ?_, hmoves.late h.late, fun rest hrest => ?_, fun all hall => ?_⟩
  · have hexchange := (Pool.held_set_exchange Pc.hand hpc pc').count_eq k
    have hmoved := hmoves.places k
    have hplaces := h.places k
    simp only [List.count_append] at hexchange
    show (Pool.held Pc.hand (p.threads.set i pc')).count k + s'.rest k = (List.range s'.made).count k
    omega
  · -- a finished thread takes no step
    simp only [hmoves.stop] at hrest
    have hdone := (h.joined rest hrest).2 pc (List.mem_of_getElem? hpc)
    rw [hdone] at hadv
    cases hadv
  · simp only [hmoves.stop] at hall
    exact hmoves.accepting.trans (h.accepting all hall)

/-- `stop` moves on and takes nothing out of the registry. -/
theorem Accounted.moveStop {p : Pool State Pc} (h : Accounted p) {s' : State} (hbefore : isIdle p.shared.stop = false)
    (hafter : isIdle s'.stop = false) (hregistry : s'.registry = p.shared.registry) (hlate : s'.late = p.shared.late)
    (hmade : s'.made = p.shared.made) (hrest : ∀ k, s'.rest k = p.shared.rest k)
    (hjoined : ∀ rest, s'.stop = .notifying rest ∨ s'.stop = .returned →
      s'.accepting = false ∧ ∀ pc ∈ p.threads, pc = .done)
    (haccepting : ∀ all, s'.stop = .joining all → s'.accepting = false) : Accounted { p with shared := s' } where
  places := fun k => by
    show (Pool.held Pc.hand p.threads).count k + s'.rest k = (List.range s'.made).count k
    rw [hrest, hmade]
    exact h.places k
  late := fun k => by
    have hk := h.late k
    rw [State.lateIn, hbefore] at hk
    show s'.late.count k = s'.lateIn k
    rw [State.lateIn, hafter, hlate, hregistry]
    exact hk
  joined := hjoined
  accepting := haccepting

/-- `remove_all` hands every session that is registered to `stop`. -/
theorem Accounted.removeAll {p : Pool State Pc} (h : Accounted p) (hstop : p.shared.stop = .idle) :
    Accounted { p with shared := { p.shared with
      registry := p.shared.registry.removeAll.2
      stop := .disconnecting (sessions p.shared.registry) (sessions p.shared.registry) } } where
  places := fun k => by
    have hk := h.places k
    simp only [State.rest, hstop, Stop.hand, List.count_nil] at hk
    simp only [State.rest, Stop.hand, SessionRegistry.removeAll, sessions, Dict.values_empty, List.map_nil,
      List.count_nil] at hk ⊢
    omega
  late := fun k => by
    have hk := h.late k
    simp only [State.lateIn, hstop, isIdle, if_true] at hk
    simp [State.lateIn, isIdle, SessionRegistry.removeAll, sessions, hk]
  joined := fun rest hrest => by rcases hrest with hrest | hrest <;> cases hrest
  accepting := fun all hall => by cases hall

theorem Accounted.advanceStop {p q : Pool State Pc} (h : Accounted p) (hstep : advanceStop p = some q) : Accounted q := by
  rw [SessionStop.advanceStop] at hstep
  cases hstop : p.shared.stop with
  | idle =>
    rw [hstop] at hstep
    cases hstep
    exact h.removeAll hstop
  | disconnecting all rest =>
    rw [hstop] at hstep
    cases rest with
    | nil =>
      cases hstep
      refine h.moveStop (by rw [hstop]; rfl) rfl rfl rfl rfl ?_ ?_ ?_
      · intro k
        simp only [State.rest, hstop, Stop.hand]
      · rintro rest (hrest | hrest) <;> cases hrest
      · exact fun _ _ => rfl
    | cons session rest =>
      cases hstep
      refine h.moveStop (by rw [hstop]; rfl) rfl rfl rfl rfl ?_ ?_ ?_
      · intro k
        simp only [State.rest, hstop, Stop.hand]
      · rintro rest (hrest | hrest) <;> cases hrest
      · rintro all hall
        cases hall
  | joining all =>
    rw [hstop] at hstep
    by_cases hdone : p.threads.all Pc.isDone = true
    · simp only [hdone, if_true] at hstep
      cases hstep
      refine h.moveStop (by rw [hstop]; rfl) rfl rfl rfl rfl ?_ ?_ ?_
      · intro k
        simp only [State.rest, hstop, Stop.hand]
      · refine fun rest hrest => ⟨h.accepting all hstop, fun pc hpc => ?_⟩
        have hone := List.all_eq_true.1 hdone pc hpc
        cases pc with
        | done => rfl
        | _ => cases hone
      · rintro all hall
        cases hall
    · simp only [hdone] at hstep
      cases hstep
  | notifying rest =>
    rw [hstop] at hstep
    cases rest with
    | nil =>
      cases hstep
      refine h.moveStop (by rw [hstop]; rfl) rfl rfl rfl rfl ?_ ?_ ?_
      · intro k
        simp only [State.rest, hstop, Stop.hand]
      · exact fun _ _ => h.joined [] (.inl hstop)
      · rintro all hall
        cases hall
    | cons session rest =>
      cases hstep
      refine h.moveStop (by rw [hstop]; rfl) rfl rfl rfl rfl ?_ ?_ ?_
      · -- the session called for leaves `stop`'s hand
        intro k
        simp only [State.rest, hstop, Stop.hand, ← List.singleton_append (l := rest), List.count_append]
        omega
      · exact fun _ _ => h.joined _ (.inl hstop)
      · rintro all hall
        cases hall
  | returned =>
    rw [hstop] at hstep
    cases hstep

/-- **The step lemma.** -/
theorem Accounted.step {o : HttpSessionServerOptions} {text : JsonText Bytes} {p q : Pool State Pc} {l : Label}
    (h : Accounted p) (hstep : step o text p l = some q) : Accounted q := by
  cases l with
  | accept r =>
    simp only [SessionStop.step] at hstep
    by_cases haccepting : p.shared.accepting = true
    · simp only [haccepting, if_true] at hstep
      cases hstep
      refine ⟨fun k => ?_, h.late, fun rest hrest => ?_, h.accepting⟩
      · have hk := h.places k
        simp only [Pool.spawn, Pool.held_append_singleton, Pc.hand, List.append_nil]
        exact hk
      · have hclosed := (h.joined rest hrest).1
        rw [haccepting] at hclosed
        cases hclosed
    · simp only [haccepting] at hstep
      cases hstep
  | step i => exact h.stepAt hstep
  | stop => exact h.advanceStop hstep

theorem accounted_of_run {o : HttpSessionServerOptions} {text : JsonText Bytes} {labels : List Label} {p : Pool State Pc}
    (hrun : Lts.run (step o text) init labels = some p) : Accounted p :=
  Lts.run_invariant (fun _ _ _ hp hstep => hp.step hstep) accounted_init hrun

/-! ## When all is closed -/

theorem closed_iff_noneLeft {p : Pool State Pc} (h : Accounted p) (hreturned : p.shared.stop = .returned) :
    Closed p.shared ↔ NoneLeft p.shared := by
  have hnobody : Pool.held Pc.hand p.threads = [] := List.flatMap_eq_nil_iff.2 fun pc hpc => by
    rw [(h.joined [] (.inr hreturned)).2 pc hpc]
    rfl
  have hplaces : ∀ k, (sessions p.shared.registry).count k + p.shared.closed.count k + p.shared.overwritten.count k =
      (List.range p.shared.made).count k := fun k => by
    have hk := h.places k
    simp only [hnobody, State.rest, hreturned, Stop.hand, List.count_nil] at hk
    omega
  have hlate : ∀ k, p.shared.late.count k = (sessions p.shared.registry).count k := fun k => by
    rw [h.late k, State.lateIn, hreturned]
    rfl
  have hrange : ∀ k, (List.range p.shared.made).count k = if k < p.shared.made then 1 else 0 := fun k => by
    rw [List.nodup_range.count]
    simp
  constructor
  · rintro ⟨honce, hempty⟩
    have hnone : sessions p.shared.registry = [] := by rw [hempty]; rfl
    refine ⟨List.eq_nil_iff_forall_not_mem.2 fun k hk => ?_, List.eq_nil_iff_forall_not_mem.2 fun k hk => ?_⟩
    · have hpos := List.count_pos_iff.2 hk
      have hsum := hplaces k
      rw [hrange] at hsum
      by_cases hmade : k < p.shared.made
      · have hclosed := honce k hmade
        rw [if_pos hmade] at hsum
        omega
      · rw [if_neg hmade] at hsum
        omega
    · have hpos := List.count_pos_iff.2 hk
      rw [hlate, hnone, List.count_nil] at hpos
      cases hpos
  · rintro ⟨hover, hnolate⟩
    have hnone : ∀ k, (sessions p.shared.registry).count k = 0 := fun k => by rw [← hlate, hnolate, List.count_nil]
    refine ⟨fun k hmade => ?_, ?_⟩
    · have hsum := hplaces k
      rw [hrange, if_pos hmade, hnone, hover, List.count_nil] at hsum
      omega
    · have hnil : sessions p.shared.registry = [] := List.eq_nil_iff_forall_not_mem.2 fun k hk => by
        have hpos := List.count_pos_iff.2 hk
        rw [hnone] at hpos
        cases hpos
      exact Dict.values_eq_nil.1 (List.map_eq_nil_iff.1 hnil)

/-- In a run that registers its sessions in time none is left behind. -/
theorem noneLeft_of_timely {o : HttpSessionServerOptions} {text : JsonText Bytes} {labels : List Label} {p : Pool State Pc}
    (hmeets : Lts.Meets (step o text) Timely init labels) (hrun : Lts.run (step o text) init labels = some p) :
    NoneLeft p.shared := by
  refine Lts.meets_invariant (I := fun p => NoneLeft p.shared) (fun p l q hn htimely hstep => ?_) ⟨rfl, rfl⟩ hmeets hrun
  cases l with
  | accept r =>
    simp only [step] at hstep
    split at hstep
    · cases hstep
      exact hn
    · cases hstep
  | step i =>
    obtain ⟨pc, s', pc', hpc, hadv, rfl⟩ := Pool.stepAt_eq_some.1 hstep
    simp only [Timely, hpc, Option.all_some] at htimely
    exact (advance_moves hadv).left htimely hn
  | stop =>
    simp only [step, advanceStop] at hstep
    (repeat' split at hstep) <;> cases hstep <;> exact hn

/-- **Once `stop()` has returned, every session is closed exactly when none was left behind**, and none is in a run that
registers its sessions in time. -/
theorem stop_closes_iff {o : HttpSessionServerOptions} {text : JsonText Bytes} {labels : List Label} {p : Pool State Pc}
    (hrun : Lts.run (step o text) init labels = some p) (hreturned : p.shared.stop = .returned) :
    (Closed p.shared ↔ NoneLeft p.shared) ∧ (Lts.Meets (step o text) Timely init labels → Closed p.shared) := by
  have hiff := closed_iff_noneLeft (accounted_of_run hrun) hreturned
  exact ⟨hiff, fun hmeets => hiff.2 (noneLeft_of_timely hmeets hrun)⟩

def helloRequest : SessionRequest := HttpSessionServer.request (bytes "POST") [] (bytes "hello")

/-- A session is made and registered, then `stop()` runs. -/
def stopAfterCreate : List Label :=
  .accept helloRequest :: (List.replicate 6 (.step 0) ++ List.replicate 6 .stop)

/-- `remove_all` comes between the factory and the registry. -/
def stopBeforeCreate : List Label :=
  .accept helloRequest :: (List.replicate 3 (.step 0) ++ .stop :: (List.replicate 3 (.step 0) ++ List.replicate 3 .stop))

def Stop.isReturned : Stop → Bool
  | returned => true
  | _ => false

theorem Stop.eq_returned {stop : Stop} (h : stop.isReturned = true) : stop = .returned := by
  cases stop with
  | returned => rfl
  | _ => cases h

theorem stop_closes_iff_stopAfterCreate :
    ∃ p, Lts.run (step {} HttpSessionServer.sessionText) init stopAfterCreate = some p ∧ p.shared.made = 1 ∧
      Closed p.shared := by
  have heval : (Lts.run (step {} HttpSessionServer.sessionText) init stopAfterCreate).map
      (fun p => (p.shared.made, p.shared.stop.isReturned)) = some (1, true) := by decide +kernel
  obtain ⟨p, hrun, h⟩ := Option.map_eq_some_iff.1 heval
  obtain ⟨hmade, hstop⟩ := Prod.mk.inj h
  have hreturned : p.shared.stop = .returned := Stop.eq_returned hstop
  exact ⟨p, hrun, hmade, (stop_closes_iff hrun hreturned).2 (by decide +kernel)⟩

/-- The session is never closed and stays in the registry. -/
theorem stopBeforeCreate_leaves :
    ∃ p, Lts.run (step {} HttpSessionServer.sessionText) init stopBeforeCreate = some p ∧ p.shared.stop = .returned ∧
      p.shared.made = 1 ∧ p.shared.closed = [] ∧ (sessions p.shared.registry) = [0] ∧ ¬ Closed p.shared := by
  have heval : (Lts.run (step {} HttpSessionServer.sessionText) init stopBeforeCreate).map
      (fun p => (p.shared.stop.isReturned, p.shared.made, p.shared.closed, sessions p.shared.registry)) =
        some (true, 1, [], [0]) := by decide +kernel
  obtain ⟨p, hrun, h⟩ := Option.map_eq_some_iff.1 heval
  obtain ⟨hstop, hrest⟩ := Prod.mk.inj h
  obtain ⟨hmade, hrest⟩ := Prod.mk.inj hrest
  obtain ⟨hclosed, hsessions⟩ := Prod.mk.inj hrest
  have hreturned : p.shared.stop = .returned := Stop.eq_returned hstop
  refine ⟨p, hrun, hreturned, hmade, hclosed, hsessions, fun hall => ?_⟩
  have honce := hall.once 0 (by omega)
  rw [hclosed] at honce
  cases honce

end SessionStop
end Mcp
