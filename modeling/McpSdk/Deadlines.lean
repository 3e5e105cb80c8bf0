import McpSdk.RequestsOnce
/-!
# Deadlines — no request times out early, and none twice

What the timer mutex guards changes in few ways (`TimerMove`): a `send_request` tracks its request, a completion clears it,
a progress notification restarts the clocks of its token, a scan takes out what has expired, a close takes out everything.
A run keeps a log of the first, the third and the fourth, and every stored deadline is tied to the last entry of the log
that armed it.

The timer thread may wake at any time here: the wait on the nearest deadline only decides when a scan happens, and what a
scan finds is read under the lock it holds.
-/
namespace Mcp
namespace Requests

open scoped List

/-! ## What a section does to the timers -/

/-- The `send_request` of a thread that has not tracked its request yet. -/
def Pc.request : Pc → Option (RequestId × RequestOptions)
  | sendRegister id _ _ _ options => some (id, options)
  | sendTrack id _ _ options => some (id, options)
  | _ => none

/-- The id whose tracking a thread is about to clear. -/
def Pc.clearing : Pc → Option RequestId
  | responseClear id _ => some id
  | cancelClear id _ => some id
  | _ => none

/-- The thread has cleared the tracking of `k` and is about to take its callback. -/
def Pc.clears (k : RequestId) : Pc → Bool
  | responseTake id _ => id == k
  | cancelTake id _ => id == k
  | expired ids => ids.contains k
  | expireTake id ids => (id :: ids).contains k
  | expireCall _ ids => ids.contains k
  | closeSwap _ => true
  | _ => false

/-- **What a section does to the timers and to the pending table**: nothing; it registers, tracks, clears, takes; restarts
clocks; or clears or takes everything. -/
inductive TimerMove (s : State) (pc : Pc) (s' : State) (pc' : Pc) : Prop
  | keep (timers : s'.timers = s.timers) (pending : s'.pending = s.pending)
      (clears : ∀ k, pc'.clears k = true → pc.clears k = true)
  | register (id : RequestId) (callback : Callback) (method : Bytes) (params : Option Json) (options : RequestOptions)
      (before : pc = .sendRegister id callback method params options) (after : pc' = .sendTrack id method params options)
      (timers : s'.timers = s.timers) (pending : s'.pending = s.pending.insert id callback)
  | track (id : RequestId) (method : Bytes) (params : Option Json) (options : RequestOptions)
      (before : pc = .sendTrack id method params options) (after : pc' = .sendMessage id method params)
      (timers : s'.timers = s.timers.track s.now id options) (pending : s'.pending = s.pending)
  | clear (id : RequestId) (before : pc.clearing = some id) (after : ∀ k, pc'.clears k = true ↔ k = id)
      (timers : s'.timers = s.timers.clear id) (pending : s'.pending = s.pending)
  | progress (note : ProgressNotification) (before : pc = .progressClock note) (after : ∀ k, pc'.clears k = false)
      (timers : s'.timers = (s.timers.progress s.now note.progressToken).2) (pending : s'.pending = s.pending)
  | take (id : RequestId) (before : pc.clears id = true) (after : ∀ k, pc'.clears k = true → pc.clears k = true)
      (timers : s'.timers = s.timers) (pending : s'.pending = s.pending.erase id)
  | clearAll (after : ∀ k, pc'.clears k = true) (timers : s'.timers = {}) (pending : s'.pending = s.pending)
  | takeAll (before : ∀ k, pc.clears k = true) (after : ∀ k, pc'.clears k = false) (timers : s'.timers = s.timers)
      (pending : s'.pending = ∅)

theorem takePending_eq {s s' : State} {id : RequestId} {pc' : Pc} {found : Callback → Pc} {missing : Pc}
    (h : (match takePending s.pending id with
      | (some callback, pending) => some ({ s with pending }, found callback)
      | (none, pending) => some ({ s with pending }, missing)) = some (s', pc')) :
    s' = { s with pending := s.pending.erase id } ∧ ((∃ callback, pc' = found callback) ∨ pc' = missing) := by
  simp only [takePending] at h
  cases hl : s.pending.lookup id with
  | none =>
    rw [hl] at h
    obtain ⟨rfl, rfl⟩ := Pool.section_inj h
    exact ⟨rfl, .inr rfl⟩
  | some callback =>
    rw [hl] at h
    obtain ⟨rfl, rfl⟩ := Pool.section_inj h
    exact ⟨rfl, .inl ⟨callback, rfl⟩⟩

theorem stop_clears (t : Transport) (own onReader : Bool) :
    (∀ k, (t.stop own onReader).2.clears k = false) ∧ (t.stop own onReader).2.request = none := by
  fun_cases Transport.stop <;> exact ⟨fun _ => rfl, rfl⟩

/-- What a section leaves of the clock and of its own `send_request`. -/
structure Section (s : State) (pc : Pc) (s' : State) (pc' : Pc) : Prop where
  now : s'.now = s.now
  request : pc'.request = none ∨ pc'.request = pc.request
  move : TimerMove s pc s' pc'

/-- **The spec of a section.** -/
theorem advance_timers {s s' : State} {pc pc' : Pc} (h : advance s pc = some (s', pc')) : Section s pc s' pc' := by
  cases pc with
  | done => cases h
  | sendRegister id callback method params options =>
    obtain ⟨rfl, rfl⟩ := Pool.section_inj h
    exact ⟨rfl, .inr rfl, .register id callback method params options rfl rfl rfl rfl⟩
  | sendTrack id method params options =>
    obtain ⟨rfl, rfl⟩ := Pool.section_inj h
    exact ⟨rfl, .inl rfl, .track id method params options rfl rfl rfl rfl⟩
  | responseClear id r =>
    obtain ⟨rfl, rfl⟩ := Pool.section_inj h
    exact ⟨rfl, .inl rfl, .clear id rfl (fun k => beq_iff_eq.trans eq_comm) rfl rfl⟩
  | cancelClear id reason =>
    obtain ⟨rfl, rfl⟩ := Pool.section_inj h
    exact ⟨rfl, .inl rfl, .clear id rfl (fun k => beq_iff_eq.trans eq_comm) rfl rfl⟩
  | responseTake id r =>
    obtain ⟨rfl, ⟨callback, rfl⟩ | rfl⟩ := takePending_eq h <;>
      exact ⟨rfl, .inl rfl, .take id (by simp [Pc.clears]) (fun k hk => by simp [Pc.clears] at hk) rfl rfl⟩
  | cancelTake id reason =>
    obtain ⟨rfl, ⟨callback, rfl⟩ | rfl⟩ := takePending_eq h <;>
      exact ⟨rfl, .inl rfl, .take id (by simp [Pc.clears]) (fun k hk => by simp [Pc.clears] at hk) rfl rfl⟩
  | expireTake id ids =>
    obtain ⟨rfl, ⟨callback, rfl⟩ | rfl⟩ := takePending_eq h <;>
      exact ⟨rfl, .inl rfl, .take id (by simp [Pc.clears]) (fun k hk => by simpa [Pc.clears] using Or.inr hk) rfl rfl⟩
  | progressClock note =>
    simp only [advance] at h
    cases hl : (s.timers.progress s.now note.progressToken).1 with
    | none =>
      have hpair : s.timers.progress s.now note.progressToken = (none, (s.timers.progress s.now note.progressToken).2) := by
        rw [← hl]
      rw [hpair] at h
      obtain ⟨rfl, rfl⟩ := Pool.section_inj h
      exact ⟨rfl, .inl rfl, .progress note rfl (fun _ => rfl) rfl rfl⟩
    | some callback =>
      have hpair : s.timers.progress s.now note.progressToken =
          (some callback, (s.timers.progress s.now note.progressToken).2) := by
        rw [← hl]
      rw [hpair] at h
      obtain ⟨rfl, rfl⟩ := Pool.section_inj h
      exact ⟨rfl, .inl rfl, .progress note rfl (fun _ => rfl) rfl rfl⟩
  | closeClear k =>
    obtain ⟨rfl, rfl⟩ := Pool.section_inj h
    exact ⟨rfl, .inl rfl, .clearAll (fun _ => rfl) rfl rfl⟩
  | closeSwap k =>
    obtain ⟨rfl, rfl⟩ := Pool.section_inj h
    exact ⟨rfl, .inl rfl, .takeAll (fun _ => rfl) (fun _ => rfl) rfl rfl⟩
  | expired ids =>
    cases ids with
    | nil =>
      obtain ⟨rfl, rfl⟩ := Pool.section_inj h
      exact ⟨rfl, .inl rfl, .keep rfl rfl (fun _ hk => by cases hk)⟩
    | cons id ids =>
      obtain ⟨rfl, rfl⟩ := Pool.section_inj h
      exact ⟨rfl, .inl rfl, .keep rfl rfl (fun _ hk => hk)⟩
  | closeCalls k callbacks =>
    cases callbacks with
    | nil => cases k <;> (obtain ⟨rfl, rfl⟩ := Pool.section_inj h; exact ⟨rfl, .inl rfl, .keep rfl rfl (fun _ hk => by cases hk)⟩)
    | cons c callbacks =>
      obtain ⟨rfl, rfl⟩ := Pool.section_inj h
      exact ⟨rfl, .inl rfl, .keep rfl rfl (fun _ hk => by cases hk)⟩
  | transportStop own onReader =>
    obtain ⟨rfl, rfl⟩ := Pool.section_inj h
    obtain ⟨hclears, hrequest⟩ := stop_clears s.transport own onReader
    exact ⟨rfl, .inl hrequest, .keep rfl rfl (fun k hk => by rw [hclears k] at hk; cases hk)⟩
  | transportJoin own onReader =>
    simp only [advance] at h
    split at h
    · obtain ⟨rfl, rfl⟩ := Pool.section_inj h
      exact ⟨rfl, .inl rfl, .keep rfl rfl (fun _ hk => by cases hk)⟩
    · cases h
  | expireCall callback ids =>
    obtain ⟨rfl, rfl⟩ := Pool.section_inj h
    exact ⟨rfl, .inl rfl, .keep rfl rfl (fun _ hk => hk)⟩
  | sendMessage | responseCall | progressCall | cancelNotify | cancelCall | closeState | transportReturn =>
    obtain ⟨rfl, rfl⟩ := Pool.section_inj h
    exact ⟨rfl, .inl rfl, .keep rfl rfl (fun _ hk => by cases hk)⟩

/-- **A step that is no section and no scan**: it leaves the timers and the pending table, and may start a thread. -/
structure Outside (p : Pool State Pc) (l : Label) (q : Pool State Pc) : Prop where
  timers : q.shared.timers = p.shared.timers
  pending : q.shared.pending = p.shared.pending
  now : p.shared.now ≤ q.shared.now
  threads : ∃ started, q.threads = p.threads ++ started ∧
    ∀ pc ∈ started, (∀ k, pc.clears k = false) ∧
      ∀ id options, pc.request = some (id, options) → ∃ method params sent, l = .sendRequest method params options ∧
        id = .int p.shared.nextRequestId ∧ requestParams params options = .ok sent

theorem Outside.spawn {p : Pool State Pc} {l : Label} {s : State} {pc : Pc} (htimers : s.timers = p.shared.timers)
    (hpending : s.pending = p.shared.pending) (hnow : s.now = p.shared.now) (hclears : ∀ k, pc.clears k = false)
    (hrequest : pc.request = none) : Outside p l (p.spawn s pc) where
  timers := htimers
  pending := hpending
  now := Int.le_of_eq hnow.symm
  threads := by
    refine ⟨[pc], rfl, fun x hx => ?_⟩
    obtain rfl := List.mem_singleton.1 hx
    exact ⟨hclears, fun id options h => by rw [hrequest] at h; cases h⟩

theorem Outside.quiet {p : Pool State Pc} {l : Label} {s : State} (htimers : s.timers = p.shared.timers)
    (hpending : s.pending = p.shared.pending) (hnow : p.shared.now ≤ s.now) : Outside p l ⟨s, p.threads⟩ where
  timers := htimers
  pending := hpending
  now := hnow
  threads := ⟨[], (List.append_nil _).symm, fun _ h => by cases h⟩

theorem Outside.startSend (p : Pool State Pc) (method : Bytes) (params : Option Json) (options : RequestOptions) :
    Outside p (.sendRequest method params options)
      (p.spawn (startSend p.shared method params options).1 (startSend p.shared method params options).2) := by
  unfold Requests.startSend
  cases hsent : requestParams params options with
  | error e => exact .spawn rfl rfl rfl (fun _ => rfl) rfl
  | ok sent =>
    refine ⟨rfl, rfl, Int.le_refl _, [_], rfl, fun x hx => ?_⟩
    obtain rfl := List.mem_singleton.1 hx
    refine ⟨fun _ => rfl, fun id o h => ?_⟩
    obtain ⟨rfl, rfl⟩ := Prod.mk.inj (Option.some.inj h)
    exact ⟨method, params, sent, rfl, rfl, hsent⟩

/-- **The three kinds of steps.** -/
inductive Shape (p : Pool State Pc) (l : Label) (q : Pool State Pc) : Prop
  | section_ (i : Nat) (label : l = .step i) (pc : Pc) (s' : State) (pc' : Pc) (at_ : p.threads[i]? = some pc)
      (adv : advance p.shared pc = some (s', pc')) (result : q = ⟨s', p.threads.set i pc'⟩)
  | scan (label : l = .timerScan) (result : q = p.spawn { p.shared with timers := (p.shared.timers.expire p.shared.now).2 }
      (.expired (p.shared.timers.expire p.shared.now).1))
  | outside (section_ : ∀ i, l ≠ .step i) (scan : l ≠ .timerScan) (spec : Outside p l q)

theorem step_shape {p q : Pool State Pc} {l : Label} (h : step p l = some q) : Shape p l q := by
  cases l with
  | step i =>
    obtain ⟨pc, s', pc', hpc, hadv, rfl⟩ := Pool.stepAt_eq_some.1 h
    exact .section_ i rfl pc s' pc' hpc hadv rfl
  | timerScan =>
    simp only [step] at h
    split at h
    · cases h
    · exact .scan rfl (Option.some.inj h).symm
  | sendRequest method params options =>
    obtain rfl := Option.some.inj h
    exact .outside (by simp) (by simp) (.startSend p method params options)
  | response r =>
    obtain rfl := Option.some.inj h
    refine .outside (by simp) (by simp) (.spawn rfl rfl rfl ?_ ?_)
    · cases r.id <;> exact fun _ => rfl
    · cases r.id <;> rfl
  | progress | cancelRequest | disconnect | transportDisconnect =>
    obtain rfl := Option.some.inj h
    exact .outside (by simp) (by simp) (.spawn rfl rfl rfl (fun _ => rfl) rfl)
  | connect =>
    obtain rfl := Option.some.inj h
    exact .outside (by simp) (by simp) (.quiet rfl rfl (Int.le_refl _))
  | tick elapsed =>
    obtain rfl := Option.some.inj h
    exact .outside (by simp) (by simp) (.quiet rfl rfl (Int.le_add_of_nonneg_right (Int.natCast_nonneg elapsed)))
  | readerCloses =>
    obtain ⟨⟨t, pc⟩, ht, rfl⟩ := Option.map_eq_some_iff.1 h
    rcases readerCloses_pc ht with rfl | rfl <;>
      exact .outside (by simp) (by simp) (.spawn rfl rfl rfl (fun _ => rfl) rfl)
  | readerReturns =>
    obtain ⟨t, -, rfl⟩ := Option.map_eq_some_iff.1 h
    exact .outside (by simp) (by simp) (.quiet rfl rfl (Int.le_refl _))

end Requests

/-! ## What is found in the timers afterwards -/

namespace Timers

variable {t : Timers} {now : TimePoint} {k : RequestId} {d : Deadline}

theorem lookup_track {id : RequestId} {o : RequestOptions} (h : (t.track now id o).deadlines.lookup k = some d) :
    (k = id ∧ ∃ timeout, timeoutOf o = some timeout ∧ d = ⟨deadlineAt now timeout, timeout, o.progressToken⟩) ∨
      ((k = id → timeoutOf o = none) ∧ t.deadlines.lookup k = some d) := by
  unfold track at h
  cases htimed : timeoutOf o with
  | none =>
    rw [htimed] at h
    exact .inr ⟨fun _ => rfl, h⟩
  | some timeout =>
    rw [htimed] at h
    rcases Dict.lookup_insert_eq_some.1 h with ⟨rfl, rfl⟩ | ⟨hne, h⟩
    · exact .inl ⟨rfl, timeout, rfl, rfl⟩
    · exact .inr ⟨fun heq => absurd heq hne, h⟩

theorem lookup_clear {id : RequestId} (h : (t.clear id).deadlines.lookup k = some d) :
    k ≠ id ∧ t.deadlines.lookup k = some d := by
  unfold clear at h
  cases hl : t.deadlines.lookup id with
  | none =>
    rw [hl] at h
    refine ⟨fun heq => ?_, h⟩
    rw [heq, hl] at h
    cases h
  | some e =>
    rw [hl] at h
    exact Dict.lookup_erase_eq_some.1 h

theorem lookup_progress {token : ProgressToken} (h : (t.progress now token).2.deadlines.lookup k = some d) :
    ∃ e, t.deadlines.lookup k = some e ∧
      d = if e.progressToken = some token then { e with at_ := deadlineAt now e.timeout } else e := by
  unfold progress at h
  dsimp only at h
  rw [Dict.lookup_mapValues] at h
  obtain ⟨e, he, rfl⟩ := Option.map_eq_some_iff.1 h
  exact ⟨e, he, rfl⟩

theorem mem_expire_keys : k ∈ (t.expire now).1 ↔ ∃ d, t.deadlines.lookup k = some d ∧ d.at_ ≤ now := by
  show k ∈ Dict.filter (fun _ d => decide (d.at_ ≤ now)) t.deadlines ↔ _
  rw [← AList.lookup_isSome, Dict.lookup_filter, Option.isSome_iff_exists]
  simp only [Option.filter_eq_some_iff, decide_eq_true_eq]

theorem nodup_expire_keys (t : Timers) (now : TimePoint) : (t.expire now).1.Nodup := AList.keys_nodup _

theorem lookup_expire (h : (t.expire now).2.deadlines.lookup k = some d) : t.deadlines.lookup k = some d ∧ now < d.at_ := by
  unfold expire at h
  dsimp only at h
  rw [Dict.lookup_filter, Option.filter_eq_some_iff] at h
  exact ⟨h.1, by simpa using h.2⟩

end Timers

namespace Deadlines

open Requests (State Pc Label Transport)
open scoped List

/-! ## The log of a run -/

/-- What the timer section of a `send_request` arms, on whose behalf and when. -/
structure Arming where
  thread : Nat
  timeout : Int
  token : Option ProgressToken
  setAt : TimePoint

inductive Event where
  | armed (id : RequestId) (a : Arming)
  | progressed (token : ProgressToken) (at_ : TimePoint)
  | expired (id : RequestId) (at_ : TimePoint)

/-- What the next section of a thread enters in the log. -/
def enters (s : State) (thread : Nat) : Pc → List Event
  | .sendTrack id _ _ options =>
    match Timers.timeoutOf options with
    | some timeout => [.armed id ⟨thread, timeout, options.progressToken, s.now⟩]
    | none => []
  | .progressClock note => [.progressed note.progressToken s.now]
  | _ => []

def events (p : Pool State Pc) : Label → List Event
  | .timerScan => (p.shared.timers.expire p.shared.now).1.map (fun id => .expired id p.shared.now)
  | .step i =>
    match p.threads[i]? with
    | some pc => enters p.shared i pc
    | none => []
  | _ => []

structure Logged where
  pool : Pool State Pc
  log : List Event := []

def step (t : Logged) (l : Label) : Option Logged :=
  (Requests.step t.pool l).map fun pool => { pool, log := t.log ++ events t.pool l }

def init (transport : Transport) : Logged := { pool := Requests.init transport }

/-! ## The property -/

/-- The requests whose deadline is set, by the log alone, and those that expired.  A request is the thread that sends it. -/
structure Ledger where
  armed : Dict RequestId Arming := ∅
  expired : List Nat := []

def Ledger.enter (g : Ledger) : Event → Ledger
  | .armed id a => { g with armed := g.armed.insert id a }
  | .progressed _ _ => g
  | .expired id _ =>
    match g.armed.lookup id with
    | some a => { armed := g.armed.erase id, expired := g.expired ++ [a.thread] }
    | none => g

def ledger (log : List Event) : Ledger := log.foldl Ledger.enter {}

/-- **An expiry comes late enough**: a timeout after the request was armed, and after every progress with its token. -/
def InTime (past : List Event) : Event → Prop
  | .expired id at_ =>
    ∃ a, (ledger past).armed.lookup id = some a ∧ deadlineAt a.setAt a.timeout ≤ at_ ∧
      ∀ token, a.token = some token → ∀ u, .progressed token u ∈ past → deadlineAt u a.timeout ≤ at_
  | _ => True

/-! ## One expiry a request -/

/-- The threads that armed a deadline. -/
def armings (log : List Event) : List Nat :=
  log.filterMap fun
    | .armed _ a => some a.thread
    | _ => none

/-- The requests the ledger knows of. -/
def Ledger.threads (g : Ledger) : List Nat := (Dict.values g.armed).map Arming.thread ++ g.expired

theorem threads_enter (g : Ledger) (e : Event) : (g.enter e).threads <+~ g.threads ++ armings [e] := by
  cases e with
  | armed id a =>
    have hinsert : (Dict.values (g.armed.insert id a)).map Arming.thread <+~ a.thread :: (Dict.values g.armed).map Arming.thread := by
      exact ((Dict.values_insert_sublist g.armed id a).map Arming.thread).subperm
    have happend := hinsert.append (List.Subperm.refl g.expired)
    exact happend.trans (List.perm_append_singleton _ _).symm.subperm
  | progressed token u => simpa [Ledger.enter, armings] using List.Subperm.refl g.threads
  | expired id u =>
    rw [Ledger.enter]
    cases hl : g.armed.lookup id with
    | none => simpa [armings] using List.Subperm.refl g.threads
    | some a =>
      have hvalues := (Dict.values_perm_of_lookup hl).map Arming.thread
      have hout : (Dict.values (g.armed.erase id)).map Arming.thread ++ (g.expired ++ [a.thread]) ~ g.threads := by
        unfold Ledger.threads
        refine List.Perm.trans ?_ (hvalues.append_right g.expired).symm
        rw [← List.append_assoc]
        exact List.perm_append_singleton _ _
      have hnone : armings [.expired id u] = [] := rfl
      rw [hnone, List.append_nil]
      exact hout.subperm

theorem threads_foldl : ∀ (log : List Event) (g : Ledger), (log.foldl Ledger.enter g).threads <+~ g.threads ++ armings log
  | [], g => by simpa [armings] using List.Subperm.refl g.threads
  | e :: log, g => by
    have hcons : armings (e :: log) = armings [e] ++ armings log := @List.filterMap_append _ _ [e] log _
    rw [List.foldl_cons, hcons, ← List.append_assoc]
    exact (threads_foldl log (g.enter e)).trans ((threads_enter g e).append (List.Subperm.refl _))

theorem ledger_snoc (log : List Event) (e : Event) : ledger (log ++ [e]) = (ledger log).enter e := by
  unfold ledger
  rw [List.foldl_append]
  rfl

def Event.isExpiry : Event → Bool
  | .expired _ _ => true
  | _ => false

/-- Every expiry in time is of a request the ledger has armed, so the ledger counts them all. -/
theorem length_expired : ∀ {log past : List Event}, Lts.EachAfter InTime past log →
    (ledger (past ++ log)).expired.length = (ledger past).expired.length + log.countP Event.isExpiry
  | [], past, _ => by rw [List.append_nil, List.countP_nil, Nat.add_zero]
  | e :: log, past, h => by
    have hsplit : past ++ e :: log = past ++ [e] ++ log := by simp
    rw [hsplit, length_expired h.2, ledger_snoc, List.countP_cons]
    cases e with
    | armed id a => rfl
    | progressed token u => rfl
    | expired id u =>
      obtain ⟨a, ha, -⟩ := h.1
      simp only [Ledger.enter, ha, Event.isExpiry, List.length_append, List.length_singleton, if_true]
      omega

/-- **A request expires once** if each thread arms once. -/
theorem nodup_expired {log : List Event} (h : (armings log).Nodup) : (ledger log).expired.Nodup := by
  have hsub : (ledger log).threads <+~ armings log := by simpa [ledger, Ledger.threads] using threads_foldl log {}
  obtain ⟨l, hperm, hl⟩ := hsub
  exact (List.nodup_append.1 (hperm.nodup_iff.1 (hl.nodup h))).2.1

/-! ## The invariant -/

/-- The deadline stored for an armed request is late enough for all the log says so far. -/
structure Follows (log : List Event) (d : Deadline) (a : Arming) : Prop where
  timeout : d.timeout = a.timeout
  token : d.progressToken = a.token
  armed : deadlineAt a.setAt a.timeout ≤ d.at_
  progressed : ∀ token, a.token = some token → ∀ u, .progressed token u ∈ log → deadlineAt u a.timeout ≤ d.at_

/-- **The invariant**: the log has no time to come, and every stored deadline follows the entry that armed it. -/
structure Timely (now : TimePoint) (deadlines : Dict RequestId Deadline) (log : List Event) : Prop where
  past : ∀ token u, .progressed token u ∈ log → u ≤ now
  stored : ∀ id d, deadlines.lookup id = some d →
    ∃ a, (ledger log).armed.lookup id = some a ∧ a.setAt ≤ now ∧ Follows log d a
  inTime : Lts.EachAfter InTime [] log

theorem deadlineAt_mono {u v : TimePoint} (h : u ≤ v) (timeout : Int) : deadlineAt u timeout ≤ deadlineAt v timeout :=
  Int.add_le_add_right h _

theorem inTime_snoc {log : List Event} {e : Event} (h : Lts.EachAfter InTime [] log) (he : InTime log e) :
    Lts.EachAfter InTime [] (log ++ [e]) :=
  Lts.eachAfter_append.2 ⟨h, he, trivial⟩

section Steps

variable {now : TimePoint} {deadlines : Dict RequestId Deadline} {log : List Event}

/-- Time goes on, and deadlines are dropped. -/
theorem Timely.keep (h : Timely now deadlines log) {now' : TimePoint} {deadlines' : Dict RequestId Deadline} (hnow : now ≤ now')
    (hkeep : ∀ id d, deadlines'.lookup id = some d → deadlines.lookup id = some d) : Timely now' deadlines' log where
  past := fun token u hu => Int.le_trans (h.past token u hu) hnow
  stored := by
    intro id d hd
    obtain ⟨a, ha, hset, hfollows⟩ := h.stored id d (hkeep id d hd)
    exact ⟨a, ha, Int.le_trans hset hnow, hfollows⟩
  inTime := h.inTime

/-- A progress in the log that is not the last entry was there before. -/
theorem progressed_of_armed {log : List Event} {id : RequestId} {a : Arming} {token : ProgressToken} {u : TimePoint}
    (h : Event.progressed token u ∈ log ++ [.armed id a]) : Event.progressed token u ∈ log := by
  simpa using h

theorem Timely.arm (h : Timely now deadlines log) {id : RequestId} {a : Arming} (hset : a.setAt = now)
    {deadlines' : Dict RequestId Deadline}
    (hstored : ∀ k d, deadlines'.lookup k = some d →
      (k = id ∧ d = ⟨deadlineAt now a.timeout, a.timeout, a.token⟩) ∨ (k ≠ id ∧ deadlines.lookup k = some d)) :
    Timely now deadlines' (log ++ [.armed id a]) where
  past := fun token u hu => h.past token u (progressed_of_armed hu)
  stored := by
    intro k d hd
    rw [ledger_snoc]
    show ∃ b, ((ledger log).armed.insert id a).lookup k = some b ∧ b.setAt ≤ now ∧ Follows (log ++ [.armed id a]) d b
    rcases hstored k d hd with ⟨rfl, rfl⟩ | ⟨hne, hd⟩
    · refine ⟨a, AList.lookup_insert _, Int.le_of_eq hset, rfl, rfl, ?_, fun token _ u hu => ?_⟩
      · rw [hset]
      · exact deadlineAt_mono (h.past token u (progressed_of_armed hu)) a.timeout
    · obtain ⟨b, hb, hle, hfollows⟩ := h.stored k d hd
      refine ⟨b, by rw [AList.lookup_insert_ne hne, hb], hle, hfollows.timeout, hfollows.token, hfollows.armed, ?_⟩
      exact fun token htoken u hu => hfollows.progressed token htoken u (progressed_of_armed hu)
  inTime := inTime_snoc h.inTime trivial

/-- **A progress moves the deadlines of its token**, and none of another. -/
theorem Timely.progress (h : Timely now deadlines log) {token : ProgressToken} {deadlines' : Dict RequestId Deadline}
    (hstored : ∀ k d, deadlines'.lookup k = some d → ∃ e, deadlines.lookup k = some e ∧
      d = if e.progressToken = some token then { e with at_ := deadlineAt now e.timeout } else e) :
    Timely now deadlines' (log ++ [.progressed token now]) where
  past := by
    intro other u hu
    rcases List.mem_append.1 hu with hu | hu
    · exact h.past other u hu
    · obtain ⟨-, rfl⟩ := Event.progressed.inj (List.mem_singleton.1 hu)
      exact Int.le_refl _
  stored := by
    intro k d hd
    obtain ⟨e, he, rfl⟩ := hstored k d hd
    obtain ⟨a, ha, hset, hfollows⟩ := h.stored k e he
    have hledger : (ledger (log ++ [.progressed token now])).armed.lookup k = some a := by
      rw [ledger_snoc]
      exact ha
    refine ⟨a, hledger, hset, ?_⟩
    by_cases htoken : e.progressToken = some token
    · rw [if_pos htoken]
      refine ⟨hfollows.timeout, hfollows.token, ?_, fun other _ u hu => ?_⟩
      · rw [hfollows.timeout]
        exact deadlineAt_mono hset a.timeout
      · rw [hfollows.timeout]
        rcases List.mem_append.1 hu with hu | hu
        · exact deadlineAt_mono (h.past other u hu) a.timeout
        · obtain ⟨-, rfl⟩ := Event.progressed.inj (List.mem_singleton.1 hu)
          exact Int.le_refl _
    · rw [if_neg htoken]
      refine ⟨hfollows.timeout, hfollows.token, hfollows.armed, fun other hother u hu => ?_⟩
      rcases List.mem_append.1 hu with hu | hu
      · exact hfollows.progressed other hother u hu
      · obtain ⟨rfl, -⟩ := Event.progressed.inj (List.mem_singleton.1 hu)
        exact absurd (hfollows.token.trans hother) htoken
  inTime := inTime_snoc h.inTime trivial

/-- The expiries of one scan: each id is armed until its own. -/
theorem inTime_expired : ∀ {ids : List RequestId} {past : List Event}, ids.Nodup →
    (∀ id ∈ ids, InTime past (.expired id now)) → Lts.EachAfter InTime past (ids.map (fun id => .expired id now))
  | [], _, _, _ => trivial
  | id :: ids, past, hnodup, hids => by
    obtain ⟨hfresh, hnodup⟩ := List.nodup_cons.1 hnodup
    refine ⟨hids id List.mem_cons_self, inTime_expired hnodup fun k hk => ?_⟩
    obtain ⟨a, ha, hset, hprogressed⟩ := hids k (List.mem_cons_of_mem id hk)
    refine ⟨a, ?_, hset, fun token htoken u hu => hprogressed token htoken u (by simpa using hu)⟩
    rw [ledger_snoc, Ledger.enter]
    cases (ledger past).armed.lookup id with
    | none => exact ha
    | some b =>
      have hne : k ≠ id := fun heq => hfresh (heq ▸ hk)
      exact (AList.lookup_erase_ne hne).trans ha

/-- The other ids stay armed. -/
theorem armed_expired : ∀ (ids : List RequestId) (log : List Event) {k : RequestId}, k ∉ ids →
    (ledger (log ++ ids.map (fun id => .expired id now))).armed.lookup k = (ledger log).armed.lookup k
  | [], log, k, _ => by rw [List.map_nil, List.append_nil]
  | id :: ids, log, k, hk => by
    obtain ⟨hne, hk⟩ := not_or.1 (mt List.mem_cons.2 hk)
    have hsplit : log ++ (id :: ids).map (fun id => Event.expired id now) =
        log ++ [.expired id now] ++ ids.map (fun id => .expired id now) := by simp
    rw [hsplit, armed_expired ids _ hk, ledger_snoc, Ledger.enter]
    cases (ledger log).armed.lookup id with
    | none => rfl
    | some b => exact AList.lookup_erase_ne hne

theorem Timely.expire (h : Timely now deadlines log) {ids : List RequestId} {deadlines' : Dict RequestId Deadline}
    (hnodup : ids.Nodup) (hids : ∀ id ∈ ids, ∃ d, deadlines.lookup id = some d ∧ d.at_ ≤ now)
    (hkeep : ∀ id d, deadlines'.lookup id = some d → deadlines.lookup id = some d ∧ now < d.at_) :
    Timely now deadlines' (log ++ ids.map (fun id => .expired id now)) where
  past := fun token u hu => h.past token u (by simpa using hu)
  stored := by
    intro id d hd
    obtain ⟨hold, hlate⟩ := hkeep id d hd
    obtain ⟨a, ha, hset, hfollows⟩ := h.stored id d hold
    have hnot : id ∉ ids := by
      intro hid
      obtain ⟨e, he, hle⟩ := hids id hid
      rw [hold] at he
      obtain rfl := Option.some.inj he
      exact absurd hlate (Int.not_lt.2 hle)
    refine ⟨a, by rw [armed_expired ids log hnot, ha], hset, hfollows.timeout, hfollows.token, hfollows.armed, ?_⟩
    exact fun token htoken u hu => hfollows.progressed token htoken u (by simpa using hu)
  inTime := by
    refine Lts.eachAfter_append.2 ⟨h.inTime, inTime_expired hnodup fun id hid => ?_⟩
    obtain ⟨d, hd, hle⟩ := hids id hid
    obtain ⟨a, ha, -, hfollows⟩ := h.stored id d hd
    exact ⟨a, ha, Int.le_trans hfollows.armed hle, fun token htoken u hu =>
      Int.le_trans (hfollows.progressed token htoken u hu) hle⟩

end Steps

/-! ## Runs -/

/-- **Each thread arms at most once**: the one that has is past its timer section. -/
structure Single (threads : List Pc) (log : List Event) : Prop where
  nodup : (armings log).Nodup
  spent : ∀ i ∈ armings log, ∃ pc, threads[i]? = some pc ∧ pc.request = none

theorem armings_append (log more : List Event) : armings (log ++ more) = armings log ++ armings more := List.filterMap_append

theorem armings_expired (now : TimePoint) : ∀ ids : List RequestId, armings (ids.map (fun id => .expired id now)) = []
  | [] => rfl
  | _ :: ids => armings_expired now ids

theorem Single.start {threads : List Pc} {log more : List Event} (h : Single threads log) (hmore : armings more = [])
    (started : List Pc) : Single (threads ++ started) (log ++ more) where
  nodup := by
    rw [armings_append, hmore, List.append_nil]
    exact h.nodup
  spent := by
    intro i hi
    rw [armings_append, hmore, List.append_nil] at hi
    obtain ⟨pc, hpc, hrequest⟩ := h.spent i hi
    exact ⟨pc, by rw [List.getElem?_append_left (List.getElem?_eq_some_iff.1 hpc).1, hpc], hrequest⟩

/-- A section of thread `i` enters an arming of its own, if any, and does not come to another. -/
theorem Single.set {threads : List Pc} {log more : List Event} (h : Single threads log) {i : Nat} {pc pc' : Pc}
    (hpc : threads[i]? = some pc) (hrequest : pc'.request = none ∨ pc'.request = pc.request)
    (hmore : armings more = [] ∨ armings more = [i] ∧ pc.request ≠ none ∧ pc'.request = none) :
    Single (threads.set i pc') (log ++ more) := by
  have hlt := (List.getElem?_eq_some_iff.1 hpc).1
  have hspent : ∀ j ∈ armings log, ∃ pc, (threads.set i pc')[j]? = some pc ∧ pc.request = none := by
    intro j hj
    obtain ⟨x, hx, hnone⟩ := h.spent j hj
    by_cases hij : i = j
    · subst hij
      rw [hpc] at hx
      obtain rfl := Option.some.inj hx
      refine ⟨pc', by simp [hlt], ?_⟩
      rcases hrequest with hrequest | hrequest
      · exact hrequest
      · rw [hrequest, hnone]
    · exact ⟨x, by rw [List.getElem?_set_ne hij, hx], hnone⟩
  rcases hmore with hmore | ⟨hmore, harming, hafter⟩
  · refine ⟨?_, ?_⟩ <;> rw [armings_append, hmore, List.append_nil]
    · exact h.nodup
    · exact hspent
  · have hfresh : i ∉ armings log := by
      intro hi
      obtain ⟨x, hx, hnone⟩ := h.spent i hi
      rw [hpc] at hx
      obtain rfl := Option.some.inj hx
      exact harming hnone
    refine ⟨?_, ?_⟩ <;> rw [armings_append, hmore]
    · exact List.nodup_append.2 ⟨h.nodup, List.nodup_singleton i, fun j hj k hk heq => hfresh (by
        rw [List.mem_singleton.1 hk] at heq
        rwa [heq] at hj)⟩
    · intro j hj
      rcases List.mem_append.1 hj with hj | hj
      · exact hspent j hj
      · rw [List.mem_singleton.1 hj]
        exact ⟨pc', by simp [hlt], hafter⟩

structure Inv (t : Logged) : Prop where
  timely : Timely t.pool.shared.now t.pool.shared.timers.deadlines t.log
  single : Single t.pool.threads t.log

theorem inv_init (transport : Transport) : Inv (init transport) where
  timely := ⟨fun _ _ h => (by cases h), fun _ _ h => (by cases h), trivial⟩
  single := ⟨List.nodup_nil, fun _ h => (by cases h)⟩

/-- A section that enters nothing stores no deadline. -/
theorem lookup_of_silent {s s' : State} {pc pc' : Pc} (hmove : Requests.TimerMove s pc s' pc') {i : Nat}
    (hsilent : enters s i pc = []) {k : RequestId} {d : Deadline} (hd : s'.timers.deadlines.lookup k = some d) :
    s.timers.deadlines.lookup k = some d := by
  cases hmove with
  | keep timers | register _ _ _ _ _ _ _ timers | take _ _ _ timers | takeAll _ _ timers => rwa [timers] at hd
  | track id method params options before after timers =>
    subst before
    rw [timers] at hd
    rcases Timers.lookup_track hd with ⟨-, timeout, htimed, -⟩ | ⟨-, hd⟩
    · simp [enters, htimed] at hsilent
    · exact hd
  | clear id before after timers =>
    rw [timers] at hd
    exact (Timers.lookup_clear hd).2
  | progress note before =>
    subst before
    cases hsilent
  | clearAll after timers =>
    rw [timers] at hd
    cases hd

/-- **The section of a thread**, with what it enters. -/
theorem Inv.section_ {t : Logged} (h : Inv t) {i : Nat} {pc pc' : Pc} {s' : State} (hpc : t.pool.threads[i]? = some pc)
    (hadv : Requests.advance t.pool.shared pc = some (s', pc')) :
    Inv ⟨⟨s', t.pool.threads.set i pc'⟩, t.log ++ enters t.pool.shared i pc⟩ := by
  obtain ⟨htimely, hsingle⟩ := h
  have hspec := Requests.advance_timers hadv
  by_cases hsilent : enters t.pool.shared i pc = []
  · refine ⟨?_, hsingle.set hpc hspec.request (.inl (by rw [hsilent]; rfl))⟩
    show Timely s'.now s'.timers.deadlines _
    rw [hsilent, List.append_nil, hspec.now]
    exact htimely.keep (Int.le_refl _) fun k d hd => lookup_of_silent hspec.move hsilent hd
  · cases pc with
    | sendTrack id method params options =>
      obtain ⟨rfl, rfl⟩ := Pool.section_inj hadv
      cases htimed : Timers.timeoutOf options with
      | none => exact absurd (by simp [enters, htimed]) hsilent
      | some timeout =>
        have harmed : enters t.pool.shared i (.sendTrack id method params options) =
            [.armed id ⟨i, timeout, options.progressToken, t.pool.shared.now⟩] := by simp [enters, htimed]
        refine ⟨?_, hsingle.set hpc (.inl rfl) (.inr ⟨by rw [harmed]; rfl, by simp [Pc.request], rfl⟩)⟩
        rw [harmed]
        refine htimely.arm rfl fun k d hd => ?_
        rcases Timers.lookup_track hd with ⟨hk, timeout', hsome, hd⟩ | ⟨hnone, hd⟩
        · rw [htimed] at hsome
          obtain rfl := Option.some.inj hsome
          exact .inl ⟨hk, hd⟩
        · refine .inr ⟨fun hk => ?_, hd⟩
          rw [hnone hk] at htimed
          cases htimed
    | progressClock note =>
      refine ⟨?_, hsingle.set hpc hspec.request (.inl rfl)⟩
      show Timely s'.now s'.timers.deadlines _
      have htimers : s'.timers = (t.pool.shared.timers.progress t.pool.shared.now note.progressToken).2 := by
        simp only [Requests.advance] at hadv
        split at hadv <;> (rename_i heq; obtain ⟨rfl, -⟩ := Pool.section_inj hadv; rw [heq])
      rw [hspec.now, htimers]
      exact htimely.progress fun k d hd => Timers.lookup_progress hd
    | _ => exact absurd rfl hsilent

/-- **The step lemma.** -/
theorem Inv.step {t u : Logged} {l : Label} (h : Inv t) (hstep : step t l = some u) : Inv u := by
  obtain ⟨q, hq, rfl⟩ := Option.map_eq_some_iff.1 hstep
  cases Requests.step_shape hq with
  | section_ i label pc s' pc' at_ adv result =>
    subst label result
    have hevents : events t.pool (.step i) = enters t.pool.shared i pc := by simp only [events, at_]
    rw [hevents]
    exact h.section_ at_ adv
  | scan label result =>
    subst label result
    exact {
      timely := h.timely.expire (Timers.nodup_expire_keys _ _) (fun id hid => Timers.mem_expire_keys.1 hid)
        (fun id d hd => Timers.lookup_expire hd)
      single := h.single.start (armings_expired _ _) [_] }
  | outside hsection hscan spec =>
    have hevents : events t.pool l = [] := by cases l <;> first | rfl | exact absurd rfl (hsection _) | exact absurd rfl hscan
    obtain ⟨started, hthreads, -⟩ := spec.threads
    rw [hevents]
    refine ⟨?_, ?_⟩
    · show Timely q.shared.now q.shared.timers.deadlines _
      rw [List.append_nil, spec.timers]
      exact h.timely.keep spec.now fun _ _ hd => hd
    · show Single q.threads _
      rw [hthreads]
      exact h.single.start rfl started

/-- **No request times out early, and none twice**: every expiry of a run comes at least a timeout after the request was
armed and after every progress with its token so far, and is the only one of its request. -/
theorem expiries_in_time {transport : Transport} {labels : List Label} {t : Logged}
    (hrun : Lts.run step (init transport) labels = some t) :
    Lts.EachAfter InTime [] t.log ∧ (ledger t.log).expired.Nodup ∧
      (ledger t.log).expired.length = t.log.countP Event.isExpiry := by
  have h := Lts.run_invariant (I := Inv) (fun _ _ _ h hstep => h.step hstep) (inv_init transport) hrun
  refine ⟨h.timely.inTime, nodup_expired h.single.nodup, ?_⟩
  have hlength := length_expired h.timely.inTime
  rw [List.nil_append] at hlength
  rw [hlength]
  exact Nat.zero_add _

/-- A request of 50 ms, a progress after 40 of them, a scan 40 ms later and one 10 ms after that. -/
def progressedOnce : List Label :=
  [.sendRequest (bytes "tools/list") none { timeout := some 50, progressToken := some (.int 7) }, .step 0, .step 0, .step 0,
    .tick 40000000, .progress { progressToken := .int 7 }, .step 1,
    .tick 40000000, .timerScan, .step 2, .tick 10000000, .timerScan]

/-- The first scan finds the clock restarted, the second finds the request expired. -/
theorem expiries_in_time_progressedOnce :
    ∃ t, Lts.run step (init (.stdio true .running)) progressedOnce = some t ∧ (ledger t.log).expired = [0] ∧
      (ledger t.log).expired.length = t.log.countP Event.isExpiry :=
  ⟨_, rfl, by decide, (@expiries_in_time (.stdio true .running) progressedOnce _ rfl).2.2⟩

end Deadlines
end Mcp
