import McpSdk.Lib.Simulation
import McpSdk.Deadlines
/-!
# TimerLoop — the timer thread sleeps, and is woken

`Requests` lets the timer thread scan at any time.  `timer_loop` sleeps between its scans: without a limit when there is no
deadline, until the nearest one otherwise.  Here the thread is where its loop is, and each `timer_cv_.notify_all()` is where
its caller has it: under the lock in `clear_tracking`, after it in `send_request`, `handle_progress` and `~Session`, and
nowhere in `handle_close`.

A run of the loop is a run of `Requests` with the sleep left out (`unslept_of_run`), and the timer thread never sleeps past a
deadline (`sleeps_in_time`).

A wait ends by a `notify_all`, at its time, or for no reason.
-/
namespace Mcp
namespace TimerLoop

open Requests (Pc Transport)

/-! ## The loop -/

/-- Where the timer thread is: at the test of `stop_timer_`, in a wait (`none`: without a limit), past it, at the expired
requests (a thread of the pool), or out of the loop. -/
inductive Timer
  | checking
  | waiting (until_ : Option TimePoint)
  | woken (timed : Bool)
  | expiring (thread : Nat)
  | ended
  deriving DecidableEq, Repr

/-- `~Session`: the store of `stop_timer_`, and the `notify_all` after it. -/
inductive Stop
  | no
  | stored
  | notified
  deriving DecidableEq, Repr

structure State where
  pool : Pool Requests.State Pc
  timer : Timer := .checking
  /-- The threads whose next section is a `notify_all`. -/
  notifying : List Nat := []
  stop : Stop := .no

/-- `min_element` over the deadlines. -/
def nearest (t : Timers) : Option TimePoint := ((Dict.values t.deadlines).map Deadline.at_).min?

def Timer.notified : Timer → Timer
  | .waiting until_ => .woken until_.isSome
  | t => t

/-- The sections that `notify_all` comes after. -/
def notifiesAfter : Pc → Bool
  | .sendTrack .. | .progressClock _ => true
  | _ => false

/-- The sections that call it under the lock. -/
def notifiesWithin : Pc → Bool
  | .responseClear .. | .cancelClear .. => true
  | _ => false

inductive Label where
  | session (l : Requests.Label)
  | notify (thread : Nat)
  /-- The next section of the timer thread. -/
  | timer
  /-- The end of a `wait_until`; the end of a wait for no reason. -/
  | timeout
  | spurious
  /-- The two sections of `~Session`. -/
  | stop
  | stopNotify

/-- Thread `i`, which was at `pc`, has run a section. -/
def State.ran (s : State) (i : Nat) (pc : Pc) (pool : Pool Requests.State Pc) : State :=
  { s with
    pool
    notifying := if notifiesAfter pc then i :: s.notifying else s.notifying
    timer := if notifiesWithin pc then s.timer.notified else s.timer }

/-- One section of `timer_loop`. -/
def State.advanceTimer (s : State) : Option State :=
  match s.timer with
  | .checking => some { s with timer := if s.stop = .no then .waiting (nearest s.pool.shared.timers) else .ended }
  | .waiting _ => none
  | .woken false => some { s with timer := .checking }
  | .woken true =>
    if s.stop = .no then
      (Requests.step s.pool .timerScan).map fun pool => { s with pool, timer := .expiring s.pool.threads.length }
    else some { s with timer := .ended }
  | .expiring i =>
    match s.pool.threads[i]? with
    | some .done => some { s with timer := .checking }
    | _ => none
  | .ended => none

def step (s : State) : Label → Option State
  | .session .timerScan => none
  | .session (.step i) =>
    if i ∈ s.notifying then none
    else (s.pool.threads[i]?).bind fun pc => (Requests.step s.pool (.step i)).map (s.ran i pc)
  | .session l => (Requests.step s.pool l).map fun pool => { s with pool }
  | .notify i =>
    if i ∈ s.notifying then some { s with notifying := s.notifying.erase i, timer := s.timer.notified } else none
  | .timer => s.advanceTimer
  | .timeout =>
    match s.timer with
    | .waiting (some until_) => if until_ ≤ s.pool.shared.now then some { s with timer := .woken true } else none
    | _ => none
  | .spurious =>
    match s.timer with
    | .waiting until_ => some { s with timer := .woken until_.isSome }
    | _ => none
  | .stop => if s.stop = .no then some { s with stop := .stored } else none
  | .stopNotify => if s.stop = .stored then some { s with stop := .notified, timer := s.timer.notified } else none

/-- A fresh session, whose constructor has started the timer thread. -/
def init (transport : Transport) : State := { pool := Requests.init transport }

/-! ## What a step does -/

/-- **The kinds of steps.** -/
inductive Step (s : State) (l : Label) (t : State) : Prop
  | outside (m : Requests.Label) (label : l = .session m) (section_ : ∀ i, m ≠ .step i) (scan : m ≠ .timerScan)
      (pool : Pool Requests.State Pc) (step : Requests.step s.pool m = some pool) (result : t = { s with pool })
  | section_ (i : Nat) (label : l = .session (.step i)) (free : i ∉ s.notifying) (pc : Pc) (shared : Requests.State) (pc' : Pc)
      (at_ : s.pool.threads[i]? = some pc) (adv : Requests.advance s.pool.shared pc = some (shared, pc'))
      (result : t = s.ran i pc ⟨shared, s.pool.threads.set i pc'⟩)
  | notify (i : Nat) (mem : i ∈ s.notifying)
      (result : t = { s with notifying := s.notifying.erase i, timer := s.timer.notified })
  | sleep (timer : s.timer = .checking) (stop : s.stop = .no)
      (result : t = { s with timer := .waiting (nearest s.pool.shared.timers) })
  | again (timer : s.timer = .woken false) (result : t = { s with timer := .checking })
  | scan (timer : s.timer = .woken true) (stop : s.stop = .no) (idle : s.pool.threads.any Pc.isTimer = false)
      (result : t = { s with
        pool := s.pool.spawn { s.pool.shared with timers := (s.pool.shared.timers.expire s.pool.shared.now).2 }
          (.expired (s.pool.shared.timers.expire s.pool.shared.now).1)
        timer := .expiring s.pool.threads.length })
  | leave (timer : s.timer = .checking ∨ s.timer = .woken true) (stop : s.stop ≠ .no) (result : t = { s with timer := .ended })
  | expired (i : Nat) (timer : s.timer = .expiring i) (done : s.pool.threads[i]? = some .done)
      (result : t = { s with timer := .checking })
  | wake (until_ : Option TimePoint) (timer : s.timer = .waiting until_) (result : t = { s with timer := .woken until_.isSome })
  | stop (stop : s.stop = .no) (result : t = { s with stop := .stored })
  | stopNotify (stop : s.stop = .stored) (result : t = { s with stop := .notified, timer := s.timer.notified })

theorem advanceTimer_cases {s t : State} (h : s.advanceTimer = some t) : Step s .timer t := by
  unfold State.advanceTimer at h
  split at h
  · rename_i htimer
    obtain rfl := Option.some.inj h
    by_cases hstop : s.stop = .no
    · rw [if_pos hstop]
      exact .sleep htimer hstop rfl
    · rw [if_neg hstop]
      exact .leave (.inl htimer) hstop rfl
  · cases h
  · rename_i htimer
    exact .again htimer (Option.some.inj h).symm
  · rename_i htimer
    split at h
    · rename_i hstop
      obtain ⟨pool, hpool, rfl⟩ := Option.map_eq_some_iff.1 h
      simp only [Requests.step] at hpool
      split at hpool
      · cases hpool
      · rename_i hidle
        obtain rfl := Option.some.inj hpool
        exact .scan htimer hstop (Bool.not_eq_true _ ▸ hidle) rfl
    · rename_i hstop
      exact .leave (.inr htimer) hstop (Option.some.inj h).symm
  · rename_i i htimer
    split at h
    · rename_i hdone
      exact .expired i htimer hdone (Option.some.inj h).symm
    · cases h
  · cases h

theorem step_cases {s t : State} {l : Label} (h : step s l = some t) : Step s l t := by
  cases l with
  | session m =>
    have houtside : (∀ i, m ≠ .step i) → m ≠ .timerScan → (Requests.step s.pool m).map (fun pool => { s with pool }) = some t →
        Step s (.session m) t := by
      intro hsection hscan hstep
      obtain ⟨pool, hpool, rfl⟩ := Option.map_eq_some_iff.1 hstep
      exact .outside m rfl hsection hscan pool hpool rfl
    cases m with
    | timerScan => cases h
    | step i =>
      simp only [step] at h
      split at h
      · cases h
      rename_i hfree
      obtain ⟨pc, hpc, h⟩ := Option.bind_eq_some_iff.1 h
      obtain ⟨pool, hpool, rfl⟩ := Option.map_eq_some_iff.1 h
      obtain ⟨pc₁, shared, pc', hpc₁, hadv, rfl⟩ := Pool.stepAt_eq_some.1 hpool
      obtain rfl : pc₁ = pc := Option.some.inj (hpc₁.symm.trans hpc)
      exact .section_ i rfl hfree pc₁ shared pc' hpc hadv rfl
    | _ => exact houtside (fun _ heq => by cases heq) (fun heq => by cases heq) h
  | notify i =>
    simp only [step] at h
    split at h
    · rename_i hmem
      exact .notify i hmem (Option.some.inj h).symm
    · cases h
  | timer => exact advanceTimer_cases h
  | timeout =>
    simp only [step] at h
    split at h
    · rename_i until_ htimer
      split at h
      · exact .wake (some until_) htimer (Option.some.inj h).symm
      · cases h
    · cases h
  | spurious =>
    simp only [step] at h
    split at h
    · rename_i until_ htimer
      exact .wake until_ htimer (Option.some.inj h).symm
    · cases h
  | stop =>
    simp only [step] at h
    split at h
    · rename_i hstop
      exact .stop hstop (Option.some.inj h).symm
    · cases h
  | stopNotify =>
    simp only [step] at h
    split at h
    · rename_i hstop
      exact .stopNotify hstop (Option.some.inj h).symm
    · cases h

/-! ## The sleep left out -/

/-- **A step of the loop is at most one step of `Requests`.** -/
theorem simulates_unslept : Lts.Simulates step Requests.step fun s pool => s.pool = pool := by
  refine Lts.simulates_of_step fun s t l pool hpool h => ?_
  subst hpool
  have hone : ∀ {pool : Pool Requests.State Pc} {m : Requests.Label}, Requests.step s.pool m = some pool → t.pool = pool →
      t.pool = s.pool ∨ ∃ m pool, Requests.step s.pool m = some pool ∧ t.pool = pool :=
    fun hm heq => .inr ⟨_, _, hm, heq⟩
  cases step_cases h with
  | outside m label section_ scan pool hstep result => exact hone hstep (by rw [result])
  | section_ i label free pc shared pc' at_ adv result =>
    exact hone (m := .step i) (Pool.stepAt_eq_some.2 ⟨pc, shared, pc', at_, adv, rfl⟩) (by rw [result]; rfl)
  | scan timer stop idle result =>
    refine hone (m := .timerScan) ?_ (by rw [result])
    simp only [Requests.step, idle]
    rfl
  | notify | sleep | again | leave | expired | wake | stop | stopNotify =>
    rename_i result
    exact .inl (by rw [result])

/-- **A run of the loop is a run of `Requests`**: what holds of every run of the one, whenever its timer thread scans, holds of
every run of the other. -/
theorem unslept_of_run {labels : List Label} {s t : State} (h : Lts.run step s labels = some t) :
    ∃ unslept, Lts.run Requests.step s.pool unslept = some t.pool := by
  obtain ⟨unslept, pool, hrun, rfl⟩ := simulates_unslept.run rfl h
  exact ⟨unslept, hrun⟩

/-! ## The sleep and the deadlines -/

/-- A sleep until `until_` ends by the time of each deadline. -/
def Covers (until_ : Option TimePoint) (deadlines : Dict RequestId Deadline) : Prop :=
  ∀ id d, deadlines.lookup id = some d → ∃ t, until_ = some t ∧ t ≤ d.at_

theorem covers_nearest (t : Timers) : Covers (nearest t) t.deadlines := by
  intro id d hd
  have hmem : d.at_ ∈ (Dict.values t.deadlines).map Deadline.at_ := by
    refine List.mem_map_of_mem ((Dict.values_perm_of_lookup hd).mem_iff.2 ?_)
    exact List.mem_cons_self
  unfold nearest
  cases hmin : ((Dict.values t.deadlines).map Deadline.at_).min? with
  | none =>
    rw [List.min?_eq_none_iff.1 hmin] at hmem
    cases hmem
  | some m => exact ⟨m, rfl, (List.min?_eq_some_iff.1 hmin).2 d.at_ hmem⟩

theorem Covers.of_subset {until_ : Option TimePoint} {deadlines deadlines' : Dict RequestId Deadline}
    (h : Covers until_ deadlines) (hsub : ∀ id d, deadlines'.lookup id = some d → deadlines.lookup id = some d) :
    Covers until_ deadlines' := fun id d hd => h id d (hsub id d hd)

/-- A section that nobody is notified of adds no deadline and brings none forward. -/
theorem lookup_of_quiet {s s' : Requests.State} {pc pc' : Pc} (h : Requests.advance s pc = some (s', pc'))
    (hafter : notifiesAfter pc = false) (hwithin : notifiesWithin pc = false) :
    ∀ id d, s'.timers.deadlines.lookup id = some d → s.timers.deadlines.lookup id = some d := by
  intro id d hd
  cases (Requests.advance_timers h).move with
  | keep timers | register _ _ _ _ _ _ _ timers | take _ _ _ timers | takeAll _ _ timers =>
    rwa [timers] at hd
  | track id method params options before =>
    rw [before] at hafter
    cases hafter
  | clear id before =>
    cases pc with
    | responseClear | cancelClear => cases hwithin
    | _ => cases before
  | progress note before =>
    rw [before] at hafter
    cases hafter
  | clearAll after timers =>
    rw [timers] at hd
    cases hd

/-! ## The threads at expired requests -/

theorem stop_isTimer (t : Transport) (own onReader : Bool) : (t.stop own onReader).2.isTimer = false := by
  fun_cases Transport.stop <;> rfl

theorem startSend_isTimer (s : Requests.State) (method : Bytes) (params : Option Json) (options : RequestOptions) :
    (Requests.startSend s method params options).2.isTimer = false := by
  unfold Requests.startSend
  cases Requests.requestParams params options <;> rfl

/-- A section begins no scan, and leaves the expired requests at their end only. -/
theorem isTimer_of_advance {s s' : Requests.State} {pc pc' : Pc} (h : Requests.advance s pc = some (s', pc')) :
    (pc'.isTimer = true → pc.isTimer = true) ∧ (pc.isTimer = true → pc'.isTimer = true ∨ pc' = .done) := by
  have hother : pc.isTimer = false → pc'.isTimer = false →
      (pc'.isTimer = true → pc.isTimer = true) ∧ (pc.isTimer = true → pc'.isTimer = true ∨ pc' = .done) := by
    intro hpc hpc'
    rw [hpc, hpc']
    exact ⟨fun hfalse => hfalse, fun hfalse => (by cases hfalse)⟩
  cases pc with
  | done => cases h
  | expired ids =>
    cases ids with
    | nil =>
      obtain ⟨-, rfl⟩ := Pool.section_inj h
      exact ⟨fun _ => rfl, fun _ => .inr rfl⟩
    | cons id ids =>
      obtain ⟨-, rfl⟩ := Pool.section_inj h
      exact ⟨fun _ => rfl, fun _ => .inl rfl⟩
  | expireTake id ids =>
    obtain ⟨-, ⟨callback, rfl⟩ | rfl⟩ := Requests.takePending_eq h <;> exact ⟨fun _ => rfl, fun _ => .inl rfl⟩
  | expireCall callback ids =>
    obtain ⟨-, rfl⟩ := Pool.section_inj h
    exact ⟨fun _ => rfl, fun _ => .inl rfl⟩
  | responseTake id r => obtain ⟨-, ⟨callback, rfl⟩ | rfl⟩ := Requests.takePending_eq h <;> exact hother rfl rfl
  | cancelTake id reason => obtain ⟨-, ⟨callback, rfl⟩ | rfl⟩ := Requests.takePending_eq h <;> exact hother rfl rfl
  | progressClock note =>
    simp only [Requests.advance] at h
    split at h <;> (obtain ⟨-, rfl⟩ := Pool.section_inj h; exact hother rfl rfl)
  | closeCalls k callbacks =>
    cases callbacks with
    | nil => cases k <;> (obtain ⟨-, rfl⟩ := Pool.section_inj h; exact hother rfl rfl)
    | cons callback callbacks =>
      obtain ⟨-, rfl⟩ := Pool.section_inj h
      exact hother rfl rfl
  | transportStop own onReader =>
    obtain ⟨-, rfl⟩ := Pool.section_inj h
    exact hother rfl (stop_isTimer s.transport own onReader)
  | transportJoin own onReader =>
    simp only [Requests.advance] at h
    split at h
    · obtain ⟨-, rfl⟩ := Pool.section_inj h
      exact hother rfl rfl
    · cases h
  | _ =>
    obtain ⟨-, rfl⟩ := Pool.section_inj h
    exact hother rfl rfl

/-- Nor does a call that begins. -/
theorem started_of_outside {p q : Pool Requests.State Pc} {l : Requests.Label} (h : Requests.step p l = some q)
    (hsection : ∀ i, l ≠ .step i) (hscan : l ≠ .timerScan) :
    ∃ started, q.threads = p.threads ++ started ∧ ∀ pc ∈ started, pc.isTimer = false := by
  have hspawn : ∀ {s : Requests.State} {pc : Pc}, pc.isTimer = false →
      ∃ started, (p.spawn s pc).threads = p.threads ++ started ∧ ∀ x ∈ started, x.isTimer = false := by
    intro s pc hpc
    refine ⟨[pc], rfl, fun x hx => ?_⟩
    rw [List.mem_singleton.1 hx]
    exact hpc
  have hquiet : ∀ {s : Requests.State},
      ∃ started, (⟨s, p.threads⟩ : Pool Requests.State Pc).threads = p.threads ++ started ∧ ∀ x ∈ started, x.isTimer = false :=
    ⟨[], (List.append_nil _).symm, fun _ hx => by cases hx⟩
  cases l with
  | step i => exact absurd rfl (hsection i)
  | timerScan => exact absurd rfl hscan
  | sendRequest method params options =>
    obtain rfl := Option.some.inj h
    exact hspawn (startSend_isTimer p.shared method params options)
  | response r =>
    obtain rfl := Option.some.inj h
    refine hspawn ?_
    cases r.id <;> rfl
  | progress | cancelRequest | disconnect | transportDisconnect =>
    obtain rfl := Option.some.inj h
    exact hspawn rfl
  | connect | tick =>
    obtain rfl := Option.some.inj h
    exact hquiet
  | readerCloses =>
    obtain ⟨⟨transport, pc⟩, hcloses, rfl⟩ := Option.map_eq_some_iff.1 h
    rcases Requests.readerCloses_pc hcloses with rfl | rfl <;> exact hspawn rfl
  | readerReturns =>
    obtain ⟨transport, -, rfl⟩ := Option.map_eq_some_iff.1 h
    exact hquiet

/-! ## The invariant -/

structure Inv (s : State) : Prop where
  /-- A sleep that no call is about to end ends by the time of each deadline. -/
  covered : ∀ until_, s.timer = .waiting until_ → s.notifying = [] → Covers until_ s.pool.shared.timers.deadlines
  unstopped : ∀ until_, s.timer = .waiting until_ → s.stop ≠ .notified
  /-- Only the timer thread is at expired requests, and it is there or has done with them. -/
  own : ∀ j pc, s.pool.threads[j]? = some pc → pc.isTimer = true → s.timer = .expiring j
  place : ∀ i, s.timer = .expiring i → i ∉ s.notifying ∧ ∃ pc, s.pool.threads[i]? = some pc ∧ (pc.isTimer = true ∨ pc = .done)
  bound : ∀ i ∈ s.notifying, i < s.pool.threads.length
  ended : s.timer = .ended → s.stop ≠ .no

theorem inv_init (transport : Transport) : Inv (init transport) where
  covered := fun _ htimer => by cases htimer
  unstopped := fun _ htimer => by cases htimer
  own := fun _ _ hpc => by cases hpc
  place := fun _ htimer => by cases htimer
  bound := fun _ hmem => by cases hmem
  ended := fun htimer => by cases htimer

section Steps

variable {s t : State}

theorem Timer.notified_ne_waiting (timer : Timer) (until_ : Option TimePoint) : timer.notified ≠ .waiting until_ := by
  cases timer <;> exact fun h => by cases h

theorem Timer.notified_eq_expiring {timer : Timer} {i : Nat} (h : timer.notified = .expiring i) : timer = .expiring i := by
  cases timer <;> first | exact h | cases h

theorem Timer.notified_of_expiring {timer : Timer} {i : Nat} (h : timer = .expiring i) : timer.notified = .expiring i := by
  rw [h]
  rfl

theorem Timer.notified_eq_ended {timer : Timer} (h : timer.notified = .ended) : timer = .ended := by
  cases timer <;> first | exact h | cases h

/-- A step that leaves the pool and the calls that notify, and takes the timer thread nowhere near the expired requests. -/
theorem Inv.move (h : Inv s) {timer : Timer} {stop : Stop} (hnotExpiring : ∀ i, s.timer ≠ .expiring i)
    (hcovered : ∀ until_, timer = .waiting until_ → Covers until_ s.pool.shared.timers.deadlines ∧ stop ≠ .notified)
    (hexpiring : ∀ i, timer ≠ .expiring i) (hended : timer = .ended → stop ≠ .no) : Inv { s with timer, stop } where
  covered := fun until_ htimer _ => (hcovered until_ htimer).1
  unstopped := fun until_ htimer => (hcovered until_ htimer).2
  own := fun j pc hpc hisTimer => absurd (h.own j pc hpc hisTimer) (hnotExpiring j)
  place := fun i htimer => absurd htimer (hexpiring i)
  bound := h.bound
  ended := hended

/-- A `notify_all`. -/
theorem Inv.notified (h : Inv s) {notifying : List Nat} {stop : Stop} (hsub : ∀ i ∈ notifying, i ∈ s.notifying)
    (hstop : s.timer = .ended → stop ≠ .no) : Inv { s with notifying, stop, timer := s.timer.notified } where
  covered := fun until_ htimer => absurd htimer (s.timer.notified_ne_waiting until_)
  unstopped := fun until_ htimer => absurd htimer (s.timer.notified_ne_waiting until_)
  own := fun j pc hpc hisTimer => Timer.notified_of_expiring (h.own j pc hpc hisTimer)
  place := fun i htimer => by
    obtain ⟨hfree, hplace⟩ := h.place i (Timer.notified_eq_expiring htimer)
    exact ⟨fun hmem => hfree (hsub i hmem), hplace⟩
  bound := fun i hmem => h.bound i (hsub i hmem)
  ended := fun htimer => hstop (Timer.notified_eq_ended htimer)

/-- A section of a thread. -/
theorem Inv.section_ (h : Inv s) {i : Nat} {pc pc' : Pc} {shared : Requests.State} (hfree : i ∉ s.notifying)
    (hpc : s.pool.threads[i]? = some pc) (hadv : Requests.advance s.pool.shared pc = some (shared, pc')) :
    Inv (s.ran i pc ⟨shared, s.pool.threads.set i pc'⟩) := by
  obtain ⟨hbegins, hstays⟩ := isTimer_of_advance hadv
  have hi : i < s.pool.threads.length := (List.getElem?_eq_some_iff.1 hpc).1
  have hnotifies : ∀ {j}, j ∈ (s.ran i pc ⟨shared, s.pool.threads.set i pc'⟩).notifying →
      j = i ∧ pc.isTimer = false ∨ j ∈ s.notifying := by
    intro j hj
    unfold State.ran at hj
    dsimp only at hj
    split at hj
    · rename_i hafter
      rcases List.mem_cons.1 hj with rfl | hj
      · refine .inl ⟨rfl, ?_⟩
        cases pc <;> first | rfl | cases hafter
      · exact .inr hj
    · exact .inr hj
  have htimer : (s.ran i pc ⟨shared, s.pool.threads.set i pc'⟩).timer = s.timer ∨
      (s.ran i pc ⟨shared, s.pool.threads.set i pc'⟩).timer = s.timer.notified := by
    unfold State.ran
    dsimp only
    split
    · exact .inr rfl
    · exact .inl rfl
  have hexpiring : ∀ j, (s.ran i pc ⟨shared, s.pool.threads.set i pc'⟩).timer = .expiring j ↔ s.timer = .expiring j := by
    intro j
    rcases htimer with htimer | htimer <;> rw [htimer]
    exact ⟨Timer.notified_eq_expiring, Timer.notified_of_expiring⟩
  -- the timer thread goes on waiting if nobody was notified
  have hwaiting : ∀ until_, (s.ran i pc ⟨shared, s.pool.threads.set i pc'⟩).timer = .waiting until_ →
      s.timer = .waiting until_ ∧ notifiesWithin pc = false := by
    intro until_ hwaits
    unfold State.ran at hwaits
    dsimp only at hwaits
    split at hwaits
    · exact absurd hwaits (s.timer.notified_ne_waiting until_)
    · rename_i hwithin
      exact ⟨hwaits, by simpa using hwithin⟩
  refine ⟨fun until_ hwaits hnone => ?_, fun until_ hwaits => h.unstopped until_ (hwaiting until_ hwaits).1,
    fun j x hx hisTimer => ?_, fun j hj => ?_, fun j hj => ?_, fun hended => ?_⟩
  · obtain ⟨hold, hwithin⟩ := hwaiting until_ hwaits
    have hafter : notifiesAfter pc = false := by
      cases hafter : notifiesAfter pc with
      | false => rfl
      | true =>
        unfold State.ran at hnone
        dsimp only at hnone
        rw [if_pos hafter] at hnone
        cases hnone
    have hold' : s.notifying = [] := by
      unfold State.ran at hnone
      dsimp only at hnone
      rwa [if_neg (by rw [hafter]; exact Bool.false_ne_true)] at hnone
    exact (h.covered until_ hold hold').of_subset (lookup_of_quiet hadv hafter hwithin)
  · refine (hexpiring j).2 ?_
    rcases Pool.getElem?_set_cases hx with ⟨rfl, rfl⟩ | ⟨-, hx⟩
    · exact h.own j pc hpc (hbegins hisTimer)
    · exact h.own j x hx hisTimer
  · obtain ⟨hnot, x, hx, hplace⟩ := h.place j ((hexpiring j).1 hj)
    refine ⟨fun hmem => ?_, ?_⟩
    · rcases hnotifies hmem with ⟨rfl, hnotTimer⟩ | hmem
      · obtain rfl : x = pc := Option.some.inj (hx.symm.trans hpc)
        rcases hplace with hplace | rfl
        · exact Bool.false_ne_true (hnotTimer.symm.trans hplace)
        · cases hadv
      · exact hnot hmem
    · by_cases hji : j = i
      · subst hji
        obtain rfl : x = pc := Option.some.inj (hx.symm.trans hpc)
        refine ⟨pc', List.getElem?_set_self hi, ?_⟩
        rcases hplace with hplace | rfl
        · exact hstays hplace
        · cases hadv
      · exact ⟨x, (List.getElem?_set_ne (Ne.symm hji)).trans hx, hplace⟩
  · show j < (s.pool.threads.set i pc').length
    rw [List.length_set]
    rcases hnotifies hj with ⟨rfl, -⟩ | hj
    · exact hi
    · exact h.bound j hj
  · refine h.ended ?_
    rcases htimer with htimer | htimer
    · exact htimer.symm.trans hended
    · exact Timer.notified_eq_ended (htimer.symm.trans hended)

/-- A call that begins, or a step of the transport. -/
theorem Inv.outside (h : Inv s) {m : Requests.Label} {pool : Pool Requests.State Pc} (hstep : Requests.step s.pool m = some pool)
    (hsection : ∀ i, m ≠ .step i) (hscan : m ≠ .timerScan) : Inv { s with pool } := by
  obtain ⟨started, hthreads, hstarted⟩ := started_of_outside hstep hsection hscan
  have htimers : pool.shared.timers = s.pool.shared.timers := by
    cases Requests.step_shape hstep with
    | section_ i label => exact absurd label (hsection i)
    | scan label => exact absurd label hscan
    | outside _ _ spec => exact spec.timers
  refine ⟨fun until_ hwaits hnone => ?_, h.unstopped, fun j pc hpc hisTimer => ?_, fun i hi => ?_, fun i hi => ?_, h.ended⟩
  · show Covers until_ pool.shared.timers.deadlines
    rw [htimers]
    exact h.covered until_ hwaits hnone
  · have hmem : pc ∈ s.pool.threads ++ started := by
      rw [← hthreads]
      exact List.mem_of_getElem? hpc
    change pool.threads[j]? = some pc at hpc
    rw [hthreads] at hpc
    rcases Nat.lt_or_ge j s.pool.threads.length with hj | hj
    · rw [List.getElem?_append_left hj] at hpc
      exact h.own j pc hpc hisTimer
    · rw [List.getElem?_append_right hj] at hpc
      rw [hstarted pc (List.mem_of_getElem? hpc)] at hisTimer
      cases hisTimer
  · obtain ⟨hfree, pc, hpc, hplace⟩ := h.place i hi
    refine ⟨hfree, pc, ?_, hplace⟩
    show pool.threads[i]? = some pc
    rw [hthreads, List.getElem?_append_left (List.getElem?_eq_some_iff.1 hpc).1]
    exact hpc
  · show i < pool.threads.length
    rw [hthreads, List.length_append]
    exact Nat.lt_of_lt_of_le (h.bound i hi) (Nat.le_add_right _ _)

/-- A scan. -/
theorem Inv.scan (h : Inv s) {shared : Requests.State} {ids : List RequestId} (htimer : s.timer = .woken true) :
    Inv { s with pool := s.pool.spawn shared (.expired ids), timer := .expiring s.pool.threads.length } where
  covered := fun _ hwaits => by cases hwaits
  unstopped := fun _ hwaits => by cases hwaits
  own := fun j pc hpc hisTimer => by
    rcases Pool.getElem?_concat_eq_some.1 hpc with ⟨rfl, -⟩ | hpc
    · rfl
    · have hexpiring := htimer.symm.trans (h.own j pc hpc hisTimer)
      cases hexpiring
  place := fun i hi => by
    obtain rfl : s.pool.threads.length = i := by cases hi; rfl
    exact ⟨fun hmem => Nat.lt_irrefl _ (h.bound _ hmem), .expired ids, List.getElem?_concat_length, .inl rfl⟩
  bound := fun i hi => by
    show i < (s.pool.threads ++ [Pc.expired ids]).length
    rw [List.length_append]
    exact Nat.lt_of_lt_of_le (h.bound i hi) (Nat.le_add_right _ _)
  ended := fun hended => by cases hended

/-- **One step.** -/
theorem Inv.step {l : Label} (h : Inv s) (hstep : step s l = some t) : Inv t := by
  have hnotExpiring : ∀ {timer : Timer}, s.timer = timer → (∀ i, timer ≠ .expiring i) → ∀ i, s.timer ≠ .expiring i := by
    intro timer heq hne i hi
    exact hne i (heq.symm.trans hi)
  cases step_cases hstep with
  | outside m label section_ scan pool step result =>
    rw [result]
    exact h.outside step section_ scan
  | section_ i label free pc shared pc' at_ adv result =>
    rw [result]
    exact h.section_ free at_ adv
  | notify i mem result =>
    rw [result]
    exact h.notified (fun j hj => List.mem_of_mem_erase hj) h.ended
  | sleep timer stop result =>
    rw [result]
    refine h.move (hnotExpiring timer fun i hi => (by cases hi)) (fun until_ hwaits => ?_) (fun i hi => (by cases hi)) fun hended =>
      (by cases hended)
    cases hwaits
    exact ⟨covers_nearest _, by rw [stop]; decide⟩
  | again timer result =>
    rw [result]
    exact h.move (hnotExpiring timer fun i hi => (by cases hi)) (fun until_ hwaits => (by cases hwaits)) (fun i hi => (by cases hi))
      fun hended => (by cases hended)
  | scan timer stop idle result =>
    rw [result]
    exact h.scan timer
  | leave timer stop result =>
    rw [result]
    have hne : ∀ i, s.timer ≠ .expiring i := by
      rcases timer with timer | timer
      · exact hnotExpiring timer fun i hi => (by cases hi)
      · exact hnotExpiring timer fun i hi => (by cases hi)
    exact h.move hne (fun until_ hwaits => (by cases hwaits)) (fun i hi => (by cases hi)) fun _ => stop
  | expired i timer done result =>
    rw [result]
    refine ⟨fun _ hwaits => (by cases hwaits), fun _ hwaits => (by cases hwaits), fun j pc hpc hisTimer => ?_,
      fun j hj => (by cases hj), h.bound, fun hended => (by cases hended)⟩
    -- the thread of the expired requests is done, and it was the only one
    have hj := h.own j pc hpc hisTimer
    rw [timer] at hj
    obtain rfl : i = j := Timer.expiring.inj hj
    rw [Option.some.inj (hpc.symm.trans done)] at hisTimer
    cases hisTimer
  | wake until_ timer result =>
    rw [result]
    exact h.move (hnotExpiring timer fun i hi => (by cases hi)) (fun until_ hwaits => (by cases hwaits)) (fun i hi => (by cases hi))
      fun hended => (by cases hended)
  | stop stop result =>
    rw [result]
    exact ⟨h.covered, fun _ _ heq => (by cases heq), h.own, h.place, h.bound, fun _ heq => (by cases heq)⟩
  | stopNotify stop result =>
    rw [result]
    exact h.notified (fun _ hj => hj) fun _ => (by decide)

end Steps

theorem inv_of_run {transport : Transport} {labels : List Label} {s : State} (h : Lts.run step (init transport) labels = some s) :
    Inv s :=
  Lts.run_invariant (fun _ _ _ hs hstep => Inv.step hs hstep) (inv_init transport) h

/-- **The timer thread never sleeps past a deadline**, in any state of any run: while it waits and a deadline is stored, its
wait ends by that time, or a call that changed the deadlines has still to notify it; and it is not left waiting once
`~Session` has notified it. -/
theorem sleeps_in_time {transport : Transport} {labels : List Label} {s : State}
    (h : Lts.run step (init transport) labels = some s) {until_ : Option TimePoint} (hwaits : s.timer = .waiting until_) :
    s.stop ≠ .notified ∧ (s.notifying ≠ [] ∨ ∀ id d, s.pool.shared.timers.deadlines.lookup id = some d →
      ∃ t, until_ = some t ∧ t ≤ d.at_) := by
  have hs := inv_of_run h
  refine ⟨hs.unstopped until_ hwaits, ?_⟩
  by_cases hnone : s.notifying = []
  · exact .inr (hs.covered until_ hwaits hnone)
  · exact .inl hnone

/-- A request of 50 ms that the sleeping timer thread is not yet notified of. -/
def unnotified : List Label :=
  [.timer, .session (.sendRequest (bytes "tools/list") none { timeout := some 50 }), .session (.step 0), .session (.step 0)]

theorem sleeps_in_time_unnotified : ∃ s, Lts.run step (init (.stdio true .running)) unnotified = some s ∧
    s.timer = .waiting none ∧ s.stop ≠ .notified ∧ s.notifying ≠ [] := by
  have hrun : Lts.run step (init (.stdio true .running)) unnotified = some _ := rfl
  obtain ⟨hstop, hnotifying | hcovered⟩ := sleeps_in_time hrun rfl
  · exact ⟨_, hrun, rfl, hstop, hnotifying⟩
  · obtain ⟨t, ht, -⟩ := hcovered (.int 1) ⟨50000000, 50, none⟩ rfl
    cases ht

end TimerLoop
end Mcp
