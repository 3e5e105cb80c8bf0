import McpSdk.Lib.Pool
import McpSdk.Lib.Run
/-!
# ConditionVariable — the VxWorks condition variable, a semaphore operation a step

`waiters_` counts the tasks that may still get a token and `sema_` the tokens given out.  Each task that has counted
itself is matched by one or the other until it takes a token or reconciles its timeout (`conserved_of_run`).  The tokens
carry no names: a task that counts itself after a `notify_all` can take the token of one that is still on its way to
`semTake`, and in a run nobody is left behind exactly when that does not happen (`wakeups_kept_iff`).

The caller's mutex only restricts when its two operations can run; here they always can.
-/
namespace Mcp
namespace ConditionVariable

/-! ## State and steps -/

/-- `sema_`, `internal_` (full or not) and `waiters_`.  `rounds` counts the calls of `notify_all` that have taken
`internal_`. -/
structure State where
  sema : Nat := 0
  internal : Bool := true
  waiters : Int := 0
  rounds : Nat := 0

/-- Where a task stands; `round` is the value of `rounds` when it counted itself in `waiters_`. -/
inductive Pc where
  | idle
  /-- `wait_for_ms`: at `semTake(internal)`, with it, after the increment. -/
  | entering (timed : Bool)
  | registering (timed : Bool)
  | registered (timed : Bool) (round : Nat)
  /-- At `lock.unlock()`, and at `semTake(sema, ticks)`. -/
  | unlocking (timed : Bool) (round : Nat)
  | pending (timed : Bool) (round : Nat)
  /-- The status of `semTake` is OK, or it is not. -/
  | woken
  | expired (round : Nat)
  /-- With `internal_` after a timeout: at the test of `waiters_`, and at `semTake(sema, NO_WAIT)`. -/
  | reconciling (round : Nat)
  | consuming (round : Nat)
  /-- At `semGive(internal)`, and at `lock.lock()`. -/
  | leaving
  | relocking
  /-- `notify_all`: at `semTake(internal)`, at the test of the loop, after the decrement, at `semGive(internal)`. -/
  | notifying
  | looping
  | giving
  | finishing
  deriving DecidableEq, Repr

inductive Move where
  | waitForMs (timeoutMs : Int)
  | notifyAll
  /-- The timeout of a `semTake`, at any moment. -/
  | timeout
  | go
  deriving DecidableEq, Repr

def advance (move : Move) (s : State) (pc : Pc) : Option (State × Pc) :=
  match move, pc with
  | .waitForMs timeoutMs, .idle => some (s, .entering (decide (0 ≤ timeoutMs)))
  | .notifyAll, .idle => some (s, .notifying)
  | .timeout, .pending true round => some (s, .expired round)
  | .go, .entering timed => if s.internal then some ({ s with internal := false }, .registering timed) else none
  | .go, .registering timed => some ({ s with waiters := s.waiters + 1 }, .registered timed s.rounds)
  | .go, .registered timed round => some ({ s with internal := true }, .unlocking timed round)
  | .go, .unlocking timed round => some (s, .pending timed round)
  | .go, .pending _ _ => if 0 < s.sema then some ({ s with sema := s.sema - 1 }, .woken) else none
  | .go, .woken => if s.internal then some ({ s with internal := false }, .leaving) else none
  | .go, .expired round => if s.internal then some ({ s with internal := false }, .reconciling round) else none
  | .go, .reconciling round =>
    if 0 < s.waiters then some ({ s with waiters := s.waiters - 1 }, .leaving) else some (s, .consuming round)
  -- The status is not looked at: without a token nothing happens.
  | .go, .consuming _ => some ({ s with sema := s.sema - 1 }, .leaving)
  | .go, .leaving => some ({ s with internal := true }, .relocking)
  | .go, .relocking => some (s, .idle)
  | .go, .notifying =>
    if s.internal then some ({ s with internal := false, rounds := s.rounds + 1 }, .looping) else none
  | .go, .looping => if 0 < s.waiters then some ({ s with waiters := s.waiters - 1 }, .giving) else some (s, .finishing)
  | .go, .giving => some ({ s with sema := s.sema + 1 }, .looping)
  | .go, .finishing => some ({ s with internal := true }, .idle)
  | _, _ => none

/-- A task and what it does. -/
abbrev Label := Nat × Move

def step (p : Pool State Pc) (l : Label) : Option (Pool State Pc) := Pool.stepAt (advance l.2) p l.1

def init (tasks : Nat) : Pool State Pc := ⟨{}, List.replicate tasks .idle⟩

/-! ## Who waits -/

/-- The round of a task that has counted itself and has neither taken a token nor reconciled. -/
def Pc.round : Pc → Option Nat
  | registered _ round | unlocking _ round | pending _ round | expired round | reconciling round | consuming round =>
    some round
  | _ => none

def Pc.waits (pc : Pc) : Bool := pc.round.isSome

/-- A `notify_all` has taken `internal_` since the task counted itself. -/
def Pc.notified (rounds : Nat) (pc : Pc) : Bool := pc.round.any (fun round => decide (round < rounds))

/-- In the loop of `notify_all`. -/
def Pc.loops : Pc → Bool
  | looping | giving => true
  | _ => false

def Pc.gives : Pc → Bool
  | giving => true
  | _ => false

/-- With `internal_`. -/
def Pc.holds : Pc → Bool
  | registering _ | registered .. | reconciling _ | consuming _ | leaving | looping | giving | finishing => true
  | _ => false

def waiting (p : Pool State Pc) : Nat := p.threads.countP Pc.waits

/-- The tasks that were notified and not yet released. -/
def owed (p : Pool State Pc) : Nat := p.threads.countP (Pc.notified p.shared.rounds)

/-- No `notify_all` is in its loop. -/
def Outside (p : Pool State Pc) : Prop := ∀ pc ∈ p.threads, pc.loops = false

instance (p : Pool State Pc) : Decidable (Outside p) := inferInstanceAs (Decidable (∀ _ ∈ _, _))

/-! ## The properties -/

/-- **Tokens and waiters are conserved**: the tokens and the counted tasks are those that wait; the `semTake` of the
reconciliation finds a token; and none is left over. -/
structure Conserved (p : Pool State Pc) : Prop where
  balance : Outside p → (p.shared.sema : Int) + p.shared.waiters = waiting p
  succeeds : ∀ pc ∈ p.threads, ∀ round, pc = .consuming round → 0 < p.shared.sema
  nonneg : 0 ≤ p.shared.waiters
  spent : waiting p = 0 → p.shared.sema = 0

/-- The tokens that a `notify_all` in its loop has still to give. -/
def coming (p : Pool State Pc) : Int := if Outside p then 0 else p.shared.waiters + p.threads.countP Pc.gives

/-- **Every notified task can finish without another `notify_all`**: there is a token for each of them, given out or, in
the loop, about to be. -/
def Covered (p : Pool State Pc) : Prop := (owed p : Int) ≤ p.shared.sema + coming p

instance (p : Pool State Pc) : Decidable (Covered p) := inferInstanceAs (Decidable (_ ≤ _))

/-- **No token meant for another is taken**: a task that no `notify_all` has seen takes one only when there are more
than notified tasks. -/
def Spares (p : Pool State Pc) (l : Label) : Prop :=
  ∀ timed round, p.threads[l.1]? = some (.pending timed round) → p.shared.rounds ≤ round → l.2 = .go →
    0 < p.shared.sema → owed p < p.shared.sema

/-! ## One step -/

/-- **What a step of a task does** to its own share of the sums and to what the others rely on. -/
structure Moved (move : Move) (s : State) (pc : Pc) (s' : State) (pc' : Pc) : Prop where
  mutex : pc'.holds.toNat + s'.internal.toNat = pc.holds.toNat + s.internal.toNat
  balance : (s'.sema : Int) + s'.waiters + pc'.gives.toNat + pc.waits.toNat =
    s.sema + s.waiters + pc.gives.toNat + pc'.waits.toNat
  nonneg : 0 ≤ s.waiters → 0 ≤ s'.waiters
  kept : pc.holds = false → s'.waiters = s.waiters
  round : pc'.round = none ∨ pc'.round = pc.round ∨ (pc.holds = true ∧ pc.loops = false) ∧ pc'.round = some s.rounds
  rounds : s'.rounds = s.rounds ∨ pc'.loops = true ∧ s'.rounds = s.rounds + 1
  loops : pc'.loops = true → pc.loops = true ∨ s'.rounds = s.rounds + 1
  spent : 0 ≤ s.waiters → ∀ round, pc' = .consuming round → s'.waiters = 0
  drained : 0 ≤ s.waiters → pc.loops = true → pc'.loops = false → s'.waiters = 0
  tokens : s.sema ≤ s'.sema ∨ move = .go ∧ s'.sema + 1 = s.sema ∧ pc'.round = none ∧
    ((∃ timed round, pc = .pending timed round) ∨ (∃ round, pc = .consuming round) ∧ s'.waiters = s.waiters)

/-- A step that takes `internal_`. -/
theorem moved_take {move : Move} {s s' : State} {pc pc' next : Pc} {taken : State}
    (h : (if s.internal then some (taken, next) else none) = some (s', pc'))
    (hmoved : s.internal = true → Moved move s pc taken next) : Moved move s pc s' pc' := by
  split at h
  · rename_i hinternal
    obtain ⟨rfl, rfl⟩ := Pool.section_inj h
    exact hmoved hinternal
  · cases h

/-- A step that gives and takes no token and counts nobody. -/
theorem Moved.still {move : Move} {s : State} {pc pc' : Pc} {internal : Bool}
    (hmutex : pc'.holds.toNat + internal.toNat = pc.holds.toNat + s.internal.toNat) (hgives : pc'.gives = pc.gives)
    (hwaits : pc'.waits = pc.waits) (hround : pc'.round = none ∨ pc'.round = pc.round) (hold : pc.loops = false)
    (hnew : pc'.loops = false) (hnext : ∀ round, pc' ≠ .consuming round) : Moved move s pc { s with internal } pc' where
  mutex := hmutex
  balance := by
    rw [hgives, hwaits]
  nonneg := id
  kept := fun _ => rfl
  round := hround.imp_right .inl
  rounds := .inl rfl
  loops := fun h => absurd (hnew.symm.trans h) Bool.false_ne_true
  spent := fun _ round h => absurd h (hnext round)
  drained := fun _ h => absurd (hold.symm.trans h) Bool.false_ne_true
  tokens := .inl (Nat.le_refl _)

theorem advance_moved {move : Move} {s s' : State} {pc pc' : Pc} (h : advance move s pc = some (s', pc'))
    (hheld : pc.holds = true → s.internal = false) (htoken : ∀ round, pc = .consuming round → 0 < s.sema) :
    Moved move s pc s' pc' := by
  cases move with
  | waitForMs timeoutMs =>
    cases pc with
    | idle =>
      obtain ⟨rfl, rfl⟩ := Pool.section_inj h
      exact .still rfl rfl rfl (.inl rfl) rfl rfl nofun
    | _ => cases h
  | notifyAll =>
    cases pc with
    | idle =>
      obtain ⟨rfl, rfl⟩ := Pool.section_inj h
      exact .still rfl rfl rfl (.inl rfl) rfl rfl nofun
    | _ => cases h
  | timeout =>
    cases pc with
    | pending timed round =>
      cases timed with
      | false => cases h
      | true =>
        obtain ⟨rfl, rfl⟩ := Pool.section_inj h
        exact .still rfl rfl rfl (.inr rfl) rfl rfl nofun
    | _ => cases h
  | go =>
    cases pc with
    | idle => cases h
    | entering timed =>
      refine moved_take h fun hinternal => ?_
      exact .still (by simp [Pc.holds, hinternal]) rfl rfl (.inl rfl) rfl rfl nofun
    | registering timed =>
      obtain ⟨rfl, rfl⟩ := Pool.section_inj h
      refine ⟨rfl, ?_, fun hnonneg => ?_, nofun, .inr (.inr ⟨⟨rfl, rfl⟩, rfl⟩), .inl rfl, nofun, nofun, nofun,
        .inl (Nat.le_refl _)⟩
      · simp [Pc.gives, Pc.waits, Pc.round]
        omega
      · show 0 ≤ s.waiters + 1
        omega
    | registered timed round =>
      obtain ⟨rfl, rfl⟩ := Pool.section_inj h
      exact .still (by simp [Pc.holds, hheld rfl]) rfl rfl (.inr rfl) rfl rfl nofun
    | unlocking timed round =>
      obtain ⟨rfl, rfl⟩ := Pool.section_inj h
      exact .still rfl rfl rfl (.inr rfl) rfl rfl nofun
    | pending timed round =>
      simp only [advance] at h
      split at h
      · rename_i hsema
        obtain ⟨rfl, rfl⟩ := Pool.section_inj h
        refine ⟨rfl, ?_, id, fun _ => rfl, .inl rfl, .inl rfl, nofun, nofun, nofun,
          .inr ⟨rfl, Nat.sub_add_cancel hsema, rfl, .inl ⟨timed, round, rfl⟩⟩⟩
        simp [Pc.gives, Pc.waits, Pc.round]
        omega
      · cases h
    | woken =>
      refine moved_take h fun hinternal => ?_
      exact .still (by simp [Pc.holds, hinternal]) rfl rfl (.inl rfl) rfl rfl nofun
    | expired round =>
      refine moved_take h fun hinternal => ?_
      exact .still (by simp [Pc.holds, hinternal]) rfl rfl (.inr rfl) rfl rfl nofun
    | reconciling round =>
      simp only [advance] at h
      split at h
      · rename_i hwaiters
        obtain ⟨rfl, rfl⟩ := Pool.section_inj h
        refine ⟨rfl, ?_, fun _ => ?_, nofun, .inl rfl, .inl rfl, nofun, nofun, nofun, .inl (Nat.le_refl _)⟩
        · simp [Pc.gives, Pc.waits, Pc.round]
          omega
        · show 0 ≤ s.waiters - 1
          omega
      · rename_i hwaiters
        obtain ⟨rfl, rfl⟩ := Pool.section_inj h
        refine ⟨rfl, by simp [Pc.gives, Pc.waits, Pc.round], id, nofun, .inr (.inl rfl), .inl rfl, nofun,
          fun hnonneg _ _ => ?_, nofun, .inl (Nat.le_refl _)⟩
        show s.waiters = 0
        omega
    | consuming round =>
      have hsema := htoken round rfl
      obtain ⟨rfl, rfl⟩ := Pool.section_inj h
      refine ⟨rfl, ?_, id, nofun, .inl rfl, .inl rfl, nofun, nofun, nofun,
        .inr ⟨rfl, Nat.sub_add_cancel hsema, rfl, .inr ⟨⟨round, rfl⟩, rfl⟩⟩⟩
      simp [Pc.gives, Pc.waits, Pc.round]
      omega
    | leaving =>
      obtain ⟨rfl, rfl⟩ := Pool.section_inj h
      exact .still (by simp [Pc.holds, hheld rfl]) rfl rfl (.inl rfl) rfl rfl nofun
    | relocking =>
      obtain ⟨rfl, rfl⟩ := Pool.section_inj h
      exact .still rfl rfl rfl (.inl rfl) rfl rfl nofun
    | notifying =>
      refine moved_take h fun hinternal => ?_
      exact ⟨by simp [Pc.holds, hinternal], by simp [Pc.gives, Pc.waits, Pc.round], id, fun _ => rfl, .inl rfl,
        .inr ⟨rfl, rfl⟩, fun _ => .inr rfl, nofun, nofun, .inl (Nat.le_refl _)⟩
    | looping =>
      simp only [advance] at h
      split at h
      · rename_i hwaiters
        obtain ⟨rfl, rfl⟩ := Pool.section_inj h
        refine ⟨rfl, ?_, fun _ => ?_, nofun, .inl rfl, .inl rfl, fun _ => .inl rfl, nofun, nofun, .inl (Nat.le_refl _)⟩
        · simp [Pc.gives, Pc.waits, Pc.round]
          omega
        · show 0 ≤ s.waiters - 1
          omega
      · rename_i hwaiters
        obtain ⟨rfl, rfl⟩ := Pool.section_inj h
        refine ⟨rfl, by simp [Pc.gives, Pc.waits, Pc.round], id, nofun, .inl rfl, .inl rfl, nofun, nofun,
          fun hnonneg _ _ => ?_, .inl (Nat.le_refl _)⟩
        show s.waiters = 0
        omega
    | giving =>
      obtain ⟨rfl, rfl⟩ := Pool.section_inj h
      refine ⟨rfl, ?_, id, nofun, .inl rfl, .inl rfl, fun _ => .inl rfl, nofun, nofun, .inl (Nat.le_succ _)⟩
      simp [Pc.gives, Pc.waits, Pc.round]
      omega
    | finishing =>
      obtain ⟨rfl, rfl⟩ := Pool.section_inj h
      exact .still (by simp [Pc.holds, hheld rfl]) rfl rfl (.inl rfl) rfl rfl nofun

/-! ## The invariant -/

structure Inv (p : Pool State Pc) : Prop where
  mutex : p.threads.countP Pc.holds + p.shared.internal.toNat = 1
  balance : (p.shared.sema : Int) + p.shared.waiters + p.threads.countP Pc.gives = waiting p
  nonneg : 0 ≤ p.shared.waiters
  rounds : ∀ pc ∈ p.threads, ∀ round, pc.round = some round → round ≤ p.shared.rounds
  /-- During the loop nobody counts itself. -/
  seen : ∀ pc ∈ p.threads, pc.loops = true →
    ∀ other ∈ p.threads, ∀ round, other.round = some round → round < p.shared.rounds
  spent : ∀ pc ∈ p.threads, ∀ round, pc = .consuming round → p.shared.waiters = 0

theorem inv_init (tasks : Nat) : Inv (init tasks) := by
  have hidle : ∀ pc ∈ (init tasks).threads, pc = .idle := fun pc hpc => List.eq_of_mem_replicate hpc
  have hnone : ∀ f : Pc → Bool, f .idle = false → (init tasks).threads.countP f = 0 := by
    intro f hf
    rw [List.countP_eq_zero]
    intro pc hpc
    rw [hidle pc hpc, hf]
    exact Bool.false_ne_true
  refine ⟨?_, ?_, Int.le_refl _, fun pc hpc round h => ?_, fun pc hpc h => ?_, fun pc hpc round h => ?_⟩
  · rw [hnone _ rfl]
    rfl
  · unfold waiting
    rw [hnone _ rfl, hnone _ rfl]
    rfl
  · rw [hidle pc hpc] at h
    cases h
  · rw [hidle pc hpc] at h
    cases h
  · rw [hidle pc hpc] at h
    cases h

theorem Pc.holds_of_loops {pc : Pc} (h : pc.loops = true) : pc.holds = true := by
  cases pc <;> first | rfl | cases h

theorem Pc.loops_of_gives {pc : Pc} (h : pc.gives = true) : pc.loops = true := by
  cases pc <;> first | rfl | cases h

namespace Inv

variable {p : Pool State Pc}

/-- **`internal_` is held by one task at a time.** -/
theorem holder (hp : Inv p) {i j : Nat} {x y : Pc} (hi : p.threads[i]? = some x) (hj : p.threads[j]? = some y)
    (hx : x.holds = true) (hy : y.holds = true) : i = j := by
  have hle : p.threads.countP Pc.holds ≤ 1 := by
    have hmutex := hp.mutex
    omega
  exact Pool.eq_of_countP_le_one hle hi hj hx hy

theorem held (hp : Inv p) {pc : Pc} (hpc : pc ∈ p.threads) (h : pc.holds = true) : p.shared.internal = false := by
  have hpos : 0 < p.threads.countP Pc.holds := List.countP_pos_iff.2 ⟨pc, hpc, h⟩
  have hmutex := hp.mutex
  cases hinternal : p.shared.internal with
  | false => rfl
  | true =>
    rw [hinternal, Bool.toNat_true] at hmutex
    omega

/-- Outside the loop no token is on its way. -/
theorem gives_eq_zero (hout : Outside p) : p.threads.countP Pc.gives = 0 := by
  rw [List.countP_eq_zero]
  intro pc hpc hgives
  have hloops := Pc.loops_of_gives hgives
  rw [hout pc hpc] at hloops
  cases hloops

/-- Nobody else is in the loop. -/
theorem outside_of_holds (hp : Inv p) {i : Nat} {pc : Pc} (hi : p.threads[i]? = some pc) (h : pc.holds = true)
    (hloops : pc.loops = false) : Outside p := by
  intro other hother
  obtain ⟨j, hj⟩ := List.getElem?_of_mem hother
  cases hl : other.loops with
  | false => rfl
  | true =>
    obtain rfl := hp.holder hi hj h (Pc.holds_of_loops hl)
    rw [hi] at hj
    rw [← Option.some.inj hj, hloops] at hl
    cases hl

theorem waiting_pos {pc : Pc} (hpc : pc ∈ p.threads) (h : pc.waits = true) : 0 < waiting p :=
  List.countP_pos_iff.2 ⟨pc, hpc, h⟩

/-- **The reconciliation finds a token**: its task still waits, and no count is left to match it. -/
theorem token (hp : Inv p) {i : Nat} {round : Nat} (hi : p.threads[i]? = some (.consuming round)) : 0 < p.shared.sema := by
  have hmem := List.mem_of_getElem? hi
  have hbalance := hp.balance
  have hwaiters := hp.spent _ hmem round rfl
  have hgives := gives_eq_zero (hp.outside_of_holds hi rfl rfl)
  have hwaiting := waiting_pos hmem (rfl : (Pc.consuming round).waits = true)
  omega

theorem step {q : Pool State Pc} {l : Label} (hp : Inv p) (h : step p l = some q) : Inv q := by
  obtain ⟨pc, s', pc', hpc, hadv, rfl⟩ := Pool.stepAt_eq_some.1 h
  have hmem := List.mem_of_getElem? hpc
  have hmoved := advance_moved hadv (hp.held hmem) fun round hround => hp.token (by rw [hpc, hround])
  have hrounds : p.shared.rounds ≤ s'.rounds := by
    rcases hmoved.rounds with he | ⟨-, he⟩ <;> omega
  have hround : ∀ x, x ∈ p.threads.set l.1 pc' → ∀ round, x.round = some round → round ≤ p.shared.rounds := by
    refine Pool.forall_set hp.rounds l.1 fun round hr => ?_
    rcases hmoved.round with he | he | ⟨-, he⟩
    · rw [he] at hr
      cases hr
    · exact hp.rounds pc hmem round (he ▸ hr)
    · rw [he] at hr
      exact Nat.le_of_eq (Option.some.inj hr).symm
  refine ⟨?_, ?_, hmoved.nonneg hp.nonneg, fun x hx round hr => Nat.le_trans (hround x hx round hr) hrounds, ?_, ?_⟩
  · have hcount := Pool.countP_set_exchange Pc.holds hpc pc'
    have hmutex := hp.mutex
    have hown := hmoved.mutex
    show (p.threads.set l.1 pc').countP Pc.holds + s'.internal.toNat = 1
    omega
  · have hgives := Pool.countP_set_exchange Pc.gives hpc pc'
    have hwaits := Pool.countP_set_exchange Pc.waits hpc pc'
    have hbalance := hp.balance
    have hown := hmoved.balance
    unfold waiting at hbalance ⊢
    show (s'.sema : Int) + s'.waiters + (p.threads.set l.1 pc').countP Pc.gives = (p.threads.set l.1 pc').countP Pc.waits
    omega
  · intro x hx hloops other hother round hr
    show round < s'.rounds
    rcases hmoved.rounds with hsame | ⟨-, hnext⟩
    swap
    · have hle := hround other hother round hr
      omega
    -- The loop was on before the step, so its task holds `internal_` and the step counts nobody.
    have hon : ∃ (j : Nat) (y : Pc), p.threads[j]? = some y ∧ y.loops = true := by
      obtain ⟨j, hj⟩ := List.getElem?_of_mem hx
      rcases Pool.getElem?_set_cases hj with ⟨-, rfl⟩ | ⟨-, hj⟩
      · rcases hmoved.loops hloops with hl | hnext
        · exact ⟨l.1, pc, hpc, hl⟩
        · rw [hsame] at hnext
          omega
      · exact ⟨j, x, hj, hloops⟩
    obtain ⟨j, y, hj, hy⟩ := hon
    have hseen := hp.seen y (List.mem_of_getElem? hj) hy
    rw [hsame]
    rcases List.mem_or_eq_of_mem_set hother with hold | rfl
    · exact hseen other hold round hr
    · rcases hmoved.round with he | he | ⟨hholds, he⟩
      · rw [he] at hr
        cases hr
      · exact hseen pc hmem round (he ▸ hr)
      · have hfree := hp.outside_of_holds hpc hholds.1 hholds.2 y (List.mem_of_getElem? hj)
        rw [hy] at hfree
        cases hfree
  · intro x hx round hconsuming
    show s'.waiters = 0
    obtain ⟨j, hj⟩ := List.getElem?_of_mem hx
    rcases Pool.getElem?_set_cases hj with ⟨-, rfl⟩ | ⟨hne, hj⟩
    · exact hmoved.spent hp.nonneg round hconsuming
    · have hholds : x.holds = true := by
        rw [hconsuming]
        rfl
      have hfree : pc.holds = false := by
        cases hown : pc.holds with
        | false => rfl
        | true => exact absurd (hp.holder hj hpc hholds hown) hne
      rw [hmoved.kept hfree]
      exact hp.spent x (List.mem_of_getElem? hj) round hconsuming

/-! ## Conservation -/

theorem conserved (hp : Inv p) : Conserved p := by
  refine ⟨fun hout => ?_, fun pc hpc round hround => ?_, hp.nonneg, fun hnone => ?_⟩
  · have hbalance := hp.balance
    rw [gives_eq_zero hout] at hbalance
    simpa using hbalance
  · obtain ⟨i, hi⟩ := List.getElem?_of_mem hpc
    rw [hround] at hi
    exact hp.token hi
  · have hbalance := hp.balance
    have hnonneg := hp.nonneg
    omega

/-! ## Coverage -/

theorem owed_le_waiting (p : Pool State Pc) : owed p ≤ waiting p := by
  refine List.countP_mono_left fun pc _ hnotified => ?_
  unfold Pc.notified at hnotified
  obtain ⟨hround, -⟩ := (Option.any_eq_true_iff_get _ _).1 hnotified
  exact hround

/-- In the loop. -/
theorem covered_inside (hp : Inv p) (hin : ¬ Outside p) : Covered p := by
  have hbalance := hp.balance
  have howed := owed_le_waiting p
  unfold Covered coming
  rw [if_neg hin]
  omega

/-- With no count left every task that waits has its token. -/
theorem covered_of_spent (hp : Inv p) (hspent : p.shared.waiters = 0) : Covered p := by
  by_cases hout : Outside p
  · have hbalance := hp.balance
    have howed := owed_le_waiting p
    rw [gives_eq_zero hout] at hbalance
    unfold Covered coming
    rw [if_pos hout]
    omega
  · exact hp.covered_inside hout

/-- A task that no `notify_all` has seen stands outside the loop. -/
theorem outside_of_unseen (hp : Inv p) {pc : Pc} (hpc : pc ∈ p.threads) {round : Nat} (hround : pc.round = some round)
    (hunseen : p.shared.rounds ≤ round) : Outside p := by
  intro other hother
  cases hl : other.loops with
  | false => rfl
  | true =>
    have hseen := hp.seen other hother hl pc hpc round hround
    omega

/-- **One step**: only a task that no `notify_all` has seen can take what another needs. -/
theorem covered_step {q : Pool State Pc} {l : Label} (hp : Inv p) (hcovered : Covered p) (hspares : Spares p l)
    (h : ConditionVariable.step p l = some q) : Covered q := by
  have hq := hp.step h
  by_cases hout : Outside q
  swap
  · exact hq.covered_inside hout
  obtain ⟨pc, s', pc', hpc, hadv, rfl⟩ := Pool.stepAt_eq_some.1 h
  have hmem := List.mem_of_getElem? hpc
  have hmoved := advance_moved hadv (hp.held hmem) fun round hround => hp.token (by rw [hpc, hround])
  have hnew : pc'.loops = false := by
    obtain ⟨hlt, -⟩ := List.getElem?_eq_some_iff.1 hpc
    exact hout pc' (List.mem_set hlt pc')
  cases hloops : pc.loops with
  | true => exact hq.covered_of_spent (hmoved.drained hp.nonneg hloops hnew)
  | false =>
    have hbefore : Outside p := by
      intro other hother
      obtain ⟨j, hj⟩ := List.getElem?_of_mem hother
      by_cases hne : l.1 = j
      · rw [← hne, hpc] at hj
        rw [← Option.some.inj hj]
        exact hloops
      · exact hout other (List.mem_of_getElem? (by rw [List.getElem?_set_ne hne, hj]))
    have hrounds : s'.rounds = p.shared.rounds := by
      rcases hmoved.rounds with he | ⟨hl, -⟩
      · exact he
      · rw [hnew] at hl
        cases hl
    have howed := Pool.countP_set_exchange (Pc.notified p.shared.rounds) hpc pc'
    have hnotified : (pc'.notified p.shared.rounds).toNat ≤ (pc.notified p.shared.rounds).toNat := by
      unfold Pc.notified
      rcases hmoved.round with he | he | ⟨-, he⟩
      · rw [he]
        exact Nat.zero_le _
      · simp only [he, Nat.le_refl]
      · rw [he]
        simp
    unfold Covered coming owed at hcovered ⊢
    rw [if_pos hbefore] at hcovered
    rw [if_pos hout]
    show (((p.threads.set l.1 pc').countP (Pc.notified s'.rounds) : Nat) : Int) ≤ s'.sema + 0
    rw [hrounds]
    rcases hmoved.tokens with hkept | ⟨hgo, htaken, hnone, ⟨timed, round, hpending⟩ | ⟨⟨round, hconsuming⟩, hwaiters⟩⟩
    · omega
    · cases hown : pc.notified p.shared.rounds with
      | true =>
        have hleft : pc'.notified p.shared.rounds = false := by
          unfold Pc.notified
          rw [hnone]
          rfl
        rw [hown, hleft, Bool.toNat_true, Bool.toNat_false] at howed
        omega
      | false =>
        have hunseen : p.shared.rounds ≤ round := by
          rw [hpending] at hown
          simpa [Pc.notified, Pc.round] using hown
        have hspared := hspares timed round (by rw [hpc, hpending]) hunseen hgo (by omega)
        unfold owed at hspared
        omega
    · have hspent : s'.waiters = 0 := hwaiters.trans (hp.spent pc hmem round hconsuming)
      have hall := hq.covered_of_spent hspent
      unfold Covered coming owed at hall
      rw [if_pos hout] at hall
      rw [← hrounds]
      exact hall

/-- **The converse**: a token taken by a task that no `notify_all` has seen was one too many. -/
theorem spares_of_covered {l : Label} (hp : Inv p) (h : ∀ q, ConditionVariable.step p l = some q → Covered q) :
    Spares p l := by
  intro timed round hpc hunseen hgo hsema
  have hmem := List.mem_of_getElem? hpc
  have hbefore := hp.outside_of_unseen hmem rfl hunseen
  have hstep : ConditionVariable.step p l =
      some ⟨{ p.shared with sema := p.shared.sema - 1 }, p.threads.set l.1 .woken⟩ := by
    refine Pool.stepAt_eq_some.2 ⟨_, _, _, hpc, ?_, rfl⟩
    rw [hgo]
    exact if_pos hsema
  have hout : Outside ⟨{ p.shared with sema := p.shared.sema - 1 }, p.threads.set l.1 .woken⟩ :=
    Pool.forall_set hbefore l.1 rfl
  have hcovered := h _ hstep
  have howed := Pool.countP_set_exchange (Pc.notified p.shared.rounds) hpc .woken
  have hown : (Pc.pending timed round).notified p.shared.rounds = false := by
    simpa [Pc.notified, Pc.round] using hunseen
  rw [hown] at howed
  unfold Covered coming owed at hcovered
  rw [if_pos hout] at hcovered
  unfold owed
  have hwoken : (Pc.woken.notified p.shared.rounds).toNat = 0 := rfl
  dsimp only at hcovered
  rw [Bool.toNat_false] at howed
  omega

end Inv

/-! ## Runs -/

variable {tasks : Nat} {l : List Label} {p : Pool State Pc}

theorem inv_of_run (h : Lts.run step (init tasks) l = some p) : Inv p :=
  Lts.run_invariant (fun _ _ _ hs hstep => hs.step hstep) (inv_init tasks) h

/-- **Tokens and waiters are conserved in every interleaving.** -/
theorem conserved_of_run (h : Lts.run step (init tasks) l = some p) : Conserved p := (inv_of_run h).conserved

/-- A token given to a task whose `semTake` has just timed out: the reconciliation consumes it. -/
theorem conserved_of_run_expired : Conserved ⟨{ sema := 1, internal := false, rounds := 1 }, [.consuming 0, .idle]⟩ := by
  have hrun : Lts.run step (init 2) [(0, .waitForMs 10), (0, .go), (0, .go), (0, .go), (0, .go), (0, .timeout),
      (1, .notifyAll), (1, .go), (1, .go), (1, .go), (1, .go), (1, .go), (0, .go), (0, .go)] =
      some ⟨{ sema := 1, internal := false, rounds := 1 }, [.consuming 0, .idle]⟩ := rfl
  exact conserved_of_run hrun

theorem covered_init (tasks : Nat) : Covered (init tasks) := (inv_init tasks).covered_of_spent rfl

theorem covered_of_meets (hspares : Lts.Meets step Spares (init tasks) l) (h : Lts.run step (init tasks) l = some p) :
    Covered p := by
  have hboth : Inv p ∧ Covered p := by
    refine Lts.meets_invariant (I := fun p => Inv p ∧ Covered p) ?_ ⟨inv_init tasks, covered_init tasks⟩ hspares h
    intro s i t hs hg hstep
    exact ⟨hs.1.step hstep, hs.1.covered_step hs.2 hg hstep⟩
  exact hboth.2

theorem meets_of_covered : ∀ {l : List Label} {p : Pool State Pc}, Inv p →
    (∀ m q, m <+: l → Lts.run step p m = some q → Covered q) → Lts.Meets step Spares p l
  | [], _, _, _ => trivial
  | i :: l, p, hp, h => by
    refine ⟨hp.spares_of_covered fun q hq => ?_, fun t ht => meets_of_covered (hp.step ht) fun m q hm hq => ?_⟩
    · refine h [i] q ⟨l, rfl⟩ (Lts.run_cons_eq_some.2 ⟨q, hq, rfl⟩)
    · exact h (i :: m) q (List.cons_prefix_cons.2 ⟨rfl, hm⟩) (Lts.run_cons_eq_some.2 ⟨t, ht, hq⟩)

/-- **When no wakeup is lost**: all through a run every notified task can finish exactly when no task that no
`notify_all` has seen takes a token that a notified one needs. -/
theorem wakeups_kept_iff (tasks : Nat) (l : List Label) :
    (∀ m q, m <+: l → Lts.run step (init tasks) m = some q → Covered q) ↔ Lts.Meets step Spares (init tasks) l := by
  constructor
  · intro h
    exact meets_of_covered (inv_init tasks) h
  · rintro h m q ⟨rest, rfl⟩ hrun
    exact covered_of_meets h.append_left hrun

/-- Task 0 is notified before it reaches `semTake`; task 2 starts to wait only then, and takes its token. -/
theorem wakeup_taken : ¬ ∀ tasks l q, Lts.run step (init tasks) l = some q → Covered q := by
  intro h
  have hrun : Lts.run step (init 3) [(0, .waitForMs (-1)), (0, .go), (0, .go), (0, .go),
      (1, .notifyAll), (1, .go), (1, .go), (1, .go), (1, .go), (1, .go), (0, .go),
      (2, .waitForMs 100), (2, .go), (2, .go), (2, .go), (2, .go), (2, .go)] =
      some ⟨{ waiters := 1, rounds := 1 }, [.pending false 0, .idle, .woken]⟩ := rfl
  have hcovered := h 3 _ _ hrun
  revert hcovered
  decide

end ConditionVariable
end Mcp
