import McpSdk.Lib.Run
import McpSdk.Message
import Mathlib.Data.List.DropRight
/-!
# SseGiveUp — when `sse_loop` stops trying

The loop counts the attempts that failed since the last one that succeeded, but not those after which the transport has
no session id: before `initialize` has assigned one, a server that manages sessions rejects them all.  The attempt that
brings the count to `max_reconnect_attempts` is the last one, and the close handler hears of it (`gives_up`).
-/
namespace Mcp
namespace SseGiveUp

/-- A call of `run_sse_once`: its result, and what `session_id()` gives afterwards. -/
structure Attempt where
  succeeded : Bool
  sessionId : Bytes

/-- The loop between two attempts, with what it has told the handlers. -/
structure Loop where
  running : Bool := true
  failures : Int32 := 0
  returned : Bool := false
  closeEmitted : Bool := false
  errors : List Error := []
  closes : Nat := 0

def Loop.emitError (s : Loop) (e : Error) : Loop := { s with errors := s.errors ++ [e] }

/-- The exchange lets one call through. -/
def Loop.emitClose (s : Loop) : Loop := if s.closeEmitted then s else { s with closeEmitted := true, closes := s.closes + 1 }

/-- A round of the loop. -/
def Loop.attempt (maxReconnectAttempts : Int32) (s : Loop) (a : Attempt) : Loop :=
  if a.succeeded then { s with failures := 0 }
  else if a.sessionId.isEmpty then s
  else if 0 < maxReconnectAttempts ∧ maxReconnectAttempts ≤ s.failures + 1 then
    let giveUp := Error.of .internalError
      (bytes "SSE stream: giving up after " ++ decimalInt (s.failures + 1).toInt ++ bytes " failures")
    { ({ s with failures := s.failures + 1 }.emitError giveUp).emitClose with returned := true }
  else { s with failures := s.failures + 1 }

inductive Event where
  | attempt (a : Attempt)
  /-- `running_` is cleared. -/
  | disconnect

def step (maxReconnectAttempts : Int32) (s : Loop) : Event → Option Loop
  | .attempt a => if s.running && !s.returned then some (s.attempt maxReconnectAttempts a) else none
  | .disconnect => some { s with running := false }

/-! ## Failures in a row -/

/-- The attempts since the last one that succeeded. -/
def failing (attempts : List Attempt) : List Attempt := attempts.rtakeWhile (fun a => !a.succeeded)

def Attempt.held (a : Attempt) : Bool := !a.sessionId.isEmpty

/-- Those among them that left a session id. -/
def heldFailures (attempts : List Attempt) : Nat := (failing attempts).countP Attempt.held

theorem heldFailures_le (attempts : List Attempt) : heldFailures attempts ≤ (failing attempts).length :=
  List.countP_le_length

theorem heldFailures_success (attempts : List Attempt) {a : Attempt} (ha : a.succeeded = true) :
    heldFailures (attempts ++ [a]) = 0 := by
  unfold heldFailures failing
  rw [List.rtakeWhile_concat_neg _ _ _ (by simp [ha])]
  rfl

theorem heldFailures_failure (attempts : List Attempt) {a : Attempt} (ha : a.succeeded = false) :
    heldFailures (attempts ++ [a]) = heldFailures attempts + a.held.toNat := by
  unfold heldFailures failing
  rw [List.rtakeWhile_concat_pos _ _ _ (by simp [ha]), List.countP_append, List.countP_singleton]
  cases a.held <;> rfl

/-- The counter does not overflow on its way to the limit. -/
theorem toInt_succ {failures limit : Int32} (hnonneg : 0 ≤ failures.toInt) (hlt : failures.toInt < limit.toInt) :
    (failures + 1).toInt = failures.toInt + 1 := by
  have hlimit := limit.toInt_lt
  have hone : (1 : Int32).toInt = 1 := rfl
  rw [Int32.toInt_add, hone]
  exact Int.bmod_eq_of_le (by omega) (by omega)

/-! ## The loop -/

/-- **Where the loop stands after its attempts**: still counting, or at its end with the close handler told. -/
inductive Standing (limit : Int32) (attempts : List Attempt) (s : Loop) : Prop
  | counting (returned : s.returned = false) (fresh : s.closeEmitted = false) (closes : s.closes = 0)
      (count : 0 < limit → s.failures.toInt = heldFailures attempts ∧ (heldFailures attempts : Int) < limit.toInt)
  | gone (returned : s.returned = true) (closes : s.closes = 1) (positive : 0 < limit)
      (reached : limit.toInt = heldFailures attempts)

theorem standing_attempt {limit : Int32} {attempts : List Attempt} {s : Loop} (hs : Standing limit attempts s)
    (hlive : s.returned = false) (a : Attempt) : Standing limit (attempts ++ [a]) (s.attempt limit a) := by
  obtain ⟨-, hfresh, hcloses, hcount⟩ | ⟨hreturned, -⟩ := hs
  swap
  · rw [hlive] at hreturned
    cases hreturned
  unfold Loop.attempt
  cases hsucceeded : a.succeeded with
  | true =>
    rw [if_pos rfl]
    refine .counting hlive hfresh hcloses fun hpositive => ?_
    rw [heldFailures_success attempts hsucceeded]
    exact ⟨rfl, Int32.lt_iff_toInt_lt.1 hpositive⟩
  | false =>
    have hnext := heldFailures_failure attempts hsucceeded
    rw [if_neg Bool.false_ne_true]
    cases hempty : a.sessionId.isEmpty with
    | true =>
      have hheld : a.held = false := by
        unfold Attempt.held
        rw [hempty]
        rfl
      rw [if_pos rfl]
      refine .counting hlive hfresh hcloses fun hpositive => ?_
      rw [hnext, hheld]
      exact hcount hpositive
    | false =>
      have hheld : a.held = true := by
        unfold Attempt.held
        rw [hempty]
        rfl
      rw [hheld, Bool.toNat_true] at hnext
      rw [if_neg Bool.false_ne_true]
      by_cases hlimit : 0 < limit ∧ limit ≤ s.failures + 1
      · obtain ⟨hpositive, hle⟩ := hlimit
        obtain ⟨hfailures, hlt⟩ := hcount hpositive
        have hroom : s.failures.toInt < limit.toInt := by
          omega
        have hsucc := toInt_succ (by omega) hroom
        rw [Int32.le_iff_toInt_le] at hle
        rw [if_pos ⟨hpositive, Int32.le_iff_toInt_le.2 hle⟩]
        refine .gone rfl ?_ hpositive (by omega)
        unfold Loop.emitClose Loop.emitError
        dsimp only
        rw [hfresh, if_neg Bool.false_ne_true, hcloses]
      · rw [if_neg hlimit]
        refine .counting hlive hfresh hcloses fun hpositive => ?_
        obtain ⟨hfailures, hlt⟩ := hcount hpositive
        have hroom : s.failures.toInt < limit.toInt := by
          omega
        have hsucc := toInt_succ (by omega) hroom
        have hbelow : ¬ limit.toInt ≤ (s.failures + 1).toInt := fun hle =>
          hlimit ⟨hpositive, Int32.le_iff_toInt_le.2 hle⟩
        refine ⟨?_, ?_⟩
        · show (s.failures + 1).toInt = _
          omega
        · omega

theorem standing_of_run {limit : Int32} {attempts : List Attempt} : ∀ {s : Loop},
    Lts.run (step limit) {} (attempts.map .attempt) = some s → Standing limit attempts s := by
  induction attempts using List.reverseRecOn with
  | nil =>
    intro s h
    obtain rfl := Option.some.inj h
    exact .counting rfl rfl rfl fun hpositive => ⟨rfl, Int32.lt_iff_toInt_lt.1 hpositive⟩
  | append_singleton attempts a ih =>
    intro s h
    rw [List.map_append, List.map_singleton] at h
    obtain ⟨t, hrun, hstep⟩ := Lts.run_snoc.1 h
    simp only [step] at hstep
    split at hstep
    · rename_i hlive
      obtain rfl := Option.some.inj hstep
      rw [Bool.and_eq_true, Bool.not_eq_true'] at hlive
      exact standing_attempt (ih hrun) hlive.2 a
    · cases hstep

/-- What the loop has done after a list of attempts, nobody having disconnected. -/
structure GivesUp (limit : Int32) (attempts : List Attempt) (s : Loop) : Prop where
  last : 0 < limit → limit.toInt ≤ heldFailures attempts → s.closes = 1 ∧ ∀ next, step limit s (.attempt next) = none
  notBefore : s.returned = true ∨ 0 < s.closes → 0 < limit ∧ limit.toInt ≤ (failing attempts).length
  never : limit ≤ 0 → s.closes = 0

/-- **The loop gives up at the limit**, over every sequence of outcomes and of session ids: with the failure that is the
`limit`-th one with a session id since the last success, and never before as many attempts in a row have failed. -/
theorem gives_up {limit : Int32} {attempts : List Attempt} {s : Loop}
    (h : Lts.run (step limit) {} (attempts.map .attempt) = some s) : GivesUp limit attempts s := by
  have hle := heldFailures_le attempts
  obtain ⟨hreturned, hfresh, hcloses, hcount⟩ | ⟨hreturned, hcloses, hpositive, hreached⟩ := standing_of_run h
  · refine ⟨fun hpositive hreached => ?_, fun hover => ?_, fun _ => hcloses⟩
    · have hlt := (hcount hpositive).2
      omega
    · rcases hover with hover | hover
      · rw [hreturned] at hover
        cases hover
      · omega
  · refine ⟨fun _ _ => ⟨hcloses, fun next => ?_⟩, fun _ => ⟨hpositive, by omega⟩, fun hlimit => ?_⟩
    · unfold step
      rw [hreturned, Bool.not_true, Bool.and_false]
      rfl
    · rw [Int32.lt_iff_toInt_lt] at hpositive
      rw [Int32.le_iff_toInt_le] at hlimit
      omega

/-- Two failures with a session id, a warm-up attempt before them. -/
theorem gives_up_second :
    let attempts : List Attempt := [⟨false, []⟩, ⟨false, bytes "s1"⟩, ⟨false, bytes "s1"⟩]
    ∃ s, Lts.run (step 2) {} (attempts.map .attempt) = some s ∧ s.closes = 1 ∧ GivesUp 2 attempts s :=
  ⟨_, rfl, rfl, gives_up rfl⟩

/-- A failure that leaves no session id is not counted. -/
theorem warm_up_uncounted : ¬ ∀ (limit : Int32) (attempts : List Attempt) (s : Loop),
    Lts.run (step limit) {} (attempts.map .attempt) = some s → 0 < limit → limit.toInt ≤ (failing attempts).length →
      s.closes = 1 ∧ ∀ next, step limit s (.attempt next) = none := by
  intro h
  have hcloses := (h 1 [⟨false, []⟩] {} rfl (by decide) (by decide)).1
  cases hcloses

end SseGiveUp
end Mcp
