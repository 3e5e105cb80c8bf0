import Mathlib.Data.List.Basic
/-!
# Utf8 — well-formed UTF-8, as an automaton over bytes

The states say which bytes may come next.  A text is well formed when the automaton is back at `accept`; since it runs
byte by byte, well-formed texts concatenate (`valid_append`).
-/
namespace Utf8

/-- Where the decoder is inside a code point. -/
inductive State
  | accept
  | reject
  | tail (n : Nat)
  | afterE0
  | afterED
  | afterF0
  | afterF4
  deriving DecidableEq, Repr

/-- The byte after `s`; `lo ≤ b ≤ hi` leads on to `next`. -/
def within (lo hi b : UInt8) (next : State) : State := if lo ≤ b ∧ b ≤ hi then next else .reject

/-- `n` continuation bytes still to come. -/
def tailOf : Nat → State
  | 0 => .accept
  | n + 1 => .tail n

/-- One byte of the decoder: no overlong form, no surrogate, nothing above `U+10FFFF`. -/
def step (s : State) (b : UInt8) : State :=
  match s with
  | .accept =>
    if b < 0x80 then .accept
    else if b < 0xC2 then .reject
    else if b < 0xE0 then tailOf 1
    else if b = 0xE0 then .afterE0
    else if b = 0xED then .afterED
    else if b < 0xF0 then tailOf 2
    else if b = 0xF0 then .afterF0
    else if b < 0xF4 then tailOf 3
    else if b = 0xF4 then .afterF4
    else .reject
  | .reject => .reject
  | .tail n => within 0x80 0xBF b (tailOf n)
  | .afterE0 => within 0xA0 0xBF b (tailOf 1)
  | .afterED => within 0x80 0x9F b (tailOf 1)
  | .afterF0 => within 0x90 0xBF b (tailOf 2)
  | .afterF4 => within 0x80 0x8F b (tailOf 2)

/-- **Well-formed UTF-8.** -/
def valid (s : List UInt8) : Bool := s.foldl step .accept = .accept

@[simp] theorem valid_nil : valid [] = true := rfl

theorem valid_append {s t : List UInt8} (hs : valid s = true) (ht : valid t = true) : valid (s ++ t) = true := by
  simp only [valid, decide_eq_true_eq] at *
  rw [List.foldl_append, hs, ht]

end Utf8
