import McpSdk.Session
import McpSdk.Sse
/-!
# LineTransport — one JSON text a line

`LineTransportBase` over `StdioTransport`: what a send writes, what a received line hands to the handlers, and the loop
that cuts lines off the stream.  The handlers act on a state `σ` of their own, and a message handler may throw.
-/
namespace Mcp

/-- What a call makes of the state it acts on, and the exception that leaves it. -/
abbrev Call (σ : Type) := σ → σ × Option Exn

/-- A loop of calls; an exception leaves it. -/
def each {α σ : Type} (call : α → Call σ) : List α → Call σ
  | [], s => (s, none)
  | a :: as, s =>
    match call a s with
    | (s, none) => each call as s
    | (s, some x) => (s, some x)

theorem each_append {α σ : Type} (call : α → Call σ) : ∀ (a b : List α) (s : σ),
    each call (a ++ b) s =
      match each call a s with
      | (s, none) => each call b s
      | (s, some x) => (s, some x)
  | [], b, s => rfl
  | x :: a, b, s => by
    have ih := each_append call a b
    rw [List.cons_append, each, each]
    cases call x s with
    | mk s' e =>
      cases e with
      | none => exact ih s'
      | some e => rfl

/-- **The invariant rule of a loop**: what every call keeps holds after the loop, however it ends. -/
theorem each_invariant {α σ : Type} (call : α → Call σ) {I : σ → Prop} :
    ∀ (as : List α) {s : σ}, (∀ a ∈ as, ∀ s, I s → I (call a s).1) → I s → I (each call as s).1
  | [], _, _, hs => hs
  | a :: as, s, h, hs => by
    have hfirst := h a List.mem_cons_self s hs
    have hrest : ∀ x ∈ as, ∀ s, I s → I (call x s).1 := fun x hx => h x (List.mem_cons_of_mem a hx)
    rw [each]
    cases hc : call a s with
    | mk s' e =>
      rw [hc] at hfirst
      cases e with
      | none => exact each_invariant call as hrest hfirst
      | some e => exact hfirst

structure Handlers (σ : Type) where
  message : Option (Message → Call σ) := none
  error : Option (Error → Call σ) := none

namespace LineTransport

variable {σ : Type}

/-! ## Sending -/

/-- The refusal of `send_line`. -/
def rawNewline : Error := Error.of .internalError (bytes "refusing to send message containing raw newline")

/-- `send_line`: the bytes `write_line` puts out, or the error it emits instead. -/
def sendLine (line : Bytes) : Except Error Bytes :=
  if 10 ∈ line then .error rawNewline else .ok (line ++ [10])

/-! ## Receiving -/

def emitError (handlers : Handlers σ) (e : Error) : Call σ := fun s =>
  match handlers.error with
  | some handler => handler e s
  | none => (s, none)

def processLine (text : JsonText Bytes) (handlers : Handlers σ) (line : Bytes) : Call σ := fun s =>
  if line = [] then (s, none)
  else
    match parseFrame text line with
    | .error x => (s, some (.json x))
    | .ok (.error e) => emitError handlers e s
    | .ok (.ok frame) =>
      match each (emitError handlers) frame.itemErrors s with
      | (s, some x) => (s, some x)
      | (s, none) =>
        match handlers.message with
        | none => (s, none)
        | some handler => each handler frame.messages s

/-- The reading thread: its buffer, what the handlers have made of it, and the exception that ended it. -/
structure Reader (σ : Type) where
  buffer : Bytes := []
  state : σ
  escaped : Option Exn := none

/-- One read of `read_loop`. -/
def Reader.feed (text : JsonText Bytes) (handlers : Handlers σ) (r : Reader σ) (chunk : Bytes) : Reader σ :=
  match r.escaped with
  | some _ => r
  | none =>
    let cut := Search.drain 10 (r.buffer ++ chunk)
    let out := each (fun line => processLine text handlers (stripCr line)) cut.1 r.state
    { buffer := cut.2, state := out.1, escaped := out.2 }

/-! ## Lemmas -/

theorem stripCr_of_printable {line : Bytes} (h : ∀ b ∈ line, 32 ≤ b) : stripCr line = line := by
  unfold stripCr
  split
  · rename_i hlast
    have hmem : (13 : UInt8) ∈ line := List.mem_of_getLast? hlast
    exact absurd (h 13 hmem) (by decide)
  · rfl

theorem newline_not_mem {line : Bytes} (h : ∀ b ∈ line, 32 ≤ b) : (10 : UInt8) ∉ line := by
  intro hmem
  exact absurd (h 10 hmem) (by decide)

/-- **A printed text goes out as one line.** -/
theorem sendLine_of_printable {line : Bytes} (h : ∀ b ∈ line, 32 ≤ b) : sendLine line = .ok (line ++ [10]) := by
  unfold sendLine
  rw [if_neg (newline_not_mem h)]

/-- **Lines are processed the same however the stream was cut into reads.** -/
theorem Reader.feed_append (text : JsonText Bytes) (handlers : Handlers σ) (r : Reader σ) (a b : Bytes)
    (h : (r.feed text handlers a).escaped = none) :
    r.feed text handlers (a ++ b) = (r.feed text handlers a).feed text handlers b := by
  unfold feed at *
  cases he : r.escaped with
  | some x => simp [he]
  | none =>
    simp only [he] at h ⊢
    rw [← List.append_assoc, Search.drain_append, each_append, h]
    cases hp : each (fun line => processLine text handlers (stripCr line)) (Search.drain 10 (r.buffer ++ a)).1 r.state with
    | mk s' x =>
      rw [hp] at h
      simp only at h
      simp [h]

end LineTransport

end Mcp
