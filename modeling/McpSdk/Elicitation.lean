import McpSdk.RegistryCodec
/-!
# Elicitation — the records of `elicitation/create`

What a server asks of the user, and the user's answer.  The request comes back as it was sent when its schema is no null
(`ElicitRequest.fromJson_toJson`).  Its decoder checks the message and leaves the type of the `url` to the accessor, which
throws (`ElicitRequest.fromJson_throws_iff`).
-/
namespace Mcp

namespace methods

def kElicitationCreate : Bytes := bytes "elicitation/create"

end methods

/-! ## The request -/

structure ElicitRequest where
  message : Bytes
  /-- Form mode. -/
  requestedSchema : Option Json := none
  /-- Url mode. -/
  url : Option Bytes := none

def ElicitRequest.fromJson (j : Json) : Except JsonException (Result ElicitRequest) :=
  match j.find (bytes "message") with
  | some (.string message) => do
    let requestedSchema ← getOptional j (bytes "requestedSchema") .ok
    let url ← getOptional j (bytes "url") Json.getString
    return .ok { message, requestedSchema, url }
  | _ => .ok (.error (Error.of .invalidParams (bytes "elicitation request requires a message")))

def ElicitRequest.toJson (r : ElicitRequest) : Json :=
  .object ([] |> Members.set (bytes "message") (.string r.message)
    |> setOptional (bytes "requestedSchema") id r.requestedSchema |> setOptional (bytes "url") .string r.url)

/-! ## The answer -/

inductive ElicitAction
  | accept
  | decline
  | cancel
  deriving DecidableEq, Repr

def elicitActionToString : ElicitAction → Bytes
  | .accept => bytes "accept"
  | .decline => bytes "decline"
  | .cancel => bytes "cancel"

/-- `content` carries the form's values. -/
structure ElicitResult where
  action : ElicitAction := .cancel
  content : Option Json := none

def ElicitResult.toJson (r : ElicitResult) : Json :=
  .object ([] |> Members.set (bytes "action") (.string (elicitActionToString r.action))
    |> setOptional (bytes "content") id r.content)

/-! ## What is sent comes back -/

theorem ElicitRequest.find_toJson (r : ElicitRequest) :
    r.toJson.find (bytes "message") = some (.string r.message) ∧
      r.toJson.find (bytes "requestedSchema") = r.requestedSchema ∧
      r.toJson.find (bytes "url") = r.url.map .string := by
  unfold ElicitRequest.toJson
  simp (disch := decide) only [find_setOptional_of_ne, find_setOptional_or, find_set_of_ne, find_set_self, find_nil,
    Option.or_none, Option.map_id_apply, and_self]

/-- **The request comes back** when its schema is no null. -/
theorem ElicitRequest.fromJson_toJson {r : ElicitRequest} (h : noNull r.requestedSchema = true) :
    ElicitRequest.fromJson r.toJson = .ok (.ok r) := by
  obtain ⟨hmessage, hschema, hurl⟩ := r.find_toJson
  unfold ElicitRequest.fromJson
  rw [hmessage]
  simp only [getOptional_json hschema h, getOptional_string hurl]
  rfl

theorem elicitActionToString_injective {a b : ElicitAction} (h : elicitActionToString a = elicitActionToString b) :
    a = b := by
  cases a <;> cases b <;> first | rfl | exact absurd h (by decide)

/-- The members of an answer. -/
theorem ElicitResult.find_toJson (r : ElicitResult) :
    r.toJson.find (bytes "action") = some (.string (elicitActionToString r.action)) ∧
      r.toJson.find (bytes "content") = r.content := by
  unfold ElicitResult.toJson
  simp (disch := decide) only [find_setOptional_of_ne, find_setOptional_or, find_set_of_ne, find_set_self, find_nil,
    Option.or_none, Option.map_id_apply, and_self]

/-! ## Requests that are not well-formed -/

/-- A read of the optional members: the schema takes any value, the `url` only a string. -/
theorem ElicitRequest.fromJson_of_message {j : Json} {message : Bytes} (h : j.find (bytes "message") = some (.string message)) :
    ElicitRequest.fromJson j = (getOptional j (bytes "url") Json.getString).map fun url =>
      .ok { message, requestedSchema := (j.find (bytes "requestedSchema")).filter (fun v => !v.isNull), url } := by
  have hschema : getOptional j (bytes "requestedSchema") Except.ok =
      .ok ((j.find (bytes "requestedSchema")).filter fun v => !v.isNull) := by
    unfold getOptional
    cases hfind : j.find (bytes "requestedSchema") with
    | none => rfl
    | some v => cases hnull : v.isNull <;> simp [hnull, Except.map, Option.filter]
  unfold ElicitRequest.fromJson
  rw [h]
  simp only [hschema, bind, Except.bind]
  cases getOptional j (bytes "url") Json.getString <;> rfl

/-- **When the decoder throws**: the message is there, and the `url` is neither a string nor null. -/
theorem ElicitRequest.fromJson_throws_iff (j : Json) :
    (∃ e, ElicitRequest.fromJson j = .error e) ↔
      (∃ message, j.find (bytes "message") = some (.string message)) ∧ wrongOptional j (bytes "url") Json.isString = true := by
  have hurl := isOk_getOptional j (bytes "url") Json.getString
  simp only [isOk_getString] at hurl
  by_cases hmessage : ∃ message, j.find (bytes "message") = some (.string message)
  · obtain ⟨message, hfind⟩ := hmessage
    rw [ElicitRequest.fromJson_of_message hfind]
    cases hread : getOptional j (bytes "url") Json.getString with
    | error e =>
      rw [hread] at hurl
      refine iff_of_true ⟨e, rfl⟩ ⟨⟨message, hfind⟩, ?_⟩
      simpa [Except.isOk, Except.toBool] using hurl
    | ok url =>
      rw [hread] at hurl
      refine iff_of_false ?_ ?_
      · rintro ⟨e, he⟩
        cases he
      · rintro ⟨-, hwrong⟩
        rw [hwrong] at hurl
        cases hurl
  · refine iff_of_false ?_ fun h => hmessage h.1
    rintro ⟨e, he⟩
    unfold ElicitRequest.fromJson at he
    split at he
    · rename_i message hfind
      exact hmessage ⟨message, hfind⟩
    · cases he

/-- A request that was read. -/
theorem ElicitRequest.fromJson_eq_ok {j : Json} {r : ElicitRequest} (h : ElicitRequest.fromJson j = .ok (.ok r)) :
    j.find (bytes "message") = some (.string r.message) ∧
      r.requestedSchema = (j.find (bytes "requestedSchema")).filter fun v => !v.isNull := by
  by_cases hmessage : ∃ message, j.find (bytes "message") = some (.string message)
  · obtain ⟨message, hfind⟩ := hmessage
    rw [ElicitRequest.fromJson_of_message hfind] at h
    cases hread : getOptional j (bytes "url") Json.getString with
    | error e =>
      rw [hread] at h
      cases h
    | ok url =>
      rw [hread] at h
      cases h
      exact ⟨hfind, rfl⟩
  · unfold ElicitRequest.fromJson at h
    split at h
    · rename_i message hfind
      exact absurd ⟨message, hfind⟩ hmessage
    · cases h

end Mcp
