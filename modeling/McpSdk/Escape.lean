import McpSdk.Session
/-!
# Escape — the messages whose exception leaves `handle_message`

Of the three kinds of message only requests are dispatched inside a `try`.  The built-in notification decoders read
their required fields after checking them and their optional ones with `get_optional`, which throws on a wrong type:
`malformedBuiltin` collects the messages that reach such a read, and no other message throws.
-/
namespace Mcp

/-! ## When a read throws -/

theorem isOk_getDouble (j : Json) : j.getDouble.isOk = j.isNumber := by
  cases j <;> rfl

theorem isOk_getString (j : Json) : j.getString.isOk = j.isString := by
  cases j <;> rfl

/-- An optional field that is present, not null, and of the wrong type. -/
def wrongOptional (j : Json) (key : Bytes) (good : Json → Bool) : Bool :=
  (j.find key).any (fun v => !v.isNull && !good v)

theorem isOk_getOptional {α : Type} (j : Json) (key : Bytes) (get : Json → Except JsonException α) :
    (getOptional j key get).isOk = !wrongOptional j key (fun v => (get v).isOk) := by
  unfold getOptional wrongOptional
  cases j.find key with
  | none => rfl
  | some v =>
    dsimp only [Option.any_some]
    by_cases hv : v.isNull = true
    · simp [hv, Except.isOk, Except.toBool]
    · rw [if_neg hv]
      cases get v <;> simp [hv, Except.map, Except.isOk, Except.toBool]

theorem exists_of_isOk {α : Type} {r : Except JsonException α} (h : r.isOk = true) : ∃ a, r = .ok a := by
  cases r with
  | error e => cases h
  | ok a => exact ⟨a, rfl⟩

theorem isObject_of_find {j : Json} {key : Bytes} {v : Json} (h : j.find key = some v) : j.isObject = true := by
  cases j <;> first | rfl | cases h

theorem at_of_find {j : Json} {key : Bytes} {v : Json} (h : j.find key = some v) : j.at_ key = .ok v := by
  simp [Json.at_, isObject_of_find h, h]

/-! ## The two decoders -/

/-- A payload with a valid token and progress whose `total` or `message` has the wrong type. -/
def ProgressNotification.fromJsonThrows (j : Json) : Bool :=
  ((j.find (bytes "progressToken")).bind requestIdFromJson).isSome && (j.find (bytes "progress")).any Json.isNumber &&
    (wrongOptional j (bytes "total") Json.isNumber || wrongOptional j (bytes "message") Json.isString)

/-- A payload with a valid request id whose `reason` has the wrong type. -/
def CancelledNotification.fromJsonThrows (j : Json) : Bool :=
  ((j.find (bytes "requestId")).bind requestIdFromJson).isSome && wrongOptional j (bytes "reason") Json.isString

/-- **`ProgressNotification::from_json` throws exactly on `fromJsonThrows`.** -/
theorem ProgressNotification.isOk_fromJson (j : Json) : (fromJson j).isOk = !fromJsonThrows j := by
  unfold fromJson fromJsonThrows
  cases ht : j.find (bytes "progressToken") with
  | none => simp [Json.contains, ht, Except.isOk, Except.toBool]
  | some t =>
    cases hp : j.find (bytes "progress") with
    | none => simp [Except.isOk, Except.toBool]
    | some p =>
      by_cases hnum : p.isNumber = true
      swap
      · simp [hnum, Except.isOk, Except.toBool]
      cases hid : requestIdFromJson t with
      | none => simp [Json.contains, isObject_of_find ht, ht, hid, hnum, Except.isOk, Except.toBool]
      | some token =>
        obtain ⟨d, hd⟩ := exists_of_isOk ((isOk_getDouble p).trans hnum)
        have htotal := isOk_getOptional j (bytes "total") Json.getDouble
        have hmessage := isOk_getOptional j (bytes "message") Json.getString
        simp only [isOk_getDouble, isOk_getString] at htotal hmessage
        simp only [Json.contains, isObject_of_find ht, ht, hid, hnum, at_of_find hp, hd, Option.isSome_some,
          Option.any_some, Option.bind_some, Bool.not_true, Bool.or_self, Bool.false_eq_true, if_false, Bool.true_and,
          bind, Except.bind]
        cases hgt : getOptional j (bytes "total") Json.getDouble with
        | error e =>
          rw [hgt] at htotal
          simp_all [Except.isOk, Except.toBool]
        | ok total =>
          rw [hgt] at htotal
          cases hgm : getOptional j (bytes "message") Json.getString with
          | error e =>
            rw [hgm] at hmessage
            simp_all [Except.isOk, Except.toBool]
          | ok message =>
            rw [hgm] at hmessage
            simp_all [Except.isOk, Except.toBool, pure, Except.pure]

/-- **`CancelledNotification::from_json` throws exactly on `fromJsonThrows`.** -/
theorem CancelledNotification.isOk_fromJson (j : Json) : (fromJson j).isOk = !fromJsonThrows j := by
  unfold fromJson fromJsonThrows
  cases hr : j.find (bytes "requestId") with
  | none => simp [Json.contains, hr, Except.isOk, Except.toBool]
  | some r =>
    cases hid : requestIdFromJson r with
    | none => simp [Json.contains, isObject_of_find hr, hr, hid, Except.isOk, Except.toBool]
    | some id =>
      have hreason := isOk_getOptional j (bytes "reason") Json.getString
      simp only [isOk_getString] at hreason
      simp only [Json.contains, isObject_of_find hr, hr, hid, Option.isSome_some, Option.bind_some, Bool.not_true,
        Bool.or_self, Bool.false_eq_true, if_false, Bool.true_and, bind, Except.bind]
      cases hg : getOptional j (bytes "reason") Json.getString with
      | error e =>
        rw [hg] at hreason
        simpa [Except.isOk, Except.toBool] using hreason
      | ok reason =>
        rw [hg] at hreason
        simpa [Except.isOk, Except.toBool, pure, Except.pure] using hreason

/-! ## `handle_message` -/

namespace Session

variable {ω : Type}

/-- **The messages that throw**: a notification whose handler is a built-in decoder that throws on its params. -/
def malformedBuiltin (s : Session ω) : Message → Bool
  | .notification n =>
    match s.router.findNotificationHandler n.method with
    | some .progress => n.params.any ProgressNotification.fromJsonThrows
    | some .cancelled => n.params.any CancelledNotification.fromJsonThrows
    | _ => false
  | _ => false

theorem handleProgress_escaped (now : TimePoint) (s : Session ω) (w : ω) (params : Option Json) :
    (handleProgress now s w params).escaped.isSome = params.any ProgressNotification.fromJsonThrows := by
  unfold handleProgress
  cases params with
  | none => rfl
  | some p =>
    have h := ProgressNotification.isOk_fromJson p
    rw [Option.any_some]
    cases hg : ProgressNotification.fromJson p with
    | error e =>
      rw [hg] at h
      simp only [hg]
      simpa [Except.isOk, Except.toBool] using h.symm
    | ok r =>
      rw [hg] at h
      simp only [hg]
      cases r <;> simpa [Except.isOk, Except.toBool] using h

theorem handleCancelled_escaped (s : Session ω) (w : ω) (params : Option Json) :
    (handleCancelled s w params).escaped.isSome = params.any CancelledNotification.fromJsonThrows := by
  unfold handleCancelled
  cases params with
  | none => rfl
  | some p =>
    have h := CancelledNotification.isOk_fromJson p
    rw [Option.any_some]
    cases hg : CancelledNotification.fromJson p with
    | error e =>
      rw [hg] at h
      simp only [hg]
      simpa [Except.isOk, Except.toBool] using h.symm
    | ok r =>
      rw [hg] at h
      simp only [hg]
      cases r with
      | error e => simpa [Except.isOk, Except.toBool] using h
      | ok note =>
        dsimp only
        split <;> simpa [Except.isOk, Except.toBool] using h

theorem handleRequest_escaped (s : Session ω) (w : ω) (r : JsonRpcRequest) : (handleRequest s w r).escaped = none := by
  unfold handleRequest
  dsimp only
  split <;> rfl

theorem handleResponse_escaped (s : Session ω) (w : ω) (r : JsonRpcResponse) :
    (handleResponse s w r).escaped = none := by
  unfold handleResponse
  split <;> rfl

/-- **An exception leaves `handle_message` exactly on a malformed built-in notification.** -/
theorem handleMessage_escaped_isSome (now : TimePoint) (s : Session ω) (w : ω) (m : Message) :
    (handleMessage now s w m).escaped.isSome = s.malformedBuiltin m := by
  cases m with
  | request r => simp [handleMessage, malformedBuiltin, handleRequest_escaped]
  | response r => simp [handleMessage, malformedBuiltin, handleResponse_escaped]
  | notification n =>
    simp only [handleMessage, dispatchNotification, malformedBuiltin]
    cases s.router.findNotificationHandler n.method with
    | none => rfl
    | some handler =>
      cases handler with
      | progress => exact handleProgress_escaped now s w n.params
      | cancelled => exact handleCancelled_escaped s w n.params
      | initialized => rfl
      | user run => rfl

/-- **`handle_message` returns normally exactly when the message is not a malformed built-in notification.** -/
theorem handleMessage_returns_iff (now : TimePoint) (s : Session ω) (w : ω) (m : Message) :
    (handleMessage now s w m).escaped = none ↔ s.malformedBuiltin m = false := by
  rw [← handleMessage_escaped_isSome now s w m, Option.isSome_eq_false_iff, Option.isNone_iff_eq_none]

def textTotal : Json :=
  .object [(bytes "jsonrpc", .string (bytes "2.0")), (bytes "method", .string (bytes "notifications/progress")),
    (bytes "params", .object [(bytes "progress", .numberUnsigned 1), (bytes "progressToken", .numberUnsigned 1),
      (bytes "total", .string (bytes "x"))])]

/-- The `type_error` of `get<double>()` on that `total` leaves a fresh server's `handle_message`. -/
theorem handleMessage_throws_textTotal :
    ∃ m, parseMessage textTotal = .ok (.ok m) ∧
      (handleMessage 0 (mkServer { serverInfo := { name := bytes "s", version := bytes "1" } } : Session Unit) () m).escaped
        = some (.json (typeError 302 (bytes "type must be number, but is string"))) :=
  ⟨_, rfl, rfl⟩

end Session

end Mcp
