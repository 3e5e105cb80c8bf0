import McpSdk.Escape
import McpSdk.JsonDump
/-!
# Acceptance — which JSON values are messages

`parse_message` sorts its values by the presence and the types of six members.  One test is missing: an error object is
decoded without a look at the types of its `code` and `message`, so a mistyped one is taken for a message, or throws.
-/
namespace Mcp

/-- A string or an integer. -/
def isId (j : Json) : Bool := j.isString || j.isNumberInteger

/-- The members of a request or notification. -/
def isCall (j : Json) : Bool :=
  (j.find (bytes "method")).any Json.isString &&
    (j.find (bytes "params")).all (fun p => p.isNull || p.isObject || p.isArray) && (j.find (bytes "id")).all isId

/-- An error object with an integer code and a string message. -/
def isErrorObject (e : Json) : Bool :=
  e.isObject && (e.find (bytes "code")).any Json.isNumberInteger && (e.find (bytes "message")).any Json.isString

/-- The members of a response. -/
def isReply (j : Json) : Bool :=
  !j.contains (bytes "method") && (j.find (bytes "id")).any (fun id => id.isNull || isId id) &&
    (j.contains (bytes "result") != j.contains (bytes "error")) && (j.find (bytes "error")).all isErrorObject

/-- A JSON-RPC message. -/
def isMessage (j : Json) : Bool := j.isObject && validVersion j && (isCall j || isReply j)

/-- A value that `parse_message` must classify: a message is returned, anything else is an InvalidRequest. -/
def Classified (j : Json) : Prop :=
  if isMessage j then ∃ m, parseMessage j = .ok (.ok m)
  else ∃ e, parseMessage j = .ok (.error e) ∧ e.code = ErrorCode.invalidRequest.toInt

/-- The frame of a batch: its messages in order, and apart from them one InvalidRequest for each other item, in order. -/
def BatchClassified {τ : Type} (text : JsonText τ) (t : τ) (items : List Json) : Prop :=
  ∃ ms es, parseFrame text t = .ok (.ok { messages := ms, itemErrors := es, wasBatch := true }) ∧
    ms.map (fun m => .ok (.ok m)) = (items.filter isMessage).map parseMessage ∧
    es.map (fun e => .ok (.error e)) = (items.filter (fun j => !isMessage j)).map parseMessage ∧
    ∀ e ∈ es, e.code = ErrorCode.invalidRequest.toInt

/-- An error object whose `code` is no integer or whose `message` is no string; both are there. -/
def isMistypedError (e : Json) : Bool :=
  e.isObject && e.contains (bytes "code") && e.contains (bytes "message") && !isErrorObject e

/-- A response but for the types inside its error object. -/
def isMistypedReply (j : Json) : Bool :=
  j.isObject && validVersion j && !j.contains (bytes "method") &&
    (j.find (bytes "id")).any (fun id => id.isNull || isId id) && !j.contains (bytes "result") &&
    (j.find (bytes "error")).any isMistypedError

theorem isSome_requestIdFromJson (j : Json) : (requestIdFromJson j).isSome = isId j := by
  cases j <;> rfl

theorem refused {α : Type} (text : String) :
    ∃ e, (refuse text : Except JsonException (Result α)) = .ok (.error e) ∧ e.code = ErrorCode.invalidRequest.toInt :=
  ⟨_, rfl, rfl⟩

/-! ## Calls -/

theorem any_invalid_params (params : Option Json) :
    (params.filter (fun p => !p.isNull)).any (fun p => !validParams p) =
      !params.all (fun p => p.isNull || p.isObject || p.isArray) := by
  cases params with
  | none => rfl
  | some p => cases p <;> rfl

theorem parseCall_of_isCall {j method : Json} (hm : j.find (bytes "method") = some method) (h : isCall j = true) :
    ∃ m, parseCall j method = .ok (.ok m) := by
  simp only [isCall, hm, Option.any_some, Bool.and_eq_true] at h
  obtain ⟨⟨hstring, hparams⟩, hid⟩ := h
  cases method with
  | string name =>
    simp only [parseCall, any_invalid_params, hparams, Bool.not_true, Bool.false_eq_true, if_false]
    cases hi : j.find (bytes "id") with
    | none => exact ⟨_, rfl⟩
    | some id =>
      rw [hi, Option.all_some, ← isSome_requestIdFromJson] at hid
      obtain ⟨i, hsome⟩ := Option.isSome_iff_exists.1 hid
      dsimp only
      rw [hsome]
      exact ⟨_, rfl⟩
  | _ => cases hstring

theorem parseCall_of_not_isCall {j method : Json} (hm : j.find (bytes "method") = some method) (h : isCall j = false) :
    ∃ e, parseCall j method = .ok (.error e) ∧ e.code = ErrorCode.invalidRequest.toInt := by
  simp only [isCall, hm, Option.any_some] at h
  cases method with
  | string name =>
    simp only [parseCall, any_invalid_params]
    by_cases hparams : (j.find (bytes "params")).all (fun p => p.isNull || p.isObject || p.isArray) = true
    · rw [hparams] at h
      simp only [hparams, Bool.not_true, Bool.false_eq_true, if_false]
      cases hi : j.find (bytes "id") with
      | none => simp [hi, Json.isString] at h
      | some id =>
        have hid : isId id = false := by simpa [hi, Json.isString] using h
        have hnone : requestIdFromJson id = none := by
          rw [← Option.not_isSome_iff_eq_none, isSome_requestIdFromJson, hid]
          exact Bool.false_ne_true
        dsimp only
        rw [hnone]
        exact refused _
    · rw [if_pos (by simp [hparams])]
      exact refused _
  | _ => exact refused _

/-! ## Replies -/

theorem Error.fromJson_of_isErrorObject {e : Json} (h : isErrorObject e = true) :
    ∃ error, Error.fromJson e = .ok error := by
  simp only [isErrorObject, Bool.and_eq_true, Option.any_eq_true] at h
  obtain ⟨⟨-, code, hcode, hinteger⟩, message, hmessage, hstring⟩ := h
  obtain ⟨n, hn⟩ : ∃ n, code.getInt32 = .ok n := by
    cases code with
    | numberInteger n | numberUnsigned n => exact ⟨_, rfl⟩
    | _ => cases hinteger
  obtain ⟨s, hs⟩ : ∃ s, message.getString = .ok s := by
    cases message with
    | string s => exact ⟨s, rfl⟩
    | _ => cases hstring
  obtain ⟨data, hdata⟩ : ∃ data, getOptional e (bytes "data") .ok = .ok data := by
    unfold getOptional
    cases e.find (bytes "data") with
    | none => exact ⟨none, rfl⟩
    | some v =>
      dsimp only
      split
      · exact ⟨none, rfl⟩
      · exact ⟨some v, rfl⟩
  refine ⟨{ code := n, message := s, data := data }, ?_⟩
  unfold Error.fromJson
  simp [at_of_find hcode, at_of_find hmessage, hn, hs, hdata, bind, Except.bind, pure, Except.pure]

/-- A response is decoded from its id and its result or error, once the presence tests are passed. -/
theorem parseResponse_of_members {j id : Json} (hone : j.contains (bytes "result") ≠ j.contains (bytes "error"))
    (hi : j.find (bytes "id") = some id) (hid : (id.isNull || isId id) = true) :
    parseResponse j =
      match j.find (bytes "error") with
      | some e =>
        if !e.isObject || !e.contains (bytes "code") || !e.contains (bytes "message") then
          refuse "malformed error object"
        else (Error.fromJson e).map
          (fun error => .ok (.response { id := if id.isNull then none else requestIdFromJson id, error := some error }))
      | none => (j.at_ (bytes "result")).map
          (fun result => .ok (.response { id := if id.isNull then none else requestIdFromJson id, result := some result })) := by
  unfold parseResponse
  have hok : (!id.isNull && (requestIdFromJson id).isNone) = false := by
    rw [← Option.not_isSome, isSome_requestIdFromJson]
    cases hn : id.isNull with
    | true => rfl
    | false => simpa [hn] using hid
  rw [if_neg hone, hi]
  dsimp only
  rw [hok]
  rfl

theorem parseResponse_of_isReply {j : Json} (h : isReply j = true) :
    ∃ m, parseResponse j = .ok (.ok m) := by
  simp only [isReply, Bool.and_eq_true, Option.any_eq_true, bne_iff_ne] at h
  obtain ⟨⟨⟨-, id, hi, hid⟩, hone⟩, herror⟩ := h
  rw [parseResponse_of_members hone hi hid]
  cases he : j.find (bytes "error") with
  | some e =>
    rw [he, Option.all_some] at herror
    obtain ⟨error, hfrom⟩ := Error.fromJson_of_isErrorObject herror
    simp only [isErrorObject, Bool.and_eq_true, Option.any_eq_true] at herror
    obtain ⟨⟨hobj, code, hcode, -⟩, message, hmessage, -⟩ := herror
    simp only [hobj, Json.contains, hcode, hmessage, hfrom]
    exact ⟨_, rfl⟩
  | none =>
    obtain ⟨result, hr⟩ : ∃ result, j.find (bytes "result") = some result := by
      rw [← Option.ne_none_iff_exists']
      simpa [Json.contains, he] using hone
    rw [at_of_find hr]
    exact ⟨_, rfl⟩

theorem parseResponse_of_not_isReply {j : Json} (hmethod : j.find (bytes "method") = none) (hobject : j.isObject = true)
    (hversion : validVersion j = true) (h : isReply j = false) (hm : isMistypedReply j = false) :
    ∃ e, parseResponse j = .ok (.error e) ∧ e.code = ErrorCode.invalidRequest.toInt := by
  by_cases hone : j.contains (bytes "result") = j.contains (bytes "error")
  · unfold parseResponse
    rw [if_pos hone]
    exact refused _
  cases hi : j.find (bytes "id") with
  | none =>
    unfold parseResponse
    rw [if_neg hone, hi]
    exact refused _
  | some id =>
    by_cases hid : (id.isNull || isId id) = true
    swap
    · have hbad : (!id.isNull && (requestIdFromJson id).isNone) = true := by
        rw [← Option.not_isSome, isSome_requestIdFromJson]
        simpa using hid
      unfold parseResponse
      rw [if_neg hone, hi]
      dsimp only
      rw [if_pos hbad]
      exact refused _
    rw [parseResponse_of_members hone hi hid]
    have hnone : j.contains (bytes "method") = false := by rw [Json.contains, hmethod]; rfl
    have hbne : (j.contains (bytes "result") != j.contains (bytes "error")) = true := bne_iff_ne.2 hone
    simp only [isReply, hnone, hi, Option.any_some, hid, hbne, Bool.not_false, Bool.true_and] at h
    obtain ⟨e, he, hwrong⟩ : ∃ e, j.find (bytes "error") = some e ∧ isErrorObject e = false := by
      cases he : j.find (bytes "error") with
      | none => simp [he] at h
      | some e => exact ⟨e, rfl, by simpa [he] using h⟩
    have hcontains : j.contains (bytes "error") = true := by rw [Json.contains, he]; rfl
    rw [hcontains] at hone
    simp only [isMistypedReply, hobject, hversion, hnone, hi, Option.any_some, hid, Bool.not_false, Bool.true_and,
      Bool.eq_false_iff.2 hone, he, isMistypedError, hwrong, Bool.and_true] at hm
    rw [he]
    dsimp only
    have hmalformed : (!e.isObject || !e.contains (bytes "code") || !e.contains (bytes "message")) = true := by
      by_contra hgood
      simp only [Bool.or_eq_true, Bool.not_eq_true', not_or, Bool.not_eq_false] at hgood
      obtain ⟨⟨hobj, hcode⟩, hmessage⟩ := hgood
      simp [hobj, hcode, hmessage] at hm
    rw [if_pos hmalformed]
    exact refused _

/-- **A mistyped error object is never refused**: the response is returned, or the decoding throws. -/
theorem parseMessage_of_mistyped {j : Json} (h : isMistypedReply j = true) (e : Error) :
    parseMessage j ≠ .ok (.error e) := by
  simp only [isMistypedReply, Bool.and_eq_true, Option.any_eq_true, Bool.not_eq_true'] at h
  obtain ⟨⟨⟨⟨⟨hobject, hversion⟩, hmethod⟩, id, hi, hid⟩, hresult⟩, error, he, hmistyped⟩ := h
  simp only [isMistypedError, Bool.and_eq_true] at hmistyped
  obtain ⟨⟨⟨hobj, hcode⟩, hmessage⟩, -⟩ := hmistyped
  have hfind : j.find (bytes "method") = none := by simpa [Json.contains] using hmethod
  have hone : j.contains (bytes "result") ≠ j.contains (bytes "error") := by
    rw [hresult, Json.contains, he]
    exact Bool.false_ne_true
  unfold parseMessage
  rw [hobject, hversion, hfind]
  show parseResponse j ≠ _
  rw [parseResponse_of_members hone hi hid, he]
  dsimp only
  rw [hobj, hcode, hmessage]
  exact map_ok_ne_error

theorem not_isMessage_of_mistyped {j : Json} (h : isMistypedReply j = true) : isMessage j = false := by
  simp only [isMistypedReply, Bool.and_eq_true, Option.any_eq_true, Bool.not_eq_true'] at h
  obtain ⟨⟨⟨⟨⟨-, -⟩, hmethod⟩, -⟩, -⟩, error, he, hmistyped⟩ := h
  have hfind : j.find (bytes "method") = none := by simpa [Json.contains] using hmethod
  have hwrong : isErrorObject error = false := by
    simp only [isMistypedError, Bool.and_eq_true, Bool.not_eq_true'] at hmistyped
    exact hmistyped.2
  simp [isMessage, isCall, hfind, isReply, he, hwrong]

/-! ## Messages and frames -/

theorem parseMessage_of_isMessage {j : Json} (h : isMessage j = true) : ∃ m, parseMessage j = .ok (.ok m) := by
  simp only [isMessage, Bool.and_eq_true, Bool.or_eq_true] at h
  obtain ⟨⟨hobject, hversion⟩, hmembers⟩ := h
  unfold parseMessage
  rw [hobject, hversion]
  cases hm : j.find (bytes "method") with
  | some method =>
    apply parseCall_of_isCall hm
    apply hmembers.resolve_right
    simp [isReply, Json.contains, hm]
  | none =>
    apply parseResponse_of_isReply
    apply hmembers.resolve_left
    simp [isCall, hm]

theorem parseMessage_of_not_isMessage {j : Json} (h : isMessage j = false) (hm : isMistypedReply j = false) :
    ∃ e, parseMessage j = .ok (.error e) ∧ e.code = ErrorCode.invalidRequest.toInt := by
  unfold parseMessage
  by_cases hobject : j.isObject = true
  swap
  · rw [if_pos (by simpa using hobject)]
    exact refused _
  by_cases hversion : validVersion j = true
  swap
  · rw [if_neg (by simp [hobject]), if_pos (by simpa using hversion)]
    exact refused _
  simp only [isMessage, hobject, hversion, Bool.true_and, Bool.or_eq_false_iff] at h
  rw [hobject, hversion]
  cases hmethod : j.find (bytes "method") with
  | some method => exact parseCall_of_not_isCall hmethod h.1
  | none => exact parseResponse_of_not_isReply hmethod hobject hversion h.2 hm

theorem classified_iff (j : Json) : Classified j ↔ isMistypedReply j = false := by
  unfold Classified
  constructor
  · intro h
    by_contra hm
    have hm : isMistypedReply j = true := by simpa using hm
    rw [if_neg (by simp [not_isMessage_of_mistyped hm])] at h
    obtain ⟨e, he, -⟩ := h
    exact parseMessage_of_mistyped hm e he
  · intro hm
    by_cases h : isMessage j = true
    · rw [if_pos h]
      exact parseMessage_of_isMessage h
    · rw [if_neg h]
      exact parseMessage_of_not_isMessage (by simpa using h) hm

/-- The loop over a batch without mistyped replies keeps the order of its messages and of its errors. -/
theorem parseItems_classified : ∀ (items : List Json) (frame : ParsedFrame), (∀ j ∈ items, isMistypedReply j = false) →
    ∃ ms es, parseItems items frame =
        .ok { frame with messages := frame.messages ++ ms, itemErrors := frame.itemErrors ++ es } ∧
      ms.map (fun m => .ok (.ok m)) = (items.filter isMessage).map parseMessage ∧
      es.map (fun e => .ok (.error e)) = (items.filter (fun j => !isMessage j)).map parseMessage ∧
      ∀ e ∈ es, e.code = ErrorCode.invalidRequest.toInt
  | [], frame, _ => ⟨[], [], by simp [parseItems], rfl, rfl, by simp⟩
  | j :: items, frame, h => by
    have hj := h j List.mem_cons_self
    have hitems : ∀ x ∈ items, isMistypedReply x = false := fun x hx => h x (List.mem_cons_of_mem j hx)
    by_cases hm : isMessage j = true
    · obtain ⟨m, hparse⟩ := parseMessage_of_isMessage hm
      obtain ⟨ms, es, hrest, hms, hes, hcode⟩ :=
        parseItems_classified items { frame with messages := frame.messages ++ [m] } hitems
      refine ⟨m :: ms, es, ?_, ?_, ?_, hcode⟩
      · simp [parseItems, hparse, hrest, bind, Except.bind]
      · simp [hm, hparse, hms]
      · simp [hm, hes]
    · obtain ⟨e, hparse, he⟩ := parseMessage_of_not_isMessage (by simpa using hm) hj
      obtain ⟨ms, es, hrest, hms, hes, hcode⟩ :=
        parseItems_classified items { frame with itemErrors := frame.itemErrors ++ [e] } hitems
      refine ⟨ms, e :: es, ?_, ?_, ?_, ?_⟩
      · simp [parseItems, hparse, hrest, bind, Except.bind]
      · simp [hm, hms]
      · simp [hm, hparse, hes]
      · intro x hx
        rcases List.mem_cons.1 hx with rfl | hx
        · exact he
        · exact hcode x hx

theorem batchClassified_iff {τ : Type} {text : JsonText τ} {t : τ} {items : List Json} (hne : items ≠ [])
    (hp : text.parse t = some (.array items)) :
    BatchClassified text t items ↔ ∀ j ∈ items, isMistypedReply j = false := by
  constructor
  · rintro ⟨ms, es, -, -, hes, -⟩ j hj
    by_contra hm
    have hm : isMistypedReply j = true := by simpa using hm
    have hrejected : j ∈ items.filter (fun j => !isMessage j) :=
      List.mem_filter.2 ⟨hj, by simp [not_isMessage_of_mistyped hm]⟩
    have himage : parseMessage j ∈ es.map (fun e => (.ok (.error e) : Except JsonException (Result Message))) := by
      rw [hes]
      exact List.mem_map_of_mem hrejected
    obtain ⟨e, -, he⟩ := List.mem_map.1 himage
    exact parseMessage_of_mistyped hm e he.symm
  · intro h
    obtain ⟨ms, es, hparse, hms, hes, hcode⟩ := parseItems_classified items { wasBatch := true } h
    refine ⟨ms, es, ?_, hms, hes, hcode⟩
    obtain ⟨j, rest, rfl⟩ := List.exists_cons_of_ne_nil hne
    unfold parseFrame
    rw [hp]
    dsimp only
    rw [hparse]
    rfl

/-- **`parse_message` classifies exactly the values without a mistyped error object**, and `parse_frame` exactly the
batches without one. -/
theorem classified_iff_not_mistyped {τ : Type} (text : JsonText τ) :
    (∀ j, Classified j ↔ isMistypedReply j = false) ∧
      ∀ t items, items ≠ [] → text.parse t = some (.array items) →
        (BatchClassified text t items ↔ ∀ j ∈ items, isMistypedReply j = false) :=
  ⟨classified_iff, fun _ _ hne hp => batchClassified_iff hne hp⟩

/-- `[{"id":1,"jsonrpc":"2.0","method":"ping"},{"bogus":true}]`. -/
def mixedItems : List Json :=
  [.object [(bytes "id", .numberUnsigned 1), (bytes "jsonrpc", .string (bytes "2.0")), (bytes "method", .string (bytes "ping"))],
    .object [(bytes "bogus", .boolean true)]]

def mixedText : JsonText Bytes :=
  tableText (fun _ => bytes "0.0") [((Json.array mixedItems).compact (fun _ => bytes "0.0"), .array mixedItems)]

theorem classified_iff_not_mistyped_mixed :
    BatchClassified mixedText ((Json.array mixedItems).compact (fun _ => bytes "0.0")) mixedItems :=
  ((classified_iff_not_mistyped mixedText).2 _ _ (by decide) (by rfl)).2 (by decide +kernel)

/-- `{"error":{"code":"x","message":"m"},"id":1,"jsonrpc":"2.0"}`. -/
def mistypedReply : Json :=
  .object [(bytes "error", .object [(bytes "code", .string (bytes "x")), (bytes "message", .string (bytes "m"))]),
    (bytes "id", .numberUnsigned 1), (bytes "jsonrpc", .string (bytes "2.0"))]

/-- A string for a code throws out of `parse_message`, and takes the rest of its batch along. -/
theorem mistypedReply_throws :
    ¬ Classified mistypedReply ∧
      parseMessage mistypedReply = .error (typeError 302 (bytes "type must be number, but is string")) ∧
      parseItems (mixedItems ++ [mistypedReply]) { wasBatch := true } =
        .error (typeError 302 (bytes "type must be number, but is string")) :=
  ⟨fun h => absurd ((classified_iff mistypedReply).1 h) (by decide +kernel), by rfl, by rfl⟩

end Mcp
