import McpSdk.HttpExchange
/-!
# HeadCodec — `parse_head` undoes `serialize_request` and `serialize_response`

The serializers write framed heads, so `parse_head` finds the start line, the headers and the start of the body whatever
the body holds (`parseHead_serialize`).
-/
namespace Mcp

/-! ## Messages -/

/-- Headers that are told apart: names and values without line ends or blanks around them, no name twice, none
`Content-Length`. -/
structure Headers where
  list : HeaderList
  name : ∀ h ∈ list, h.1 ≠ [] ∧ ch ':' ∉ h.1 ∧ Plain h.1 ∧ Trimmed h.1
  value : ∀ h ∈ list, Plain h.2 ∧ Trimmed h.2
  distinct : (list.map (fun h => toLower h.1)).Nodup
  noLength : ∀ h ∈ list, toLower h.1 ≠ bytes "content-length"

/-- A word of the request line. -/
structure Word (s : Bytes) : Prop where
  nonempty : s ≠ []
  space : ch ' ' ∉ s
  plain : Plain s

structure HttpRequest extends Headers where
  method : Bytes
  target : Bytes
  body : Bytes
  methodWord : Word method
  targetWord : Word target

structure HttpResponse extends Headers where
  status : Int32
  reason : Bytes
  body : Bytes
  streaming : Bool
  statusRange : 100 ≤ status.toInt ∧ status.toInt ≤ 599
  reasonPlain : Plain reason

/-- The entry the serializers add for a body of this length. -/
def lengthEntry (length : Nat) : Bytes × Bytes := (bytes "content-length", decimal length)

/-- The headers under lowercased names. -/
def Headers.entries (h : Headers) : List (Bytes × Bytes) := h.list.map (fun x => (toLower x.1, x.2))

namespace HttpRequest

def text (r : HttpRequest) : Bytes := serializeRequest r.method r.target r.list r.body

/-- A body or a `POST` has a length. -/
def length (r : HttpRequest) : Option Nat := if r.body ≠ [] ∨ r.method = bytes "POST" then some r.body.length else none

end HttpRequest

namespace HttpResponse

def text (r : HttpResponse) : Bytes := serializeResponse r.status r.reason r.list r.body r.streaming

def length (r : HttpResponse) : Option Nat := if r.streaming then none else some r.body.length

end HttpResponse

/-! ## Headers read back -/

namespace Headers

variable (h : Headers) (length : Option Nat)

/-- The headers as they are written. -/
def sent : HeaderList := h.list ++ (length.map fun n => (bytes "Content-Length", decimal n)).toList

theorem sent_plain : ∀ x ∈ h.sent length, Plain x.1 ∧ Plain x.2 ∧ ch ':' ∉ x.1 := by
  intro x hx
  rcases List.mem_append.1 hx with hx | hx
  · exact ⟨(h.name x hx).2.2.1, (h.value x hx).1, (h.name x hx).2.1⟩
  · cases length with
    | none => cases hx
    | some n =>
      rw [List.mem_singleton.1 hx]
      exact ⟨show Plain (bytes "Content-Length") by decide, plain_decimal n, show ch ':' ∉ bytes "Content-Length" by decide⟩

theorem sent_entries : (h.sent length).map (fun x => (toLower (trim x.1), trim x.2)) = h.entries ++ (length.map lengthEntry).toList := by
  unfold sent entries
  rw [List.map_append]
  congr 1
  · refine List.map_congr_left (fun x hx => ?_)
    rw [(h.name x hx).2.2.2.trim (h.name x hx).2.2.1.2, (h.value x hx).2.trim (h.value x hx).1.2]
  · cases length with
    | none => rfl
    | some n =>
      have hname : toLower (trim (bytes "Content-Length")) = bytes "content-length" := by decide
      simp only [Option.map_some, Option.toList_some, List.map_cons, List.map_nil, hname, trim_decimal]
      rfl

theorem entries_nodup : ((h.entries ++ (length.map lengthEntry).toList).map Prod.fst).Nodup := by
  have hkeys : h.entries.map Prod.fst = h.list.map (fun x => toLower x.1) := List.map_map
  rw [List.map_append, hkeys]
  cases length with
  | none => simpa using h.distinct
  | some n =>
    refine List.nodup_append.2 ⟨h.distinct, List.nodup_singleton _, ?_⟩
    intro name hname length hlength
    obtain ⟨x, hx, rfl⟩ := List.mem_map.1 hname
    rw [List.mem_singleton.1 hlength]
    exact h.noLength x hx

/-- **The header map holds these entries and no others.** -/
theorem lookup_sent (key value : Bytes) :
    (headerDict ∅ ((h.sent length).map headerText)).lookup key = some value ↔
      (key, value) ∈ h.entries ++ (length.map lengthEntry).toList := by
  have hcolon : ∀ x ∈ h.sent length, ch ':' ∉ x.1 := fun x hx => (h.sent_plain length x hx).2.2
  have hfold : headerDict ∅ ((h.sent length).map headerText) =
      (h.entries ++ (length.map lengthEntry).toList).foldl (fun d e => d.insert e.1 e.2) ∅ := by
    rw [headerDict_texts _ _ hcolon, ← h.sent_entries, List.foldl_map]
  rw [hfold, Dict.lookup_insertAll ∅ (h.entries_nodup length)]
  simp

/-- **A start line and these headers are parsed as they were written**, whatever the body. -/
theorem parseHead_sent (requestMode : Bool) {start : Bytes} (hne : start ≠ []) (hplain : Plain start) {head : HttpHead}
    (hstart : (if requestMode then parseRequestLine start else parseStatusLine start) = .ok head) (body : Bytes) :
    parseHead requestMode (headBytes (start :: (h.sent length).map headerText) ++ body) =
      .parsed { head with headers := headerDict head.headers ((h.sent length).map headerText) }
        (headBytes (start :: (h.sent length).map headerText)).length := by
  have hframed : Framed (start :: (h.sent length).map headerText) := by
    refine ⟨List.cons_ne_nil _ _, fun line hline => ?_⟩
    rcases List.mem_cons.1 hline with rfl | hline
    · exact ⟨hne, hplain.2, hplain.1⟩
    · obtain ⟨x, hx, rfl⟩ := List.mem_map.1 hline
      obtain ⟨hname, hvalue, -⟩ := h.sent_plain length x hx
      exact headerText_framed hname hvalue
  have hcolon : ∀ line ∈ (h.sent length).map headerText, ch ':' ∈ line := by
    intro line hline
    obtain ⟨x, -, rfl⟩ := List.mem_map.1 hline
    exact colon_mem_headerText x
  rw [parseHead_framed hframed, parseHead_lines hframed hcolon, hstart]

end Headers

/-! ## Start lines read back -/

theorem parseRequestLine_words {method target : Bytes} (hmethod : Word method) (htarget : Word target) :
    parseRequestLine (method ++ bytes " " ++ target ++ bytes " HTTP/1.1") = .ok { method, target } := by
  have hline : method ++ bytes " " ++ target ++ bytes " HTTP/1.1" = method ++ ch ' ' :: (target ++ ch ' ' :: bytes "HTTP/1.1") := by
    simp [bytes]
  have hrest : (method ++ ch ' ' :: (target ++ ch ' ' :: bytes "HTTP/1.1")).drop (method.length + 1) =
      target ++ ch ' ' :: bytes "HTTP/1.1" := by
    simp [← List.drop_drop]
  have hversion : (target ++ ch ' ' :: bytes "HTTP/1.1").drop (target.length + 1) = bytes "HTTP/1.1" := by
    simp [← List.drop_drop]
  unfold parseRequestLine
  rw [hline, Search.indexOf_singleton hmethod.space]
  simp only [hrest, Search.indexOf_singleton htarget.space, hversion, List.take_left]
  rfl

theorem parseStatusLine_status {status : Int32} (hrange : 100 ≤ status.toInt ∧ status.toInt ≤ 599) (reason : Bytes) :
    parseStatusLine (bytes "HTTP/1.1 " ++ decimalInt status.toInt ++ bytes " " ++ reason) = .ok { status, reason } := by
  have hnat : decimalInt status.toInt = decimal status.toInt.natAbs := if_neg (by omega)
  have hdigits : 2 < (decimalInt status.toInt).length := by
    rw [hnat, decimal, List.length_map]
    refine Nat.lt_of_not_le (fun hshort => ?_)
    have hsmall := (Nat.length_toDigits_le_iff (by decide) (by decide)).1 hshort
    omega
  have hspace : ch ' ' ∉ decimalInt status.toInt := by
    rw [hnat]
    intro hmem
    exact absurd (isDigit_of_mem_decimal hmem) (by decide)
  have hline : bytes "HTTP/1.1 " ++ decimalInt status.toInt ++ bytes " " ++ reason =
      bytes "HTTP/1.1" ++ ch ' ' :: (decimalInt status.toInt ++ ch ' ' :: reason) := by
    simp [bytes]
  have hrest : (bytes "HTTP/1.1" ++ ch ' ' :: (decimalInt status.toInt ++ ch ' ' :: reason)).drop ((bytes "HTTP/1.1").length + 1) =
      decimalInt status.toInt ++ ch ' ' :: reason := by
    rw [← List.drop_drop, List.drop_left]
    rfl
  have hreason : (decimalInt status.toInt ++ ch ' ' :: reason).drop ((decimalInt status.toInt).length + 1) = reason := by
    simp [← List.drop_drop]
  have hstatus : atoi (decimalInt status.toInt ++ ch ' ' :: reason) = status :=
    atoi_decimalInt_append (by omega) (fun b hb => by rw [← Option.some.inj hb]; decide)
  have hlong : ¬ (bytes "HTTP/1.1" ++ ch ' ' :: (decimalInt status.toInt ++ ch ' ' :: reason)).length < (bytes "HTTP/1.1").length + 4 := by
    simp only [List.length_append, List.length_cons]
    omega
  have hvalid : ¬ (status < 100 ∨ 599 < status) := by
    rw [Int32.lt_iff_toInt_lt, Int32.lt_iff_toInt_lt]
    show ¬ (status.toInt < 100 ∨ 599 < status.toInt)
    omega
  unfold parseStatusLine
  rw [hline, if_neg (by simp [bytes]), Search.indexOf_singleton (by decide)]
  simp only [hrest, if_neg hlong, hstatus, if_neg hvalid, Search.indexOf_singleton hspace, hreason]

/-! ## The round trips -/

theorem flatMap_sent (h : Headers) (length : Option Nat) :
    ((h.sent length).map headerText).flatMap (· ++ crlf) =
      h.list.flatMap headerLine ++ (length.map fun n => headerLine (bytes "Content-Length", decimal n)).getD [] := by
  unfold Headers.sent
  rw [← flatMap_headerLine, List.flatMap_append]
  cases length with
  | none => rfl
  | some n => rw [Option.map_some, Option.toList_some, List.flatMap_singleton]; rfl

theorem HttpRequest.text_eq (r : HttpRequest) :
    r.text = headBytes ((r.method ++ bytes " " ++ r.target ++ bytes " HTTP/1.1") :: (r.sent r.length).map headerText) ++ r.body := by
  have hno : r.list.any (fun h => toLower h.1 == bytes "content-length") = false := by
    rw [List.any_eq_false]
    intro x hx
    simpa using r.noLength x hx
  unfold text serializeRequest headBytes length
  rw [hno, List.flatMap_cons, flatMap_sent]
  dsimp only
  by_cases hlength : r.body ≠ [] ∨ r.method = bytes "POST"
  · have hcheck : (!false && (!r.body.isEmpty || r.method == bytes "POST")) = true := by simpa using hlength
    rw [if_pos hlength, if_pos hcheck]
    simp
  · have hcheck : ¬ (!false && (!r.body.isEmpty || r.method == bytes "POST")) = true := by simpa using hlength
    rw [if_neg hlength, if_neg hcheck]
    simp

theorem HttpResponse.text_eq (r : HttpResponse) :
    r.text = headBytes ((bytes "HTTP/1.1 " ++ decimalInt r.status.toInt ++ bytes " " ++ r.reason) :: (r.sent r.length).map headerText) ++
      r.body := by
  unfold text serializeResponse headBytes length
  rw [List.flatMap_cons, flatMap_sent]
  cases r.streaming <;> simp

/-- **What is serialized is parsed**: the start line, the headers under lowercased names with the length the serializer
added, and the place where the body starts. -/
theorem parseHead_serialize :
    (∀ r : HttpRequest, ∃ headers front, r.text = front ++ r.body ∧
      parseHead true r.text = .parsed { method := r.method, target := r.target, headers } front.length ∧
      ∀ key value, headers.lookup key = some value ↔ (key, value) ∈ r.entries ++ (r.length.map lengthEntry).toList) ∧
    ∀ r : HttpResponse, ∃ headers front, r.text = front ++ r.body ∧
      parseHead false r.text = .parsed { status := r.status, reason := r.reason, headers } front.length ∧
      ∀ key value, headers.lookup key = some value ↔ (key, value) ∈ r.entries ++ (r.length.map lengthEntry).toList := by
  constructor
  · intro r
    have hplain : Plain (r.method ++ bytes " " ++ r.target ++ bytes " HTTP/1.1") :=
      ((r.methodWord.plain.append (by decide)).append r.targetWord.plain).append (by decide)
    have hne : r.method ++ bytes " " ++ r.target ++ bytes " HTTP/1.1" ≠ [] := by simp [bytes]
    refine ⟨headerDict ∅ ((r.sent r.length).map headerText), _, r.text_eq, ?_, r.lookup_sent r.length⟩
    rw [r.text_eq]
    exact r.parseHead_sent r.length true hne hplain (parseRequestLine_words r.methodWord r.targetWord) r.body
  · intro r
    have hplain : Plain (bytes "HTTP/1.1 " ++ decimalInt r.status.toInt ++ bytes " " ++ r.reason) :=
      ((Plain.append (by decide) (plain_decimalInt _)).append (by decide)).append r.reasonPlain
    have hne : bytes "HTTP/1.1 " ++ decimalInt r.status.toInt ++ bytes " " ++ r.reason ≠ [] := by simp [bytes]
    refine ⟨headerDict ∅ ((r.sent r.length).map headerText), _, r.text_eq, ?_, r.lookup_sent r.length⟩
    rw [r.text_eq]
    exact r.parseHead_sent r.length false hne hplain (parseStatusLine_status r.statusRange r.reason) r.body

/-- A `GET` without headers or a body. -/
example : (⟨⟨[], List.forall_mem_nil _, List.forall_mem_nil _, List.nodup_nil, List.forall_mem_nil _⟩, bytes "GET", bytes "/", [],
    ⟨by decide, by decide, by decide⟩, ⟨by decide, by decide, by decide⟩⟩ : HttpRequest).text = bytes "GET / HTTP/1.1\r\n\r\n" := by
  decide

end Mcp
