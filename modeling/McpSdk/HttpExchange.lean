import McpSdk.HttpStream
import McpSdk.HttpClient
import McpSdk.Wire
/-!
# HttpExchange — one POST between the client and the servers of this repository

`serialize_request` and `serialize_response` write framed heads (`postRequest_framed`, `writeSimple_framed`), and
`parse_head` reads them back line by line.  The request stops with its body, so the server's reads cannot bring more, and
the client cuts the reply to its length.
-/
namespace Mcp

/-! ## Heads read back -/

theorem headBytes_eq_unlines (lines : List Bytes) : headBytes lines = unlines ((lines ++ [[]]).map (· ++ [13])) := by
  unfold headBytes unlines
  rw [List.flatMap_map, List.flatMap_append]
  simp [crlf]

theorem stripCr_append (line : Bytes) : stripCr (line ++ [13]) = line := by
  simp [stripCr]

/-- **The lines of a framed head.** -/
theorem headLines_framed {lines : List Bytes} (h : Framed lines) :
    headLines (headBytes lines) (headBytes lines).length = lines ++ [[]] := by
  have hlf : ∀ line ∈ (lines ++ [[]]).map (· ++ [13]), (10 : UInt8) ∉ line := by
    intro line hline
    obtain ⟨l, hl, rfl⟩ := List.mem_map.1 hline
    rcases List.mem_append.1 hl with hl | hl
    · have hnone := (h.line l hl).2.2
      simp [hnone]
    · rw [List.mem_singleton.1 hl]
      decide
  have hdrain := drain_unlines hlf []
  rw [List.append_nil] at hdrain
  unfold headLines
  rw [List.take_length, headBytes_eq_unlines, hdrain]
  simp only [Search.drain, List.append_nil, List.map_map]
  have hstrip : stripCr ∘ (· ++ [13]) = id := by
    funext line
    exact stripCr_append line
  rw [hstrip, List.map_id]

/-- What a header line says: the lowercased name and the value, both trimmed. -/
def headerEntry (line : Bytes) : Bytes × Bytes :=
  let colon := (Search.indexOf [ch ':'] line).getD 0
  (toLower (trim (line.take colon)), trim (line.drop (colon + 1)))

def headerDict (headers : Dict Bytes Bytes) (lines : List Bytes) : Dict Bytes Bytes :=
  lines.foldl (fun headers line => headers.insert (headerEntry line).1 (headerEntry line).2) headers

theorem parseHeaders_lines : ∀ {lines : List Bytes} (head : HttpHead), (∀ line ∈ lines, ch ':' ∈ line) →
    parseHeaders (lines ++ [[]]) head = .ok { head with headers := headerDict head.headers lines }
  | [], head, _ => rfl
  | line :: lines, head, h => by
    have hcolon := h line List.mem_cons_self
    obtain ⟨i, hi⟩ := Search.exists_indexOf ((List.singleton_infix_iff _ _).2 hcolon)
    obtain ⟨b, rest, rfl⟩ := List.exists_cons_of_ne_nil (List.ne_nil_of_mem hcolon)
    have ih := @parseHeaders_lines lines
      { head with headers := head.headers.insert (headerEntry (b :: rest)).1 (headerEntry (b :: rest)).2 }
      (fun l hl => h l (List.mem_cons_of_mem _ hl))
    have hentry : headerEntry (b :: rest) = (toLower (trim ((b :: rest).take i)), trim ((b :: rest).drop (i + 1))) := by
      simp only [headerEntry, hi, Option.getD_some]
    rw [hentry] at ih
    rw [headerDict, List.foldl_cons, hentry, List.cons_append, parseHeaders.eq_3 _ _ _ (List.cons_ne_nil b rest), hi]
    exact ih

/-- **A framed head is parsed line by line.** -/
theorem parseHead_lines {start : Bytes} {lines : List Bytes} (h : Framed (start :: lines))
    (hcolon : ∀ line ∈ lines, ch ':' ∈ line) (requestMode : Bool) :
    parseHead requestMode (headBytes (start :: lines)) =
      match (if requestMode then parseRequestLine start else parseStatusLine start) with
      | .error e => .malformed e
      | .ok head => .parsed { head with headers := headerDict head.headers lines } (headBytes (start :: lines)).length := by
  have hend : headEnd (headBytes (start :: lines)) = some (headBytes (start :: lines)).length := by
    simpa using headEnd_framed h []
  have hne := (h.line start List.mem_cons_self).1
  obtain ⟨b, rest, rfl⟩ := List.exists_cons_of_ne_nil hne
  unfold parseHead
  rw [hend]
  simp only [headLines_framed h, List.cons_append]
  cases (if requestMode then parseRequestLine (b :: rest) else parseStatusLine (b :: rest)) with
  | error e => rfl
  | ok head => simp only [parseHeaders_lines head hcolon]

/-! ## Header lines -/

def headerText (h : Bytes × Bytes) : Bytes := h.1 ++ bytes ": " ++ h.2

theorem headerText_framed {h : Bytes × Bytes} (hname : Plain h.1) (hvalue : Plain h.2) :
    headerText h ≠ [] ∧ (13 : UInt8) ∉ headerText h ∧ (10 : UInt8) ∉ headerText h := by
  have hplain : Plain (headerText h) := (hname.append (by decide)).append hvalue
  exact ⟨by simp [headerText, bytes], hplain.2, hplain.1⟩

theorem colon_mem_headerText (h : Bytes × Bytes) : ch ':' ∈ headerText h := by
  simp [headerText, bytes]

theorem flatMap_headerLine (headers : HeaderList) : headers.flatMap headerLine = (headers.map headerText).flatMap (· ++ crlf) := by
  rw [List.flatMap_map]
  rfl

theorem trim_blank (s : Bytes) : trim (ch ' ' :: s) = trim s := by
  simp [trim, isBlank]

theorem headerEntry_headerText {name : Bytes} (value : Bytes) (hname : ch ':' ∉ name) :
    headerEntry (headerText (name, value)) = (toLower (trim name), trim value) := by
  have htext : headerText (name, value) = name ++ ch ':' :: ch ' ' :: value := by simp [headerText, bytes]
  have hcolon := Search.indexOf_singleton hname (ch ' ' :: value)
  have hdrop : (name ++ ch ':' :: ch ' ' :: value).drop (name.length + 1) = ch ' ' :: value := by
    rw [← List.drop_drop, List.drop_left]
    rfl
  unfold headerEntry
  rw [htext, hcolon]
  simp only [Option.getD_some, List.take_left, hdrop, trim_blank]

/-- Without blanks at either end. -/
structure Trimmed (s : Bytes) : Prop where
  front : ∀ b ∈ s.head?, isBlank b = false
  back : ∀ b ∈ s.getLast?, isBlank b = false

theorem Trimmed.trim {s : Bytes} (h : Trimmed s) (hcr : (13 : UInt8) ∉ s) : trim s = s := by
  have hfront : s.dropWhile isBlank = s := by
    cases s with
    | nil => rfl
    | cons b s => rw [List.dropWhile_cons_of_neg (by simp [h.front b rfl])]
  have hback : s.reverse.dropWhile (fun b => isBlank b || b == ch '\r') = s.reverse := by
    cases hr : s.reverse with
    | nil => rfl
    | cons b t =>
      have hlast : s.getLast? = some b := by rw [← List.head?_reverse, hr, List.head?_cons]
      have hb : b ≠ ch '\r' := fun he => hcr (by rw [← show b = 13 from he]; exact List.mem_of_getLast? hlast)
      rw [List.dropWhile_cons_of_neg (by simp [h.back b hlast, hb])]
  unfold Mcp.trim
  rw [hfront, hback, List.reverse_reverse]

theorem trim_decimal (n : Nat) : trim (decimal n) = decimal n := by
  have hblank : ∀ b ∈ decimal n, isBlank b = false := by
    intro b hb
    have hdigit := isDigit_of_mem_decimal hb
    have hrange : 48 ≤ b.toNat ∧ b.toNat ≤ 57 := by
      simp only [isDigit, Bool.and_eq_true, decide_eq_true_eq, UInt8.le_iff_toNat_le] at hdigit
      exact hdigit
    simp only [isBlank, Bool.or_eq_false_iff, beq_eq_false_iff_ne, ne_eq, ← UInt8.toNat_inj]
    constructor
    · show b.toNat ≠ 32; omega
    · show b.toNat ≠ 9; omega
  exact Trimmed.trim ⟨fun b hb => hblank b (List.mem_of_mem_head? hb), fun b hb => hblank b (List.mem_of_getLast? hb)⟩
    (plain_decimal n).2

/-- The last header line wins. -/
theorem lookup_headerDict_last (headers : Dict Bytes Bytes) (lines : List Bytes) {name : Bytes} (value : Bytes)
    (hname : ch ':' ∉ name) :
    (headerDict headers (lines ++ [headerText (name, value)])).lookup (toLower (trim name)) = some (trim value) := by
  unfold headerDict
  rw [List.foldl_append]
  simp only [List.foldl_cons, List.foldl_nil, headerEntry_headerText value hname]
  exact AList.lookup_insert _

theorem headerDict_texts : ∀ (headers : HeaderList) (d : Dict Bytes Bytes), (∀ h ∈ headers, ch ':' ∉ h.1) →
    headerDict d (headers.map headerText) = headers.foldl (fun d h => d.insert (toLower (trim h.1)) (trim h.2)) d
  | [], d, _ => rfl
  | h :: headers, d, hcolon => by
    have hentry := headerEntry_headerText h.2 (hcolon h List.mem_cons_self)
    have ih := headerDict_texts headers (d.insert (toLower (trim h.1)) (trim h.2))
      (fun x hx => hcolon x (List.mem_cons_of_mem h hx))
    rw [List.map_cons, List.foldl_cons, ← ih]
    unfold headerDict
    rw [List.foldl_cons, hentry]

/-! ## The request -/

namespace HttpClient

/-- Options without line ends, and without a `Content-Length` among the extra headers. -/
structure Sendable (o : HttpClientOptions) (sessionId : Bytes) : Prop where
  host : Plain o.host
  path : Plain o.path
  origin : ∀ origin, o.origin = some origin → Plain origin
  sessionId : Plain sessionId
  headers : ∀ h ∈ o.headers, Plain h.1 ∧ Plain h.2 ∧ toLower h.1 ≠ bytes "content-length"

def requestLine (o : HttpClientOptions) : Bytes := bytes "POST" ++ bytes " " ++ o.path ++ bytes " HTTP/1.1"

def requestLines (o : HttpClientOptions) (sessionId body : Bytes) : List Bytes :=
  requestLine o :: (postHeaders o sessionId).map headerText ++ [headerText (bytes "Content-Length", decimal body.length)]

/-- The endpoint parses the head of the request and lets it pass its checks. -/
def Accepts (so : HttpServerOptions) (o : HttpClientOptions) (sessionId body : Bytes) : Prop :=
  ∃ head consumed, parseHead true (headBytes (requestLines o sessionId body)) = .parsed head consumed ∧
    HttpEndpoint.refusal so head = none

variable {o : HttpClientOptions} {sessionId : Bytes}

theorem Sendable.postHeaders (h : Sendable o sessionId) :
    ∀ x ∈ postHeaders o sessionId, Plain x.1 ∧ Plain x.2 ∧ toLower x.1 ≠ bytes "content-length" := by
  intro x hx
  simp only [HttpClient.postHeaders, List.mem_append, List.mem_cons, List.not_mem_nil, or_false] at hx
  rcases hx with (((rfl | rfl | rfl | rfl | rfl) | hx) | hx) | hx
  · have hhost := (h.host.append (t := bytes ":") (by decide)).append (plain_decimal o.port.toNat)
    exact ⟨show Plain (bytes "Host") by decide, hhost, show toLower (bytes "Host") ≠ bytes "content-length" by decide⟩
  · exact ⟨by decide, by decide, by decide⟩
  · exact ⟨by decide, by decide, by decide⟩
  · exact ⟨by decide, by decide, by decide⟩
  · exact ⟨by decide, by decide, by decide⟩
  · cases ho : o.origin with
    | none => simp [ho] at hx
    | some origin =>
      simp only [ho, Option.map_some, Option.toList_some, List.mem_singleton] at hx
      rw [hx]
      exact ⟨show Plain (bytes "Origin") by decide, h.origin origin ho,
        show toLower (bytes "Origin") ≠ bytes "content-length" by decide⟩
  · by_cases hid : sessionId.isEmpty = true
    · simp [hid] at hx
    · rw [if_neg hid, List.mem_singleton] at hx
      rw [hx]
      exact ⟨show Plain (bytes "Mcp-Session-Id") by decide, h.sessionId,
        show toLower (bytes "Mcp-Session-Id") ≠ bytes "content-length" by decide⟩
  · exact h.headers x hx

/-- **A POST is a framed head and its body.** -/
theorem postRequest_framed (h : Sendable o sessionId) (body : Bytes) :
    postRequest o sessionId body = headBytes (requestLines o sessionId body) ++ body ∧ Framed (requestLines o sessionId body) := by
  have hheaders := h.postHeaders
  have hlength : (HttpClient.postHeaders o sessionId).any (fun h => toLower h.1 == bytes "content-length") = false := by
    rw [List.any_eq_false]
    intro x hx
    simpa using (hheaders x hx).2.2
  constructor
  · unfold postRequest serializeRequest
    rw [hlength, flatMap_headerLine]
    simp [headBytes, requestLines, requestLine, headerLine, headerText, List.flatMap_append]
  · refine ⟨List.cons_ne_nil _ _, fun line hline => ?_⟩
    simp only [requestLines, List.mem_append, List.mem_cons, List.mem_map, List.not_mem_nil, or_false] at hline
    rcases hline with (rfl | ⟨x, hx, rfl⟩) | rfl
    · have hplain : Plain (requestLine o) := (Plain.append (by decide) h.path).append (by decide)
      exact ⟨by simp [requestLine, bytes], hplain.2, hplain.1⟩
    · exact headerText_framed (hheaders x hx).1 (hheaders x hx).2.1
    · exact headerText_framed (show Plain (bytes "Content-Length") by decide) (plain_decimal _)

theorem parseRequestLine_post {head : HttpHead} (h : parseRequestLine (requestLine o) = .ok head) :
    head.method = bytes "POST" := by
  have hline : requestLine o = bytes "POST" ++ ch ' ' :: (o.path ++ bytes " HTTP/1.1") := by
    simp [requestLine, bytes]
  have hspace := Search.indexOf_singleton (x := ch ' ') (l := bytes "POST") (by decide) (o.path ++ bytes " HTTP/1.1")
  unfold parseRequestLine at h
  rw [hline, hspace] at h
  simp only at h
  split at h
  · cases h
  · split at h
    · cases h
    · cases h
      rw [List.take_left]

/-- What the head of a POST says. -/
theorem parse_request (h : Sendable o sessionId) {body : Bytes} {head : HttpHead} {consumed : Nat}
    (hparse : parseHead true (headBytes (requestLines o sessionId body)) = .parsed head consumed) :
    head.method = bytes "POST" ∧ head.header (bytes "content-length") = decimal body.length := by
  have hcolon : ∀ line ∈ (HttpClient.postHeaders o sessionId).map headerText ++
      [headerText (bytes "Content-Length", decimal body.length)], ch ':' ∈ line := by
    intro line hline
    rcases List.mem_append.1 hline with hline | hline
    · obtain ⟨x, -, rfl⟩ := List.mem_map.1 hline
      exact colon_mem_headerText x
    · rw [List.mem_singleton.1 hline]
      exact colon_mem_headerText _
  have hname : toLower (trim (bytes "Content-Length")) = bytes "content-length" := by decide
  have hlines := parseHead_lines (postRequest_framed h body).2 hcolon true
  rw [if_pos rfl] at hlines
  rw [show requestLines o sessionId body = requestLine o :: _ from rfl, hlines] at hparse
  cases hstart : parseRequestLine (requestLine o) with
  | error e =>
    rw [hstart] at hparse
    cases hparse
  | ok start =>
    rw [hstart] at hparse
    cases hparse
    have hmethod : start.method = bytes "POST" := parseRequestLine_post hstart
    refine ⟨hmethod, ?_⟩
    have hlast := lookup_headerDict_last start.headers ((HttpClient.postHeaders o sessionId).map headerText)
      (decimal body.length) (show ch ':' ∉ bytes "Content-Length" by decide)
    rw [hname, trim_decimal] at hlast
    simp [HttpHead.header, hlast]

/-- **The endpoint is handed the body of the POST**, however its bytes are read. -/
theorem request_handled (h : Sendable o sessionId) {so : HttpServerOptions} {body : Bytes} (hsize : body.length < 2 ^ 64)
    (haccepts : Accepts so o sessionId body) {reads : List Bytes} (hne : ∀ c ∈ reads, c ≠ [])
    (hreads : reads.flatten = postRequest o sessionId body) :
    ∃ head, HttpEndpoint.handleConnection so reads = .handled head body ∧ head.method = bytes "POST" := by
  obtain ⟨head, consumed, hparse, hrefusal⟩ := haccepts
  obtain ⟨hrequest, hframed⟩ := postRequest_framed h body
  obtain ⟨hmethod, hheader⟩ := parse_request h hparse
  have hlength : HttpEndpoint.contentLength head = body.length := by
    rw [HttpEndpoint.contentLength, hheader, strtoull_decimal hsize]
  rw [hrequest] at hreads
  have hhandled := HttpEndpoint.handleConnection_stream so hframed hparse hne hreads (by omega)
  have hall := readUntil_all hreads
  rw [List.length_append] at hall
  rw [hrefusal, hlength, hall, List.drop_left] at hhandled
  exact ⟨head, hhandled, hmethod⟩

/-! ## The reply -/

def replyHeaders (contentType : Bytes) (extraHeaders : HeaderList) (length : Nat) : HeaderList :=
  [(bytes "Content-Type", contentType), (bytes "MCP-Protocol-Version", kProtocolVersion),
    (bytes "Connection", bytes "close")] ++ extraHeaders ++ [(bytes "Content-Length", decimal length)]

def replyLines (status : Int32) (reason contentType : Bytes) (extraHeaders : HeaderList) (body : Bytes) : List Bytes :=
  (bytes "HTTP/1.1 " ++ decimalInt status.toInt ++ bytes " " ++ reason) ::
    (replyHeaders contentType extraHeaders body.length).map headerText

/-- The extra headers of an answer: none, or the id of the session just created. -/
def SessionHeader (extraHeaders : HeaderList) : Prop :=
  extraHeaders = [] ∨ ∃ id, Plain id ∧ extraHeaders = [(bytes "Mcp-Session-Id", id)]

theorem writeSimple_eq (status : Int32) (reason body contentType : Bytes) (extraHeaders : HeaderList) :
    HttpEndpoint.writeSimple status reason body contentType extraHeaders =
      headBytes (replyLines status reason contentType extraHeaders body) ++ body := by
  unfold HttpEndpoint.writeSimple serializeResponse
  rw [flatMap_headerLine]
  simp [headBytes, replyLines, replyHeaders, headerLine, headerText, List.flatMap_append]

theorem replyHeaders_plain {contentType : Bytes} (hcontent : Plain contentType) {extraHeaders : HeaderList}
    (hextra : SessionHeader extraHeaders) (n : Nat) :
    ∀ x ∈ replyHeaders contentType extraHeaders n, Plain x.1 ∧ Plain x.2 ∧ ch ':' ∉ x.1 := by
  intro x hx
  simp only [replyHeaders, List.mem_append, List.mem_cons, List.not_mem_nil, or_false] at hx
  rcases hx with ((rfl | rfl | rfl) | hx) | rfl
  · exact ⟨show Plain (bytes "Content-Type") by decide, hcontent, show ch ':' ∉ bytes "Content-Type" by decide⟩
  · exact ⟨by decide, by decide, by decide⟩
  · exact ⟨by decide, by decide, by decide⟩
  · rcases hextra with rfl | ⟨id, hid, rfl⟩
    · cases hx
    · rw [List.mem_singleton.1 hx]
      exact ⟨show Plain (bytes "Mcp-Session-Id") by decide, hid, show ch ':' ∉ bytes "Mcp-Session-Id" by decide⟩
  · exact ⟨show Plain (bytes "Content-Length") by decide, plain_decimal n, show ch ':' ∉ bytes "Content-Length" by decide⟩

theorem replyLines_framed (status : Int32) {reason contentType : Bytes} (hreason : Plain reason) (hcontent : Plain contentType)
    {extraHeaders : HeaderList} (hextra : SessionHeader extraHeaders) (body : Bytes) :
    Framed (replyLines status reason contentType extraHeaders body) := by
  refine ⟨List.cons_ne_nil _ _, fun line hline => ?_⟩
  rcases List.mem_cons.1 hline with rfl | hline
  · have hplain : Plain (bytes "HTTP/1.1 " ++ decimalInt status.toInt ++ bytes " " ++ reason) :=
      ((Plain.append (by decide) (plain_decimalInt _)).append (by decide)).append hreason
    exact ⟨by simp [bytes], hplain.2, hplain.1⟩
  · obtain ⟨x, hx, rfl⟩ := List.mem_map.1 hline
    have hplain := replyHeaders_plain hcontent hextra body.length x hx
    exact headerText_framed hplain.1 hplain.2.1

/-- **What the head of an answer says.** -/
theorem parse_reply (status : Int32) {reason contentType : Bytes} (hreason : Plain reason) (hcontent : Plain contentType)
    {extraHeaders : HeaderList} (hextra : SessionHeader extraHeaders) (body : Bytes) {start : HttpHead}
    (hstart : parseStatusLine (bytes "HTTP/1.1 " ++ decimalInt status.toInt ++ bytes " " ++ reason) = .ok start)
    (hheaders : start.headers = ∅) :
    ∃ head, parseHead false (headBytes (replyLines status reason contentType extraHeaders body)) =
        .parsed head (headBytes (replyLines status reason contentType extraHeaders body)).length ∧
      head.status = start.status ∧ head.header (bytes "content-type") = trim contentType ∧
      head.header (bytes "transfer-encoding") = [] ∧ head.header (bytes "content-length") = decimal body.length := by
  have hplain := replyHeaders_plain hcontent hextra body.length
  have hparse := parseHead_lines (replyLines_framed status hreason hcontent hextra body)
    (fun line hline => by
      obtain ⟨x, -, rfl⟩ := List.mem_map.1 hline
      exact colon_mem_headerText x) false
  have hdict := headerDict_texts _ start.headers (fun x hx => (hplain x hx).2.2)
  rw [if_neg (by decide), hstart] at hparse
  simp only [hdict] at hparse
  have hnames : toLower (trim (bytes "Content-Type")) = bytes "content-type" ∧
      toLower (trim (bytes "MCP-Protocol-Version")) = bytes "mcp-protocol-version" ∧
      toLower (trim (bytes "Connection")) = bytes "connection" ∧
      toLower (trim (bytes "Mcp-Session-Id")) = bytes "mcp-session-id" ∧
      toLower (trim (bytes "Content-Length")) = bytes "content-length" := by decide
  obtain ⟨htype, hversion, hconnection, hsession, hlength⟩ := hnames
  refine ⟨_, hparse, rfl, ?_⟩
  simp only [HttpHead.header, hheaders, replyHeaders]
  rcases hextra with rfl | ⟨id, -, rfl⟩
  · simp only [List.append_nil, List.cons_append, List.nil_append, List.foldl_cons, List.foldl_nil, htype, hversion,
      hconnection, hlength, trim_decimal]
    refine ⟨?_, ?_, ?_⟩
    · simp (disch := decide) only [AList.lookup_insert_ne, AList.lookup_insert, Option.getD_some]
    · simp (disch := decide) only [AList.lookup_insert_ne, AList.lookup_empty, Option.getD_none]
    · simp (disch := decide) only [AList.lookup_insert, Option.getD_some]
  · simp only [List.cons_append, List.nil_append, List.foldl_cons, List.foldl_nil, htype, hversion, hconnection, hsession,
      hlength, trim_decimal]
    refine ⟨?_, ?_, ?_⟩
    · simp (disch := decide) only [AList.lookup_insert_ne, AList.lookup_insert, Option.getD_some]
    · simp (disch := decide) only [AList.lookup_insert_ne, AList.lookup_empty, Option.getD_none]
    · simp (disch := decide) only [AList.lookup_insert, Option.getD_some]

/-! ## The client's reads -/

/-- **The head of a reply is read at its end**, whatever the reads. -/
theorem readReplyHead_stream {lines : List Bytes} (hlines : Framed lines) {head : HttpHead} {consumed : Nat}
    (hparse : parseHead false (headBytes lines) = .parsed head consumed) :
    ∀ (reads : List Bytes) (buffer tail : Bytes), (∀ c ∈ reads, c ≠ []) → buffer ++ reads.flatten = headBytes lines ++ tail →
      buffer.length < (headBytes lines).length →
      ∃ rest reads', readReplyHead buffer reads = .ok (head, rest, reads') ∧ rest ++ reads'.flatten = tail ∧
        ∀ c ∈ reads', c ≠ []
  | [], buffer, tail, _, hstream, hlen => by
    have hshort := congrArg List.length hstream
    simp at hshort
    omega
  | chunk :: reads, buffer, tail, hne, hstream, hlen => by
    have hchunk : chunk ≠ [] := hne chunk List.mem_cons_self
    have hrestNe : ∀ c ∈ reads, c ≠ [] := fun c hc => hne c (List.mem_cons_of_mem chunk hc)
    have hstream' : (buffer ++ chunk) ++ reads.flatten = headBytes lines ++ tail := by simpa using hstream
    by_cases harrived : (headBytes lines).length ≤ (buffer ++ chunk).length
    · obtain ⟨hdone, rest, hrest⟩ := parseHead_arrived hlines hparse hstream' harrived
      refine ⟨rest, reads, ?_, ?_, hrestNe⟩
      · rw [readReplyHead.eq_3 _ _ _ hchunk, hdone, ← hrest]
        simp
      · rw [← hrest, List.append_assoc] at hstream'
        exact List.append_cancel_left hstream'
    · have hincomplete := parseHead_awaited hlines hstream' (Nat.lt_of_not_le harrived) false
      obtain ⟨rest, reads', hread, hrest, hne'⟩ :=
        readReplyHead_stream hlines hparse _ _ _ hrestNe hstream' (Nat.lt_of_not_le harrived)
      exact ⟨rest, reads', by rw [readReplyHead.eq_3 _ _ _ hchunk, hincomplete]; exact hread, hrest, hne'⟩

theorem readReplyBody_length (n : Nat) : ∀ (reads : List Bytes) (buffer : Bytes), (∀ c ∈ reads, c ≠ []) →
    n ≤ (buffer ++ reads.flatten).length →
      readReplyBody (.length n) buffer reads = .ok ((buffer ++ reads.flatten).take n)
  | reads, buffer, hne, hlen => by
    by_cases hn : n ≤ buffer.length
    · rw [readReplyBody.eq_def, List.take_append_of_le_length hn]
      simp only [if_pos hn]
    · cases reads with
      | nil =>
        simp at hlen
        omega
      | cons chunk reads =>
        have hchunk : chunk ≠ [] := hne chunk List.mem_cons_self
        obtain ⟨b, t, rfl⟩ := List.exists_cons_of_ne_nil hchunk
        have ih := readReplyBody_length n reads (buffer ++ b :: t)
          (fun c hc => hne c (List.mem_cons_of_mem _ hc)) (by simpa using hlen)
        rw [readReplyBody.eq_def]
        simp only [if_neg hn]
        simpa using ih

/-- **The client delivers the body of a buffered answer**, however its bytes are read. -/
theorem receiveReply_body {σ : Type} (text : JsonText Bytes) (handlers : Handlers σ) (sessionId : Bytes) (s : σ)
    {extraHeaders : HeaderList} (hextra : SessionHeader extraHeaders) {body : Bytes} (hsize : body.length < 2 ^ 64)
    {reads : List Bytes} (hne : ∀ c ∈ reads, c ≠ [])
    (hreads : reads.flatten = (Post.Reply.answered body).bytes extraHeaders) :
      (receiveReply text handlers sessionId reads s).2 = deliverFrame text handlers body s := by
  obtain ⟨start, hstart, hstatus, hheaders⟩ : ∃ start : HttpHead,
      parseStatusLine (bytes "HTTP/1.1 " ++ decimalInt (200 : Int32).toInt ++ bytes " " ++ bytes "OK") = .ok start ∧
        start.status = 200 ∧ start.headers = ∅ := ⟨{ status := 200, reason := bytes "OK" }, by rfl, rfl, rfl⟩
  have hreason : Plain (bytes "OK") := by decide
  have hcontent : Plain (bytes "application/json") := by decide
  obtain ⟨head, hparse, hheadStatus, htype, hencoding, hlength⟩ :=
    parse_reply 200 hreason hcontent hextra body hstart hheaders
  have hframed := replyLines_framed 200 hreason hcontent hextra body
  rw [Post.Reply.bytes, writeSimple_eq] at hreads
  obtain ⟨rest, reads', hread, hrest, hne'⟩ := readReplyHead_stream hframed hparse reads [] _ hne (by simpa using hreads)
    (by rw [headBytes, List.length_append]; exact Nat.add_pos_right _ (by decide))
  have hframing : bodyFraming head = .length body.length := by
    have hchunked : head.headerContains (bytes "transfer-encoding") (bytes "chunked") = false := by
      rw [HttpHead.headerContains, hencoding]
      decide
    have hne : head.header (bytes "content-length") ≠ [] := by
      rw [hlength]
      exact decimal_ne_nil _
    rw [bodyFraming, hchunked, if_neg (by decide), if_neg hne, hlength, strtoull_decimal hsize]
  have hevents : head.headerContains (bytes "content-type") (bytes "text/event-stream") = false := by
    rw [HttpHead.headerContains, htype]
    decide
  have hbody := readReplyBody_length body.length reads' rest hne' (by rw [hrest])
  rw [hrest, List.take_length] at hbody
  unfold receiveReply
  rw [hread]
  simp only [hheadStatus, hstatus, hevents, hframing, hbody]
  simp

/-- **Nothing is delivered of a 202.** -/
theorem receiveReply_accepted {σ : Type} (text : JsonText Bytes) (handlers : Handlers σ) (sessionId : Bytes) (s : σ)
    {extraHeaders : HeaderList} (hextra : SessionHeader extraHeaders) {reads : List Bytes} (hne : ∀ c ∈ reads, c ≠ [])
    (hreads : reads.flatten = Post.Reply.accepted.bytes extraHeaders) :
    (receiveReply text handlers sessionId reads s).2 = (s, none) := by
  obtain ⟨start, hstart, hstatus, hheaders⟩ : ∃ start : HttpHead,
      parseStatusLine (bytes "HTTP/1.1 " ++ decimalInt (202 : Int32).toInt ++ bytes " " ++ bytes "Accepted") = .ok start ∧
        start.status = 202 ∧ start.headers = ∅ := ⟨{ status := 202, reason := bytes "Accepted" }, by rfl, rfl, rfl⟩
  have hreason : Plain (bytes "Accepted") := by decide
  have hcontent : Plain (bytes "text/plain") := by decide
  obtain ⟨head, hparse, hheadStatus, -⟩ := parse_reply 202 hreason hcontent hextra [] hstart hheaders
  have hframed := replyLines_framed 202 hreason hcontent hextra []
  rw [Post.Reply.bytes, writeSimple_eq] at hreads
  obtain ⟨rest, reads', hread, -⟩ := readReplyHead_stream hframed hparse reads [] [] hne
    (by simpa using hreads)
    (by rw [headBytes, List.length_append]; exact Nat.add_pos_right _ (by decide))
  unfold receiveReply
  rw [hread]
  simp [hheadStatus, hstatus]

/-! ## One exchange -/

/-- The responses in the body of an answer: all of them in a batch, else one. -/
def bodyResponses (asBatch : Bool) (first : JsonRpcResponse) (rest : List JsonRpcResponse) : List JsonRpcResponse :=
  if asBatch then first :: rest else [first]

theorem parseItems_responses : ∀ (rs : List JsonRpcResponse) (frame : ParsedFrame),
    parseItems (rs.map (fun r => (responseToJson r).wire)) frame =
      .ok { frame with messages := frame.messages ++ rs.map (fun r => .response r.received) }
  | [], frame => by simp [parseItems]
  | r :: rs, frame => by
    have hr := parseMessage_response_wire r
    have ih := parseItems_responses rs { frame with messages := frame.messages ++ [.response r.received] }
    simp [parseItems, bind, Except.bind, hr, ih]

/-- The body of an answer is a frame of its responses. -/
theorem parseFrame_body {text : JsonText Bytes} {asBatch : Bool} {first : JsonRpcResponse} {rest : List JsonRpcResponse}
    {body : Bytes} (hbody : text.Prints (Post.captureBody asBatch (responseToJson first) (rest.map responseToJson)) body) :
    ∃ frame, parseFrame text body = .ok (.ok frame) ∧ frame.itemErrors = [] ∧
      frame.messages = (bodyResponses asBatch first rest).map (fun r => .response r.received) := by
  have hparse := hbody.parse
  cases asBatch with
  | true =>
    have hwire : (Post.captureBody true (responseToJson first) (rest.map responseToJson)).wire =
        .array ((first :: rest).map (fun r => (responseToJson r).wire)) := by
      simp [Post.captureBody, Json.wire, wireItems_eq_map]
    have hitems := parseItems_responses (first :: rest) { wasBatch := true }
    rw [hwire] at hparse
    unfold parseFrame
    rw [hparse]
    rw [List.map_cons] at hitems ⊢
    exact ⟨_, by simp only [hitems]; rfl, rfl, rfl⟩
  | false =>
    have hobject := (Json.isObject_wire _).trans (isObject_messageToJson (.response first))
    exact ⟨_, parseFrame_object hparse hobject (parseMessage_response_wire first), rfl, rfl⟩

theorem deliverFrame_body {σ : Type} {text : JsonText Bytes} (hempty : text.parse [] = none) {handlers : Handlers σ}
    {f : Message → Call σ} (hf : handlers.message = some f) {asBatch : Bool} {first : JsonRpcResponse}
    {rest : List JsonRpcResponse} {body : Bytes}
    (hbody : text.Prints (Post.captureBody asBatch (responseToJson first) (rest.map responseToJson)) body) (s : σ) :
    deliverFrame text handlers body s = each f ((bodyResponses asBatch first rest).map (fun r => .response r.received)) s := by
  obtain ⟨frame, hframe, herrors, hmessages⟩ := parseFrame_body hbody
  have hne : body ≠ [] := by
    rintro rfl
    have hparse := hbody.parse
    rw [hempty] at hparse
    cases hparse
  unfold deliverFrame LineTransport.processLine
  rw [if_neg hne, hframe]
  simp only [herrors, hmessages, hf, each]

/-- **A message arrives, and so does its answer.**  Whatever the reads, the server's `parse_frame` yields the message
alone; and of an answer the client hands on the responses of a 200's body in order, and nothing of a 202.  A string has
less than `2 ^ 64` bytes. -/
theorem post_exchange {text : JsonText Bytes} (hempty : text.parse [] = none) {o : HttpClientOptions} {sessionId : Bytes}
    (ho : Sendable o sessionId) (so : HttpServerOptions) {m : Message} (hm : m.WellFormed)
    (hutf8 : (messageToJson m).validUtf8 = true)
    (hprints : (messageToJson m).validUtf8 = true → ∃ t, text.Prints (messageToJson m) t) :
    (∃ t, serializeMessage text m = .ok t ∧
      (t.length < 2 ^ 64 → Accepts so o sessionId t →
        ∀ reads, (∀ c ∈ reads, c ≠ []) → reads.flatten = postRequest o sessionId t →
          ∃ head body, HttpEndpoint.handleConnection so reads = .handled head body ∧ head.method = bytes "POST" ∧
            parseFrame text body = .ok (.ok { messages := [m.wire] }))) ∧
    ∀ (σ : Type) (handlers : Handlers σ) (f : Message → Call σ) (s : σ) (extraHeaders : HeaderList),
      handlers.message = some f → SessionHeader extraHeaders →
        (∀ reads, (∀ c ∈ reads, c ≠ []) → reads.flatten = Post.Reply.accepted.bytes extraHeaders →
          (receiveReply text handlers sessionId reads s).2 = (s, none)) ∧
        ∀ asBatch first rest body,
          text.Prints (Post.captureBody asBatch (responseToJson first) (rest.map responseToJson)) body →
          body.length < 2 ^ 64 →
          ∀ reads, (∀ c ∈ reads, c ≠ []) → reads.flatten = (Post.Reply.answered body).bytes extraHeaders →
            (receiveReply text handlers sessionId reads s).2 =
              each f ((bodyResponses asBatch first rest).map (fun r => .response r.received)) s := by
  obtain ⟨t, ht⟩ := hprints hutf8
  refine ⟨⟨t, ht.dump, fun hsize haccepts reads hne hreads => ?_⟩, fun σ handlers f s extraHeaders hf hextra => ⟨?_, ?_⟩⟩
  · obtain ⟨head, hhandled, hmethod⟩ := request_handled ho hsize haccepts hne hreads
    exact ⟨head, t, hhandled, hmethod, parseFrame_serializeMessage hm ht⟩
  · intro reads hne hreads
    exact receiveReply_accepted text handlers sessionId s hextra hne hreads
  · intro asBatch first rest body hbody hsize reads hne hreads
    rw [receiveReply_body text handlers sessionId s hextra hsize hne hreads]
    exact deliverFrame_body hempty hf hbody s

/-! ## A ping over HTTP -/

def pingMessage : Message := .request { id := .int 1, method := methods.kPing }

def pong : JsonRpcResponse := { id := some (.int 1), result := some (.object []) }

def pingText : JsonText Bytes := readsBack [messageToJson pingMessage, responseToJson pong]

def pingBody : Bytes := (messageToJson pingMessage).compact noDouble

def pongBody : Bytes := (responseToJson pong).compact noDouble

def inTwo (n : Nat) (stream : Bytes) : List Bytes := [stream.take n, stream.drop n]

theorem accepts_ping : Accepts {} {} [] pingBody := by
  have hparsed : (match parseHead true (headBytes (requestLines {} [] pingBody)) with
      | .parsed head _ => (HttpEndpoint.refusal {} head).isNone
      | _ => false) = true := by decide +kernel
  cases hp : parseHead true (headBytes (requestLines {} [] pingBody)) with
  | parsed head consumed =>
    rw [hp] at hparsed
    exact ⟨head, consumed, hp, Option.isNone_iff_eq_none.1 hparsed⟩
  | incomplete =>
    rw [hp] at hparsed
    cases hparsed
  | malformed e =>
    rw [hp] at hparsed
    cases hparsed

/-- A ping and its answer, each cut into two reads. -/
theorem post_exchange_ping :
    (∃ head body, HttpEndpoint.handleConnection {} (inTwo 90 (postRequest {} [] pingBody)) = .handled head body ∧
      parseFrame pingText body = .ok (.ok { messages := [pingMessage.wire] })) ∧
    (receiveReply pingText { message := some fun m (l : List Message) => (l ++ [m], none) } []
      (inTwo 40 ((Post.Reply.answered pongBody).bytes [])) []).2 = ([.response pong.received], none) := by
  have hsendable : Sendable {} [] := ⟨by decide, by decide, fun origin h => (by cases h), by decide, fun h hh => (by cases hh)⟩
  have hping : pingText.Prints (messageToJson pingMessage) pingBody :=
    readsBack_prints (by decide +kernel) (by decide +kernel) rfl
  have hpong : pingText.Prints (responseToJson pong) pongBody :=
    readsBack_prints (by decide +kernel) (by decide +kernel) rfl
  obtain ⟨⟨t, ht, hrequest⟩, hreply⟩ := @post_exchange pingText rfl _ _ hsendable {} pingMessage
    (by simp [pingMessage, Message.WellFormed]) (by decide +kernel) (fun _ => ⟨_, hping⟩)
  obtain rfl : pingBody = t := Except.ok.inj (hping.dump.symm.trans ht)
  constructor
  · obtain ⟨head, body, hhandled, -, hframe⟩ := hrequest (by decide +kernel) accepts_ping
      (inTwo 90 (postRequest {} [] pingBody)) (by decide +kernel) (by simp [inTwo])
    exact ⟨head, body, hhandled, hframe⟩
  · have hanswer := (hreply (List Message) ({ message := some fun m (l : List Message) => (l ++ [m], none) } : Handlers (List Message))
      (fun m l => (l ++ [m], none)) [] [] rfl (.inl rfl)).2 false pong [] pongBody hpong (by decide +kernel)
      (inTwo 40 ((Post.Reply.answered pongBody).bytes [])) (by decide +kernel) (by simp [inTwo])
    simpa [each, bodyResponses] using hanswer

end HttpClient

end Mcp
