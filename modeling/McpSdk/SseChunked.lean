import McpSdk.Chunked
import McpSdk.HttpExchange
import McpSdk.SseDelivery
/-!
# SseChunked — an event stream that comes in chunks

The loops of `post_payload` and `run_sse_once` give `SseParser` what they read, and what they read of a chunked reply is
its chunks: size lines, the line end after each chunk, the last chunk and the trailers.  A size line is a line of no
field (`takeLine_sizeLine`), so the parser gets as much as the body with a line end after each chunk, the trailers and
an empty line (`feed_bytes`), and the events are the body's exactly when these change nothing (`chunked_events_iff`).
-/
namespace Mcp

/-! ## Chunked bodies -/

/-- One chunk, with its size line as `ChunkedDecoder` reads it. -/
structure Chunk where
  sizeLine : Bytes
  data : Bytes
  plain : Plain sizeLine
  size : chunkSize 0 false sizeLine = some data.length
  nonempty : data ≠ []

/-- The chunks, the size line of the last one and the trailer lines. -/
structure ChunkedBody where
  chunks : List Chunk
  last : Bytes
  lastPlain : Plain last
  lastSize : chunkSize 0 false last = some 0
  trailers : List Bytes
  trailer : ∀ line ∈ trailers, line ≠ [] ∧ Plain line

def Chunk.bytes (c : Chunk) : Bytes := c.sizeLine ++ crlf ++ (c.data ++ crlf)

namespace ChunkedBody

/-- What the server writes. -/
def bytes (b : ChunkedBody) : Bytes := b.chunks.flatMap Chunk.bytes ++ (b.last ++ crlf ++ headBytes b.trailers)

def body (b : ChunkedBody) : Bytes := b.chunks.flatMap Chunk.data

/-- The body with a line end after each chunk, the trailer lines and an empty line. -/
def lineEnded (b : ChunkedBody) : Bytes := b.chunks.flatMap (fun c => c.data ++ crlf) ++ headBytes b.trailers

end ChunkedBody

/-! ## The decoder -/

/-- **The decoder gives the chunks' data.** -/
theorem decodeChunks_chunks : ∀ (chunks : List Chunk) (t out : Bytes),
    decodeChunks .size (chunks.flatMap Chunk.bytes ++ t) out = decodeChunks .size t (out ++ chunks.flatMap Chunk.data)
  | [], t, out => by simp
  | c :: chunks, t, out => by
    have hpos : c.data.length ≠ 0 := fun h => c.nonempty (List.eq_nil_of_length_eq_zero h)
    have hassoc : (c :: chunks).flatMap Chunk.bytes ++ t =
        c.sizeLine ++ crlf ++ (c.data ++ crlf ++ (chunks.flatMap Chunk.bytes ++ t)) := by
      simp [Chunk.bytes]
    rw [hassoc, decodeChunks_size c.plain.indexOf_crlf c.size, if_neg hpos, decodeChunks_data, decodeChunks_chunks chunks]
    simp

/-- **The body is what `ChunkedDecoder` makes of the bytes.** -/
theorem ChunkedBody.decode (b : ChunkedBody) : decodeChunks .size b.bytes [] = (.done, .trailers, [], b.body) := by
  have htrailers := decodeChunks_trailers (fun line hline => (b.trailer line hline).imp_right Plain.indexOf_crlf) [] b.body
  rw [List.append_nil] at htrailers
  unfold bytes
  rw [decodeChunks_chunks, decodeChunks_size b.lastPlain.indexOf_crlf b.lastSize, if_pos rfl]
  exact htrailers

/-! ## The parser on the raw bytes -/

theorem splitField_prefix (line : Bytes) : (splitField line).1 <+: line := by
  unfold splitField
  cases Search.indexOf [ch ':'] line with
  | none => exact List.prefix_refl line
  | some colon => exact List.take_prefix colon line

/-- **A size line is a line of no field**: it begins with a digit and has one up to an extension. -/
theorem takeLine_sizeLine {line : Bytes} {n : Nat} (h : chunkSize 0 false line = some n) (f : SseFields) :
    takeLine f line = (f, []) := by
  obtain ⟨rest, hrest⟩ := splitField_prefix line
  have hfield : ∀ field : Bytes, (∀ rest, chunkSize 0 false (field ++ rest) = none) → (splitField line).1 ≠ field := by
    rintro field hnone he
    rw [← hrest, he, hnone] at h
    cases h
  have hdata := hfield (bytes "data") (fun rest => by rfl)
  have hid := hfield (bytes "id") (fun rest => by rfl)
  have hevent := hfield (bytes "event") (fun rest => by rfl)
  have hretry := hfield (bytes "retry") (fun rest => by rfl)
  unfold takeLine
  split
  · cases h
  · split
    · rfl
    · rw [takeField, if_neg hdata, if_neg hid, if_neg hevent, if_neg hretry]

theorem feed_line {p : SseParser} (hp : p.buffer = []) {line : Bytes} (h : Plain line) :
    p.feed (line ++ crlf) = ({ toSseFields := (takeLine p.toSseFields line).1 }, (takeLine p.toSseFields line).2) := by
  have hcut : Search.drain 10 (p.buffer ++ (line ++ crlf)) = ([line ++ [13]], []) := by
    have hlf : (10 : UInt8) ∉ line ++ [13] := by simpa using h.1
    have hassoc : p.buffer ++ (line ++ crlf) = (line ++ [13]) ++ 10 :: [] := by simp [hp, crlf]
    rw [hassoc, Search.drain_line hlf]
    rfl
  unfold SseParser.feed
  rw [hcut]
  simp [takeLines, stripCr_append]

theorem feed_sizeLine {p : SseParser} (hp : p.buffer = []) {line : Bytes} (hplain : Plain line) {n : Nat}
    (h : chunkSize 0 false line = some n) : p.feed (line ++ crlf) = (p, []) := by
  rw [feed_line hp hplain, takeLine_sizeLine h, ← hp]

theorem feed_lineEnd (p : SseParser) (data : Bytes) : (p.feed (data ++ crlf)).1.buffer = [] := by
  have hassoc : p.buffer ++ (data ++ crlf) = (p.buffer ++ data ++ [13]) ++ [10] := by simp [crlf]
  show (Search.drain 10 (p.buffer ++ (data ++ crlf))).2 = []
  rw [hassoc, Search.drain_append]
  have hrest := Search.not_mem_drain (10 : UInt8) (p.buffer ++ data ++ [13])
  rw [Search.drain_line hrest []]
  rfl

/-- **The chunks give the parser as much as their data, a line end after each.** -/
theorem feed_chunks : ∀ (chunks : List Chunk) {p : SseParser} {t t' : Bytes}, p.buffer = [] →
    (∀ q : SseParser, q.buffer = [] → q.feed t = q.feed t') →
      p.feed (chunks.flatMap Chunk.bytes ++ t) = p.feed (chunks.flatMap (fun c => c.data ++ crlf) ++ t')
  | [], p, t, t', hp, ht => by simpa using ht p hp
  | c :: chunks, p, t, t', hp, ht => by
    have ih := feed_chunks chunks (feed_lineEnd p c.data) ht
    have hraw : (c :: chunks).flatMap Chunk.bytes ++ t =
        c.sizeLine ++ crlf ++ ((c.data ++ crlf) ++ (chunks.flatMap Chunk.bytes ++ t)) := by
      simp [Chunk.bytes]
    have hended : (c :: chunks).flatMap (fun c => c.data ++ crlf) ++ t' =
        (c.data ++ crlf) ++ (chunks.flatMap (fun c => c.data ++ crlf) ++ t') := by
      simp
    rw [hraw, hended, SseParser.feed_append, feed_sizeLine hp c.plain c.size, SseParser.feed_append, ih,
      SseParser.feed_append p (c.data ++ crlf)]
    rfl

theorem ChunkedBody.feed_bytes (b : ChunkedBody) : ({} : SseParser).feed b.bytes = ({} : SseParser).feed b.lineEnded := by
  refine feed_chunks b.chunks rfl (fun q hq => ?_)
  rw [SseParser.feed_append, feed_sizeLine hq b.lastPlain b.lastSize]
  rfl

/-! ## What the two branches go over -/

/-- The events of a stream: `data` has arrived, the reads are to come. -/
def streamEvents (parser : SseParser) (data : Bytes) : List Bytes → List SseEvent
  | [] => (parser.feed data).2
  | [] :: _ => (parser.feed data).2
  | chunk :: reads => (parser.feed data).2 ++ streamEvents (parser.feed data).1 chunk reads

theorem streamEvents_flatten : ∀ {reads : List Bytes}, (∀ c ∈ reads, c ≠ []) → ∀ (p : SseParser) (data : Bytes),
    streamEvents p data reads = (p.feed (data ++ reads.flatten)).2
  | [], _, p, data => by simp [streamEvents]
  | chunk :: reads, h, p, data => by
    have ih := streamEvents_flatten (fun c hc => h c (List.mem_cons_of_mem chunk hc)) (p.feed data).1 chunk
    rw [streamEvents.eq_3 _ _ _ _ (h chunk List.mem_cons_self), ih, List.flatten_cons, SseParser.feed_append p data]

/-- **The loop of `post_payload` hands each of these events to `deliver_frame`.** -/
theorem streamReply_events {σ : Type} (text : JsonText Bytes) (handlers : Handlers σ) :
    ∀ (reads : List Bytes) (p : SseParser) (data : Bytes) (s : σ),
      HttpClient.streamReply text handlers p data reads s =
        each (fun e => HttpClient.deliverFrame text handlers e.data) (streamEvents p data reads) s
  | [], p, data, s => by simp [HttpClient.streamReply, streamEvents]
  | [] :: reads, p, data, s => by simp [HttpClient.streamReply, streamEvents]
  | (b :: chunk) :: reads, p, data, s => by
    have hne : b :: chunk ≠ [] := List.cons_ne_nil b chunk
    rw [HttpClient.streamReply.eq_3 _ _ _ _ _ _ _ hne, streamEvents.eq_3 _ _ _ _ hne, each_append]
    cases each (fun e => HttpClient.deliverFrame text handlers e.data) (p.feed data).2 s with
    | mk s thrown =>
      cases thrown with
      | none => exact streamReply_events text handlers reads (p.feed data).1 (b :: chunk) s
      | some x => rfl

/-- The events the SSE branch of `post_payload` goes over. -/
def postEvents (reads : List Bytes) : List SseEvent :=
  match HttpClient.readReplyHead [] reads with
  | .error _ => []
  | .ok (head, buffer, reads) =>
    if head.status = 200 ∧ head.headerContains (bytes "content-type") (bytes "text/event-stream") = true then
      streamEvents {} buffer reads
    else []

theorem receiveReply_events {σ : Type} (text : JsonText Bytes) (handlers : Handlers σ) (sessionId : Bytes) {reads rest : List Bytes}
    {head : HttpHead} {buffer : Bytes} (hread : HttpClient.readReplyHead [] reads = .ok (head, buffer, rest))
    (hstatus : head.status = 200) (hsse : head.headerContains (bytes "content-type") (bytes "text/event-stream") = true) (s : σ) :
    (HttpClient.receiveReply text handlers sessionId reads s).2 =
      each (fun e => HttpClient.deliverFrame text handlers e.data) (postEvents reads) s := by
  unfold HttpClient.receiveReply postEvents
  rw [hread]
  simp only [hstatus, hsse, ne_eq, not_true_eq_false, if_false, and_self, if_true]
  exact streamReply_events text handlers rest {} buffer s

/-- The events `run_sse_once` goes over. -/
def getEvents (reader : Sse.Reader) : List Bytes → List SseEvent
  | [] => []
  | [] :: _ => []
  | chunk :: reads =>
    match reader with
    | .events parser => (parser.feed chunk).2 ++ getEvents (.events (parser.feed chunk).1) reads
    | .head buffer =>
      match parseHead false (buffer ++ chunk) with
      | .incomplete => getEvents (.head (buffer ++ chunk)) reads
      | .malformed _ => []
      | .parsed head consumed =>
        if head.status ≠ 200 ∨ head.headerContains (bytes "content-type") (bytes "text/event-stream") = false then []
        else
          let fed := ({} : SseParser).feed ((buffer ++ chunk).drop consumed)
          fed.2 ++ getEvents (.events fed.1) reads

theorem getEvents_flatten : ∀ {reads : List Bytes}, (∀ c ∈ reads, c ≠ []) → ∀ (p : SseParser) (data : Bytes),
    (p.feed data).2 ++ getEvents (.events (p.feed data).1) reads = (p.feed (data ++ reads.flatten)).2
  | [], _, p, data => by simp [getEvents]
  | chunk :: reads, h, p, data => by
    have ih := getEvents_flatten (fun c hc => h c (List.mem_cons_of_mem chunk hc)) (p.feed data).1 chunk
    rw [getEvents.eq_3 _ _ _ (h chunk List.mem_cons_self), ih, List.flatten_cons, SseParser.feed_append p data]

/-- The reads of one connection. -/
def Sse.Client.reads (c : Sse.Client) : List Bytes → Sse.Client
  | [] => c
  | chunk :: reads =>
    match c.connection with
    | none => c
    | some (thread, reader) => Sse.Client.reads (c.read thread reader chunk) reads

theorem foldl_take_connection (events : List SseEvent) (c : Sse.Client) (connection : Option (Nat × Sse.Reader)) :
    events.foldl Sse.Client.take { c with connection } = { events.foldl Sse.Client.take c with connection } := by
  induction events generalizing c with
  | nil => rfl
  | cons e events ih => exact ih (c.take e)

theorem reads_closed {c : Sse.Client} (h : c.connection = none) (reads : List Bytes) : c.reads reads = c := by
  cases reads with
  | nil => rfl
  | cons chunk reads => rw [Sse.Client.reads, h]

/-- **The GET stream's client takes each of these events.** -/
theorem reads_events : ∀ {reads : List Bytes} {c : Sse.Client} {thread : Nat} {reader : Sse.Reader}, (∀ chunk ∈ reads, chunk ≠ []) →
    c.connection = some (thread, reader) →
      { c.reads reads with connection := none } =
        (getEvents reader reads).foldl Sse.Client.take { c with connection := none }
  | [], c, thread, reader, _, _ => rfl
  | chunk :: reads, c, thread, reader, hne, hc => by
    have hne' : ∀ x ∈ reads, x ≠ [] := fun x hx => hne x (List.mem_cons_of_mem chunk hx)
    have hchunk := hne chunk List.mem_cons_self
    have hfeed : ∀ (p : SseParser) (data : Bytes), { (c.feed thread p data).reads reads with connection := none } =
        ((p.feed data).2 ++ getEvents (.events (p.feed data).1) reads).foldl Sse.Client.take { c with connection := none } := by
      intro p data
      have hconnection : (c.feed thread p data).connection = some (thread, .events (p.feed data).1) :=
        (Sse.feed_payloads c thread p data).1
      have hfed : c.feed thread p data =
          { (p.feed data).2.foldl Sse.Client.take c with connection := some (thread, .events (p.feed data).1) } :=
        foldl_take_connection (p.feed data).2 c _
      rw [reads_events hne' hconnection, List.foldl_append, foldl_take_connection (p.feed data).2 c none, hfed]
    rw [Sse.Client.reads, hc]
    simp only
    cases reader with
    | events p =>
      rw [getEvents.eq_3 _ _ _ hchunk]
      exact hfeed p chunk
    | head buffer =>
      rw [getEvents.eq_4 _ _ _ hchunk]
      unfold Sse.Client.read
      simp only
      cases parseHead false (buffer ++ chunk) with
      | incomplete => exact reads_events hne' rfl
      | malformed e => rw [reads_closed rfl]; rfl
      | parsed head consumed =>
        simp only
        split
        · rw [reads_closed rfl]
          rfl
        · exact hfeed {} _

/-! ## A reply with a chunked event stream -/

/-- **A 200 reply with an event stream in chunks.** -/
structure ChunkedReply extends ChunkedBody where
  lines : List Bytes
  framed : Framed lines
  head : HttpHead
  consumed : Nat
  parsed : parseHead false (headBytes lines) = .parsed head consumed
  status : head.status = 200
  contentType : head.headerContains (Mcp.bytes "content-type") (Mcp.bytes "text/event-stream") = true
  transferEncoding : head.headerContains (Mcp.bytes "transfer-encoding") (Mcp.bytes "chunked") = true

namespace ChunkedReply

variable {r : ChunkedReply} {reads : List Bytes}

def stream (r : ChunkedReply) : Bytes := headBytes r.lines ++ r.bytes

/-- **The POST branch gives the parser what comes after the head**, whatever the reads. -/
theorem postEvents_stream (hne : ∀ c ∈ reads, c ≠ []) (hstream : reads.flatten = r.stream) :
    postEvents reads = (({} : SseParser).feed r.bytes).2 := by
  have hempty : ([] : Bytes).length < (headBytes r.lines).length := by
    have hlen := (indexOf_crlf_headBytes r.framed).2
    exact Nat.lt_of_lt_of_le (by decide) hlen
  obtain ⟨rest, reads', hread, hrest, hne'⟩ :=
    HttpClient.readReplyHead_stream r.framed r.parsed reads [] r.bytes hne hstream hempty
  unfold postEvents
  rw [hread]
  simp only [r.status, r.contentType, and_self, if_true]
  rw [streamEvents_flatten hne', hrest]

theorem getEvents_head : ∀ {reads : List Bytes} {buffer : Bytes}, (∀ c ∈ reads, c ≠ []) → buffer ++ reads.flatten = r.stream →
    buffer.length < (headBytes r.lines).length → getEvents (.head buffer) reads = (({} : SseParser).feed r.bytes).2
  | [], buffer, _, hstream, hlen => by
    have hshort := congrArg List.length hstream
    simp [stream] at hshort
    omega
  | chunk :: reads, buffer, hne, hstream, hlen => by
    have hstream' : (buffer ++ chunk) ++ reads.flatten = headBytes r.lines ++ r.bytes := by simpa [stream] using hstream
    have hne' : ∀ c ∈ reads, c ≠ [] := fun c hc => hne c (List.mem_cons_of_mem chunk hc)
    rw [getEvents.eq_4 _ _ _ (hne chunk List.mem_cons_self)]
    by_cases harrived : (headBytes r.lines).length ≤ (buffer ++ chunk).length
    · obtain ⟨hdone, rest, hrest⟩ := parseHead_arrived r.framed r.parsed hstream' harrived
      have haccepted : ¬ (r.head.status ≠ 200 ∨
          r.head.headerContains (Mcp.bytes "content-type") (Mcp.bytes "text/event-stream") = false) := by
        simp [r.status, r.contentType]
      rw [← hrest, List.append_assoc] at hstream'
      simp only [hdone]
      rw [if_neg haccepted, ← hrest, List.drop_left, getEvents_flatten hne', List.append_cancel_left hstream']
    · have hincomplete := parseHead_awaited r.framed hstream' (Nat.lt_of_not_le harrived) false
      simp only [hincomplete]
      exact getEvents_head hne' (by rw [hstream']; rfl) (Nat.lt_of_not_le harrived)

/-- **The GET branch as well.** -/
theorem getEvents_stream (hne : ∀ c ∈ reads, c ≠ []) (hstream : reads.flatten = r.stream) :
    getEvents (.head []) reads = (({} : SseParser).feed r.bytes).2 := by
  have hlen := (indexOf_crlf_headBytes r.framed).2
  exact getEvents_head hne hstream (Nat.lt_of_lt_of_le (by decide) hlen)

end ChunkedReply

/-- **The events are the body's exactly when line ends after the chunks, the trailers and an empty line change nothing**:
whatever the reads, a POST reply and the GET stream give the events `SseParser` yields on what `ChunkedDecoder` makes
of the bytes, if and only if it yields the same on the body with these line ends. -/
theorem chunked_events_iff (r : ChunkedReply) {reads : List Bytes} (hne : ∀ c ∈ reads, c ≠ [])
    (hstream : reads.flatten = r.stream) :
    decodeChunks .size r.bytes [] = (.done, .trailers, [], r.body) ∧
      ((postEvents reads = (({} : SseParser).feed r.body).2 ∧ getEvents (.head []) reads = (({} : SseParser).feed r.body).2) ↔
        (({} : SseParser).feed r.lineEnded).2 = (({} : SseParser).feed r.body).2) := by
  refine ⟨r.decode, ?_⟩
  rw [r.postEvents_stream hne hstream, r.getEvents_stream hne hstream, r.feed_bytes, and_self]

/-! ## Chunks that end between events -/

/-- **Chunks that each end between two events, and trailers of no field, change nothing.** -/
theorem lineEnded_of_whole {b : ChunkedBody} (hchunks : ∀ c ∈ b.chunks, (({} : SseParser).feed c.data).1 = {})
    (htrailers : ∀ line ∈ b.trailers, ∀ f : SseFields, takeLine f line = (f, [])) :
    (({} : SseParser).feed b.lineEnded).2 = (({} : SseParser).feed b.body).2 := by
  have hend : ({} : SseParser).feed crlf = ({}, []) := by rfl
  have htail : ∀ trailers : List Bytes, (∀ line ∈ trailers, line ∈ b.trailers) →
      ({} : SseParser).feed (headBytes trailers) = ({}, []) := by
    intro trailers hmem
    induction trailers with
    | nil => exact hend
    | cons line trailers ih =>
      have hassoc : headBytes (line :: trailers) = (line ++ crlf) ++ headBytes trailers := by simp [headBytes]
      have hline : ({} : SseParser).feed (line ++ crlf) = ({}, []) := by
        rw [feed_line rfl (b.trailer line (hmem line List.mem_cons_self)).2, htrailers line (hmem line List.mem_cons_self)]
      rw [hassoc, SseParser.feed_append, hline, ih (fun l hl => hmem l (List.mem_cons_of_mem line hl))]
      rfl
  have hbody : ∀ chunks : List Chunk, (∀ c ∈ chunks, c ∈ b.chunks) →
      (({} : SseParser).feed (chunks.flatMap (fun c => c.data ++ crlf) ++ headBytes b.trailers)).2 =
        (({} : SseParser).feed (chunks.flatMap Chunk.data)).2 := by
    intro chunks hmem
    induction chunks with
    | nil => rw [List.flatMap_nil, List.nil_append, htail b.trailers (fun _ h => h)]; rfl
    | cons c chunks ih =>
      have hc := hchunks c (hmem c List.mem_cons_self)
      have ih' := ih (fun x hx => hmem x (List.mem_cons_of_mem c hx))
      simp only [List.flatMap_cons, List.append_assoc]
      rw [SseParser.feed_append, SseParser.feed_append {} c.data, hc, SseParser.feed_append, hend]
      simp only [List.nil_append]
      rw [ih']
  exact hbody b.chunks (fun _ h => h)

/-! ## An event in two chunks -/

def chunkedLines : List Bytes :=
  [bytes "HTTP/1.1 200 OK", bytes "Content-Type: text/event-stream", bytes "Transfer-Encoding: chunked"]

/-- `data: ab` and an empty line, cut within the data. -/
def splitEvent : ChunkedReply where
  chunks := [⟨bytes "7", bytes "data: a", by decide, by decide, by decide⟩,
    ⟨bytes "3", bytes "b\n\n", by decide, by decide, by decide⟩]
  last := bytes "0"
  lastPlain := by decide
  lastSize := by decide
  trailers := []
  trailer := fun _ hline => by cases hline
  lines := chunkedLines
  framed := ⟨List.cons_ne_nil _ _, by decide⟩
  head := { status := 200, reason := bytes "OK", headers := headerDict ∅ chunkedLines.tail }
  consumed := (headBytes chunkedLines).length
  parsed := parseHead_lines ⟨List.cons_ne_nil _ _, by decide⟩ (by decide) false
  status := rfl
  contentType := by decide
  transferEncoding := by decide

theorem splitEvent_reads : ∀ chunk ∈ [splitEvent.stream], chunk ≠ [] := by decide

theorem chunked_events_iff_split :
    decodeChunks .size splitEvent.bytes [] = (.done, .trailers, [], splitEvent.body) ∧
      ((postEvents [splitEvent.stream] = (({} : SseParser).feed splitEvent.body).2 ∧
        getEvents (.head []) [splitEvent.stream] = (({} : SseParser).feed splitEvent.body).2) ↔
          (({} : SseParser).feed splitEvent.lineEnded).2 = (({} : SseParser).feed splitEvent.body).2) :=
  chunked_events_iff splitEvent splitEvent_reads (List.append_nil _)

/-- **The second half of the data is lost**: the event is delivered as `a`. -/
theorem splitEvent_truncated :
    postEvents [splitEvent.stream] = [{ data := bytes "a" }] ∧
      getEvents (.head []) [splitEvent.stream] = [{ data := bytes "a" }] ∧
      decodeChunks .size splitEvent.bytes [] = (.done, .trailers, [], bytes "data: ab\n\n") ∧
      (({} : SseParser).feed (bytes "data: ab\n\n")).2 = [{ data := bytes "ab" }] := by
  have hraw : (({} : SseParser).feed splitEvent.bytes).2 = [{ data := bytes "a" }] := by decide
  refine ⟨?_, ?_, splitEvent.decode, by decide⟩
  · rw [splitEvent.postEvents_stream splitEvent_reads (List.append_nil _), hraw]
  · rw [splitEvent.getEvents_stream splitEvent_reads (List.append_nil _), hraw]

end Mcp
