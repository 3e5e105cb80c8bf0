import McpSdk.SseChannel
/-!
# SseDelivery — what the client has processed is a prefix of what was enqueued

Three views of one connection are tied together: the stream has written its head, its initial event and a slice of the
enqueued payloads (`Wrote`), the client has read a prefix of that (`Received`), and so has processed a prefix of the
slice (`received_payloads`).  When each connection resumes where the client stands, the slices join up.
-/
namespace Mcp
namespace Sse

/-! ## Numbered payloads -/

/-- Payloads as the ring numbers them from `n` on. -/
def number (n : Nat) : List Payload → List Item
  | [] => []
  | p :: ps => ⟨n, p.text⟩ :: number (n + 1) ps

@[simp] theorem length_number : ∀ (n : Nat) (ps : List Payload), (number n ps).length = ps.length
  | _, [] => rfl
  | n, _ :: ps => congrArg (· + 1) (length_number (n + 1) ps)

theorem number_append : ∀ (n : Nat) (ps qs : List Payload), number n (ps ++ qs) = number n ps ++ number (n + ps.length) qs
  | _, [], _ => rfl
  | n, p :: ps, qs => by
    rw [List.cons_append, number, number_append (n + 1) ps qs, List.length_cons, Nat.add_assoc, Nat.add_comm 1]
    rfl

theorem map_data_number : ∀ (n : Nat) (ps : List Payload), (number n ps).map Item.data = ps.map Payload.text
  | _, [] => rfl
  | n, p :: ps => congrArg (p.text :: ·) (map_data_number (n + 1) ps)

theorem drop_number : ∀ (k n : Nat) (ps : List Payload), (number n ps).drop k = number (n + k) (ps.drop k)
  | 0, _, _ => rfl
  | _ + 1, _, [] => rfl
  | k + 1, n, p :: ps => by
    rw [number, List.drop_succ_cons, List.drop_succ_cons, drop_number k (n + 1) ps, Nat.add_assoc, Nat.add_comm 1]

theorem number_eq_of_mem : ∀ {n : Nat} {ps : List Payload} {item : Item}, item ∈ number n ps →
    n ≤ item.id ∧ item.id < n + ps.length ∧ ∃ p ∈ ps, item.data = p.text
  | n, p :: ps, item, h => by
    rcases List.mem_cons.1 h with rfl | h
    · exact ⟨Nat.le_refl n, by simp, p, List.mem_cons_self, rfl⟩
    · obtain ⟨hlo, hhi, q, hq, hd⟩ := number_eq_of_mem h
      exact ⟨by omega, by rw [List.length_cons]; omega, q, List.mem_cons_of_mem p hq, hd⟩

/-- **The events a stream collects** are those from its cursor on. -/
theorem filter_number : ∀ {n c : Nat} (ps : List Payload), n ≤ c →
    (number n ps).filter (fun item => decide (c ≤ item.id)) = (number n ps).drop (c - n)
  | _, _, [], _ => (List.drop_nil).symm
  | n, c, p :: ps, h => by
    rcases Nat.eq_or_lt_of_le h with rfl | hlt
    · rw [Nat.sub_self, List.drop_zero, List.filter_eq_self.2]
      exact fun item hitem => decide_eq_true (number_eq_of_mem hitem).1
    · rw [number, List.filter_cons_of_neg (by simpa using hlt), filter_number ps hlt,
        show c - n = (c - (n + 1)) + 1 by omega, List.drop_succ_cons]

theorem getLast?_number {n : Nat} {ps : List Payload} {item : Item} (h : (number n ps).getLast? = some item) :
    item.id + 1 = n + ps.length := by
  induction ps generalizing n with
  | nil => cases h
  | cons p ps ih =>
    cases ps with
    | nil =>
      cases h
      rfl
    | cons q ps =>
      have := ih (n := n + 1) (by simpa [number] using h)
      simp only [List.length_cons] at this ⊢
      omega

theorem getElem?_number : ∀ (n : Nat) (ps : List Payload) (i : Nat),
    (number n ps)[i]? = (ps[i]?).map (fun p => ⟨n + i, p.text⟩)
  | _, [], _ => rfl
  | _, _ :: _, 0 => rfl
  | n, _ :: ps, i + 1 => by
    rw [number, List.getElem?_cons_succ, List.getElem?_cons_succ, getElem?_number (n + 1) ps i, Nat.add_right_comm, Nat.add_assoc]

/-- The events numbered `i + 1` to `j`. -/
def slice (E : List Payload) (i j : Nat) : List Item := ((number 1 E).drop i).take (j - i)

theorem slice_append {E : List Payload} {i j : Nat} (hij : i ≤ j) (h : j ≤ E.length) (ps : List Payload) :
    slice (E ++ ps) i j = slice E i j := by
  unfold slice
  rw [number_append, List.drop_append_of_le_length (by rw [length_number]; omega),
    List.take_append_of_le_length (by rw [List.length_drop, length_number]; omega)]

theorem map_data_slice (E : List Payload) (i j : Nat) :
    (slice E i j).map Item.data = ((E.map Payload.text).drop i).take (j - i) := by
  unfold slice
  rw [List.map_take, List.map_drop, map_data_number]

theorem mem_slice {E : List Payload} {i j : Nat} {item : Item} (h : item ∈ slice E i j) : ∃ p ∈ E, item.data = p.text :=
  (number_eq_of_mem (List.mem_of_mem_drop (List.mem_of_mem_take h))).2.2

theorem slice_self (E : List Payload) (i : Nat) : slice E i i = [] := by
  rw [slice, Nat.sub_self, List.take_zero]

theorem slice_length {E : List Payload} {i j : Nat} (h : j ≤ E.length) : (slice E i j).length = j - i := by
  rw [slice, List.length_take, List.length_drop, length_number]
  omega

/-- **Slices join up.** -/
theorem slice_trans {E : List Payload} {i j k : Nat} (hij : i ≤ j) (hjk : j ≤ k) : slice E i j ++ slice E j k = slice E i k := by
  unfold slice
  rw [show k - i = (j - i) + (k - j) by omega, List.take_add, List.drop_drop, Nat.add_sub_cancel' hij]

theorem slice_all (E : List Payload) (i : Nat) : slice E i E.length = (number 1 E).drop i :=
  List.take_of_length_le (by rw [List.length_drop, length_number])

/-- **What a stream collects from the ring** once all that was popped lies before its cursor. -/
theorem filter_ring {E : List Payload} {e c : Nat} (h : e < c) :
    ((number 1 E).drop e).filter (fun item => decide (c ≤ item.id)) = slice E (c - 1) E.length := by
  rw [drop_number, filter_number _ (by omega), ← drop_number, List.drop_drop, slice_all]
  congr 1
  omega

/-! ## What a stream has written -/

/-- The bytes of a stream up to the given events. -/
def streamText (retryMs : Int32) (lastAssigned : Nat) (items : List Item) : Bytes :=
  streamHead ++ (initialEvent lastAssigned retryMs :: items.map itemEvent).flatMap formatSseEvent

theorem streamText_append (retryMs : Int32) (lastAssigned : Nat) (items more : List Item) :
    streamText retryMs lastAssigned (items ++ more) =
      streamText retryMs lastAssigned items ++ (more.map itemEvent).flatMap formatSseEvent := by
  simp [streamText]

/-- **What the stream of a connection has written**, that began after the first `base` of the enqueued payloads. -/
def Wrote (retryMs : Int32) (E : List Payload) (base lastAssigned : Nat) (sent : Bytes) : Stream → Prop
  | .done => sent <+: streamText retryMs lastAssigned (slice E base E.length)
  | .head _ cursor assigned => sent = [] ∧ cursor = base + 1 ∧ base ≤ E.length ∧ assigned = lastAssigned
  | .initial _ cursor assigned => sent = streamHead ∧ cursor = base + 1 ∧ base ≤ E.length ∧ assigned = lastAssigned
  | .wait _ cursor =>
    base < cursor ∧ cursor ≤ E.length + 1 ∧ sent = streamText retryMs lastAssigned (slice E base (cursor - 1))
  | .send _ cursor pending =>
    ∃ w, base ≤ w ∧ w < cursor ∧ cursor ≤ E.length + 1 ∧ pending = slice E w (cursor - 1) ∧
      sent = streamText retryMs lastAssigned (slice E base w)

theorem streamText_prefix (retryMs : Int32) (lastAssigned : Nat) {E : List Payload} {i j k : Nat} (hij : i ≤ j) (hjk : j ≤ k) :
    streamText retryMs lastAssigned (slice E i j) <+: streamText retryMs lastAssigned (slice E i k) := by
  rw [← slice_trans hij hjk, streamText_append]
  exact List.prefix_append _ _

/-- **Whatever a stream has written is a prefix of its head, its initial event and the payloads from `base` on.** -/
theorem Wrote.prefix_all {retryMs : Int32} {E : List Payload} {base lastAssigned : Nat} {sent : Bytes} {stream : Stream}
    (h : Wrote retryMs E base lastAssigned sent stream) :
    sent <+: streamText retryMs lastAssigned (slice E base E.length) := by
  cases stream with
  | done => exact h
  | head generation cursor assigned =>
    rw [h.1]
    exact List.nil_prefix
  | initial generation cursor assigned =>
    rw [h.1]
    exact List.prefix_append _ _
  | wait generation cursor =>
    obtain ⟨hlo, hhi, rfl⟩ := h
    exact streamText_prefix retryMs lastAssigned (by omega) (by omega)
  | send generation cursor pending =>
    obtain ⟨w, hbase, hw, hc, -, rfl⟩ := h
    exact streamText_prefix retryMs lastAssigned hbase (by omega)

theorem Wrote.enqueue {retryMs : Int32} {E : List Payload} {base lastAssigned : Nat} {sent : Bytes} {stream : Stream}
    (hbase : base ≤ E.length) (h : Wrote retryMs E base lastAssigned sent stream) (p : Payload) :
    Wrote retryMs (E ++ [p]) base lastAssigned sent stream := by
  have hlength : (E ++ [p]).length = E.length + 1 := by simp
  cases stream with
  | done =>
    show sent <+: streamText retryMs lastAssigned (slice (E ++ [p]) base (E ++ [p]).length)
    apply List.IsPrefix.trans h
    rw [← slice_append hbase (Nat.le_refl _) [p]]
    exact streamText_prefix retryMs lastAssigned hbase (by omega)
  | head generation cursor assigned => exact ⟨h.1, h.2.1, by omega, h.2.2.2⟩
  | initial generation cursor assigned => exact ⟨h.1, h.2.1, by omega, h.2.2.2⟩
  | wait generation cursor =>
    obtain ⟨hlo, hhi, hsent⟩ := h
    exact ⟨hlo, by omega, by rw [slice_append (by omega) (by omega)]; exact hsent⟩
  | send generation cursor pending =>
    obtain ⟨w, hbw, hw, hc, hpending, hsent⟩ := h
    exact ⟨w, hbw, hw, by omega, by rw [slice_append (by omega) (by omega)]; exact hpending,
      by rw [slice_append hbw (by omega)]; exact hsent⟩

/-- **A write carries the stream on**: what it has written next to where it stands then. -/
theorem Wrote.writing {retryMs : Int32} {E : List Payload} {base lastAssigned : Nat} {sent : Bytes} {stream next : Stream}
    {data : Bytes} (h : Wrote retryMs E base lastAssigned sent stream) (hw : stream.writing retryMs = some (data, next)) :
    Wrote retryMs E base lastAssigned (sent ++ data) next := by
  cases stream with
  | done | wait generation cursor => cases hw
  | head generation cursor assigned =>
    obtain ⟨rfl, hcursor⟩ := h
    cases hw
    exact ⟨rfl, hcursor⟩
  | initial generation cursor assigned =>
    obtain ⟨rfl, rfl, hbase, rfl⟩ := h
    cases hw
    refine ⟨Nat.lt_succ_self base, Nat.succ_le_succ hbase, ?_⟩
    rw [Nat.add_sub_cancel, slice_self]
    simp [streamText]
  | send generation cursor pending =>
    obtain ⟨w, hbw, hw', hc, hpending, rfl⟩ := h
    cases pending with
    | nil => cases hw
    | cons item pending =>
      cases hw
      have hlength := slice_length (E := E) (i := w) (j := cursor - 1) (by omega)
      rw [← hpending, List.length_cons] at hlength
      have hsplit := slice_trans (E := E) (i := w) (j := w + 1) (k := cursor - 1) (by omega) (by omega)
      have hone := slice_length (E := E) (i := w) (j := w + 1) (by omega)
      obtain ⟨x, hx⟩ := List.length_eq_one_iff.1 (hone.trans (Nat.add_sub_cancel_left w 1))
      rw [hx, ← hpending] at hsplit
      cases hsplit
      refine ⟨w + 1, by omega, by omega, hc, rfl, ?_⟩
      rw [← slice_trans hbw (Nat.le_succ w), streamText_append, hx]
      simp

/-! ## What the client has read -/

theorem streamHead_end : Search.indexOf (crlf ++ crlf) streamHead = some (streamHead.length - 4) := by decide +kernel

theorem streamHead_lf : Search.indexOf [10, 10] streamHead = none := by decide +kernel

/-- No proper prefix of the head looks complete. -/
theorem streamHead_incomplete (k : Nat) (hk : k < streamHead.length) : headEnd (streamHead.take k) = none := by
  have hend := streamHead_end
  have hlf := streamHead_lf
  have hle := Search.indexOf_le hend
  rw [show (crlf ++ crlf).length = 4 from rfl] at hle
  rw [← List.take_append_drop k streamHead] at hend hlf
  apply headEnd_eq_none hend hlf
  rw [List.take_append_drop, List.length_take]
  omega

theorem streamHead_parsed : ∃ head, parseHead false streamHead = .parsed head streamHead.length ∧
    ¬ (head.status ≠ 200 ∨ head.headerContains (bytes "content-type") (bytes "text/event-stream") = false) := by
  have h : (match parseHead false streamHead with
      | .parsed head consumed => decide (consumed = streamHead.length) &&
          decide (¬ (head.status ≠ 200 ∨ head.headerContains (bytes "content-type") (bytes "text/event-stream") = false))
      | _ => false) = true := by decide +kernel
  cases hp : parseHead false streamHead with
  | incomplete | malformed e =>
    rw [hp] at h
    cases h
  | parsed head consumed =>
    rw [hp] at h
    simp only [Bool.and_eq_true, decide_eq_true_eq] at h
    exact ⟨head, by rw [h.1], h.2⟩

/-- **What the client has made of the bytes it has read**: `base` is what it had processed before. -/
def Received (base payloads : List Bytes) (consumed : Bytes) : Reader → Prop
  | .head buffer => buffer = consumed ∧ headEnd consumed = none ∧ payloads = base
  | .events parser =>
    ∃ q, consumed = streamHead ++ q ∧ parser = (({} : SseParser).feed q).1 ∧
      payloads = base ++ ((({} : SseParser).feed q).2.map SseEvent.data).filter (fun data => !data.isEmpty)

theorem foldl_take : ∀ (events : List SseEvent) (c : Client),
    (events.foldl Client.take c).connection = c.connection ∧
      (events.foldl Client.take c).delivered = c.delivered ++ events.map SseEvent.data
  | [], c => ⟨rfl, (List.append_nil _).symm⟩
  | e :: events, c => by
    obtain ⟨hconnection, hdelivered⟩ := foldl_take events (c.take e)
    exact ⟨hconnection, by rw [List.foldl_cons, hdelivered]; simp [Client.take]⟩

theorem feed_payloads (c : Client) (thread : Nat) (parser : SseParser) (data : Bytes) :
    (c.feed thread parser data).connection = some (thread, .events (parser.feed data).1) ∧
      (c.feed thread parser data).payloads =
        c.payloads ++ ((parser.feed data).2.map SseEvent.data).filter (fun data => !data.isEmpty) := by
  obtain ⟨hconnection, hdelivered⟩ :=
    foldl_take (parser.feed data).2 { c with connection := some (thread, .events (parser.feed data).1) }
  refine ⟨hconnection, ?_⟩
  unfold Client.payloads Client.feed
  rw [hdelivered, List.filter_append]

/-- The head has arrived, and the first bytes behind it. -/
theorem read_head {c : Client} {thread : Nat} {buffer chunk q : Bytes} (h : buffer ++ chunk = streamHead ++ q) :
    c.read thread (.head buffer) chunk = c.feed thread {} q := by
  obtain ⟨head, hparsed, haccepted⟩ := streamHead_parsed
  unfold Client.read
  dsimp only
  rw [h, parseHead_append streamHead_end, hparsed]
  dsimp only
  rw [if_neg haccepted, List.drop_left]

/-- **A read keeps the client in step with the bytes it has read.** -/
theorem Received.read {base : List Bytes} {c : Client} (thread : Nat) {reader : Reader} {consumed chunk : Bytes}
    (h : Received base c.payloads consumed reader) {rest : Bytes} (hc : consumed ++ chunk <+: streamHead ++ rest) :
    ∃ reader', (c.read thread reader chunk).connection = some (thread, reader') ∧
      Received base (c.read thread reader chunk).payloads (consumed ++ chunk) reader' ∧
      c.payloads <+: (c.read thread reader chunk).payloads := by
  cases reader with
  | events parser =>
    obtain ⟨q, rfl, rfl, hpayloads⟩ := h
    obtain ⟨hconnection, hfeed⟩ := feed_payloads c thread (({} : SseParser).feed q).1 chunk
    have happend := SseParser.feed_append {} q chunk
    refine ⟨_, hconnection, ⟨q ++ chunk, List.append_assoc _ _ _, ?_, ?_⟩, ?_⟩
    · rw [happend]
    · show (c.feed thread _ chunk).payloads = _
      rw [hfeed, hpayloads, happend, List.map_append, List.filter_append, List.append_assoc]
    · show c.payloads <+: (c.feed thread _ chunk).payloads
      rw [hfeed]
      exact List.prefix_append _ _
  | head buffer =>
    obtain ⟨rfl, -, hpayloads⟩ := h
    rcases Nat.lt_or_ge (buffer ++ chunk).length streamHead.length with hlt | hge
    · have htake : buffer ++ chunk = streamHead.take (buffer ++ chunk).length :=
        List.prefix_iff_eq_take.1 (List.prefix_of_prefix_length_le hc (List.prefix_append _ _) (Nat.le_of_lt hlt))
      have hend : headEnd (buffer ++ chunk) = none := by
        rw [htake]
        exact streamHead_incomplete _ hlt
      have hread : c.read thread (.head buffer) chunk = { c with connection := some (thread, .head (buffer ++ chunk)) } := by
        unfold Client.read parseHead
        simp only [hend]
      rw [hread]
      exact ⟨_, rfl, ⟨rfl, hend, hpayloads⟩, List.prefix_refl _⟩
    · obtain ⟨q, hq⟩ := List.prefix_of_prefix_length_le (List.prefix_append streamHead rest) hc hge
      obtain ⟨hconnection, hfeed⟩ := feed_payloads c thread {} q
      rw [read_head hq.symm]
      refine ⟨_, hconnection, ⟨q, hq.symm, rfl, ?_⟩, ?_⟩
      · rw [hfeed, hpayloads]
      · rw [hfeed]
        exact List.prefix_append _ _

theorem framed_initialEvent (lastAssigned : Nat) (retryMs : Int32) : (initialEvent lastAssigned retryMs).Framed :=
  ⟨rfl, ⟨_, rfl, plain_decimal lastAssigned⟩, by unfold Plain; exact ⟨List.not_mem_nil, List.not_mem_nil⟩⟩

theorem framed_itemEvent {item : Item} (h : ∃ p : Payload, item.data = p.text) : (itemEvent item).Framed := by
  obtain ⟨p, hp⟩ := h
  exact ⟨rfl, ⟨_, rfl, plain_decimal item.id⟩, by simpa [itemEvent, hp] using p.plain⟩

/-- **From a prefix of a stream the client has processed a prefix of its payloads.** -/
theorem Received.payloads {base payloads : List Bytes} {consumed : Bytes} {reader : Reader}
    (h : Received base payloads consumed reader) {retryMs : Int32} {lastAssigned : Nat} {items : List Item}
    (hitems : ∀ item ∈ items, ∃ p : Payload, item.data = p.text)
    (hc : consumed <+: streamText retryMs lastAssigned items) :
    ∃ j ≤ items.length, payloads = base ++ (items.map Item.data).take j := by
  cases reader with
  | head buffer => exact ⟨0, Nat.zero_le _, by rw [h.2.2, List.take_zero, List.append_nil]⟩
  | events parser =>
    obtain ⟨q, rfl, -, rfl⟩ := h
    have hframed : ∀ e ∈ initialEvent lastAssigned retryMs :: items.map itemEvent, e.Framed := by
      intro e he
      rcases List.mem_cons.1 he with rfl | he
      · exact framed_initialEvent lastAssigned retryMs
      · obtain ⟨item, hitem, rfl⟩ := List.mem_map.1 he
        exact framed_itemEvent (hitems item hitem)
    obtain ⟨k, hk, hfeed⟩ := feed_formatted hframed ((List.prefix_append_right_inj streamHead).1 hc)
    have hdata : (initialEvent lastAssigned retryMs :: items.map itemEvent).map SseEvent.data = [] :: items.map Item.data := by
      rw [List.map_cons, List.map_map]
      rfl
    rw [hfeed, hdata]
    rw [List.length_cons, List.length_map] at hk
    cases k with
    | zero => exact ⟨0, Nat.zero_le _, rfl⟩
    | succ j =>
      refine ⟨j, by omega, ?_⟩
      rw [List.take_succ_cons, List.filter_cons_of_neg (by simp), List.filter_eq_self.2]
      intro data hdata
      obtain ⟨item, hitem, rfl⟩ := List.mem_map.1 (List.mem_of_mem_take hdata)
      obtain ⟨p, hp⟩ := hitems item hitem
      simp [hp, p.nonempty]

/-! ## The condition -/

/-- **What keeps the delivery in order**: an event is popped only after the client has processed it, the ids stay below
`2 ^ 64 - 1`, and a connection resumes right after the last event the client has processed. -/
def inOrder (p : Pool State Stream) : Label → Bool
  | .enqueue payload =>
    !p.shared.channel.running ||
      (decide (p.shared.channel.nextEventId < 2 ^ 64 - 1) &&
        (p.shared.channel.evicted payload.text).all (fun item => item.id ≤ p.shared.client.payloads.length))
  | .connect =>
    if p.shared.client.lastEventId.isEmpty then
      p.shared.channel.nextUndelivered == p.shared.client.payloads.length + 1
    else p.shared.client.lastEventId == decimal p.shared.client.payloads.length
  | _ => true

/-! ## The invariant -/

/-- The client's connection: some `base` payloads were processed before it, its stream has written a slice of the
rest, and the client has read `consumed` of that. -/
def Connected (s : State) (stream : Stream) (reader : Reader) : Prop :=
  ∃ base lastAssigned consumed, base ≤ s.enqueued.length ∧
    Received ((s.enqueued.map Payload.text).take base) s.client.payloads consumed reader ∧
    Wrote s.channel.retryMs s.enqueued base lastAssigned (consumed ++ s.inbox) stream

/-- **The invariant of a run in order.** -/
structure Delivering (p : Pool State Stream) : Prop where
  next : p.shared.channel.nextEventId = p.shared.enqueued.length + 1
  small : p.shared.enqueued.length + 1 < 2 ^ 64
  ring : ∃ e ≤ p.shared.client.payloads.length, p.shared.channel.ring = (number 1 p.shared.enqueued).drop e
  payloads : p.shared.client.payloads <+: p.shared.enqueued.map Payload.text
  connected : ∀ thread reader, p.shared.client.connection = some (thread, reader) →
    ∃ stream, p.threads[thread]? = some stream ∧ Connected p.shared stream reader

theorem Delivering.processed_le {p : Pool State Stream} (h : Delivering p) :
    p.shared.client.payloads.length ≤ p.shared.enqueued.length := by
  simpa using h.payloads.length_le

theorem map_text_append (E : List Payload) (p : Payload) (k : Nat) (hk : k ≤ E.length) :
    ((E ++ [p]).map Payload.text).take k = (E.map Payload.text).take k := by
  rw [List.map_append, List.take_append_of_le_length (by simpa using hk)]

/-- The last event popped has the number of all that are gone. -/
theorem popped_le {E : List Payload} {e k d : Nat} (he : e ≤ d) (hk : k ≤ ((number 1 E).drop e).length)
    (h : ∀ item ∈ ((number 1 E).drop e).take k, item.id ≤ d) : e + k ≤ d := by
  rcases Nat.eq_zero_or_pos k with rfl | hpos
  · exact he
  · rw [List.length_drop, length_number] at hk
    obtain ⟨p, hp⟩ : ∃ p, E[e + (k - 1)]? = some p := ⟨_, List.getElem?_eq_getElem (by omega)⟩
    have hlast : (((number 1 E).drop e).take k)[k - 1]? = some ⟨1 + (e + (k - 1)), p.text⟩ := by
      rw [List.getElem?_take_of_lt (by omega), List.getElem?_drop, getElem?_number, hp]
      rfl
    have := h _ (List.mem_of_getElem? hlast)
    dsimp only at this
    omega

/-! ## Steps -/

theorem delivering_enqueue {p : Pool State Stream} (h : Delivering p) {payload : Payload}
    (ho : inOrder p (.enqueue payload) = true) {q : Pool State Stream} (hs : step p (.enqueue payload) = some q) :
    Delivering q := by
  cases hs
  cases hrunning : p.shared.channel.running with
  | false =>
    have henqueue : p.shared.channel.enqueue payload.text = p.shared.channel := by simp [SseChannel.enqueue, hrunning]
    simp only [henqueue, Bool.false_eq_true, if_false]
    exact h
  | true =>
    simp only [inOrder, hrunning, Bool.not_true, Bool.false_or, Bool.and_eq_true, decide_eq_true_eq, List.all_eq_true] at ho
    obtain ⟨hsmall, hevicted⟩ := ho
    obtain ⟨e, he, hring⟩ := h.ring
    have hle := h.processed_le
    have hnext := h.next
    have hretry : (p.shared.channel.enqueue payload.text).retryMs = p.shared.channel.retryMs := by
      simp [SseChannel.enqueue, hrunning]
    have hnew : p.shared.channel.ring ++ [(⟨p.shared.channel.nextEventId, payload.text⟩ : Item)] =
        (number 1 (p.shared.enqueued ++ [payload])).drop e := by
      rw [number_append, List.drop_append_of_le_length (by rw [length_number]; omega), hring, hnext, Nat.add_comm 1]
      rfl
    simp only [if_true]
    refine ⟨?_, ?_, ?_, ?_, ?_⟩
    · show (p.shared.channel.enqueue payload.text).nextEventId = (p.shared.enqueued ++ [payload]).length + 1
      simp only [SseChannel.enqueue, hrunning, if_true, wrap64, List.length_append, List.length_singleton]
      omega
    · show (p.shared.enqueued ++ [payload]).length + 1 < 2 ^ 64
      rw [List.length_append, List.length_singleton]
      omega
    · show ∃ e ≤ p.shared.client.payloads.length, (p.shared.channel.enqueue payload.text).ring =
        (number 1 (p.shared.enqueued ++ [payload])).drop e
      simp only [SseChannel.evicted, hnew] at hevicted
      simp only [SseChannel.enqueue, hrunning, if_true, hnew, List.drop_drop]
      exact ⟨_, popped_le he (Nat.sub_le _ _) hevicted, rfl⟩
    · exact h.payloads.trans (by rw [List.map_append]; exact List.prefix_append _ _)
    · intro thread reader hc
      obtain ⟨stream, hstream, base, lastAssigned, consumed, hbase, hreceived, hwrote⟩ := h.connected thread reader hc
      refine ⟨stream, hstream, base, lastAssigned, consumed, ?_, ?_, ?_⟩
      · show base ≤ (p.shared.enqueued ++ [payload]).length
        rw [List.length_append]
        omega
      · show Received (((p.shared.enqueued ++ [payload]).map Payload.text).take base) _ _ _
        rw [map_text_append _ _ _ hbase]
        exact hreceived
      · show Wrote (p.shared.channel.enqueue payload.text).retryMs _ _ _ _ _
        rw [hretry]
        exact hwrote.enqueue hbase payload

/-- A connection in order starts at the first payload the client has not processed. -/
theorem cursor_of_inOrder {p : Pool State Stream} (h : Delivering p) (ho : inOrder p .connect = true) :
    p.shared.channel.cursor p.shared.client.lastEventId = p.shared.client.payloads.length + 1 := by
  have hle := h.processed_le
  have hsmall := h.small
  unfold SseChannel.cursor
  simp only [inOrder] at ho
  split at ho
  · rename_i hempty
    rw [if_pos (List.isEmpty_iff.1 hempty)]
    exact beq_iff_eq.1 ho
  · rename_i hempty
    rw [if_neg (fun he => hempty (List.isEmpty_iff.2 he)), beq_iff_eq.1 ho, strtoull_decimal (by omega), wrap64]
    omega

theorem delivering_connect {p : Pool State Stream} (h : Delivering p) (ho : inOrder p .connect = true)
    {q : Pool State Stream} (hs : step p .connect = some q) : Delivering q := by
  have hcursor := cursor_of_inOrder h ho
  have hle := h.processed_le
  have hbase : p.shared.client.payloads = (p.shared.enqueued.map Payload.text).take p.shared.client.payloads.length :=
    List.prefix_iff_eq_take.1 h.payloads
  simp only [step] at hs
  split at hs
  · cases hs
  · cases hs
    have hchannel : (attach p.shared.channel p.shared.client.lastEventId).1.nextEventId = p.shared.channel.nextEventId ∧
        (attach p.shared.channel p.shared.client.lastEventId).1.ring = p.shared.channel.ring := by
      unfold attach
      split <;> exact ⟨rfl, rfl⟩
    refine ⟨hchannel.1.trans h.next, h.small, ?_, h.payloads, ?_⟩
    · obtain ⟨e, he, hring⟩ := h.ring
      exact ⟨e, he, hchannel.2.trans hring⟩
    · rintro thread reader hc
      cases hc
      refine ⟨(attach p.shared.channel p.shared.client.lastEventId).2, by simp [Pool.spawn], p.shared.client.payloads.length,
        p.shared.channel.lastAssigned, [], hle, ⟨rfl, rfl, hbase⟩, ?_⟩
      cases hrunning : p.shared.channel.running with
      | false =>
        rw [attach, if_neg (by simp [hrunning])]
        exact List.nil_prefix
      | true =>
        rw [attach, if_pos hrunning]
        exact ⟨rfl, hcursor, hle, rfl⟩

/-- **A stream's section**: it writes `data`, and of the channel only the watermark may change. -/
theorem delivering_section {p : Pool State Stream} (h : Delivering p) {i : Nat} {stream next : Stream} {data : Bytes}
    {channel : SseChannel} (hi : p.threads[i]? = some stream) (hring : channel.ring = p.shared.channel.ring)
    (hnext : channel.nextEventId = p.shared.channel.nextEventId) (hretry : channel.retryMs = p.shared.channel.retryMs)
    (hw : ∀ reader base lastAssigned consumed,
      Received ((p.shared.enqueued.map Payload.text).take base) p.shared.client.payloads consumed reader →
      Wrote p.shared.channel.retryMs p.shared.enqueued base lastAssigned (consumed ++ p.shared.inbox) stream →
      Wrote p.shared.channel.retryMs p.shared.enqueued base lastAssigned (consumed ++ p.shared.inbox ++ data) next) :
    Delivering ⟨{ p.shared.write i data with channel }, p.threads.set i next⟩ where
  next := hnext.trans h.next
  small := h.small
  ring := by
    obtain ⟨e, he, hr⟩ := h.ring
    exact ⟨e, he, hring.trans hr⟩
  payloads := h.payloads
  connected := by
    intro thread reader hc
    have hconnection : p.shared.client.connection = some (thread, reader) := hc
    obtain ⟨live, hlive, base, lastAssigned, consumed, hbase, hreceived, hwrote⟩ := h.connected thread reader hconnection
    by_cases hthread : thread = i
    · -- the client's own stream
      subst hthread
      obtain rfl : live = stream := Option.some.inj (hlive.symm.trans hi)
      have hlt : thread < p.threads.length := (List.getElem?_eq_some_iff.1 hi).1
      refine ⟨next, List.getElem?_set_self hlt, base, lastAssigned, consumed, hbase, hreceived, ?_⟩
      show Wrote channel.retryMs p.shared.enqueued base lastAssigned (consumed ++ (p.shared.write thread data).inbox) next
      rw [hretry, State.write]
      simp only [hconnection, Option.any_some, decide_true, if_true]
      rw [← List.append_assoc]
      exact hw reader base lastAssigned consumed hreceived hwrote
    · -- a stream whose connection is gone
      refine ⟨live, by rw [List.getElem?_set_ne (Ne.symm hthread)]; exact hlive, base, lastAssigned, consumed, hbase,
        hreceived, ?_⟩
      show Wrote channel.retryMs p.shared.enqueued base lastAssigned (consumed ++ (p.shared.write i data).inbox) live
      rw [hretry, State.write]
      simpa [hconnection, hthread] using hwrote

/-- What is collected goes from the cursor to the last event. -/
theorem Wrote.collect {retryMs : Int32} {E : List Payload} {base lastAssigned generation cursor : Nat} {sent : Bytes}
    (h : Wrote retryMs E base lastAssigned sent (.wait generation cursor)) (hsmall : E.length + 1 < 2 ^ 64) :
    Wrote retryMs E base lastAssigned sent
      (.send generation ((slice E (cursor - 1) E.length).getLast?.elim cursor (fun item => wrap64 (item.id + 1)))
        (slice E (cursor - 1) E.length)) := by
  obtain ⟨hlo, hhi, hsent⟩ := h
  have hcursor : (slice E (cursor - 1) E.length).getLast?.elim cursor (fun item => wrap64 (item.id + 1)) = E.length + 1 := by
    cases hl : (slice E (cursor - 1) E.length).getLast? with
    | none =>
      have := slice_length (E := E) (i := cursor - 1) (Nat.le_refl _)
      rw [List.getLast?_eq_none_iff.1 hl, List.length_nil] at this
      show cursor = _
      omega
    | some item =>
      rw [slice_all, drop_number] at hl
      have := getLast?_number hl
      rw [List.length_drop] at this
      show wrap64 (item.id + 1) = _
      rw [wrap64]
      omega
  rw [hcursor]
  exact ⟨cursor - 1, by omega, by omega, Nat.le_refl _, rfl, hsent⟩

/-- A stream collects what it has not sent, and the watermark moves. -/
theorem delivering_collect {p : Pool State Stream} (h : Delivering p) {i generation cursor : Nat}
    (hi : p.threads[i]? = some (.wait generation cursor)) (watermark : Nat) :
    Delivering ⟨{ p.shared with channel := { p.shared.channel with nextUndelivered := watermark } },
      p.threads.set i (.send generation
        ((p.shared.channel.ring.filter (fun item => cursor ≤ item.id)).getLast?.elim cursor (fun item => wrap64 (item.id + 1)))
        (p.shared.channel.ring.filter (fun item => cursor ≤ item.id)))⟩ := by
  have hsection : Delivering ⟨{ p.shared.write i [] with
      channel := { p.shared.channel with nextUndelivered := watermark } }, p.threads.set i (.send generation
        ((p.shared.channel.ring.filter (fun item => cursor ≤ item.id)).getLast?.elim cursor (fun item => wrap64 (item.id + 1)))
        (p.shared.channel.ring.filter (fun item => cursor ≤ item.id)))⟩ := by
    refine delivering_section h hi rfl rfl rfl (fun reader base lastAssigned consumed hreceived hwrote => ?_)
    -- all that was popped the client has processed, and so lies before the cursor
    obtain ⟨e, he, hring⟩ := h.ring
    obtain ⟨hlo, hhi, hsent⟩ := id hwrote
    obtain ⟨j, hj, hpayloads⟩ := hreceived.payloads (fun item hitem => (mem_slice hitem).imp fun _ hp => hp.2)
      (hsent ▸ List.prefix_append consumed p.shared.inbox)
    have hcount := congrArg List.length hpayloads
    rw [slice_length (by omega)] at hj
    rw [List.length_append, List.length_take, List.length_take, List.length_map] at hcount
    have hbefore : e < cursor := by omega
    rw [hring, filter_ring hbefore, List.append_nil]
    exact hwrote.collect h.small
  have hwrite : p.shared.write i [] = p.shared := by simp [State.write]
  rwa [hwrite] at hsection

theorem delivering_stream {p q : Pool State Stream} (h : Delivering p) {i : Nat} (hs : Pool.stepAt (advance i) p i = some q) :
    Delivering q := by
  obtain ⟨stream, s', next, hi, ha, rfl⟩ := Pool.stepAt_eq_some.1 hs
  have hwrite : p.shared.write i [] = p.shared := by simp [State.write]
  unfold advance at ha
  cases hw : stream.writing p.shared.channel.retryMs with
  | some w =>
    rw [hw] at ha
    cases ha
    exact delivering_section h hi rfl rfl rfl (fun _ _ _ _ _ hwrote => hwrote.writing hw)
  | none =>
    rw [hw] at ha
    cases stream with
    | done | head generation cursor assigned | initial generation cursor assigned => cases ha
    | send generation cursor pending =>
      cases pending with
      | cons item pending => cases hw
      | nil =>
        cases ha
        rw [← hwrite]
        refine delivering_section h hi rfl rfl rfl (fun _ base lastAssigned consumed _ hwrote => ?_)
        obtain ⟨w, hbw, hwc, hc, hpending, hsent⟩ := hwrote
        have hlength := slice_length (E := p.shared.enqueued) (i := w) (j := cursor - 1) (by omega)
        rw [← hpending, List.length_nil] at hlength
        refine ⟨by omega, hc, ?_⟩
        rw [List.append_nil, hsent, show cursor - 1 = w by omega]
    | wait generation cursor =>
      dsimp only at ha
      split at ha
      · cases ha
        rw [← hwrite]
        refine delivering_section h hi rfl rfl rfl (fun _ base lastAssigned consumed _ hwrote => ?_)
        rw [List.append_nil]
        exact hwrote.prefix_all
      · split at ha
        · cases ha
          exact delivering_collect h hi _
        · cases ha

theorem delivering_writeFails {p q : Pool State Stream} (h : Delivering p) {i n : Nat}
    (hs : Pool.stepAt (advanceFail n i) p i = some q) : Delivering q := by
  obtain ⟨stream, s', next, hi, ha, rfl⟩ := Pool.stepAt_eq_some.1 hs
  obtain ⟨⟨data, next⟩, hw, hr⟩ := Option.map_eq_some_iff.1 ha
  cases hr
  refine delivering_section h hi rfl rfl rfl (fun _ base lastAssigned consumed _ hwrote => ?_)
  exact ((List.prefix_append_right_inj _).2 (List.take_prefix n data)).trans (hwrote.writing hw).prefix_all

theorem delivering_read {p q : Pool State Stream} (h : Delivering p) {n : Nat} (hs : step p (.read n) = some q) :
    Delivering q := by
  obtain ⟨⟨thread, reader⟩, hconnection, hq⟩ := Option.bind_eq_some_iff.1 hs
  dsimp only at hq
  split at hq
  swap
  · cases hq
  cases hq
  obtain ⟨stream, hstream, base, lastAssigned, consumed, hbase, hreceived, hwrote⟩ := h.connected thread reader hconnection
  have hsplit : consumed ++ p.shared.inbox.take n ++ p.shared.inbox.drop n = consumed ++ p.shared.inbox := by
    rw [List.append_assoc, List.take_append_drop]
  have hconsumed : consumed ++ p.shared.inbox.take n <+:
      streamText p.shared.channel.retryMs lastAssigned (slice p.shared.enqueued base p.shared.enqueued.length) :=
    (hsplit ▸ List.prefix_append _ _).trans hwrote.prefix_all
  obtain ⟨reader', hconnection', hreceived', hmore⟩ := hreceived.read thread hconsumed
  refine ⟨h.next, h.small, ?_, ?_, ?_⟩
  · obtain ⟨e, he, hring⟩ := h.ring
    exact ⟨e, Nat.le_trans he hmore.length_le, hring⟩
  · obtain ⟨j, -, hpayloads⟩ := hreceived'.payloads (fun item hitem => (mem_slice hitem).imp fun _ hp => hp.2) hconsumed
    show (p.shared.client.read thread reader (p.shared.inbox.take n)).payloads <+: _
    rw [hpayloads, map_data_slice, List.take_take]
    conv => rhs; rw [← List.take_append_drop base (p.shared.enqueued.map Payload.text)]
    exact (List.prefix_append_right_inj _).2 (List.take_prefix _ _)
  · rintro thread' reader'' hc
    have hc' : (p.shared.client.read thread reader (p.shared.inbox.take n)).connection = some (thread', reader'') := hc
    rw [hconnection'] at hc'
    cases hc'
    refine ⟨stream, hstream, base, lastAssigned, consumed ++ p.shared.inbox.take n, hbase, hreceived', ?_⟩
    show Wrote _ _ _ _ (consumed ++ p.shared.inbox.take n ++ p.shared.inbox.drop n) stream
    rw [hsplit]
    exact hwrote

/-- **Each step in order keeps the invariant.** -/
theorem delivering_step {p q : Pool State Stream} {label : Label} (h : Delivering p) (ho : inOrder p label = true)
    (hs : step p label = some q) : Delivering q := by
  cases label with
  | enqueue payload => exact delivering_enqueue h ho hs
  | connect => exact delivering_connect h ho hs
  | stream i => exact delivering_stream h hs
  | writeFails i n => exact delivering_writeFails h hs
  | read n => exact delivering_read h hs
  | drop =>
    simp only [step] at hs
    split at hs
    · cases hs
      exact ⟨h.next, h.small, h.ring, h.payloads, fun thread reader hc => by cases hc⟩
    · cases hs
  | shutdown =>
    cases hs
    exact ⟨h.next, h.small, h.ring, h.payloads, h.connected⟩

/-- **The payloads the client has passed on are a prefix of those enqueued**, in every state of a run in order. -/
theorem delivered_prefix {replayBufferSize : Nat} {retryMs : Int32} {l : List Label} {p : Pool State Stream}
    (hr : Lts.run step (init replayBufferSize retryMs) l = some p)
    (hm : Lts.Meets step (fun p label => inOrder p label = true) (init replayBufferSize retryMs) l) :
    p.shared.client.payloads <+: p.shared.enqueued.map Payload.text := by
  have hinit : Delivering (init replayBufferSize retryMs) :=
    ⟨rfl, show 0 + 1 < 2 ^ 64 by decide, ⟨0, Nat.zero_le _, rfl⟩, List.nil_prefix, fun _ _ hc => by cases hc⟩
  have h : Delivering p := Lts.meets_invariant (fun _ _ _ h ho hs => delivering_step h ho hs) hinit hm hr
  exact h.payloads

/-! ## Runs on given payloads -/

def payloadA : Payload := ⟨bytes "[1]", by decide, by unfold Plain; decide⟩

def payloadB : Payload := ⟨bytes "[2]", by decide, by unfold Plain; decide⟩

/-- The connection of thread `i` writes its head and its initial event, and the client reads them. -/
def opening (i lastAssigned : Nat) : List Label :=
  [.connect, .stream i, .stream i, .read streamHead.length, .read (formatSseEvent (initialEvent lastAssigned 100)).length]

/-- And then one collected event, read in two pieces. -/
def oneEvent (i : Nat) (item : Item) : List Label :=
  [.stream i, .stream i, .read 3, .read ((formatSseEvent (itemEvent item)).length - 3)]

/-- The connection drops after the first event, which is processed; the second is enqueued meanwhile. -/
def resumed : List Label :=
  .enqueue payloadA :: opening 0 1 ++ oneEvent 0 ⟨1, payloadA.text⟩ ++ [.drop, .enqueue payloadB] ++ opening 1 2 ++
    oneEvent 1 ⟨2, payloadB.text⟩

theorem delivered_prefix_resumed :
    ∃ p, Lts.run step (init 16 100) resumed = some p ∧ p.shared.client.payloads.length = 2 ∧
      p.shared.client.payloads <+: p.shared.enqueued.map Payload.text := by
  have hrun : (Lts.run step (init 16 100) resumed).map (·.shared.client.payloads.length) = some 2 := by decide +kernel
  obtain ⟨p, hp, hlength⟩ := Option.map_eq_some_iff.1 hrun
  exact ⟨p, hp, hlength, delivered_prefix hp (by decide +kernel)⟩

/-- The connection drops after the initial event, whose id is already that of the event to come. -/
def skipping : List Label :=
  .enqueue payloadA :: opening 0 1 ++ [.drop] ++ opening 1 1 ++ .enqueue payloadB :: oneEvent 1 ⟨2, payloadB.text⟩

/-- **An event whose number the initial event has announced is lost with the connection**: nothing was evicted, and the
client has been given the second payload without the first. -/
theorem skipping_loses_payload :
    ∃ p, Lts.run step (init 16 100) skipping = some p ∧ p.shared.channel.ring.length = 2 ∧
      ¬ p.shared.client.payloads <+: p.shared.enqueued.map Payload.text := by
  have hrun : (Lts.run step (init 16 100) skipping).map (fun p => (p.shared.channel.ring.length,
      p.shared.client.payloads, p.shared.enqueued.map Payload.text)) = some (2, [bytes "[2]"], [bytes "[1]", bytes "[2]"]) := by
    decide +kernel
  obtain ⟨p, hp, hfacts⟩ := Option.map_eq_some_iff.1 hrun
  simp only [Prod.mk.injEq] at hfacts
  obtain ⟨hring, hpayloads, henqueued⟩ := hfacts
  refine ⟨p, hp, hring, ?_⟩
  rw [hpayloads, henqueued]
  decide

end Sse
end Mcp
