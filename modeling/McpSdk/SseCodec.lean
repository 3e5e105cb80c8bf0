import McpSdk.Sse
/-!
# SseCodec — events over the wire, in any pieces

`SseParser` keeps a line that is not complete for the next call, so only the bytes count, not the calls they came in
(`feedAll_eq_feed`).  What `format_sse_event` writes comes back but for line feeds at the front of the data: `take_line`
puts a line feed between two `data` lines only when there is data already (`events_return_iff`).
-/
namespace Mcp

/-! ## Pieces -/

/-- One call of `feed` for each piece. -/
def SseParser.feedAll (p : SseParser) : List Bytes → SseParser × List SseEvent
  | [] => (p, [])
  | piece :: pieces => (((p.feed piece).1.feedAll pieces).1, (p.feed piece).2 ++ ((p.feed piece).1.feedAll pieces).2)

theorem SseParser.feedAll_cons : ∀ (pieces : List Bytes) (p : SseParser) (piece : Bytes),
    p.feedAll (piece :: pieces) = p.feed (piece ++ pieces.flatten)
  | [], p, piece => by simp [feedAll]
  | next :: pieces, p, piece => by
    rw [feedAll, feedAll_cons pieces, List.flatten_cons, p.feed_append piece]

/-- A call leaves no complete line behind. -/
theorem SseParser.feed_buffer (p : SseParser) (data : Bytes) : (10 : UInt8) ∉ (p.feed data).1.buffer :=
  Search.not_mem_drain 10 (p.buffer ++ data)

theorem SseParser.feedAll_buffer : ∀ (pieces : List Bytes) {p : SseParser}, (10 : UInt8) ∉ p.buffer →
    (10 : UInt8) ∉ (p.feedAll pieces).1.buffer
  | [], _, h => h
  | piece :: pieces, p, _ => feedAll_buffer pieces (p.feed_buffer piece)

/-- Without a complete line there is nothing to do. -/
theorem SseParser.feed_nil {p : SseParser} (h : (10 : UInt8) ∉ p.buffer) : p.feed [] = (p, []) := by
  unfold feed
  rw [List.append_nil, Search.drain_of_not_mem h]
  rfl

theorem SseParser.feedAll_flatten {p : SseParser} (h : (10 : UInt8) ∉ p.buffer) (pieces : List Bytes) :
    p.feedAll pieces = p.feed pieces.flatten := by
  cases pieces with
  | nil => exact (feed_nil h).symm
  | cons piece pieces => exact feedAll_cons pieces p piece

/-- **Pieces are parsed as the whole**: the same events and the same state, from every state when there is a piece, and
from every state the parser can reach also when there is none. -/
theorem SseParser.feedAll_eq_feed :
    (∀ (p : SseParser) (piece : Bytes) (pieces : List Bytes), p.feedAll (piece :: pieces) = p.feed (piece :: pieces).flatten) ∧
      ∀ before pieces : List Bytes,
        (({} : SseParser).feedAll before).1.feedAll pieces = (({} : SseParser).feedAll before).1.feed pieces.flatten :=
  ⟨fun p piece pieces => feedAll_cons pieces p piece,
    fun before pieces => feedAll_flatten (feedAll_buffer before List.not_mem_nil) pieces⟩

/-! ## Events there and back -/

/-- No field but the data has a line end, the data has no `\r`, and `retry` is not negative. -/
structure SseEvent.Sendable (e : SseEvent) : Prop extends e.Formattable where
  retry : ∀ r, e.retryMs = some r → 0 ≤ r.toInt

theorem feed_events : ∀ {events : List SseEvent}, (∀ e ∈ events, e.Formattable) →
    ({} : SseParser).feed (events.flatMap formatSseEvent) = ({}, events.map SseEvent.received)
  | [], _ => rfl
  | e :: events, h => by
    have ih := feed_events fun x hx => h x (List.mem_cons_of_mem e hx)
    have hone : ({} : SseParser).feed (formatSseEvent e) = ({}, [e.received]) := (h e List.mem_cons_self).eventLines.feed
    rw [List.flatMap_cons, SseParser.feed_append, hone, ih]
    rfl

theorem SseEvent.Sendable.received_eq_iff {e : SseEvent} (h : e.Sendable) : e.received = e ↔ e.data.head? ≠ some 10 := by
  have hretry : e.retryMs.filter (fun r => 0 ≤ r.toInt) = e.retryMs := by
    cases hr : e.retryMs with
    | none => rfl
    | some r => simp [Option.filter, h.retry r hr]
  obtain ⟨id, event, data, retryMs⟩ := e
  simp only [SseEvent.received, hretry, SseEvent.mk.injEq, true_and, and_true]
  cases data with
  | nil => simp
  | cons b data =>
    by_cases hb : b = 10
    · -- one line feed is gone, so the data is shorter
      have hshort := (List.dropWhile_sublist (fun x : UInt8 => x == 10) (l := data)).length_le
      rw [List.dropWhile_cons_of_pos (by simpa using hb)]
      simp only [List.head?_cons, hb, ne_eq, not_true_eq_false, iff_false]
      intro he
      have hlength := congrArg List.length he
      rw [List.length_cons] at hlength
      omega
    · rw [List.dropWhile_cons_of_neg (by simpa using hb)]
      simp [hb]

/-- **Events come back exactly when no data begins with a line feed**, in whatever pieces the text arrives. -/
theorem events_return_iff {events : List SseEvent} (h : ∀ e ∈ events, e.Sendable) {pieces : List Bytes}
    (hpieces : pieces.flatten = events.flatMap formatSseEvent) :
    (({} : SseParser).feedAll pieces).2 = events ↔ ∀ e ∈ events, e.data.head? ≠ some 10 := by
  rw [SseParser.feedAll_flatten List.not_mem_nil, hpieces, feed_events fun e he => (h e he).toFormattable]
  constructor
  · intro hmap e he
    have hself : e.received = e := List.map_inj_left.1 (hmap.trans (List.map_id events).symm) e he
    exact (h e he).received_eq_iff.1 hself
  · intro hhead
    have hself : ∀ e ∈ events, e.received = id e := fun e he => (h e he).received_eq_iff.2 (hhead e he)
    exact (List.map_congr_left hself).trans (List.map_id events)

def resumable : SseEvent where
  id := some (bytes "7")
  data := bytes "a" ++ [10, 10] ++ bytes " b:"
  retryMs := some 3000

theorem events_return_iff_resumable :
    (({} : SseParser).feedAll [(formatSseEvent resumable).take 9, (formatSseEvent resumable).drop 9]).2 = [resumable] ∧
      ((({} : SseParser).feedAll [(formatSseEvent resumable).take 9, (formatSseEvent resumable).drop 9]).2 = [resumable] ↔
        ∀ e ∈ [resumable], e.data.head? ≠ some 10) := by
  have hsendable : resumable.Sendable := by
    refine ⟨⟨fun name hname => ?_, fun id hid => ?_, by decide⟩, fun r hr => ?_⟩
    · cases hname
    · cases hid
      decide
    · cases hr
      decide
  exact ⟨by decide +kernel, events_return_iff (List.forall_mem_singleton.2 hsendable) (by simp)⟩

def indented : SseEvent := { data := [10] ++ bytes "a" }

/-- **An empty first line is lost.** -/
theorem indented_shortened :
    (indented.event = none ∧ indented.id = none ∧ indented.retryMs = none ∧ (13 : UInt8) ∉ indented.data) ∧
      (({} : SseParser).feedAll [formatSseEvent indented]).2 = [{ data := bytes "a" }] ∧
      (({} : SseParser).feedAll [formatSseEvent indented]).2 ≠ [indented] := by
  decide +kernel

end Mcp
