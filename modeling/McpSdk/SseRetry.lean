import McpSdk.SseChunked
/-!
# SseRetry — the `retry` hints of a stream

`SseParser` gives an event the last `retry` line of its block (`feed_blocks`), through `std::atoi`, and `sse_loop` waits
the last hint it got.  The digits are checked and their value is not: it saturates at `2 ^ 63 - 1` and is cut to an
`int`, and what is left may be negative (`hinted_iff`).
-/
namespace Mcp

/-! ## The blocks of a stream -/

/-- The value of a `retry` line, if it is all digits. -/
def retryDigits (line : Bytes) : Option Bytes :=
  if (splitField line).1 = bytes "retry" && (!(splitField line).2.isEmpty && (splitField line).2.all isDigit) then
    some (splitField line).2
  else none

def setsField (line : Bytes) : Bool :=
  (splitField line).1 = bytes "data" || (splitField line).1 = bytes "id" || (splitField line).1 = bytes "event" ||
    (retryDigits line).isSome

/-- The lines between empty lines, up to the last empty line. -/
def blocks (stream : Bytes) : List (List Bytes) := (Search.drain [] ((Search.drain 10 stream).1.map stripCr)).1

/-- The blocks that come out as an event. -/
def eventBlocks (stream : Bytes) : List (List Bytes) := (blocks stream).filter (·.any setsField)

def lastRetry (block : List Bytes) : Option Bytes := (block.filterMap retryDigits).getLast?

/-! ## What the parser makes of a block -/

def blockFields (f : SseFields) (block : List Bytes) : SseFields := block.foldl (fun f line => (takeLine f line).1) f

/-- The event at the end of the block. -/
def blockEvents (f : SseFields) (block : List Bytes) : List SseEvent := (takeLine (blockFields f block) []).2

theorem takeLines_blocks : ∀ (lines : List Bytes) (f : SseFields),
    (takeLines f lines).2 =
      match (Search.drain [] (lines.map stripCr)).1 with
      | [] => []
      | block :: blocks => blockEvents f block ++ blocks.flatMap (blockEvents {})
  | [], f => rfl
  | line :: lines, f => by
    have ih := takeLines_blocks lines (takeLine f (stripCr line)).1
    rw [takeLines, ih, List.map_cons, Search.drain]
    by_cases hempty : stripCr line = []
    · simp only [hempty, if_true]
      cases (Search.drain [] (lines.map stripCr)).1 with
      | nil => rfl
      | cons block blocks => rfl
    · simp only [if_neg hempty, takeLine_silent hempty, List.nil_append]
      cases (Search.drain [] (lines.map stripCr)).1 with
      | nil => rfl
      | cons block blocks => rfl

theorem feed_blocks (stream : Bytes) : (({} : SseParser).feed stream).2 = (blocks stream).flatMap (blockEvents {}) := by
  show (takeLines {} (Search.drain 10 stream).1).2 = _
  rw [takeLines_blocks]
  unfold blocks
  cases (Search.drain [] ((Search.drain 10 stream).1.map stripCr)).1 with
  | nil => rfl
  | cons block blocks => rfl

/-- A comment is a line of the field without a name. -/
theorem takeLine_field {line : Bytes} (hne : line ≠ []) (f : SseFields) :
    (takeLine f line).1 = takeField f (splitField line).1 (splitField line).2 := by
  obtain ⟨b, rest, rfl⟩ := List.exists_cons_of_ne_nil hne
  unfold takeLine
  by_cases hcomment : b = ch ':'
  · have hname : (splitField (b :: rest)).1 = [] := by
      rw [hcomment]
      rfl
    simp only [if_pos hcomment, hname]
    rfl
  · simp only [if_neg hcomment]

theorem takeLine_sets {line : Bytes} (hne : line ≠ []) (f : SseFields) :
    (takeLine f line).1.anyField = (f.anyField || setsField line) ∧
      (takeLine f line).1.current.retryMs = ((retryDigits line).map atoi).or f.current.retryMs := by
  rw [takeLine_field hne]
  unfold setsField retryDigits takeField
  generalize splitField line = field
  obtain ⟨name, value⟩ := field
  by_cases hdata : name = bytes "data"
  · subst hdata
    simp [show bytes "data" ≠ bytes "retry" by decide]
  · by_cases hid : name = bytes "id"
    · subst hid
      simp [show bytes "id" ≠ bytes "retry" by decide, show bytes "id" ≠ bytes "data" by decide]
    · by_cases hevent : name = bytes "event"
      · subst hevent
        simp [show bytes "event" ≠ bytes "retry" by decide, show bytes "event" ≠ bytes "data" by decide,
          show bytes "event" ≠ bytes "id" by decide]
      · by_cases hretry : name = bytes "retry"
        · subst hretry
          cases hdigits : !value.isEmpty && value.all isDigit with
          | true => simp [hdata, hid, hevent]
          | false => simp [hdata, hid, hevent]
        · simp [hdata, hid, hevent, hretry]

theorem blockFields_sets : ∀ {block : List Bytes} (f : SseFields), ([] : Bytes) ∉ block →
    (blockFields f block).anyField = (f.anyField || block.any setsField) ∧
      (blockFields f block).current.retryMs = ((lastRetry block).map atoi).or f.current.retryMs
  | [], f, _ => by simp [blockFields, lastRetry]
  | line :: block, f, h => by
    have hne : line ≠ [] := fun he => h (he ▸ List.mem_cons_self)
    obtain ⟨hany, hretry⟩ := takeLine_sets hne f
    obtain ⟨ihany, ihretry⟩ := blockFields_sets (takeLine f line).1 (fun hm => h (List.mem_cons_of_mem line hm))
    refine ⟨?_, ?_⟩
    · show (blockFields (takeLine f line).1 block).anyField = _
      rw [ihany, hany, List.any_cons, Bool.or_assoc]
    · show (blockFields (takeLine f line).1 block).current.retryMs = _
      rw [ihretry, hretry]
      unfold lastRetry
      cases hdigits : retryDigits line with
      | none => simp [hdigits]
      | some digits =>
        rw [List.filterMap_cons_some hdigits, List.getLast?_cons]
        cases (block.filterMap retryDigits).getLast? <;> rfl

theorem not_mem_block {stream : Bytes} {block : List Bytes} (h : block ∈ blocks stream) : ([] : Bytes) ∉ block :=
  Search.not_mem_line h

/-- **The events of a stream are its blocks that set a field**, each with the last `retry` line of its block. -/
theorem feed_eventBlocks (stream : Bytes) :
    List.Forall₂ (fun block e => e.retryMs = (lastRetry block).map atoi) (eventBlocks stream) (({} : SseParser).feed stream).2 := by
  have hblocks : ∀ bs : List (List Bytes), (∀ block ∈ bs, ([] : Bytes) ∉ block) →
      List.Forall₂ (fun block (e : SseEvent) => e.retryMs = (lastRetry block).map atoi) (bs.filter (·.any setsField))
        (bs.flatMap (blockEvents {})) := by
    intro bs hbs
    induction bs with
    | nil => exact List.Forall₂.nil
    | cons block bs ih =>
      obtain ⟨hany, hretry⟩ := blockFields_sets {} (hbs block List.mem_cons_self)
      have ih := ih (fun b hb => hbs b (List.mem_cons_of_mem block hb))
      have hevents : blockEvents {} block = if block.any setsField then [(blockFields {} block).current] else [] := by
        rw [Bool.false_or] at hany
        rw [← hany]
        rfl
      rw [List.flatMap_cons, hevents, List.filter_cons]
      by_cases hsets : block.any setsField = true
      · rw [if_pos hsets, if_pos hsets]
        exact List.Forall₂.cons (by rw [hretry, Option.or_none]) ih
      · rw [if_neg hsets, if_neg hsets]
        exact ih
  rw [feed_blocks]
  exact hblocks (blocks stream) (fun _ => not_mem_block)

/-! ## Hints -/

/-- What a hint must be: not negative, and the value of the digits where an `int` holds it. -/
def Hinted (block : List Bytes) (e : SseEvent) : Prop :=
  ∀ r, e.retryMs = some r →
    0 ≤ r.toInt ∧ ∃ digits, lastRetry block = some digits ∧ (digitsValue 0 digits < 2 ^ 31 → r.toInt = digitsValue 0 digits)

/-- The value keeps its sign: saturated to 63 bits it is below `2 ^ 31` modulo `2 ^ 32`. -/
def FitsInt (digits : Bytes) : Prop := min (digitsValue 0 digits) (2 ^ 63 - 1) % 2 ^ 32 < 2 ^ 31

/-- The hints of the stream keep their sign. -/
def HintsFit (stream : Bytes) : Prop := ∀ block ∈ eventBlocks stream, ∀ digits, lastRetry block = some digits → FitsInt digits

theorem digits_of_lastRetry {block : List Bytes} {digits : Bytes} (h : lastRetry block = some digits) :
    digits ≠ [] ∧ ∀ b ∈ digits, isDigit b = true := by
  obtain ⟨line, -, hline⟩ := List.mem_filterMap.1 (List.mem_of_getLast? h)
  unfold retryDigits at hline
  split at hline
  · rename_i hcheck
    cases hline
    simpa using (Bool.and_eq_true_iff.1 hcheck).2
  · cases hline

theorem atoi_fits {digits : Bytes} (hne : digits ≠ []) (hdigits : ∀ b ∈ digits, isDigit b = true) :
    (0 ≤ (atoi digits).toInt ↔ FitsInt digits) ∧ (digitsValue 0 digits < 2 ^ 31 → (atoi digits).toInt = digitsValue 0 digits) := by
  rw [toInt_atoi_digits hne hdigits, Int.bmod_def]
  unfold FitsInt
  omega

/-- **One hint is as it must be exactly when it keeps its sign.** -/
theorem hinted_iff {block : List Bytes} {e : SseEvent} (h : e.retryMs = (lastRetry block).map atoi) :
    Hinted block e ↔ ∀ digits, lastRetry block = some digits → FitsInt digits := by
  unfold Hinted
  rw [h]
  cases hlast : lastRetry block with
  | none => simp
  | some digits =>
    obtain ⟨hne, hdigits⟩ := digits_of_lastRetry hlast
    obtain ⟨hsign, hvalue⟩ := atoi_fits hne hdigits
    constructor
    · rintro hhinted _ ⟨⟩
      exact hsign.1 (hhinted _ rfl).1
    · rintro hfits _ ⟨⟩
      exact ⟨hsign.2 (hfits digits rfl), digits, rfl, hvalue⟩

/-! ## Connections -/

/-- What `run_sse_once` reads from one connection, and the session id after it. -/
structure Connection where
  reads : List Bytes
  sessionId : Bytes := []
  nonempty : ∀ chunk ∈ reads, chunk ≠ []

/-- What comes after the head, if that announces events. -/
def sseBody (buffer : Bytes) : List Bytes → Bytes
  | [] => []
  | chunk :: reads =>
    match parseHead false (buffer ++ chunk) with
    | .incomplete => sseBody (buffer ++ chunk) reads
    | .malformed _ => []
    | .parsed head consumed =>
      if head.status ≠ 200 ∨ head.headerContains (bytes "content-type") (bytes "text/event-stream") = false then []
      else (buffer ++ chunk).drop consumed ++ reads.flatten

namespace Connection

def body (k : Connection) : Bytes := sseBody [] k.reads

/-- The events of the loop. -/
def events (k : Connection) : List SseEvent := getEvents (.head []) k.reads

end Connection

theorem getEvents_body : ∀ {reads : List Bytes}, (∀ chunk ∈ reads, chunk ≠ []) → ∀ buffer : Bytes,
    getEvents (.head buffer) reads = (({} : SseParser).feed (sseBody buffer reads)).2
  | [], _, buffer => by rfl
  | chunk :: reads, h, buffer => by
    have hne : ∀ x ∈ reads, x ≠ [] := fun x hx => h x (List.mem_cons_of_mem chunk hx)
    rw [getEvents.eq_4 _ _ _ (h chunk List.mem_cons_self), sseBody]
    cases parseHead false (buffer ++ chunk) with
    | incomplete => exact getEvents_body hne (buffer ++ chunk)
    | malformed e => rfl
    | parsed head consumed =>
      simp only
      split
      · rfl
      · exact getEvents_flatten hne {} _

namespace Sse

/-- One round of `sse_loop`: the connection, and what it leaves. -/
def Client.round (c : Client) (k : Connection) : Client :=
  { Client.reads { c with connection := some (0, .head []) } k.reads with connection := none }

/-- The delays `sse_loop` gives `poll_readable`: after a connection with events, a warm-up attempt, or a failure. -/
def Client.delays (maxReconnectAttempts : Int) (failures : Nat) (c : Client) : List Connection → List Int32
  | [] => []
  | k :: connections =>
    if k.events ≠ [] then (c.round k).retryMs :: (c.round k).delays maxReconnectAttempts 0 connections
    else if k.sessionId = [] then 200 :: (c.round k).delays maxReconnectAttempts failures connections
    else if 0 < maxReconnectAttempts ∧ maxReconnectAttempts ≤ failures + 1 then []
    else (c.round k).retryMs :: (c.round k).delays maxReconnectAttempts (failures + 1) connections

theorem Client.round_events (c : Client) (k : Connection) : c.round k = k.events.foldl take { c with connection := none } :=
  reads_events (c := { c with connection := some (0, .head []) }) k.nonempty rfl

theorem foldl_take_nonneg : ∀ {events : List SseEvent} {c : Client}, 0 ≤ c.retryMs.toInt →
    (∀ e ∈ events, ∀ r, e.retryMs = some r → 0 ≤ r.toInt) → 0 ≤ (events.foldl Client.take c).retryMs.toInt
  | [], c, hc, _ => hc
  | e :: events, c, hc, h => by
    have htake : 0 ≤ (c.take e).retryMs.toInt := by
      show 0 ≤ (e.retryMs.getD c.retryMs).toInt
      cases hr : e.retryMs with
      | none => exact hc
      | some r => exact h e List.mem_cons_self r hr
    rw [List.foldl_cons]
    exact foldl_take_nonneg htake (fun x hx => h x (List.mem_cons_of_mem e hx))

theorem delays_nonneg (maxReconnectAttempts : Int) : ∀ {connections : List Connection} {failures : Nat} {c : Client},
    0 ≤ c.retryMs.toInt → (∀ k ∈ connections, ∀ e ∈ k.events, ∀ r, e.retryMs = some r → 0 ≤ r.toInt) →
      ∀ d ∈ c.delays maxReconnectAttempts failures connections, 0 ≤ d.toInt
  | [], failures, c, _, _, d, hd => absurd hd List.not_mem_nil
  | k :: connections, failures, c, hc, h, d, hd => by
    have hround : 0 ≤ (c.round k).retryMs.toInt := by
      rw [Client.round_events]
      exact foldl_take_nonneg hc (h k List.mem_cons_self)
    have hrest : ∀ failures, ∀ d ∈ (c.round k).delays maxReconnectAttempts failures connections, 0 ≤ d.toInt :=
      fun failures => delays_nonneg maxReconnectAttempts hround (fun x hx => h x (List.mem_cons_of_mem k hx))
    rw [Client.delays] at hd
    split at hd
    · rcases List.mem_cons.1 hd with rfl | hd
      · exact hround
      · exact hrest _ d hd
    · split at hd
      · rcases List.mem_cons.1 hd with rfl | hd
        · decide
        · exact hrest _ d hd
      · split at hd
        · cases hd
        · rcases List.mem_cons.1 hd with rfl | hd
          · exact hround
          · exact hrest _ d hd

end Sse

theorem Connection.eventBlocks (k : Connection) :
    List.Forall₂ (fun block e => e.retryMs = (lastRetry block).map atoi) (Mcp.eventBlocks k.body) k.events := by
  unfold events
  rw [getEvents_body k.nonempty]
  exact feed_eventBlocks k.body

/-- **The hints are as they must be**: every event's in every connection, and so no delay is negative. -/
structure HintsSound (connections : List Connection) : Prop where
  events : ∀ k ∈ connections, List.Forall₂ Hinted (eventBlocks k.body) k.events
  delays : ∀ (maxReconnectAttempts : Int) (reconnectDelay : Int32), 0 ≤ reconnectDelay.toInt →
    ∀ d ∈ Sse.Client.delays maxReconnectAttempts 0 { retryMs := reconnectDelay } connections, 0 ≤ d.toInt

theorem forall₂_hinted_iff : ∀ {bs : List (List Bytes)} {events : List SseEvent},
    List.Forall₂ (fun block e => e.retryMs = (lastRetry block).map atoi) bs events →
      (List.Forall₂ Hinted bs events ↔ ∀ block ∈ bs, ∀ digits, lastRetry block = some digits → FitsInt digits)
  | _, _, .nil => by simp
  | _, _, .cons h rest => by rw [List.forall₂_cons, hinted_iff h, forall₂_hinted_iff rest, List.forall_mem_cons]

theorem nonneg_of_hinted : ∀ {bs : List (List Bytes)} {events : List SseEvent}, List.Forall₂ Hinted bs events →
    ∀ e ∈ events, ∀ r, e.retryMs = some r → 0 ≤ r.toInt
  | _, _, .nil, e, he => absurd he List.not_mem_nil
  | _, _, .cons h rest, e, he => by
    rcases List.mem_cons.1 he with rfl | he
    · exact fun r hr => (h r hr).1
    · exact nonneg_of_hinted rest e he

/-- **The hints are sound exactly when each keeps its sign as an `int`.** -/
theorem hintsSound_iff (connections : List Connection) : HintsSound connections ↔ ∀ k ∈ connections, HintsFit k.body := by
  constructor
  · intro hsound k hk
    exact (forall₂_hinted_iff k.eventBlocks).1 (hsound.events k hk)
  · intro hfits
    have hevents : ∀ k ∈ connections, List.Forall₂ Hinted (eventBlocks k.body) k.events :=
      fun k hk => (forall₂_hinted_iff k.eventBlocks).2 (hfits k hk)
    exact ⟨hevents, fun maxReconnectAttempts reconnectDelay hdelay =>
      Sse.delays_nonneg maxReconnectAttempts hdelay (fun k hk => nonneg_of_hinted (hevents k hk))⟩

def sseLines : List Bytes := [bytes "HTTP/1.1 200 OK", bytes "Content-Type: text/event-stream"]

/-- A reply with the hint `2147483648`. -/
def largeHint : Connection where
  reads := [headBytes sseLines ++ bytes "retry: 2147483648\n\n"]
  nonempty := by decide

/-- **A hint of `2 ^ 31` becomes a negative delay**, and `poll_readable` waits for good. -/
theorem largeHint_negative :
    largeHint.events = [{ retryMs := some Int32.minValue }] ∧
      Sse.Client.delays 0 0 { retryMs := 1000 } [largeHint] = [Int32.minValue] ∧ ¬ HintsSound [largeHint] := by
  have hframed : Framed sseLines := ⟨List.cons_ne_nil _ _, by decide⟩
  have hhead : parseHead false (headBytes sseLines ++ bytes "retry: 2147483648\n\n") =
      .parsed { status := 200, reason := bytes "OK", headers := headerDict ∅ sseLines.tail } (headBytes sseLines).length := by
    rw [parseHead_framed hframed]
    exact parseHead_lines hframed (by decide) false
  have hbody : sseBody [] largeHint.reads = bytes "retry: 2147483648\n\n" := by
    show sseBody [] [headBytes sseLines ++ bytes "retry: 2147483648\n\n"] = _
    rw [sseBody, List.nil_append, hhead]
    simp only
    rw [if_neg (by decide), List.drop_left]
    rfl
  have hevents : largeHint.events = [{ retryMs := some Int32.minValue }] := by
    unfold Connection.events
    rw [getEvents_body largeHint.nonempty, hbody]
    decide
  have hdelays : Sse.Client.delays 0 0 { retryMs := 1000 } [largeHint] = [Int32.minValue] := by
    rw [Sse.Client.delays, if_pos (by rw [hevents]; exact List.cons_ne_nil _ _), Sse.Client.round_events, hevents]
    rfl
  refine ⟨hevents, hdelays, fun hsound => ?_⟩
  have hnonneg := hsound.delays 0 1000 (by decide) Int32.minValue (by rw [hdelays]; exact List.mem_cons_self)
  exact absurd hnonneg (by decide)

end Mcp
