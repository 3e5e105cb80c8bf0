import McpSdk.HttpHead
/-!
# Sse — events on the wire and the incremental parser

`formatSseEvent` writes one line a field and an empty line; `SseParser.feed` takes what has arrived, wherever it was
cut (`feed_append`).  An event comes out with its empty line and not before, so a prefix of formatted events gives
exactly the events it holds whole (`feed_prefix`).
-/
namespace Mcp

structure SseEvent where
  id : Option Bytes := none
  event : Option Bytes := none
  data : Bytes := []
  retryMs : Option Int32 := none
  deriving DecidableEq

def sseLine (field value : Bytes) : Bytes := field ++ bytes ": " ++ value

/-- The lines of an event: `data` once for each line of its data. -/
def SseEvent.lines (e : SseEvent) : List Bytes :=
  (e.retryMs.map fun r => sseLine (bytes "retry") (decimalInt r.toInt)).toList ++
    (e.event.map fun name => sseLine (bytes "event") name).toList ++
    (e.id.map fun id => sseLine (bytes "id") id).toList ++
    (e.data.splitOn 10).map (sseLine (bytes "data"))

def unlines (lines : List Bytes) : Bytes := lines.flatMap (fun line => line ++ [10])

def formatSseEvent (e : SseEvent) : Bytes := unlines e.lines ++ [10]

/-- The event under way. -/
structure SseFields where
  current : SseEvent := {}
  anyField : Bool := false

structure SseParser extends SseFields where
  buffer : Bytes := []

/-- The field name and the value of a line, without the blank after the colon. -/
def splitField (line : Bytes) : Bytes × Bytes :=
  match Search.indexOf [ch ':'] line with
  | none => (line, [])
  | some colon =>
    let value := line.drop (colon + 1)
    (line.take colon, if value.head? = some (ch ' ') then value.drop 1 else value)

/-- A field line. -/
def takeField (f : SseFields) (field value : Bytes) : SseFields :=
  if field = bytes "data" then
    let data := if f.anyField && !f.current.data.isEmpty then f.current.data ++ [10] else f.current.data
    { current := { f.current with data := data ++ value }, anyField := true }
  else if field = bytes "id" then { current := { f.current with id := some value }, anyField := true }
  else if field = bytes "event" then { current := { f.current with event := some value }, anyField := true }
  else if field = bytes "retry" then
    if !value.isEmpty && value.all isDigit then
      { current := { f.current with retryMs := some (atoi value) }, anyField := true }
    else f
  else f

/-- `SseParser::take_line`, and the event it completes. -/
def takeLine (f : SseFields) (line : Bytes) : SseFields × List SseEvent :=
  match line with
  | [] => ({}, if f.anyField then [f.current] else [])
  | b :: _ =>
    if b = ch ':' then (f, [])
    else (takeField f (splitField line).1 (splitField line).2, [])

/-- The lines in turn, each without its `\r`. -/
def takeLines (f : SseFields) : List Bytes → SseFields × List SseEvent
  | [] => (f, [])
  | line :: lines =>
    ((takeLines (takeLine f (stripCr line)).1 lines).1,
      (takeLine f (stripCr line)).2 ++ (takeLines (takeLine f (stripCr line)).1 lines).2)

def SseParser.feed (p : SseParser) (data : Bytes) : SseParser × List SseEvent :=
  let cut := Search.drain 10 (p.buffer ++ data)
  ({ toSseFields := (takeLines p.toSseFields cut.1).1, buffer := cut.2 }, (takeLines p.toSseFields cut.1).2)

/-! ## Feeding in pieces -/

theorem takeLines_append : ∀ (f : SseFields) (a b : List Bytes),
    takeLines f (a ++ b) = ((takeLines (takeLines f a).1 b).1, (takeLines f a).2 ++ (takeLines (takeLines f a).1 b).2)
  | f, [], b => rfl
  | f, line :: a, b => by
    rw [List.cons_append, takeLines, takeLines_append _ a b]
    simp only [takeLines, List.append_assoc]

/-- **What arrives in two pieces is parsed as if it arrived in one.** -/
theorem SseParser.feed_append (p : SseParser) (a b : Bytes) :
    p.feed (a ++ b) = (((p.feed a).1.feed b).1, (p.feed a).2 ++ ((p.feed a).1.feed b).2) := by
  unfold feed
  rw [← List.append_assoc, Search.drain_append (p.buffer ++ a) b]
  simp only [takeLines_append]

/-- Only an empty line completes an event. -/
theorem takeLine_silent {f : SseFields} {line : Bytes} (h : line ≠ []) : (takeLine f line).2 = [] := by
  obtain ⟨b, t, rfl⟩ := List.exists_cons_of_ne_nil h
  unfold takeLine
  split
  · rename_i he
    cases he
  · split <;> rfl

theorem takeLines_silent : ∀ {lines : List Bytes} {f : SseFields}, (∀ line ∈ lines, stripCr line ≠ []) →
    (takeLines f lines).2 = []
  | [], _, _ => rfl
  | line :: lines, f, h => by
    rw [takeLines, takeLine_silent (h line List.mem_cons_self),
      takeLines_silent (fun x hx => h x (List.mem_cons_of_mem line hx))]
    rfl

theorem drain_unlines : ∀ {lines : List Bytes}, (∀ line ∈ lines, (10 : UInt8) ∉ line) → ∀ t,
    Search.drain 10 (unlines lines ++ t) = (lines ++ (Search.drain 10 t).1, (Search.drain 10 t).2)
  | [], _, _ => rfl
  | line :: lines, h, t => by
    have ih := drain_unlines (fun x hx => h x (List.mem_cons_of_mem line hx)) t
    show Search.drain 10 (line ++ [10] ++ unlines lines ++ t) = _
    rw [List.append_assoc, List.append_assoc, List.singleton_append,
      Search.drain_line (h line List.mem_cons_self), ih]
    rfl

/-! ## Whole events -/

/-- **The lines of one event**: none is empty or has a line end, and with the empty line they complete `e`. -/
structure EventLines (lines : List Bytes) (e : SseEvent) : Prop where
  line : ∀ line ∈ lines, (10 : UInt8) ∉ line
  nonempty : ∀ line ∈ lines, stripCr line ≠ []
  completes : takeLines {} (lines ++ [[]]) = ({}, [e])

/-- An event's text leaves the parser as it was. -/
theorem EventLines.feed {lines : List Bytes} {e : SseEvent} (h : EventLines lines e) :
    ({} : SseParser).feed (unlines lines ++ [10]) = ({}, [e]) := by
  have hcut : Search.drain 10 (([] : Bytes) ++ (unlines lines ++ [10])) = (lines ++ [[]], []) := by
    rw [List.nil_append, drain_unlines h.line]
    rfl
  unfold SseParser.feed
  dsimp only
  rw [hcut, h.completes]

/-- Before its empty line an event does not come out. -/
theorem EventLines.feed_prefix {lines : List Bytes} {e : SseEvent} (h : EventLines lines e) {q : Bytes}
    (hq : q <+: unlines lines) : (({} : SseParser).feed q).2 = [] := by
  obtain ⟨r, hr⟩ := hq
  have hcut : Search.drain 10 (q ++ r) = (lines, []) := by
    rw [hr, ← List.append_nil (unlines lines), drain_unlines h.line]
    exact congrArg (·, []) (List.append_nil lines)
  rw [Search.drain_append] at hcut
  refine takeLines_silent (fun line hline => h.nonempty line ?_)
  have hlines : (Search.drain 10 q).1 ++ _ = lines := congrArg Prod.fst hcut
  rw [← hlines]
  exact List.mem_append_left _ hline

/-- **A prefix of formatted events gives exactly the events it holds whole.** -/
theorem feed_prefix : ∀ {events : List (List Bytes × SseEvent)}, (∀ x ∈ events, EventLines x.1 x.2) →
    ∀ {q : Bytes}, q <+: events.flatMap (fun x => unlines x.1 ++ [10]) →
      ∃ k ≤ events.length, (({} : SseParser).feed q).2 = (events.take k).map Prod.snd
  | [], _, q, hq => by
    rw [List.prefix_nil.1 hq]
    exact ⟨0, Nat.le_refl 0, rfl⟩
  | (lines, e) :: events, h, q, hq => by
    have he := h _ List.mem_cons_self
    rw [List.flatMap_cons] at hq
    rcases Nat.lt_or_ge q.length (unlines lines ++ [10]).length with hlt | hge
    · -- the empty line of the first event is not there yet
      have hbody : q <+: unlines lines := by
        have hq' : q <+: unlines lines ++ [10] := List.prefix_of_prefix_length_le hq (List.prefix_append _ _) (Nat.le_of_lt hlt)
        rw [List.length_append, List.length_singleton] at hlt
        exact List.prefix_of_prefix_length_le hq' (List.prefix_append _ _) (Nat.lt_succ_iff.1 hlt)
      exact ⟨0, Nat.zero_le _, he.feed_prefix hbody⟩
    · obtain ⟨q', rfl⟩ : unlines lines ++ [10] <+: q := List.prefix_of_prefix_length_le (List.prefix_append _ _) hq hge
      obtain ⟨k, hk, hfeed⟩ := feed_prefix (fun x hx => h x (List.mem_cons_of_mem _ hx)) ((List.prefix_append_right_inj _).1 hq)
      refine ⟨k + 1, Nat.succ_le_succ hk, ?_⟩
      rw [SseParser.feed_append, he.feed, hfeed]
      rfl

/-! ## Formatted events -/

/-- Without a line end. -/
def Plain (s : Bytes) : Prop := (10 : UInt8) ∉ s ∧ (13 : UInt8) ∉ s

instance (s : Bytes) : Decidable (Plain s) := inferInstanceAs (Decidable (_ ∧ _))

theorem Plain.append {s t : Bytes} (hs : Plain s) (ht : Plain t) : Plain (s ++ t) :=
  ⟨fun h => (List.mem_append.1 h).elim hs.1 ht.1, fun h => (List.mem_append.1 h).elim hs.2 ht.2⟩

theorem Plain.stripCr {s : Bytes} (h : Plain s) : stripCr s = s :=
  if_neg fun hl => h.2 (List.mem_of_getLast? hl)

theorem isDigit_plain {s : Bytes} (h : ∀ b ∈ s, isDigit b = true) : Plain s :=
  ⟨fun hm => absurd (h _ hm) (by decide), fun hm => absurd (h _ hm) (by decide)⟩

theorem plain_decimal (n : Nat) : Plain (decimal n) := isDigit_plain (fun _ => isDigit_of_mem_decimal)

theorem plain_decimalInt (n : Int) : Plain (decimalInt n) := by
  unfold decimalInt
  split
  · exact Plain.append (s := [ch '-']) (by decide) (plain_decimal _)
  · exact plain_decimal _

theorem plain_field : Plain (bytes "retry") ∧ Plain (bytes "id") ∧ Plain (bytes "data") := by
  decide

theorem plain_sseLine {field value : Bytes} (hf : Plain field) (hv : Plain value) : Plain (sseLine field value) :=
  (hf.append (by decide)).append hv

theorem takeLine_sseLine {field : Bytes} (hf : field ≠ []) (hcolon : ch ':' ∉ field) (value : Bytes) (f : SseFields) :
    takeLine f (sseLine field value) = (takeField f field value, []) := by
  have hline : sseLine field value = field ++ ch ':' :: (ch ' ' :: value) := by
    simp [sseLine, show bytes ": " = [ch ':', ch ' '] from rfl]
  have hsplit : splitField (sseLine field value) = (field, value) := by
    unfold splitField
    rw [hline, Search.indexOf_singleton hcolon]
    simp
  obtain ⟨b, t, hb⟩ := List.exists_cons_of_ne_nil hf
  have hbc : b ≠ ch ':' := fun he => hcolon (by rw [hb, he]; exact List.mem_cons_self)
  unfold takeLine
  rw [hsplit, hline, hb]
  exact if_neg hbc

/-- What the parser makes of an event's text: no negative `retry`, and no empty lines in front of the data. -/
def SseEvent.received (e : SseEvent) : SseEvent :=
  { e with retryMs := e.retryMs.filter (fun r => 0 ≤ r.toInt), data := e.data.dropWhile (· == 10) }

/-- The fields fit on their lines. -/
structure SseEvent.Formattable (e : SseEvent) : Prop where
  event : ∀ name, e.event = some name → Plain name
  id : ∀ id, e.id = some id → Plain id
  data : (13 : UInt8) ∉ e.data

/-- The data after more `data` lines. -/
def joinData (data : Bytes) (lines : List Bytes) : Bytes :=
  lines.foldl (fun data line => if data.isEmpty then line else data ++ 10 :: line) data

theorem joinData_of_ne_nil : ∀ (lines : List Bytes) {data : Bytes}, data ≠ [] →
    joinData data lines = data ++ lines.flatMap (10 :: ·)
  | [], data, _ => (List.append_nil data).symm
  | line :: lines, data, h => by
    have hempty : data.isEmpty = false := by simpa using h
    have hne : data ++ 10 :: line ≠ [] := by simp
    have ih := joinData_of_ne_nil lines hne
    unfold joinData at ih ⊢
    rw [List.foldl_cons, hempty, if_neg (by decide), ih]
    simp

theorem flatMap_splitOn : ∀ data : Bytes, (data.splitOn 10).flatMap (10 :: ·) = 10 :: data
  | [] => rfl
  | b :: data => by
    have ih := flatMap_splitOn data
    rw [List.splitOn_cons_eq_if_modifyHead]
    by_cases hb : b = 10
    · rw [if_pos (by simpa using hb), List.flatMap_cons, ih, hb]
      rfl
    · rw [if_neg (by simpa using hb)]
      obtain ⟨line, lines, hlines⟩ := List.exists_cons_of_ne_nil (List.splitOn_ne_nil 10 data)
      rw [hlines] at ih ⊢
      simpa using ih

/-- **Data lines lose the empty ones in front.** -/
theorem joinData_splitOn : ∀ data : Bytes, joinData [] (data.splitOn 10) = data.dropWhile (· == 10)
  | [] => rfl
  | b :: data => by
    rw [List.splitOn_cons_eq_if_modifyHead]
    by_cases hb : b = 10
    · rw [if_pos (by simpa using hb), List.dropWhile_cons_of_pos (by simpa using hb), ← joinData_splitOn data]
      rfl
    · rw [if_neg (by simpa using hb), List.dropWhile_cons_of_neg (by simpa using hb)]
      have hflat := flatMap_splitOn data
      obtain ⟨line, lines, hlines⟩ := List.exists_cons_of_ne_nil (List.splitOn_ne_nil 10 data)
      rw [hlines] at hflat ⊢
      show joinData (b :: line) lines = b :: data
      rw [joinData_of_ne_nil lines (List.cons_ne_nil b line)]
      simpa using hflat

theorem mem_splitOn : ∀ {data line : Bytes}, line ∈ data.splitOn 10 → ∀ b ∈ line, b ∈ data ∧ b ≠ 10
  | [], line, hline, b, hb => by
    rw [List.mem_singleton.1 hline] at hb
    cases hb
  | x :: data, line, hline, b, hb => by
    rw [List.splitOn_cons_eq_if_modifyHead] at hline
    by_cases hx : x = 10
    · rw [if_pos (by simpa using hx)] at hline
      rcases List.mem_cons.1 hline with rfl | hline
      · cases hb
      · obtain ⟨hmem, hne⟩ := mem_splitOn hline b hb
        exact ⟨List.mem_cons_of_mem x hmem, hne⟩
    · rw [if_neg (by simpa using hx)] at hline
      have ih := @mem_splitOn data
      obtain ⟨first, rest, hsplit⟩ := List.exists_cons_of_ne_nil (List.splitOn_ne_nil 10 data)
      rw [hsplit] at hline ih
      rcases List.mem_cons.1 hline with rfl | hline
      · rcases List.mem_cons.1 hb with rfl | hb
        · exact ⟨List.mem_cons_self, hx⟩
        · obtain ⟨hmem, hne⟩ := ih List.mem_cons_self b hb
          exact ⟨List.mem_cons_of_mem x hmem, hne⟩
      · obtain ⟨hmem, hne⟩ := ih (List.mem_cons_of_mem first hline) b hb
        exact ⟨List.mem_cons_of_mem x hmem, hne⟩

/-- A field line among others. -/
theorem takeLines_field {field value : Bytes} (hfield : field ≠ []) (hcolon : ch ':' ∉ field) (hf : Plain field)
    (hv : Plain value) (f : SseFields) (lines : List Bytes) :
    takeLines f (sseLine field value :: lines) = takeLines (takeField f field value) lines := by
  rw [takeLines, (plain_sseLine hf hv).stripCr, takeLine_sseLine hfield hcolon]
  rfl

theorem takeLines_data : ∀ {lines : List Bytes} (f : SseFields) (rest : List Bytes), (∀ line ∈ lines, Plain line) → lines ≠ [] →
    (f.current.data ≠ [] → f.anyField = true) →
    takeLines f (lines.map (sseLine (bytes "data")) ++ rest) =
      takeLines { current := { f.current with data := joinData f.current.data lines }, anyField := true } rest
  | line :: lines, f, rest, h, _, hany => by
    have hline := takeLines_field (show bytes "data" ≠ [] by decide) (by decide) plain_field.2.2 (h line List.mem_cons_self) f
      (lines.map (sseLine (bytes "data")) ++ rest)
    have htake : takeField f (bytes "data") line =
        { current := { f.current with data := joinData f.current.data [line] }, anyField := true } := by
      by_cases hdata : f.current.data = []
      · simp [takeField, hdata, joinData]
      · simp [takeField, hdata, hany hdata, joinData]
    rw [List.map_cons, List.cons_append, hline, htake]
    cases lines with
    | nil => rfl
    | cons next lines =>
      rw [takeLines_data _ rest (fun x hx => h x (List.mem_cons_of_mem line hx)) (List.cons_ne_nil next lines) (fun _ => rfl)]
      rfl

theorem takeField_retry (f : SseFields) (r : Int32) :
    (takeField f (bytes "retry") (decimalInt r.toInt)).current =
      { f.current with retryMs := ((some r).filter (fun r => 0 ≤ r.toInt)).or f.current.retryMs } := by
  have htake : takeField f (bytes "retry") (decimalInt r.toInt) =
      if !(decimalInt r.toInt).isEmpty && (decimalInt r.toInt).all isDigit then
        { current := { f.current with retryMs := some (atoi (decimalInt r.toInt)) }, anyField := true }
      else f := rfl
  by_cases hr : 0 ≤ r.toInt
  · have hdecimal : decimalInt r.toInt = decimal r.toInt.natAbs := if_neg (by omega)
    have hdigits : (!(decimalInt r.toInt).isEmpty && (decimalInt r.toInt).all isDigit) = true := by
      rw [hdecimal]
      simp only [Bool.and_eq_true, Bool.not_eq_true', List.isEmpty_eq_false_iff, List.all_eq_true]
      exact ⟨decimal_ne_nil _, fun b hb => isDigit_of_mem_decimal hb⟩
    rw [htake, hdigits, if_pos rfl, atoi_decimalInt hr]
    simp [Option.filter, hr]
  · have hminus : decimalInt r.toInt = ch '-' :: decimal r.toInt.natAbs := if_pos (by omega)
    have hdigits : (!(decimalInt r.toInt).isEmpty && (decimalInt r.toInt).all isDigit) = false := by
      rw [hminus]
      rfl
    rw [htake, hdigits, if_neg (by decide)]
    simp [Option.filter, hr]

theorem SseEvent.Formattable.plain_lines {e : SseEvent} (h : e.Formattable) : ∀ line ∈ e.lines, Plain line ∧ line ≠ [] := by
  intro line hline
  simp only [SseEvent.lines, List.mem_append, Option.mem_toList, Option.map_eq_some_iff, List.mem_map] at hline
  rcases hline with ((⟨r, -, rfl⟩ | ⟨name, hname, rfl⟩) | ⟨id, hid, rfl⟩) | ⟨part, hpart, rfl⟩
  · exact ⟨plain_sseLine plain_field.1 (plain_decimalInt _), by simp [sseLine, bytes]⟩
  · exact ⟨plain_sseLine (by decide) (h.event name hname), by simp [sseLine, bytes]⟩
  · exact ⟨plain_sseLine plain_field.2.1 (h.id id hid), by simp [sseLine, bytes]⟩
  · have hpart' : Plain part :=
      ⟨fun hm => (mem_splitOn hpart 10 hm).2 rfl, fun hm => h.data (mem_splitOn hpart 13 hm).1⟩
    exact ⟨plain_sseLine plain_field.2.2 hpart', by simp [sseLine, bytes]⟩

/-- The lines of the optional fields. -/
theorem SseEvent.Formattable.takeLines_front {e : SseEvent} (h : e.Formattable) :
    ∃ f : SseFields, f.current = { e.received with data := [] } ∧
      ∀ rest, takeLines {} ((e.retryMs.map fun r => sseLine (bytes "retry") (decimalInt r.toInt)).toList ++
        (e.event.map fun name => sseLine (bytes "event") name).toList ++
        (e.id.map fun id => sseLine (bytes "id") id).toList ++ rest) = takeLines f rest := by
  obtain ⟨f₁, hf₁, hlines₁⟩ : ∃ f : SseFields, f.current = { retryMs := e.retryMs.filter (fun r => 0 ≤ r.toInt) } ∧
      ∀ rest, takeLines {} ((e.retryMs.map fun r => sseLine (bytes "retry") (decimalInt r.toInt)).toList ++ rest) =
        takeLines f rest := by
    cases e.retryMs with
    | none => exact ⟨{}, rfl, fun _ => rfl⟩
    | some r =>
      refine ⟨takeField {} (bytes "retry") (decimalInt r.toInt), ?_, fun rest => ?_⟩
      · rw [takeField_retry, Option.or_none]
      · exact takeLines_field (by decide) (by decide) plain_field.1 (plain_decimalInt _) {} rest
  obtain ⟨f₂, hf₂, hlines₂⟩ : ∃ f : SseFields, f.current = { f₁.current with event := e.event } ∧
      ∀ rest, takeLines f₁ ((e.event.map fun name => sseLine (bytes "event") name).toList ++ rest) = takeLines f rest := by
    cases hevent : e.event with
    | none => exact ⟨f₁, by rw [hf₁], fun _ => rfl⟩
    | some name =>
      refine ⟨takeField f₁ (bytes "event") name, rfl, fun rest => ?_⟩
      exact takeLines_field (by decide) (by decide) (by decide) (h.event name hevent) f₁ rest
  obtain ⟨f₃, hf₃, hlines₃⟩ : ∃ f : SseFields, f.current = { f₂.current with id := e.id } ∧
      ∀ rest, takeLines f₂ ((e.id.map fun id => sseLine (bytes "id") id).toList ++ rest) = takeLines f rest := by
    cases hid : e.id with
    | none => exact ⟨f₂, by rw [hf₂, hf₁], fun _ => rfl⟩
    | some id =>
      refine ⟨takeField f₂ (bytes "id") id, rfl, fun rest => ?_⟩
      exact takeLines_field (by decide) (by decide) plain_field.2.1 (h.id id hid) f₂ rest
  refine ⟨f₃, by rw [hf₃, hf₂, hf₁]; rfl, fun rest => ?_⟩
  rw [List.append_assoc, List.append_assoc, hlines₁, hlines₂, hlines₃]

/-- **An event's text gives one event back**: the event without what the parser drops. -/
theorem SseEvent.Formattable.eventLines {e : SseEvent} (h : e.Formattable) : EventLines e.lines e.received where
  line := fun line hline => (h.plain_lines line hline).1.1
  nonempty := fun line hline => by
    rw [(h.plain_lines line hline).1.stripCr]
    exact (h.plain_lines line hline).2
  completes := by
    obtain ⟨f, hf, hlines⟩ := h.takeLines_front
    have hplain : ∀ line ∈ e.data.splitOn 10, Plain line := fun line hline =>
      ⟨fun hm => (mem_splitOn hline 10 hm).2 rfl, fun hm => h.data (mem_splitOn hline 13 hm).1⟩
    have hdata : f.current.data = [] := by rw [hf]
    unfold SseEvent.lines
    rw [List.append_assoc, hlines, takeLines_data f [[]] hplain (List.splitOn_ne_nil 10 e.data) (fun hne => absurd hdata hne),
      hdata, joinData_splitOn, hf]
    rfl

/-- An event whose text reads back: an id, and data on one line. -/
structure SseEvent.Framed (e : SseEvent) : Prop where
  event : e.event = none
  id : ∃ id, e.id = some id ∧ Plain id
  data : Plain e.data

theorem SseEvent.Framed.formattable {e : SseEvent} (h : e.Framed) : e.Formattable where
  event := fun name hname => by
    rw [h.event] at hname
    cases hname
  id := fun id hid => by
    obtain ⟨id', hid', hplain⟩ := h.id
    rwa [Option.some.inj (hid.symm.trans hid')]
  data := h.data.2

theorem SseEvent.Framed.received_data {e : SseEvent} (h : e.Framed) : e.received.data = e.data := by
  unfold received
  cases hdata : e.data with
  | nil => rfl
  | cons b data =>
    have hb : b ≠ 10 := fun hb => h.data.1 (by rw [hdata, hb]; exact List.mem_cons_self)
    rw [List.dropWhile_cons_of_neg (by simpa using hb)]

/-- **A prefix of a formatted stream gives the data of a prefix of its events**, in order. -/
theorem feed_formatted {events : List SseEvent} (h : ∀ e ∈ events, e.Framed) {q : Bytes}
    (hq : q <+: events.flatMap formatSseEvent) :
    ∃ k ≤ events.length, (({} : SseParser).feed q).2.map SseEvent.data = (events.map SseEvent.data).take k := by
  have hlines : ∀ x ∈ events.map (fun e => (e.lines, e.received)), EventLines x.1 x.2 := by
    intro x hx
    obtain ⟨e, he, rfl⟩ := List.mem_map.1 hx
    exact (h e he).formattable.eventLines
  have htext : (events.map fun e => (e.lines, e.received)).flatMap (fun x => unlines x.1 ++ [10]) =
      events.flatMap formatSseEvent := List.flatMap_map ..
  have hdata : (events.map SseEvent.received).map SseEvent.data = events.map SseEvent.data := by
    rw [List.map_map]
    exact List.map_congr_left fun e he => (h e he).received_data
  obtain ⟨k, hk, hfeed⟩ := feed_prefix hlines (htext ▸ hq)
  refine ⟨k, by simpa using hk, ?_⟩
  rw [hfeed, ← hdata]
  simp only [List.map_take, List.map_map]
  rfl

end Mcp
