import McpSdk.SseChannel
import Mathlib.Data.List.Range
/-!
# SseTakeover — which stream collects which event

Any number of fresh streams (an empty `Last-Event-ID`) attach to one channel while events are enqueued.  Only the newest
stream collects, and its cursor is the watermark `next_undelivered_`, so the ids collected by all the streams together
increase.  The counters are 64-bit: this holds until an event id or a generation would come round again.
-/
namespace Mcp
namespace Takeover

open Sse (Stream)

/-- What happens to the events of a channel. -/
inductive Event where
  | enqueued (id : Nat)
  | evicted (id : Nat)
  | collected (stream : Nat) (ids : List Nat)

structure State where
  channel : SseChannel
  /-- What `enqueue` was given. -/
  enqueued : List Bytes := []
  log : List Event := []

/-- A stream that leaves its wait with events has collected them. -/
def collectedBy (i : Nat) : Stream → Stream → List Event
  | .wait .., .send _ _ pending => [.collected i (pending.map Item.id)]
  | _, _ => []

def advance (i : Nat) (s : State) (stream : Stream) : Option (State × Stream) :=
  (Sse.advance i { channel := s.channel } stream).map fun r =>
    ({ s with channel := r.1.channel, log := s.log ++ collectedBy i stream r.2 }, r.2)

def advanceFail (n i : Nat) (s : State) (stream : Stream) : Option (State × Stream) :=
  (Sse.advanceFail n i { channel := s.channel } stream).map fun r => ({ s with channel := r.1.channel }, r.2)

inductive Label where
  | enqueue (payload : Bytes)
  /-- A GET with an empty `Last-Event-ID` is attached. -/
  | attach
  | stream (i : Nat)
  | writeFails (i n : Nat)

def State.enqueue (s : State) (payload : Bytes) : State :=
  if s.channel.running then
    { channel := s.channel.enqueue payload
      enqueued := s.enqueued ++ [payload]
      log := s.log ++ .enqueued s.channel.nextEventId :: (s.channel.evicted payload).map (fun item => .evicted item.id) }
  else s

def step (p : Pool State Stream) : Label → Option (Pool State Stream)
  | .enqueue payload => some { p with shared := p.shared.enqueue payload }
  | .attach =>
    let (channel, stream) := Sse.attach p.shared.channel []
    some (p.spawn { p.shared with channel } stream)
  | .stream i => Pool.stepAt (advance i) p i
  | .writeFails i n => Pool.stepAt (advanceFail n i) p i

def init (replayBufferSize : Nat) (retryMs : Int32) : Pool State Stream := ⟨{ channel := { replayBufferSize, retryMs } }, []⟩

/-! ## The property -/

def Event.ids : Event → List (Nat × Nat)
  | .collected i ids => ids.map (fun id => (i, id))
  | _ => []

def Event.isCollection : Event → Bool
  | .collected .. => true
  | _ => false

/-- The ids collected, in order, each with its stream. -/
def collected (log : List Event) : List (Nat × Nat) := log.flatMap Event.ids

/-- The events as the ring numbers them. -/
def numbered (payloads : List Bytes) : List Item := payloads.mapIdx fun i data => ⟨i + 1, data⟩

/-- The event was popped before any stream collected after it was enqueued. -/
def Missed (id : Nat) (log : List Event) : Prop :=
  ∃ pre mid post, log = pre ++ .enqueued id :: (mid ++ .evicted id :: post) ∧ ∀ e ∈ mid, e.isCollection = false

structure Orderly (s : State) : Prop where
  /-- The ring is the last events, as many as fit. -/
  ring : s.channel.ring = (numbered s.enqueued).drop (s.enqueued.length - s.channel.replayBufferSize)
  size : s.channel.ring.length = min s.channel.replayBufferSize s.enqueued.length
  ids : s.channel.ring.map Item.id = List.range' (s.channel.nextEventId - s.channel.ring.length) s.channel.ring.length
  watermark : s.channel.nextUndelivered ≤ s.channel.nextEventId
  /-- No id is collected by two streams. -/
  once : ∀ i j id, (i, id) ∈ collected s.log → (j, id) ∈ collected s.log → i = j
  increasing : (collected s.log).Pairwise (fun a b => a.2 < b.2)
  missed : ∀ id, 1 ≤ id → id < s.channel.nextUndelivered → (∀ i, (i, id) ∉ collected s.log) → Missed id s.log

/-! ## Numbered events -/

@[simp] theorem length_numbered (E : List Bytes) : (numbered E).length = E.length := List.length_mapIdx

theorem numbered_append (E : List Bytes) (payload : Bytes) :
    numbered (E ++ [payload]) = numbered E ++ [⟨E.length + 1, payload⟩] := by
  simp [numbered, List.mapIdx_append]

theorem map_id_numbered (E : List Bytes) : (numbered E).map Item.id = List.range' 1 E.length := by
  apply List.ext_getElem (by simp)
  intro i h _
  simp [numbered, Nat.add_comm]

theorem map_id_drop (E : List Bytes) (k : Nat) :
    ((numbered E).drop k).map Item.id = List.range' (1 + k) (E.length - k) := by
  rw [List.map_drop, map_id_numbered, List.drop_range', Nat.mul_one]

theorem mem_drop_numbered {E : List Bytes} {k : Nat} {item : Item} (h : item ∈ (numbered E).drop k) :
    k < item.id ∧ item.id ≤ E.length := by
  have hid : item.id ∈ ((numbered E).drop k).map Item.id := List.mem_map_of_mem h
  rw [map_id_drop, List.mem_range'_1] at hid
  omega

theorem getLast?_drop {E : List Bytes} {k : Nat} {item : Item} (h : ((numbered E).drop k).getLast? = some item) :
    item.id = E.length := by
  have hlast : (((numbered E).drop k).map Item.id).getLast? = some item.id := by rw [List.getLast?_map, h]; rfl
  rw [map_id_drop, List.getLast?_range'] at hlast
  split at hlast
  · cases hlast
  · have := Option.some.inj hlast
    omega

/-- **What a stream collects** is the ring from its cursor on. -/
theorem filter_drop (E : List Bytes) (k w : Nat) :
    ((numbered E).drop k).filter (fun item => decide (w ≤ item.id)) = (numbered E).drop (k + (w - 1 - k)) := by
  have hbefore : (((numbered E).drop k).take (w - 1 - k)).filter (fun item => decide (w ≤ item.id)) = [] := by
    apply List.filter_eq_nil_iff.2
    intro item hitem
    have hid : item.id ∈ (((numbered E).drop k).take (w - 1 - k)).map Item.id := List.mem_map_of_mem hitem
    rw [List.map_take, map_id_drop] at hid
    obtain ⟨m, hm, hget⟩ := List.mem_take_iff_getElem.1 hid
    rw [List.length_range'] at hm
    rw [List.getElem_range', Nat.one_mul] at hget
    simp only [decide_eq_true_eq]
    omega
  have hafter : ((numbered E).drop (k + (w - 1 - k))).filter (fun item => decide (w ≤ item.id)) =
      (numbered E).drop (k + (w - 1 - k)) := by
    apply List.filter_eq_self.2
    intro item hitem
    have hlo := (mem_drop_numbered hitem).1
    exact decide_eq_true (by omega)
  calc ((numbered E).drop k).filter (fun item => decide (w ≤ item.id))
      = ((((numbered E).drop k).take (w - 1 - k)) ++ ((numbered E).drop k).drop (w - 1 - k)).filter
          (fun item => decide (w ≤ item.id)) := by rw [List.take_append_drop]
    _ = (numbered E).drop (k + (w - 1 - k)) := by rw [List.filter_append, hbefore, List.nil_append, List.drop_drop, hafter]

/-! ## Logs -/

theorem collected_append (l m : List Event) : collected (l ++ m) = collected l ++ collected m := List.flatMap_append

theorem collected_of_quiet {l : List Event} (h : ∀ e ∈ l, e.isCollection = false) : collected l = [] := by
  apply List.flatMap_eq_nil_iff.2
  intro e he
  cases e with
  | collected i ids => cases h _ he
  | _ => rfl

theorem Missed.append {id : Nat} {log : List Event} (h : Missed id log) (more : List Event) : Missed id (log ++ more) := by
  obtain ⟨pre, mid, post, rfl, hmid⟩ := h
  exact ⟨pre, mid, post ++ more, by simp, hmid⟩

/-! ## One section of a stream -/

/-- The generation and the cursor of a stream. -/
def holds : Stream → Option (Nat × Nat)
  | .done => none
  | .head g c _ | .initial g c _ | .wait g c | .send g c _ => some (g, c)

def cursorAfter (cursor : Nat) (pending : List Item) : Nat :=
  pending.getLast?.elim cursor (fun item => wrap64 (item.id + 1))

/-- **What a section of a stream does to the channel.** -/
inductive Section (i : Nat) (s : State) (stream : Stream) (s' : State) (next : Stream) : Prop
  | quiet (state : s' = s) (stands : ∀ h, holds next = some h → holds stream = some h)
  | collects (generation cursor : Nat) (stands : holds stream = some (generation, cursor))
      (newest : s.channel.streamGeneration = generation)
      (ready : ∃ item, s.channel.ring.getLast? = some item ∧ cursor ≤ item.id) (pending : List Item)
      (ring : pending = s.channel.ring.filter (fun item => decide (cursor ≤ item.id)))
      (state : s' = { s with
        channel := { s.channel with nextUndelivered := max s.channel.nextUndelivered (cursorAfter cursor pending) }
        log := s.log ++ [.collected i (pending.map Item.id)] })
      (next : holds next = some (generation, cursorAfter cursor pending))

theorem advance_section {i : Nat} {s s' : State} {stream next : Stream} (h : advance i s stream = some (s', next)) :
    Section i s stream s' next := by
  obtain ⟨⟨t, next⟩, hadv, heq⟩ := Option.map_eq_some_iff.1 h
  obtain ⟨rfl, rfl⟩ := Prod.mk.inj heq
  cases stream with
  | done => cases hadv
  | head g c lastAssigned | initial g c lastAssigned =>
    cases hadv
    exact .quiet (by simp [collectedBy, Sse.State.write]) (fun _ hh => hh)
  | send g c pending =>
    cases pending with
    | nil | cons item pending =>
      cases hadv
      exact .quiet (by simp [collectedBy, Sse.State.write]) (fun _ hh => hh)
  | wait g c =>
    simp only [Sse.advance, Stream.writing] at hadv
    by_cases hstop : s.channel.running = false ∨ s.channel.streamGeneration ≠ g
    · rw [if_pos hstop] at hadv
      cases hadv
      exact .quiet (by simp [collectedBy]) (fun _ hh => by cases hh)
    · rw [if_neg hstop] at hadv
      by_cases hready : s.channel.ring.getLast?.any (fun item => decide (c ≤ item.id)) = true
      · rw [if_pos hready] at hadv
        cases hadv
        obtain ⟨item, hlast, hle⟩ := (Option.any_eq_true _ _).1 hready
        exact .collects g c rfl (by_contra fun hne => hstop (.inr hne)) ⟨item, hlast, of_decide_eq_true hle⟩ _ rfl rfl rfl
      · rw [if_neg hready] at hadv
        cases hadv

theorem advanceFail_section {n i : Nat} {s s' : State} {stream next : Stream} (h : advanceFail n i s stream = some (s', next)) :
    s' = s ∧ next = .done := by
  obtain ⟨⟨t, next⟩, hadv, heq⟩ := Option.map_eq_some_iff.1 h
  obtain ⟨rfl, rfl⟩ := Prod.mk.inj heq
  obtain ⟨w, -, hw⟩ := Option.map_eq_some_iff.1 hadv
  obtain ⟨rfl, rfl⟩ := Prod.mk.inj hw
  exact ⟨rfl, rfl⟩

/-! ## The ring -/

/-- **The ring is the end of what was enqueued**, numbered from one. -/
structure Numbered (s : State) : Prop where
  next : s.channel.nextEventId = s.enqueued.length + 1
  ring : s.channel.ring = (numbered s.enqueued).drop (s.enqueued.length - s.channel.replayBufferSize)

namespace Numbered

variable {s : State}

theorem append (h : Numbered s) (payload : Bytes) :
    s.channel.ring ++ [(⟨s.channel.nextEventId, payload⟩ : Item)] =
      (numbered (s.enqueued ++ [payload])).drop (s.enqueued.length - s.channel.replayBufferSize) := by
  rw [numbered_append, List.drop_append_of_le_length (by rw [length_numbered]; omega), h.ring, h.next]

/-- What an enqueue pops is the oldest event, when the ring is full. -/
theorem map_id_evicted (h : Numbered s) (payload : Bytes) :
    (s.channel.evicted payload).map Item.id =
      if s.channel.replayBufferSize ≤ s.enqueued.length then
        [s.enqueued.length + 1 - s.channel.replayBufferSize] else [] := by
  unfold SseChannel.evicted
  simp only [h.append payload, List.map_take, map_id_drop, List.length_drop, length_numbered, List.length_append, List.length_singleton]
  by_cases hfull : s.channel.replayBufferSize ≤ s.enqueued.length
  · rw [if_pos hfull, List.take_range'_of_length_ge (by omega),
      show s.enqueued.length + 1 - (s.enqueued.length - s.channel.replayBufferSize) - s.channel.replayBufferSize = 1 by omega]
    simp only [List.range'_one]
    congr 1
    omega
  · rw [if_neg hfull, show s.enqueued.length + 1 - (s.enqueued.length - s.channel.replayBufferSize) -
      s.channel.replayBufferSize = 0 by omega, List.take_zero]

theorem channel_enqueue (h : Numbered s) (hrunning : s.channel.running = true) (payload : Bytes)
    (hsmall : s.enqueued.length + 2 < 2 ^ 64) :
    s.channel.enqueue payload = { s.channel with
      ring := (numbered (s.enqueued ++ [payload])).drop (s.enqueued.length + 1 - s.channel.replayBufferSize)
      nextEventId := s.enqueued.length + 2 } := by
  have hwrap : wrap64 (s.enqueued.length + 1 + 1) = s.enqueued.length + 2 := Nat.mod_eq_of_lt hsmall
  rw [SseChannel.enqueue, if_pos hrunning]
  dsimp only
  rw [h.append payload, h.next, hwrap, List.drop_drop, List.length_drop, length_numbered, List.length_append,
    List.length_singleton]
  congr 2
  omega

theorem state_enqueue (h : Numbered s) (hrunning : s.channel.running = true) (payload : Bytes) :
    s.enqueue payload =
      { channel := s.channel.enqueue payload
        enqueued := s.enqueued ++ [payload]
        log := s.log ++ .enqueued (s.enqueued.length + 1) :: ((s.channel.evicted payload).map Item.id).map .evicted } := by
  rw [State.enqueue, if_pos hrunning, h.next, List.map_map]
  rfl

theorem mem_pending (h : Numbered s) (cursor id : Nat) :
    id ∈ (s.channel.ring.filter (fun item => decide (cursor ≤ item.id))).map Item.id ↔
      s.enqueued.length - s.channel.replayBufferSize < id ∧ cursor ≤ id ∧ id ≤ s.enqueued.length := by
  rw [h.ring, filter_drop, map_id_drop, List.mem_range'_1]
  omega

end Numbered

theorem cursorAfter_drop {E : List Bytes} {k : Nat} (cursor : Nat) (hk : k < E.length) (hsmall : E.length + 1 < 2 ^ 64) :
    cursorAfter cursor ((numbered E).drop k) = E.length + 1 := by
  unfold cursorAfter
  cases hlast : ((numbered E).drop k).getLast? with
  | none =>
    have hlength := congrArg List.length (List.getLast?_eq_none_iff.1 hlast)
    rw [List.length_drop, length_numbered, List.length_nil] at hlength
    omega
  | some item =>
    rw [Option.elim_some, getLast?_drop hlast]
    exact Nat.mod_eq_of_lt hsmall

/-- A stream whose ring has an event from its cursor on moves behind the last event. -/
theorem Numbered.cursorAfter_pending {s : State} (h : Numbered s) {cursor : Nat}
    (hready : ∃ item, s.channel.ring.getLast? = some item ∧ cursor ≤ item.id) (hsmall : s.enqueued.length + 1 < 2 ^ 64) :
    cursor ≤ s.enqueued.length ∧ s.enqueued.length - s.channel.replayBufferSize < s.enqueued.length ∧
      cursorAfter cursor (s.channel.ring.filter (fun item => decide (cursor ≤ item.id))) = s.enqueued.length + 1 := by
  obtain ⟨item, hitem, hle⟩ := hready
  rw [h.ring] at hitem
  have hlength : cursor ≤ s.enqueued.length := getLast?_drop hitem ▸ hle
  have hkept := mem_drop_numbered (List.mem_of_getLast? hitem)
  refine ⟨hlength, by omega, ?_⟩
  rw [h.ring, filter_drop]
  exact cursorAfter_drop cursor (by omega) hsmall

/-! ## The invariant -/

structure Inv (p : Pool State Stream) : Prop where
  running : p.shared.channel.running = true
  next : p.shared.channel.nextEventId = p.shared.enqueued.length + 1
  ring : p.shared.channel.ring =
    (numbered p.shared.enqueued).drop (p.shared.enqueued.length - p.shared.channel.replayBufferSize)
  low : 1 ≤ p.shared.channel.nextUndelivered
  high : p.shared.channel.nextUndelivered ≤ p.shared.enqueued.length + 1
  generation : p.shared.channel.streamGeneration = wrap64 p.threads.length
  /-- The newest stream stands at the watermark. -/
  streams : ∀ j stream, p.threads[j]? = some stream → ∀ g c, holds stream = some (g, c) →
    g = wrap64 (j + 1) ∧ (j + 1 = p.threads.length → c = p.shared.channel.nextUndelivered)
  below : ∀ x ∈ collected p.shared.log, x.2 < p.shared.channel.nextUndelivered
  increasing : (collected p.shared.log).Pairwise (fun a b => a.2 < b.2)
  /-- Nothing was collected since the events from the watermark on were enqueued. -/
  fresh : ∀ id, p.shared.channel.nextUndelivered ≤ id → id ≤ p.shared.enqueued.length →
    ∃ pre mid, p.shared.log = pre ++ .enqueued id :: mid ∧ ∀ e ∈ mid, e.isCollection = false
  gone : ∀ id, p.shared.channel.nextUndelivered ≤ id →
    id + p.shared.channel.replayBufferSize ≤ p.shared.enqueued.length → Missed id p.shared.log
  covered : ∀ id, 1 ≤ id → id < p.shared.channel.nextUndelivered → (∀ i, (i, id) ∉ collected p.shared.log) →
    Missed id p.shared.log

/-- The counters have not come round. -/
def Small (p : Pool State Stream) : Prop := p.shared.enqueued.length + 1 < 2 ^ 64 ∧ p.threads.length ≤ 2 ^ 64

theorem inv_init (replayBufferSize : Nat) (retryMs : Int32) : Inv (init replayBufferSize retryMs) where
  running := rfl
  next := rfl
  ring := by simp [init, numbered]
  low := Nat.le_refl 1
  high := Nat.le_refl 1
  generation := rfl
  streams := fun _ _ h => by cases h
  below := fun _ h => by cases h
  increasing := List.Pairwise.nil
  fresh := fun id hlo hhi => absurd (Nat.le_trans hlo hhi) (Nat.not_succ_le_zero 0)
  gone := fun id hlo hhi => by
    have hone : 1 ≤ id := hlo
    have hzero : id + replayBufferSize ≤ 0 := hhi
    omega
  covered := fun id hlo hhi => absurd (Nat.lt_of_le_of_lt hlo hhi) (Nat.lt_irrefl 1)

theorem Inv.numbered {p : Pool State Stream} (h : Inv p) : Numbered p.shared := ⟨h.next, h.ring⟩

/-! ## Enqueue -/

theorem quiet_evicted (ids : List Nat) : ∀ e ∈ ids.map Event.evicted, e.isCollection = false := by
  intro e he
  obtain ⟨id, -, rfl⟩ := List.mem_map.1 he
  rfl

/-- The event enqueued is fresh, and what was stays so. -/
theorem Inv.fresh_append {p : Pool State Stream} (h : Inv p) {popped : List Event}
    (hpopped : ∀ e ∈ popped, e.isCollection = false) (id : Nat) (hlo : p.shared.channel.nextUndelivered ≤ id)
    (hhi : id ≤ p.shared.enqueued.length + 1) :
    ∃ pre mid, p.shared.log ++ .enqueued (p.shared.enqueued.length + 1) :: popped = pre ++ .enqueued id :: mid ∧
      ∀ e ∈ mid, e.isCollection = false := by
  by_cases hid : id ≤ p.shared.enqueued.length
  · obtain ⟨pre, mid, hlog, hmid⟩ := h.fresh id hlo hid
    refine ⟨pre, _, by rw [hlog, List.append_assoc, List.cons_append], fun e he => ?_⟩
    rcases List.mem_append.1 he with he | he
    · exact hmid e he
    · rcases List.mem_cons.1 he with rfl | he
      · rfl
      · exact hpopped e he
  · obtain rfl : id = p.shared.enqueued.length + 1 := by omega
    exact ⟨_, _, rfl, hpopped⟩

/-- **The event popped was fresh**, so no stream has collected it. -/
theorem Inv.gone_append {p : Pool State Stream} (h : Inv p) (payload : Bytes) (id : Nat)
    (hlo : p.shared.channel.nextUndelivered ≤ id)
    (hhi : id + p.shared.channel.replayBufferSize ≤ p.shared.enqueued.length + 1) :
    Missed id (p.shared.log ++ .enqueued (p.shared.enqueued.length + 1) ::
      ((p.shared.channel.evicted payload).map Item.id).map .evicted) := by
  have hlow := h.low
  by_cases hid : id + p.shared.channel.replayBufferSize ≤ p.shared.enqueued.length
  · exact (h.gone id hlo hid).append _
  · have hfull : p.shared.channel.replayBufferSize ≤ p.shared.enqueued.length := by omega
    obtain rfl : id = p.shared.enqueued.length + 1 - p.shared.channel.replayBufferSize := by omega
    rw [h.numbered.map_id_evicted payload, if_pos hfull]
    by_cases hzero : p.shared.channel.replayBufferSize = 0
    · -- a ring of no events pops the one enqueued
      rw [hzero, Nat.sub_zero]
      exact ⟨p.shared.log, [], [], rfl, fun e he => by cases he⟩
    · obtain ⟨pre, mid, hlog, hmid⟩ := h.fresh _ hlo (by omega)
      refine ⟨pre, mid ++ [.enqueued (p.shared.enqueued.length + 1)], [], ?_, fun e he => ?_⟩
      · rw [hlog]
        simp
      · rcases List.mem_append.1 he with he | he
        · exact hmid e he
        · rw [List.mem_singleton.1 he]
          rfl

theorem Inv.enqueue {p : Pool State Stream} (h : Inv p) (payload : Bytes) (hsmall : p.shared.enqueued.length + 2 < 2 ^ 64) :
    Inv { p with shared := p.shared.enqueue payload } := by
  have hpopped := quiet_evicted ((p.shared.channel.evicted payload).map Item.id)
  have hlength : (p.shared.enqueued ++ [payload]).length = p.shared.enqueued.length + 1 := by simp
  have hcollected : collected (p.shared.log ++ .enqueued (p.shared.enqueued.length + 1) ::
      ((p.shared.channel.evicted payload).map Item.id).map .evicted) = collected p.shared.log := by
    rw [collected_append, collected_of_quiet (List.forall_mem_cons.2 ⟨rfl, hpopped⟩), List.append_nil]
  rw [h.numbered.state_enqueue h.running payload, h.numbered.channel_enqueue h.running payload hsmall]
  exact {
    running := h.running
    next := by rw [hlength]
    ring := by rw [hlength]
    low := h.low
    high := by
      rw [hlength]
      exact Nat.le_succ_of_le h.high
    generation := h.generation
    streams := h.streams
    below := by
      rw [hcollected]
      exact h.below
    increasing := by
      rw [hcollected]
      exact h.increasing
    fresh := by
      rw [hlength]
      exact h.fresh_append hpopped
    gone := by
      rw [hlength]
      exact h.gone_append payload
    covered := fun id hlo hhi hnot => by
      rw [hcollected] at hnot
      exact (h.covered id hlo hhi hnot).append _ }

/-! ## Attach and collect -/

theorem Inv.attach {p : Pool State Stream} (h : Inv p) :
    Inv (p.spawn { p.shared with channel := (Sse.attach p.shared.channel []).1 } (Sse.attach p.shared.channel []).2) := by
  have hattach : Sse.attach p.shared.channel [] =
      ({ p.shared.channel with streamGeneration := wrap64 (p.threads.length + 1) },
        .head (wrap64 (p.threads.length + 1)) p.shared.channel.nextUndelivered p.shared.channel.lastAssigned) := by
    have hwrap : wrap64 (wrap64 p.threads.length + 1) = wrap64 (p.threads.length + 1) := Nat.mod_add_mod _ _ _
    rw [Sse.attach, if_pos h.running, h.generation, hwrap]
    rfl
  rw [hattach]
  refine ⟨h.running, h.next, h.ring, h.low, h.high, ?_, ?_, h.below, h.increasing, h.fresh, h.gone, h.covered⟩
  · simp [Pool.spawn]
  · refine Pool.forall_getElem?_append h.streams (fun j x hj hx g c hgc => ⟨(hx g c hgc).1, fun hlast => ?_⟩)
      (fun g c hgc => ?_)
    · -- no longer the newest
      simp only [Pool.spawn, List.length_append, List.length_singleton] at hlast
      omega
    · obtain ⟨rfl, rfl⟩ := Prod.mk.inj (Option.some.inj hgc)
      exact ⟨rfl, fun _ => rfl⟩

/-- **Only the newest stream collects**, and it stands at the watermark. -/
theorem Inv.stands_newest {p : Pool State Stream} (h : Inv p) (hsmall : Small p) {i : Nat} {stream : Stream}
    {generation cursor : Nat} (hi : p.threads[i]? = some stream) (hstands : holds stream = some (generation, cursor))
    (hnewest : p.shared.channel.streamGeneration = generation) :
    i + 1 = p.threads.length ∧ generation = wrap64 (i + 1) ∧ cursor = p.shared.channel.nextUndelivered := by
  have hlt : i < p.threads.length := (List.getElem?_eq_some_iff.1 hi).1
  obtain ⟨hgeneration, hcursor⟩ := h.streams i stream hi generation cursor hstands
  have hlast : i + 1 = p.threads.length := by
    have hwrap : p.threads.length % 2 ^ 64 = (i + 1) % 2 ^ 64 := by
      rw [← wrap64, ← wrap64, ← h.generation, hnewest, hgeneration]
    have hbound := hsmall.2
    omega
  exact ⟨hlast, hgeneration, hcursor hlast⟩

theorem pairwise_pending {p : Pool State Stream} (h : Inv p) (cursor : Nat) :
    ((p.shared.channel.ring.filter (fun item => decide (cursor ≤ item.id))).map Item.id).Pairwise (· < ·) := by
  rw [h.ring, filter_drop, map_id_drop]
  exact List.pairwise_lt_range'

/-- **What the newest stream collects** is the rest of the ring, so it then stands behind the last event. -/
theorem Inv.collect {p : Pool State Stream} (h : Inv p) (hsmall : Small p) {i : Nat} {stream next : Stream}
    {generation cursor : Nat} (hi : p.threads[i]? = some stream) (hstands : holds stream = some (generation, cursor))
    (hnewest : p.shared.channel.streamGeneration = generation)
    (hready : ∃ item, p.shared.channel.ring.getLast? = some item ∧ cursor ≤ item.id) {pending : List Item}
    (hpending : pending = p.shared.channel.ring.filter (fun item => decide (cursor ≤ item.id)))
    (hnext : holds next = some (generation, cursorAfter cursor pending)) :
    Inv ⟨{ p.shared with
        channel := { p.shared.channel with
          nextUndelivered := max p.shared.channel.nextUndelivered (cursorAfter cursor pending) }
        log := p.shared.log ++ [.collected i (pending.map Item.id)] }, p.threads.set i next⟩ := by
  obtain ⟨hlast, hgeneration, hwater⟩ := h.stands_newest hsmall hi hstands hnewest
  obtain ⟨hlength, -, hafter⟩ := h.numbered.cursorAfter_pending hready hsmall.1
  have hmem := h.numbered.mem_pending cursor
  have hsorted := pairwise_pending h cursor
  rw [← hpending] at hmem hsorted hafter
  have hmax : max p.shared.channel.nextUndelivered (cursorAfter cursor pending) = p.shared.enqueued.length + 1 := by
    rw [hafter, ← hwater]
    omega
  have hcollected : collected (p.shared.log ++ [.collected i (pending.map Item.id)]) =
      collected p.shared.log ++ (pending.map Item.id).map (fun id => (i, id)) := by
    simp [collected, Event.ids]
  rw [hmax]
  exact {
    running := h.running
    next := h.next
    ring := h.ring
    low := Nat.le_add_left 1 _
    high := Nat.le_refl _
    generation := by
      rw [List.length_set]
      exact h.generation
    streams := by
      rw [List.length_set]
      refine Pool.forall_getElem?_set h.streams (fun j x hj hx g c hgc => ⟨(hx g c hgc).1, fun hj' => ?_⟩) (fun g c hgc => ?_)
      · -- the newest stream is the one that has moved
        omega
      · obtain ⟨rfl, rfl⟩ := Prod.mk.inj (Option.some.inj (hnext.symm.trans hgc))
        exact ⟨hgeneration, fun _ => hafter⟩
    below := fun x hx => by
      rw [hcollected] at hx
      rcases List.mem_append.1 hx with hx | hx
      · exact Nat.lt_of_lt_of_le (h.below x hx) h.high
      · obtain ⟨id, hid, rfl⟩ := List.mem_map.1 hx
        exact Nat.lt_succ_of_le ((hmem id).1 hid).2.2
    increasing := by
      rw [hcollected]
      apply List.pairwise_append.2
      refine ⟨h.increasing, List.pairwise_map.2 hsorted, fun x hx y hy => ?_⟩
      obtain ⟨id, hid, rfl⟩ := List.mem_map.1 hy
      have hbelow := h.below x hx
      rw [← hwater] at hbelow
      exact Nat.lt_of_lt_of_le hbelow ((hmem id).1 hid).2.1
    fresh := fun id hlo hhi => absurd (Nat.le_trans hlo hhi) (Nat.not_succ_le_self _)
    gone := fun id hlo hhi => by
      have hle : p.shared.enqueued.length + 1 ≤ id := hlo
      have hle' : id + p.shared.channel.replayBufferSize ≤ p.shared.enqueued.length := hhi
      omega
    covered := fun id hlo hhi hnot => by
      rw [hcollected] at hnot
      have hold : ∀ j, (j, id) ∉ collected p.shared.log := fun j hj => hnot j (List.mem_append_left _ hj)
      by_cases hbelow : id < p.shared.channel.nextUndelivered
      · exact (h.covered id hlo hbelow hold).append _
      · by_cases hkept : p.shared.enqueued.length - p.shared.channel.replayBufferSize < id
        · -- it is in the ring, so it has just been collected
          have hle : id < p.shared.enqueued.length + 1 := hhi
          have hin : id ∈ pending.map Item.id := (hmem id).2 ⟨hkept, by omega, by omega⟩
          exact absurd (List.mem_append_right _ (List.mem_map_of_mem hin)) (hnot i)
        · exact (h.gone id (by omega) (by omega)).append _ }

theorem Inv.sectioned {p : Pool State Stream} (h : Inv p) (hsmall : Small p) {i : Nat} {stream next : Stream} {s' : State}
    (hi : p.threads[i]? = some stream) (hsection : Section i p.shared stream s' next) : Inv ⟨s', p.threads.set i next⟩ := by
  cases hsection with
  | quiet state stands =>
    subst state
    exact { h with
      generation := by
        rw [List.length_set]
        exact h.generation
      streams := by
        rw [List.length_set]
        apply Pool.forall_getElem?_set h.streams (fun _ _ _ hx => hx)
        exact fun g c hgc => h.streams i stream hi g c (stands _ hgc) }
  | collects generation cursor stands newest ready pending ring state next =>
    subst state
    exact h.collect hsmall hi stands newest ready ring next

/-! ## Runs -/

theorem step_grows {p q : Pool State Stream} {l : Label} (h : step p l = some q) :
    p.shared.enqueued.length ≤ q.shared.enqueued.length ∧ p.threads.length ≤ q.threads.length := by
  cases l with
  | enqueue payload =>
    cases h
    refine ⟨?_, Nat.le_refl _⟩
    simp only [State.enqueue]
    split
    · simp
    · exact Nat.le_refl _
  | attach =>
    cases h
    exact ⟨Nat.le_refl _, by simp [Pool.spawn]⟩
  | stream i =>
    obtain ⟨stream, s', next, -, hadv, rfl⟩ := Pool.stepAt_eq_some.1 h
    refine ⟨?_, by rw [List.length_set]⟩
    cases advance_section hadv with
    | quiet state _ => rw [state]
    | collects _ _ _ _ _ _ _ state _ => rw [state]
  | writeFails i n =>
    obtain ⟨stream, s', next, -, hadv, rfl⟩ := Pool.stepAt_eq_some.1 h
    exact ⟨by rw [(advanceFail_section hadv).1], by rw [List.length_set]⟩

/-- **The step lemma.** -/
theorem Inv.steps {p q : Pool State Stream} {l : Label} (h : Inv p) (hstep : step p l = some q) (hsmall : Small q) : Inv q := by
  obtain ⟨hgrows, hthreads⟩ := step_grows hstep
  have hbefore : Small p := ⟨by have := hsmall.1; omega, Nat.le_trans hthreads hsmall.2⟩
  cases l with
  | enqueue payload =>
    cases hstep
    apply h.enqueue payload
    have hlength := hsmall.1
    simp only [State.enqueue, if_pos h.running, List.length_append, List.length_singleton] at hlength
    exact hlength
  | attach =>
    cases hstep
    exact h.attach
  | stream i =>
    obtain ⟨stream, s', next, hi, hadv, rfl⟩ := Pool.stepAt_eq_some.1 hstep
    exact h.sectioned hbefore hi (advance_section hadv)
  | writeFails i n =>
    obtain ⟨stream, s', next, hi, hadv, rfl⟩ := Pool.stepAt_eq_some.1 hstep
    obtain ⟨rfl, rfl⟩ := advanceFail_section hadv
    exact h.sectioned hbefore hi (.quiet rfl (fun _ hh => by cases hh))

theorem inv_of_run {replayBufferSize : Nat} {retryMs : Int32} {labels : List Label} :
    ∀ {p : Pool State Stream}, Lts.run step (init replayBufferSize retryMs) labels = some p → Small p → Inv p := by
  induction labels using List.reverseRecOn with
  | nil =>
    intro p hrun _
    obtain rfl := Option.some.inj hrun
    exact inv_init _ _
  | append_singleton labels l ih =>
    intro p hrun hsmall
    obtain ⟨q, hq, hstep⟩ := Lts.run_snoc.1 hrun
    obtain ⟨hgrows, hthreads⟩ := step_grows hstep
    exact (ih hq ⟨by have := hsmall.1; omega, Nat.le_trans hthreads hsmall.2⟩).steps hstep hsmall

theorem Inv.orderly {p : Pool State Stream} (h : Inv p) : Orderly p.shared := by
  have hlength : p.shared.channel.ring.length = min p.shared.channel.replayBufferSize p.shared.enqueued.length := by
    rw [h.ring, List.length_drop, length_numbered]
    omega
  refine ⟨h.ring, hlength, ?_, ?_, fun i j id hi hj => ?_, h.increasing, h.covered⟩
  · rw [hlength, h.ring, map_id_drop, h.next]
    congr 1 <;> omega
  · rw [h.next]
    exact h.high
  · have hnodup : ((collected p.shared.log).map Prod.snd).Nodup :=
      List.pairwise_map.2 (h.increasing.imp fun hlt => Nat.ne_of_lt hlt)
    exact congrArg Prod.fst (List.inj_on_of_nodup_map hnodup hi hj rfl)

/-- **Fresh streams never collect an event twice and lose none but to the ring**, in every run that enqueues fewer than
`2 ^ 64 - 1` events and attaches at most `2 ^ 64` streams. -/
theorem orderly_of_run {replayBufferSize : Nat} {retryMs : Int32} {labels : List Label} {p : Pool State Stream}
    (hrun : Lts.run step (init replayBufferSize retryMs) labels = some p) (hevents : p.shared.enqueued.length < 2 ^ 64 - 1)
    (hstreams : p.threads.length ≤ 2 ^ 64) : Orderly p.shared :=
  (inv_of_run hrun ⟨by omega, hstreams⟩).orderly

/-- Two events for a ring of one, then a stream that collects. -/
def lateStream : List Label :=
  [.enqueue (bytes "a"), .enqueue (bytes "b"), .attach, .stream 0, .stream 0, .stream 0]

theorem orderly_of_run_lateStream :
    ∃ p, Lts.run step (init 1 1000) lateStream = some p ∧ collected p.shared.log = [(0, 2)] ∧ Orderly p.shared := by
  have heval : (Lts.run step (init 1 1000) lateStream).map
      (fun p => (collected p.shared.log, p.shared.enqueued.length, p.threads.length)) = some ([(0, 2)], 2, 1) := by
    decide +kernel
  obtain ⟨p, hrun, h⟩ := Option.map_eq_some_iff.1 heval
  obtain ⟨hcollected, hcounts⟩ := Prod.mk.inj h
  obtain ⟨hevents, hstreams⟩ := Prod.mk.inj hcounts
  exact ⟨p, hrun, hcollected, orderly_of_run hrun (by omega) (by omega)⟩

/-! ## Where the counters come round -/

theorem run_enqueues (payload : Bytes) : ∀ (k : Nat) (p : Pool State Stream), p.shared.channel.running = true →
    p.shared.channel.nextEventId < 2 ^ 64 →
    ∃ q, Lts.run step p (List.replicate k (.enqueue payload)) = some q ∧
      q.shared.channel.nextEventId = wrap64 (p.shared.channel.nextEventId + k) ∧
      q.shared.channel.nextUndelivered = p.shared.channel.nextUndelivered
  | 0, p, _, hlt => ⟨p, rfl, (Nat.mod_eq_of_lt hlt).symm, rfl⟩
  | k + 1, p, hrunning, _ => by
    have henqueue : (p.shared.enqueue payload).channel = p.shared.channel.enqueue payload := by
      rw [State.enqueue, if_pos hrunning]
    have hchannel : (p.shared.channel.enqueue payload).running = true ∧
        (p.shared.channel.enqueue payload).nextEventId = wrap64 (p.shared.channel.nextEventId + 1) ∧
        (p.shared.channel.enqueue payload).nextUndelivered = p.shared.channel.nextUndelivered := by
      rw [SseChannel.enqueue, if_pos hrunning]
      exact ⟨hrunning, rfl, rfl⟩
    obtain ⟨q, hrun, hnext, hwater⟩ := run_enqueues payload k { p with shared := p.shared.enqueue payload }
      (by rw [henqueue]; exact hchannel.1) (by rw [henqueue, hchannel.2.1]; exact Nat.mod_lt _ (by decide))
    rw [henqueue] at hnext hwater
    refine ⟨q, Lts.run_cons_eq_some.2 ⟨_, rfl, hrun⟩, ?_, hwater.trans hchannel.2.2⟩
    rw [hnext, hchannel.2.1, wrap64, wrap64, wrap64, Nat.mod_add_mod, Nat.add_assoc, Nat.add_comm 1 k]

theorem run_attaches : ∀ (k : Nat) (p : Pool State Stream), p.shared.channel.running = true →
    p.shared.channel.streamGeneration < 2 ^ 64 →
    ∃ more, Lts.run step p (List.replicate k .attach) = some
      ⟨{ p.shared with channel :=
          { p.shared.channel with streamGeneration := wrap64 (p.shared.channel.streamGeneration + k) } }, p.threads ++ more⟩
  | 0, p, _, hlt => ⟨[], by rw [Nat.add_zero, wrap64, Nat.mod_eq_of_lt hlt, List.append_nil]; rfl⟩
  | k + 1, p, hrunning, _ => by
    have hattach : Sse.attach p.shared.channel [] =
        ({ p.shared.channel with streamGeneration := wrap64 (p.shared.channel.streamGeneration + 1) },
          .head (wrap64 (p.shared.channel.streamGeneration + 1)) p.shared.channel.nextUndelivered
            p.shared.channel.lastAssigned) := by
      rw [Sse.attach, if_pos hrunning]
      rfl
    obtain ⟨more, hrun⟩ := run_attaches k
      (p.spawn { p.shared with channel := (Sse.attach p.shared.channel []).1 } (Sse.attach p.shared.channel []).2)
      (by rw [hattach]; exact hrunning) (by rw [hattach]; exact Nat.mod_lt _ (by decide))
    refine ⟨(Sse.attach p.shared.channel []).2 :: more, Lts.run_cons_eq_some.2 ⟨_, rfl, hrun.trans ?_⟩⟩
    simp only [Pool.spawn, hattach, wrap64, Nat.mod_add_mod, Nat.add_assoc, Nat.add_comm 1 k, List.append_assoc,
      List.singleton_append]

/-- A stream collects the one event; the older stream is passed over by `2 ^ 64 - 1` more. -/
def passedOver : List Label := [.attach, .attach, .enqueue (bytes "a"), .stream 1, .stream 1, .stream 1]

def passed : Pool State Stream :=
  ⟨{ channel :=
       { replayBufferSize := 1, retryMs := 1000, ring := [⟨1, bytes "a"⟩], nextEventId := 2, nextUndelivered := 2,
         streamGeneration := 2 }
     enqueued := [bytes "a"]
     log := [.enqueued 1, .collected 1 [1]] },
    [.head 1 1 0, .send 2 2 [⟨1, bytes "a"⟩]]⟩

theorem collects_again (more : List Stream) :
    ∃ p, Lts.run step
        ⟨{ passed.shared with channel := { passed.shared.channel with streamGeneration := 1 } }, passed.threads ++ more⟩
        [.stream 0, .stream 0, .stream 0] = some p ∧ collected p.shared.log = [(1, 1), (0, 1)] := by
  refine ⟨⟨{ passed.shared with
      channel := { passed.shared.channel with streamGeneration := 1 }
      log := passed.shared.log ++ [.collected 0 [1]] },
    .send 1 2 [⟨1, bytes "a"⟩] :: .send 2 2 [⟨1, bytes "a"⟩] :: more⟩, ?_, rfl⟩
  rfl

/-- **The bounds are sharp**: after `2 ^ 64 - 1` events the next id lies below the watermark, and the generation of
`2 ^ 64 + 1` streams comes round to the first, which collects what another has collected. -/
theorem counters_come_round :
    (∃ p, Lts.run step (init 1 1000) (List.replicate (2 ^ 64 - 1) (.enqueue [])) = some p ∧
      p.shared.channel.nextEventId < p.shared.channel.nextUndelivered) ∧
    ∃ p, Lts.run step (init 1 1000)
        (passedOver ++ (List.replicate (2 ^ 64 - 1) .attach ++ [.stream 0, .stream 0, .stream 0])) = some p ∧
      collected p.shared.log = [(1, 1), (0, 1)] := by
  constructor
  · obtain ⟨p, hrun, hnext, hwater⟩ := run_enqueues [] (2 ^ 64 - 1) (init 1 1000) rfl (by decide)
    refine ⟨p, hrun, ?_⟩
    rw [hnext, hwater]
    decide
  · have hstart : Lts.run step (init 1 1000) passedOver = some passed := rfl
    obtain ⟨more, hattaches⟩ := run_attaches (2 ^ 64 - 1) passed rfl (by decide)
    have hround : wrap64 (passed.shared.channel.streamGeneration + (2 ^ 64 - 1)) = 1 := by decide
    rw [hround] at hattaches
    obtain ⟨p, hagain, hcollected⟩ := collects_again more
    exact ⟨p, Lts.run_append_eq_some.2 ⟨_, hstart, Lts.run_append_eq_some.2 ⟨_, hattaches, hagain⟩⟩, hcollected⟩

end Takeover
end Mcp
