import McpSdk.SseTakeover
/-!
# SseResume — streams that resume after a given id

A GET may present any `Last-Event-ID`.  `attach_stream` reads it with `strtoull` and starts at the next number, whether or
not the channel ever gave that id out: after an id above the last one the stream waits for events that are still far away,
and after the largest 64-bit number it starts again at zero.
-/
namespace Mcp
namespace Resume

open Sse (Stream)
open Takeover (State Event collected Numbered holds cursorAfter Section)

inductive Label where
  | enqueue (payload : Bytes)
  /-- A GET with this `Last-Event-ID` is attached. -/
  | attach (lastEventId : Bytes)
  | stream (i : Nat)
  | writeFails (i n : Nat)
  | shutdown

def shutdown (s : State) : State := { s with channel := { s.channel with running := false } }

def step (p : Pool State Stream) : Label → Option (Pool State Stream)
  | .enqueue payload => some { p with shared := p.shared.enqueue payload }
  | .attach lastEventId =>
    let (channel, stream) := Sse.attach p.shared.channel lastEventId
    some (p.spawn { p.shared with channel } stream)
  | .stream i => Pool.stepAt (Takeover.advance i) p i
  | .writeFails i n => Pool.stepAt (Takeover.advanceFail n i) p i
  | .shutdown => some { p with shared := shutdown p.shared }

/-! ## The property -/

/-- The decimal form of a natural number. -/
def IsNumeral (s : Bytes) (N : Nat) : Prop := s ≠ [] ∧ (∀ b ∈ s, isDigit b = true) ∧ digitsValue 0 s = N

/-- The newest stream stays so, and the channel runs. -/
def Undisturbed (labels : List Label) : Prop := ∀ label ∈ labels, (∀ id, label ≠ .attach id) ∧ label ≠ .shutdown

/-- **What the stream attached at `p` may claim at `q`**: while it waits, its next batch has every event enqueued since the
attach that was neither evicted nor collected by it, and it has collected nothing up to the id it resumed after. -/
structure Resumes (p q : Pool State Stream) (lastEventId : Bytes) (log : List Event) : Prop where
  since : q.shared.log = p.shared.log ++ log
  delivers : ∀ g c, q.threads[p.threads.length]? = some (.wait g c) → ∀ id, .enqueued id ∈ log → .evicted id ∉ log →
    (p.threads.length, id) ∉ collected log →
    ∃ r ids, step q (.stream p.threads.length) = some r ∧
      r.shared.log = q.shared.log ++ [.collected p.threads.length ids] ∧ id ∈ ids
  resumes : ∀ N, IsNumeral lastEventId N → ∀ id, (p.threads.length, id) ∈ collected log → N < id

/-- Whatever happens after the attach, as long as the stream is the newest and fewer than `2 ^ 64 - 1` events were enqueued. -/
def AlwaysResumes (p : Pool State Stream) (lastEventId : Bytes) : Prop :=
  ∀ labels q r, step p (.attach lastEventId) = some q → Undisturbed labels → Lts.run step q labels = some r →
    r.shared.enqueued.length + 1 < 2 ^ 64 → ∃ log, Resumes p r lastEventId log

/-- The id is none, or was given out, or is no numeral and reads as the largest number. -/
def Resumable (c : SseChannel) (lastEventId : Bytes) : Prop :=
  lastEventId = [] ∨ strtoull lastEventId < c.nextEventId ∨
    (strtoull lastEventId = ullongMax ∧ ∀ N, ¬ IsNumeral lastEventId N)

/-! ## Up to the attach -/

/-- The ring is numbered, and the watermark has not passed it. -/
structure Ring (s : State) : Prop extends Numbered s where
  watermark : s.channel.nextUndelivered ≤ s.channel.nextEventId

theorem ring_enqueue {s : State} (h : Ring s) (payload : Bytes) (hsmall : (s.enqueue payload).enqueued.length + 1 < 2 ^ 64) :
    Ring (s.enqueue payload) := by
  by_cases hrunning : s.channel.running = true
  · have hstate := h.toNumbered.state_enqueue hrunning payload
    rw [hstate] at hsmall ⊢
    rw [List.length_append, List.length_singleton] at hsmall
    rw [h.toNumbered.channel_enqueue hrunning payload hsmall]
    refine ⟨⟨by simp, by simp⟩, ?_⟩
    have hwater := h.watermark
    rw [h.next] at hwater
    show s.channel.nextUndelivered ≤ s.enqueued.length + 2
    omega
  · rw [State.enqueue, if_neg hrunning]
    exact h

theorem ring_section {i : Nat} {s s' : State} {stream next : Stream} (h : Ring s) (hsmall : s.enqueued.length + 1 < 2 ^ 64)
    (hsection : Section i s stream s' next) : Ring s' := by
  cases hsection with
  | quiet state stands =>
    subst state
    exact h
  | collects generation cursor stands newest ready pending ring state next =>
    subst state
    obtain ⟨-, -, hafter⟩ := h.toNumbered.cursorAfter_pending ready hsmall
    rw [← ring] at hafter
    refine ⟨⟨h.next, h.ring⟩, ?_⟩
    show max s.channel.nextUndelivered (cursorAfter cursor pending) ≤ s.channel.nextEventId
    rw [hafter, ← h.next]
    exact max_le h.watermark (Nat.le_refl _)

theorem enqueued_le {p q : Pool State Stream} {label : Label} (h : step p label = some q) :
    p.shared.enqueued.length ≤ q.shared.enqueued.length := by
  cases label with
  | enqueue payload =>
    cases h
    unfold State.enqueue
    split
    · simp
    · exact Nat.le_refl _
  | attach lastEventId | shutdown =>
    cases h
    exact Nat.le_refl _
  | stream i =>
    obtain ⟨stream, s', next, -, hadv, rfl⟩ := Pool.stepAt_eq_some.1 h
    cases Takeover.advance_section hadv with
    | quiet state _ => rw [state]
    | collects _ _ _ _ _ _ _ state _ => rw [state]
  | writeFails i n =>
    obtain ⟨stream, s', next, -, hadv, rfl⟩ := Pool.stepAt_eq_some.1 h
    rw [(Takeover.advanceFail_section hadv).1]

theorem enqueued_le_of_run : ∀ {labels : List Label} {p q : Pool State Stream}, Lts.run step p labels = some q →
    p.shared.enqueued.length ≤ q.shared.enqueued.length
  | [], _, _, h => by
    cases h
    exact Nat.le_refl _
  | _ :: _, _, _, h => by
    obtain ⟨t, ht, h⟩ := Lts.run_cons_eq_some.1 h
    exact Nat.le_trans (enqueued_le ht) (enqueued_le_of_run h)

theorem ring_step {p q : Pool State Stream} {label : Label} (h : Ring p.shared) (hs : step p label = some q)
    (hsmall : q.shared.enqueued.length + 1 < 2 ^ 64) : Ring q.shared := by
  have hbefore : p.shared.enqueued.length + 1 < 2 ^ 64 := Nat.lt_of_le_of_lt (Nat.succ_le_succ (enqueued_le hs)) hsmall
  cases label with
  | enqueue payload =>
    cases hs
    exact ring_enqueue h payload hsmall
  | attach lastEventId =>
    cases hs
    show Ring { p.shared with channel := (Sse.attach p.shared.channel lastEventId).1 }
    unfold Sse.attach
    split
    · exact ⟨⟨h.next, h.ring⟩, h.watermark⟩
    · exact h
  | shutdown =>
    cases hs
    exact ⟨⟨h.next, h.ring⟩, h.watermark⟩
  | stream i =>
    obtain ⟨stream, s', next, -, hadv, rfl⟩ := Pool.stepAt_eq_some.1 hs
    exact ring_section h hbefore (Takeover.advance_section hadv)
  | writeFails i n =>
    obtain ⟨stream, s', next, -, hadv, rfl⟩ := Pool.stepAt_eq_some.1 hs
    rw [(Takeover.advanceFail_section hadv).1]
    exact h

theorem ring_run : ∀ {labels : List Label} {p q : Pool State Stream}, Ring p.shared → Lts.run step p labels = some q →
    q.shared.enqueued.length + 1 < 2 ^ 64 → Ring q.shared
  | [], _, _, h, hr, _ => by
    cases hr
    exact h
  | _ :: _, _, _, h, hr, hsmall => by
    obtain ⟨t, ht, hr⟩ := Lts.run_cons_eq_some.1 hr
    have hlength := enqueued_le_of_run hr
    exact ring_run (ring_step h ht (by omega)) hr hsmall

theorem ring_init (replayBufferSize : Nat) (retryMs : Int32) : Ring (Takeover.init replayBufferSize retryMs).shared :=
  ⟨⟨rfl, by simp [Takeover.init, Takeover.numbered]⟩, Nat.le_refl 1⟩

/-! ## From the attach on -/

/-- **What stands at `q` of the stream attached at `p`**, with the events since: it has collected nothing below `floor`, and
an event enqueued since lies before its cursor only if it was collected or evicted. -/
structure Since (p q : Pool State Stream) (floor : Nat) (log : List Event) : Prop extends Numbered q.shared where
  running : q.shared.channel.running = true
  size : q.shared.channel.replayBufferSize = p.shared.channel.replayBufferSize
  since : q.shared.log = p.shared.log ++ log
  grows : p.shared.enqueued.length ≤ q.shared.enqueued.length
  enqueued : ∀ id, .enqueued id ∈ log → p.shared.enqueued.length < id ∧ id ≤ q.shared.enqueued.length
  evicted : ∀ id, p.shared.enqueued.length < id → id + p.shared.channel.replayBufferSize ≤ q.shared.enqueued.length →
    .evicted id ∈ log
  generation : ∀ stream, q.threads[p.threads.length]? = some stream → ∀ g c, holds stream = some (g, c) →
    g = q.shared.channel.streamGeneration ∧ floor ≤ c
  bound : 0 < p.shared.channel.replayBufferSize → ∀ stream, q.threads[p.threads.length]? = some stream →
    ∀ g c, holds stream = some (g, c) → c ≤ q.shared.enqueued.length + 1
  covered : ∀ stream, q.threads[p.threads.length]? = some stream → ∀ g c, holds stream = some (g, c) →
    ∀ id, p.shared.enqueued.length < id → id ≤ q.shared.enqueued.length → id < c →
      (p.threads.length, id) ∈ collected log ∨ .evicted id ∈ log
  above : ∀ id, (p.threads.length, id) ∈ collected log → floor ≤ id ∧ 0 < p.shared.channel.replayBufferSize

theorem collected_snoc (log : List Event) (i : Nat) (ids : List Nat) :
    collected (log ++ [.collected i ids]) = collected log ++ ids.map (fun id => (i, id)) := by
  simp [collected, Event.ids]

/-- The log of an enqueue: the event, and those it pops. -/
def enqueueLog (s : State) (payload : Bytes) : List Event :=
  .enqueued (s.enqueued.length + 1) :: ((s.channel.evicted payload).map Item.id).map .evicted

theorem collected_enqueueLog (log : List Event) (s : State) (payload : Bytes) :
    collected (log ++ enqueueLog s payload) = collected log := by
  have hquiet : collected (enqueueLog s payload) = [] := by
    apply Takeover.collected_of_quiet
    intro e he
    rcases List.mem_cons.1 he with rfl | he
    · rfl
    · exact Takeover.quiet_evicted _ e he
  rw [Takeover.collected_append, hquiet, List.append_nil]

namespace Since

variable {p q : Pool State Stream} {floor : Nat} {log : List Event}

theorem enqueue (h : Since p q floor log) (payload : Bytes) (hsmall : q.shared.enqueued.length + 2 < 2 ^ 64) :
    Since p { q with shared := q.shared.enqueue payload } floor (log ++ enqueueLog q.shared payload) := by
  have hgrows := h.grows
  have hnew : ∀ id, p.shared.enqueued.length < id →
      id + p.shared.channel.replayBufferSize ≤ q.shared.enqueued.length + 1 → .evicted id ∈ log ++ enqueueLog q.shared payload := by
    intro id hlo hhi
    by_cases hold : id + p.shared.channel.replayBufferSize ≤ q.shared.enqueued.length
    · exact List.mem_append_left _ (h.evicted id hlo hold)
    · apply List.mem_append_right
      apply List.mem_cons_of_mem
      rw [h.toNumbered.map_id_evicted payload, h.size, if_pos (by omega)]
      apply List.mem_map_of_mem (f := Event.evicted)
      apply List.mem_singleton.2
      omega
  rw [h.toNumbered.state_enqueue h.running payload, h.toNumbered.channel_enqueue h.running payload hsmall]
  constructor
  · exact ⟨by simp, by simp⟩
  · exact h.running
  · exact h.size
  · rw [h.since, List.append_assoc]
    rfl
  · rw [List.length_append, List.length_singleton]
    omega
  · intro id hid
    rw [List.length_append, List.length_singleton]
    rcases List.mem_append.1 hid with hid | hid
    · have hold := h.enqueued id hid
      omega
    · rcases List.mem_cons.1 hid with hid | hid
      · cases hid
        omega
      · obtain ⟨x, -, hx⟩ := List.mem_map.1 hid
        cases hx
  · rw [List.length_append, List.length_singleton]
    exact hnew
  · exact h.generation
  · intro hpos stream hstream g c hgc
    rw [List.length_append, List.length_singleton]
    exact Nat.le_succ_of_le (h.bound hpos stream hstream g c hgc)
  · intro stream hstream g c hgc id hlo hhi hc
    rw [List.length_append, List.length_singleton] at hhi
    rw [collected_enqueueLog]
    by_cases hold : id ≤ q.shared.enqueued.length
    · exact (h.covered stream hstream g c hgc id hlo hold hc).imp_right (List.mem_append_left _)
    · -- the new event lies before the cursor only when nothing is kept
      by_cases hpos : 0 < p.shared.channel.replayBufferSize
      · have hbound := h.bound hpos stream hstream g c hgc
        omega
      · exact .inr (hnew id hlo (by omega))
  · rw [collected_enqueueLog]
    exact h.above

/-- A section of another stream, or one that collects nothing. -/
theorem elsewhere (h : Since p q floor log) {threads : List Stream} {more : List Event}
    (hmore : ∀ id, (p.threads.length, id) ∉ collected more) (hquiet : ∀ id, .enqueued id ∉ more)
    (hthreads : ∀ stream, threads[p.threads.length]? = some stream → ∀ x, holds stream = some x →
      ∃ stream', q.threads[p.threads.length]? = some stream' ∧ holds stream' = some x) (watermark : Nat) :
    Since p ⟨{ q.shared with
        channel := { q.shared.channel with nextUndelivered := watermark }
        log := q.shared.log ++ more }, threads⟩ floor (log ++ more) where
  next := h.next
  ring := h.ring
  running := h.running
  size := h.size
  since := by
    show q.shared.log ++ more = _
    rw [h.since, List.append_assoc]
  grows := h.grows
  enqueued := fun id hid => h.enqueued id ((List.mem_append.1 hid).resolve_right (hquiet id))
  evicted := fun id hlo hhi => List.mem_append_left _ (h.evicted id hlo hhi)
  generation := fun stream hstream g c hgc => by
    obtain ⟨stream', hs, hgc⟩ := hthreads stream hstream _ hgc
    exact h.generation stream' hs g c hgc
  bound := fun hpos stream hstream g c hgc => by
    obtain ⟨stream', hs, hgc⟩ := hthreads stream hstream _ hgc
    exact h.bound hpos stream' hs g c hgc
  covered := fun stream hstream g c hgc id hlo hhi hc => by
    obtain ⟨stream', hs, hgc⟩ := hthreads stream hstream _ hgc
    rw [Takeover.collected_append]
    exact (h.covered stream' hs g c hgc id hlo hhi hc).imp (List.mem_append_left _) (List.mem_append_left _)
  above := fun id hid => by
    rw [Takeover.collected_append] at hid
    exact h.above id ((List.mem_append.1 hid).resolve_right (hmore id))

/-- **The stream collects**: what is left before its new cursor it has, or it was evicted. -/
theorem collects (h : Since p q floor log) (hsmall : q.shared.enqueued.length + 1 < 2 ^ 64) {stream next : Stream}
    {generation cursor : Nat} (hstream : q.threads[p.threads.length]? = some stream)
    (hstands : holds stream = some (generation, cursor))
    (hready : ∃ item, q.shared.channel.ring.getLast? = some item ∧ cursor ≤ item.id) {pending : List Item}
    (hpending : pending = q.shared.channel.ring.filter (fun item => decide (cursor ≤ item.id)))
    (hnext : holds next = some (generation, cursorAfter cursor pending)) (watermark : Nat) :
    Since p ⟨{ q.shared with
        channel := { q.shared.channel with nextUndelivered := watermark }
        log := q.shared.log ++ [.collected p.threads.length (pending.map Item.id)] },
      q.threads.set p.threads.length next⟩ floor (log ++ [.collected p.threads.length (pending.map Item.id)]) := by
  obtain ⟨hlength, hkept, hafter⟩ := h.toNumbered.cursorAfter_pending hready hsmall
  have hmem := h.toNumbered.mem_pending cursor
  rw [← hpending] at hafter hmem
  obtain ⟨hg, hfloor⟩ := h.generation stream hstream _ _ hstands
  have hpos : 0 < p.shared.channel.replayBufferSize := by
    rw [← h.size]
    omega
  have hthread : ∀ stream', (q.threads.set p.threads.length next)[p.threads.length]? = some stream' →
      ∀ g c, holds stream' = some (g, c) → g = generation ∧ c = q.shared.enqueued.length + 1 := by
    intro stream' hs g c hgc
    rw [List.getElem?_set_self (List.getElem?_eq_some_iff.1 hstream).1] at hs
    rw [← Option.some.inj hs, hnext, hafter] at hgc
    cases hgc
    exact ⟨rfl, rfl⟩
  constructor
  · exact ⟨h.next, h.ring⟩
  · exact h.running
  · exact h.size
  · show q.shared.log ++ _ = _
    rw [h.since, List.append_assoc]
  · exact h.grows
  · intro id hid
    rcases List.mem_append.1 hid with hid | hid
    · exact h.enqueued id hid
    · cases List.mem_singleton.1 hid
  · exact fun id hlo hhi => List.mem_append_left _ (h.evicted id hlo hhi)
  · intro stream' hs g c hgc
    obtain ⟨rfl, rfl⟩ := hthread stream' hs g c hgc
    exact ⟨hg, by omega⟩
  · intro _ stream' hs g c hgc
    exact Nat.le_of_eq (hthread stream' hs g c hgc).2
  · intro stream' hs g c hgc id hlo hhi hc
    rw [collected_snoc]
    have hhi : id ≤ q.shared.enqueued.length := hhi
    by_cases hold : id < cursor
    · exact (h.covered stream hstream _ _ hstands id hlo hhi hold).imp (List.mem_append_left _) (List.mem_append_left _)
    by_cases hring : q.shared.enqueued.length - q.shared.channel.replayBufferSize < id
    · left
      apply List.mem_append_right
      exact List.mem_map_of_mem ((hmem id).2 ⟨hring, by omega, hhi⟩)
    · right
      apply List.mem_append_left
      apply h.evicted id hlo
      rw [← h.size]
      omega
  · intro id hid
    rw [collected_snoc] at hid
    rcases List.mem_append.1 hid with hid | hid
    · exact h.above id hid
    · obtain ⟨x, hx, heq⟩ := List.mem_map.1 hid
      cases heq
      exact ⟨Nat.le_trans hfloor ((hmem id).1 hx).2.1, hpos⟩

theorem quiet (h : Since p q floor log) {i : Nat} {stream next : Stream} (hi : q.threads[i]? = some stream)
    (hnext : ∀ x, holds next = some x → holds stream = some x) : Since p ⟨q.shared, q.threads.set i next⟩ floor log := by
  have hthreads : ∀ stream', (q.threads.set i next)[p.threads.length]? = some stream' → ∀ x, holds stream' = some x →
      ∃ before, q.threads[p.threads.length]? = some before ∧ holds before = some x := by
    intro stream' hs x hx
    by_cases hik : i = p.threads.length
    · subst hik
      rw [List.getElem?_set_self (List.getElem?_eq_some_iff.1 hi).1] at hs
      cases hs
      exact ⟨stream, hi, hnext x hx⟩
    · rw [List.getElem?_set_ne hik] at hs
      exact ⟨stream', hs, hx⟩
  have hnone : ∀ id, (p.threads.length, id) ∉ collected ([] : List Event) := fun id => List.not_mem_nil
  have hsame := h.elsewhere hnone (fun id => List.not_mem_nil) hthreads q.shared.channel.nextUndelivered
  rw [List.append_nil, List.append_nil] at hsame
  exact hsame

theorem step (h : Since p q floor log) {label : Label} {r : Pool State Stream}
    (hlabel : (∀ id, label ≠ .attach id) ∧ label ≠ .shutdown) (hs : step q label = some r)
    (hsmall : r.shared.enqueued.length + 1 < 2 ^ 64) : ∃ log', Since p r floor log' := by
  have hbefore : q.shared.enqueued.length + 1 < 2 ^ 64 := Nat.lt_of_le_of_lt (Nat.succ_le_succ (enqueued_le hs)) hsmall
  cases label with
  | attach id => exact absurd rfl (hlabel.1 id)
  | shutdown => exact absurd rfl hlabel.2
  | enqueue payload =>
    cases hs
    refine ⟨_, h.enqueue payload ?_⟩
    rw [h.toNumbered.state_enqueue h.running payload, List.length_append, List.length_singleton] at hsmall
    exact hsmall
  | writeFails i n =>
    obtain ⟨stream, s', next, hi, hadv, rfl⟩ := Pool.stepAt_eq_some.1 hs
    obtain ⟨rfl, rfl⟩ := Takeover.advanceFail_section hadv
    exact ⟨log, h.quiet hi (fun x hx => by cases hx)⟩
  | stream i =>
    obtain ⟨stream, s', next, hi, hadv, rfl⟩ := Pool.stepAt_eq_some.1 hs
    cases Takeover.advance_section hadv with
    | quiet state stands =>
      subst state
      exact ⟨log, h.quiet hi stands⟩
    | collects generation cursor stands newest ready pending ring state next =>
      subst state
      by_cases hik : i = p.threads.length
      · subst hik
        exact ⟨_, h.collects hbefore hi stands ready ring next _⟩
      · refine ⟨_, h.elsewhere (fun id hid => ?_) (fun id hid => ?_) (fun stream' hs x hx => ?_) _⟩
        · have hids : collected [.collected i (pending.map Item.id)] = (pending.map Item.id).map (fun id => (i, id)) := by
            simp [collected, Event.ids]
          rw [hids] at hid
          obtain ⟨y, -, hy⟩ := List.mem_map.1 hid
          exact hik (congrArg Prod.fst hy)
        · cases List.mem_singleton.1 hid
        · rw [List.getElem?_set_ne hik] at hs
          exact ⟨stream', hs, hx⟩

theorem run : ∀ {labels : List Label} {q r : Pool State Stream} {log : List Event}, Since p q floor log →
    Undisturbed labels → Lts.run Resume.step q labels = some r → r.shared.enqueued.length + 1 < 2 ^ 64 →
    ∃ log', Since p r floor log'
  | [], _, _, log, h, _, hr, _ => by
    cases hr
    exact ⟨log, h⟩
  | label :: labels, _, _, _, h, hl, hr, hsmall => by
    obtain ⟨t, ht, hr⟩ := Lts.run_cons_eq_some.1 hr
    have hlength := enqueued_le_of_run hr
    obtain ⟨log', h'⟩ := h.step (hl label List.mem_cons_self) ht (by omega)
    exact h'.run (fun x hx => hl x (List.mem_cons_of_mem label hx)) hr hsmall

/-- **What a waiting stream has missed it collects next**: an event enqueued since, in the ring and not collected yet. -/
theorem delivers (h : Since p q floor log) {g c : Nat} (hwait : q.threads[p.threads.length]? = some (.wait g c)) {id : Nat}
    (henqueued : .enqueued id ∈ log) (hevicted : .evicted id ∉ log) (hcollected : (p.threads.length, id) ∉ collected log) :
    ∃ r ids, Resume.step q (.stream p.threads.length) = some r ∧
      r.shared.log = q.shared.log ++ [.collected p.threads.length ids] ∧ id ∈ ids := by
  obtain ⟨hlo, hhi⟩ := h.enqueued id henqueued
  obtain ⟨hg, -⟩ := h.generation _ hwait g c rfl
  have hc : c ≤ id := by
    by_contra hc
    rcases h.covered _ hwait g c rfl id hlo hhi (by omega) with hin | hin
    · exact hcollected hin
    · exact hevicted hin
  have hring : q.shared.enqueued.length - q.shared.channel.replayBufferSize < id := by
    by_contra hout
    apply hevicted
    apply h.evicted id hlo
    rw [← h.size]
    omega
  have hin := (h.toNumbered.mem_pending c id).2 ⟨hring, hc, hhi⟩
  have hlast : q.shared.channel.ring.getLast?.any (fun item => decide (c ≤ item.id)) = true := by
    rw [h.ring]
    cases hl : ((Takeover.numbered q.shared.enqueued).drop
        (q.shared.enqueued.length - q.shared.channel.replayBufferSize)).getLast? with
    | none =>
      have hlength := congrArg List.length (List.getLast?_eq_none_iff.1 hl)
      rw [List.length_drop, Takeover.length_numbered, List.length_nil] at hlength
      omega
    | some item =>
      have hid := Takeover.getLast?_drop hl
      simp only [Option.any_some, decide_eq_true_eq]
      omega
  have hadv : ∃ s' next, Takeover.advance p.threads.length q.shared (.wait g c) = some (s', next) ∧
      s'.log = q.shared.log ++ [.collected p.threads.length
        ((q.shared.channel.ring.filter (fun item => decide (c ≤ item.id))).map Item.id)] := by
    have hnot : ¬ (q.shared.channel.running = false ∨ q.shared.channel.streamGeneration ≠ g) := by
      rw [h.running, hg]
      simp
    unfold Takeover.advance Sse.advance
    simp only [Sse.Stream.writing]
    rw [if_neg hnot, if_pos hlast]
    exact ⟨_, _, rfl, rfl⟩
  obtain ⟨s', next, hadv, hlog⟩ := hadv
  exact ⟨_, _, Pool.stepAt_eq_some.2 ⟨_, s', next, hwait, hadv, rfl⟩, hlog, hin⟩

end Since

/-! ## The condition -/

theorem strtoull_le (s : Bytes) : strtoull s ≤ ullongMax := by
  unfold strtoull ullongMax
  split
  · omega
  · dsimp only
    split
    · split <;> omega
    · omega

theorem numeral_strtoull {s : Bytes} {N : Nat} (h : IsNumeral s N) : strtoull s = min ullongMax N := by
  rw [strtoull_digits h.1 h.2.1, h.2.2]

theorem cursor_eq {c : SseChannel} {id : Bytes} (hne : id ≠ []) : c.cursor id = wrap64 (strtoull id + 1) := if_neg hne

/-- A stream that may resume starts no further than the next event. -/
theorem Resumable.cursor_le {s : State} (h : Ring s) (hsmall : s.enqueued.length + 1 < 2 ^ 64) {id : Bytes}
    (hid : Resumable s.channel id) : s.channel.cursor id ≤ s.channel.nextEventId := by
  rcases hid with rfl | hlt | ⟨hmax, -⟩
  · exact h.watermark
  · by_cases hne : id = []
    · rw [hne]
      exact h.watermark
    · rw [cursor_eq hne, wrap64]
      rw [h.next] at hlt ⊢
      omega
  · by_cases hne : id = []
    · rw [hne]
      exact h.watermark
    · rw [cursor_eq hne, hmax]
      exact Nat.zero_le _

/-- A stream that may resume after a numeral starts behind it. -/
theorem Resumable.lt_cursor {s : State} (h : Ring s) (hsmall : s.enqueued.length + 1 < 2 ^ 64) {id : Bytes}
    (hid : Resumable s.channel id) {N : Nat} (hN : IsNumeral id N) : N < s.channel.cursor id := by
  have hvalue := numeral_strtoull hN
  rcases hid with rfl | hlt | ⟨-, hnot⟩
  · exact absurd rfl hN.1
  · rw [cursor_eq hN.1, wrap64]
    rw [h.next] at hlt
    unfold ullongMax at hvalue
    omega
  · exact absurd hN (hnot N)

theorem attach_running {p q : Pool State Stream} {id : Bytes} (hrunning : p.shared.channel.running = true)
    (hs : step p (.attach id) = some q) :
    q = p.spawn { p.shared with
        channel := { p.shared.channel with streamGeneration := wrap64 (p.shared.channel.streamGeneration + 1) } }
      (.head (wrap64 (p.shared.channel.streamGeneration + 1)) (p.shared.channel.cursor id) p.shared.channel.lastAssigned) := by
  simp only [step, Sse.attach, if_pos hrunning] at hs
  exact (Option.some.inj hs).symm

theorem since_attach {p q : Pool State Stream} {id : Bytes} (hring : Ring p.shared)
    (hrunning : p.shared.channel.running = true)
    (hbound : 0 < p.shared.channel.replayBufferSize → p.shared.channel.cursor id ≤ p.shared.channel.nextEventId)
    (hs : step p (.attach id) = some q) : Since p q (p.shared.channel.cursor id) [] := by
  obtain rfl := attach_running hrunning hs
  have hthread : ∀ stream, (p.threads ++ [Stream.head (wrap64 (p.shared.channel.streamGeneration + 1))
      (p.shared.channel.cursor id) p.shared.channel.lastAssigned])[p.threads.length]? = some stream →
      ∀ g c, holds stream = some (g, c) →
        g = wrap64 (p.shared.channel.streamGeneration + 1) ∧ c = p.shared.channel.cursor id := by
    intro stream hstream g c hgc
    rw [List.getElem?_concat_length] at hstream
    cases hstream
    cases hgc
    exact ⟨rfl, rfl⟩
  constructor
  · exact ⟨hring.next, hring.ring⟩
  · exact hrunning
  · rfl
  · exact (List.append_nil _).symm
  · exact Nat.le_refl _
  · exact fun x hx => absurd hx List.not_mem_nil
  · intro x hlo hhi
    have hhi : x + p.shared.channel.replayBufferSize ≤ p.shared.enqueued.length := hhi
    omega
  · intro stream hstream g c hgc
    obtain ⟨rfl, rfl⟩ := hthread stream hstream g c hgc
    exact ⟨rfl, Nat.le_refl _⟩
  · intro hpos stream hstream g c hgc
    obtain ⟨rfl, rfl⟩ := hthread stream hstream g c hgc
    exact hring.next ▸ hbound hpos
  · intro stream hstream g c hgc x hlo hhi hc
    have hhi : x ≤ p.shared.enqueued.length := hhi
    omega
  · exact fun x hx => absurd hx List.not_mem_nil

theorem alwaysResumes_of_resumable {p : Pool State Stream} {id : Bytes} (hring : Ring p.shared)
    (hrunning : p.shared.channel.running = true) (hsmall : p.shared.enqueued.length + 1 < 2 ^ 64)
    (hid : p.shared.channel.replayBufferSize = 0 ∨ Resumable p.shared.channel id) : AlwaysResumes p id := by
  intro labels q r hs hl hr hbound
  have hresumable : 0 < p.shared.channel.replayBufferSize → Resumable p.shared.channel id := fun hpos =>
    hid.resolve_left (Nat.ne_of_gt hpos)
  have hstart := since_attach hring hrunning (fun hpos => (hresumable hpos).cursor_le hring hsmall) hs
  obtain ⟨log, h⟩ := hstart.run hl hr hbound
  refine ⟨log, h.since, fun g c hwait x => h.delivers hwait, fun N hN x hx => ?_⟩
  obtain ⟨hfloor, hpos⟩ := h.above x hx
  exact Nat.lt_of_lt_of_le ((hresumable hpos).lt_cursor hring hsmall hN) hfloor

/-! ## Outside the condition -/

theorem enqueued_stream {q r : Pool State Stream} {i : Nat} (h : step q (.stream i) = some r) :
    r.shared.enqueued = q.shared.enqueued := by
  obtain ⟨stream, s', next, -, hadv, rfl⟩ := Pool.stepAt_eq_some.1 h
  cases Takeover.advance_section hadv with
  | quiet state _ => rw [state]
  | collects _ _ _ _ _ _ _ state _ => rw [state]

theorem advance_head (k : Nat) (s : State) (g c lastAssigned : Nat) :
    Takeover.advance k s (.head g c lastAssigned) = some (s, .initial g c lastAssigned) := by
  simp [Takeover.advance, Sse.advance, Sse.Stream.writing, Sse.State.write, Takeover.collectedBy]

theorem advance_initial (k : Nat) (s : State) (g c lastAssigned : Nat) :
    Takeover.advance k s (.initial g c lastAssigned) = some (s, .wait g c) := by
  simp [Takeover.advance, Sse.advance, Sse.Stream.writing, Sse.State.write, Takeover.collectedBy]

/-- A stream that has just been attached waits two writes later, with one event enqueued. -/
theorem reaches_wait {q : Pool State Stream} {k g c lastAssigned : Nat} (h : q.threads[k]? = some (.head g c lastAssigned))
    (payload : Bytes) : ∃ threads, threads[k]? = some (.wait g c) ∧
      Lts.run step q [.enqueue payload, .stream k, .stream k] = some ⟨q.shared.enqueue payload, threads⟩ := by
  have hk : k < q.threads.length := (List.getElem?_eq_some_iff.1 h).1
  have hfirst : step { q with shared := q.shared.enqueue payload } (.stream k) =
      some ⟨q.shared.enqueue payload, q.threads.set k (.initial g c lastAssigned)⟩ :=
    Pool.stepAt_eq_some.2 ⟨_, _, _, h, advance_head k _ g c lastAssigned, rfl⟩
  have hsecond : step ⟨q.shared.enqueue payload, q.threads.set k (.initial g c lastAssigned)⟩ (.stream k) =
      some ⟨q.shared.enqueue payload, (q.threads.set k (.initial g c lastAssigned)).set k (.wait g c)⟩ :=
    Pool.stepAt_eq_some.2 ⟨_, _, _, List.getElem?_set_self hk, advance_initial k _ g c lastAssigned, rfl⟩
  refine ⟨(q.threads.set k (.initial g c lastAssigned)).set k (.wait g c), ?_, ?_⟩
  · rw [List.getElem?_set_self (by rwa [List.length_set])]
  · apply Lts.run_cons_eq_some.2
    exact ⟨_, rfl, Lts.run_cons_eq_some.2 ⟨_, hfirst, Lts.run_cons_eq_some.2 ⟨_, hsecond, rfl⟩⟩⟩

theorem undisturbed_wait (k : Nat) (payload : Bytes) (more : List Label) (hmore : ∀ label ∈ more, label = .stream k) :
    Undisturbed ([.enqueue payload, .stream k, .stream k] ++ more) := by
  intro label hlabel
  simp only [List.cons_append, List.nil_append, List.mem_cons] at hlabel
  rcases hlabel with rfl | rfl | rfl | hlabel
  · exact ⟨fun _ => Label.noConfusion, Label.noConfusion⟩
  · exact ⟨fun _ => Label.noConfusion, Label.noConfusion⟩
  · exact ⟨fun _ => Label.noConfusion, Label.noConfusion⟩
  · rw [hmore label hlabel]
    exact ⟨fun _ => Label.noConfusion, Label.noConfusion⟩

section

variable {p : Pool State Stream} {id : Bytes}

/-- A stream that waits right after one event was enqueued since its attach: the event is kept, and not collected yet. -/
theorem exists_waiting (id : Bytes) (hring : Ring p.shared) (hrunning : p.shared.channel.running = true)
    (hpos : p.shared.channel.replayBufferSize ≠ 0) :
    ∃ q r g, step p (.attach id) = some q ∧
      Lts.run step q [.enqueue [], .stream p.threads.length, .stream p.threads.length] = some r ∧
      r.shared.enqueued.length = p.shared.enqueued.length + 1 ∧
      r.threads[p.threads.length]? = some (.wait g (p.shared.channel.cursor id)) ∧
      ∀ log, r.shared.log = p.shared.log ++ log → .enqueued (p.shared.enqueued.length + 1) ∈ log ∧
        .evicted (p.shared.enqueued.length + 1) ∉ log ∧
        (p.threads.length, p.shared.enqueued.length + 1) ∉ collected log := by
  obtain ⟨q, hq⟩ : ∃ q, step p (.attach id) = some q := ⟨_, rfl⟩
  have hattached := attach_running hrunning hq
  have hhead : q.threads[p.threads.length]? = some (.head (wrap64 (p.shared.channel.streamGeneration + 1))
      (p.shared.channel.cursor id) p.shared.channel.lastAssigned) := by
    rw [hattached]
    exact List.getElem?_concat_length
  have hnumbered : Numbered q.shared := by
    rw [hattached]
    exact ⟨hring.next, hring.ring⟩
  have hsame : q.shared.enqueued = p.shared.enqueued ∧ q.shared.log = p.shared.log ∧ q.shared.channel.running = true ∧
      q.shared.channel.replayBufferSize = p.shared.channel.replayBufferSize := by
    rw [hattached]
    exact ⟨rfl, rfl, hrunning, rfl⟩
  obtain ⟨henqueued, hlog, hrun, hsize⟩ := hsame
  obtain ⟨threads, hwait, hr⟩ := reaches_wait hhead []
  have hstate := hnumbered.state_enqueue hrun []
  refine ⟨q, _, _, hq, hr, ?_, hwait, fun log hsince => ?_⟩
  · rw [hstate, List.length_append, List.length_singleton, henqueued]
  have hlogs : log = enqueueLog q.shared [] := by
    rw [hstate, hlog] at hsince
    exact (List.append_cancel_left hsince).symm
  rw [hlogs]
  refine ⟨?_, fun hevicted => ?_, ?_⟩
  · rw [enqueueLog, henqueued]
    exact List.mem_cons_self
  · rw [enqueueLog, hnumbered.map_id_evicted [], hsize, henqueued] at hevicted
    rcases List.mem_cons.1 hevicted with hevicted | hevicted
    · cases hevicted
    · split at hevicted
      · have hid := Event.evicted.inj (List.mem_singleton.1 hevicted)
        omega
      · cases hevicted
  · rw [← List.nil_append (enqueueLog q.shared []), collected_enqueueLog]
    exact List.not_mem_nil

/-- After an id that was not given out yet, the next event is withheld. -/
theorem withholds (hring : Ring p.shared) (hrunning : p.shared.channel.running = true)
    (hsmall : p.shared.enqueued.length + 2 < 2 ^ 64) (hpos : p.shared.channel.replayBufferSize ≠ 0)
    (hcursor : p.shared.channel.nextEventId < p.shared.channel.cursor id) : ¬ AlwaysResumes p id := by
  intro h
  obtain ⟨q, w, g, hq, hr, hlength, hwait, hlog⟩ := exists_waiting id hring hrunning hpos
  obtain ⟨log, hresumes⟩ := h _ q w hq (undisturbed_wait _ [] [] (fun _ hx => by cases hx)) hr (by omega)
  obtain ⟨hnew, hkept, hnone⟩ := hlog log hresumes.since
  obtain ⟨r, ids, hstep, hrlog, hin⟩ := hresumes.delivers _ _ hwait _ hnew hkept hnone
  obtain ⟨stream, s', next, hstream, hadv, rfl⟩ := Pool.stepAt_eq_some.1 hstep
  rw [hwait] at hstream
  cases hstream
  cases Takeover.advance_section hadv with
  | quiet state stands =>
    subst state
    have hlength := congrArg List.length hrlog
    simp at hlength
  | collects generation cursor stands newest ready pending ring state next =>
    subst state
    cases stands
    have hids := List.append_cancel_left hrlog
    injection hids with hids
    injection hids with hids hsame
    rw [← hsame, ring] at hin
    obtain ⟨item, hitem, hid⟩ := List.mem_map.1 hin
    have hle : p.shared.channel.cursor id ≤ item.id := of_decide_eq_true (List.mem_filter.1 hitem).2
    rw [hring.next] at hcursor
    omega

/-- After a numeral too large for 64 bits, everything is collected again. -/
theorem collects_below (hring : Ring p.shared) (hrunning : p.shared.channel.running = true)
    (hsmall : p.shared.enqueued.length + 2 < 2 ^ 64) (hpos : p.shared.channel.replayBufferSize ≠ 0) {N : Nat}
    (hN : IsNumeral id N) (hmax : strtoull id = ullongMax) : ¬ AlwaysResumes p id := by
  intro h
  have hlarge : 2 ^ 64 - 1 ≤ N := by
    have hvalue := numeral_strtoull hN
    unfold ullongMax at hvalue hmax
    omega
  obtain ⟨q, w, g, hq, hr, hlength, hwait, hlog⟩ := exists_waiting id hring hrunning hpos
  obtain ⟨log, hresumes⟩ := h _ q w hq (undisturbed_wait _ [] [] (fun _ hx => by cases hx)) hr (by omega)
  obtain ⟨hnew, hkept, hnone⟩ := hlog log hresumes.since
  obtain ⟨r, ids, hstep, hrlog, hin⟩ := hresumes.delivers _ _ hwait _ hnew hkept hnone
  -- one more section, and the event is collected although its id is small
  have hr' : Lts.run step q ([.enqueue [], .stream p.threads.length, .stream p.threads.length] ++ [.stream p.threads.length]) =
      some r := Lts.run_append_eq_some.2 ⟨w, hr, Lts.run_cons_eq_some.2 ⟨r, hstep, rfl⟩⟩
  have hl := undisturbed_wait p.threads.length [] [.stream p.threads.length] (fun _ hx => List.mem_singleton.1 hx)
  obtain ⟨log', hresumes'⟩ := h _ q r hq hl hr' (by rw [enqueued_stream hstep]; omega)
  have hlog' : log' = log ++ [.collected p.threads.length ids] := by
    have hsince := hresumes'.since
    rw [hrlog, hresumes.since, List.append_assoc] at hsince
    exact (List.append_cancel_left hsince).symm
  have hbelow := hresumes'.resumes N hN (p.shared.enqueued.length + 1) (by
    rw [hlog', collected_snoc]
    exact List.mem_append_right _ (List.mem_map_of_mem hin))
  omega

end

/-- **A stream resumes in every continuation exactly when its id was given out** (or is none, or no numeral that wraps to
zero), unless the ring keeps nothing. -/
theorem alwaysResumes_iff {replayBufferSize : Nat} {retryMs : Int32} {labels : List Label} {p : Pool State Stream}
    (hr : Lts.run step (Takeover.init replayBufferSize retryMs) labels = some p) (hrunning : p.shared.channel.running = true)
    (hsmall : p.shared.enqueued.length + 2 < 2 ^ 64) (lastEventId : Bytes) :
    AlwaysResumes p lastEventId ↔
      p.shared.channel.replayBufferSize = 0 ∨ Resumable p.shared.channel lastEventId := by
  have hring := ring_run (ring_init replayBufferSize retryMs) hr (by omega)
  constructor
  · intro h
    by_contra hnot
    rw [not_or] at hnot
    obtain ⟨hpos, hid⟩ := hnot
    unfold Resumable at hid
    rw [not_or, not_or] at hid
    obtain ⟨hne, hlt, hnumeral⟩ := hid
    by_cases hmax : strtoull lastEventId = ullongMax
    · rw [not_and, not_forall_not] at hnumeral
      obtain ⟨N, hN⟩ := hnumeral hmax
      exact collects_below hring hrunning hsmall hpos hN hmax h
    · have hle := strtoull_le lastEventId
      refine withholds hring hrunning hsmall hpos ?_ h
      rw [cursor_eq hne, wrap64]
      unfold ullongMax at hmax hle
      omega
  · exact alwaysResumes_of_resumable hring hrunning (by omega)

/-- One event was enqueued, and the client has it. -/
theorem alwaysResumes_iff_afterFirst :
    ∃ p, Lts.run step (Takeover.init 2 100) [.enqueue (bytes "a")] = some p ∧ AlwaysResumes p (bytes "1") := by
  refine ⟨_, rfl, (alwaysResumes_iff (Eq.refl (Lts.run step (Takeover.init 2 100) [.enqueue (bytes "a")])) rfl ?_ _).2
    (.inr (.inr (.inl ?_)))⟩
  · decide
  · decide

/-- **Ids that were never given out**: after 5 on a new channel its first event is withheld, and after the largest 64-bit
number it is collected, although its id is smaller. -/
theorem foreignIds_resumeBadly :
    ¬ AlwaysResumes (Takeover.init 1 100) (bytes "5") ∧
      ¬ AlwaysResumes (Takeover.init 1 100) (bytes "18446744073709551615") := by
  have hring := ring_init 1 100
  constructor
  · exact withholds hring rfl (by decide) (by decide) (by decide)
  · have hN : IsNumeral (bytes "18446744073709551615") (2 ^ 64 - 1) := ⟨by decide, by decide +kernel, by decide⟩
    exact collects_below hring rfl (by decide) (by decide) hN (by decide)

end Resume
end Mcp
