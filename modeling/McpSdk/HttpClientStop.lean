import McpSdk.HeadStability
import McpSdk.HttpClientWake
import McpSdk.Lib.Rank
/-!
# HttpClientStop — `disconnect` never blocks on a quiet server

Once another thread's `disconnect` has cleared `running_`, what the SSE thread and that call still have to do is bounded,
whatever the server sends (`rank`), and one of them can always go on: the call returns (`disconnect_returns`).

The handlers return.
-/
namespace Mcp

/-! ## What a read can hold -/

theorem length_takeLine (f : SseFields) (line : Bytes) : (takeLine f line).2.length ≤ 1 := by
  unfold takeLine
  split
  · split <;> simp
  · split <;> simp

theorem length_takeLines : ∀ (f : SseFields) (lines : List Bytes), (takeLines f lines).2.length ≤ lines.length
  | _, [] => Nat.le_refl _
  | f, line :: lines => by
    have hone := length_takeLine f (stripCr line)
    have ih := length_takeLines (takeLine f (stripCr line)).1 lines
    rw [takeLines, List.length_append, List.length_cons]
    omega

/-- **No more events than bytes.** -/
theorem length_feed {p : SseParser} (hp : (10 : UInt8) ∉ p.buffer) (data : Bytes) : (p.feed data).2.length ≤ data.length := by
  have hlines := length_takeLines p.toSseFields (Search.drain 10 (p.buffer ++ data)).1
  rw [Search.length_drain, List.count_append, List.count_eq_zero.2 hp, Nat.zero_add] at hlines
  exact hlines.trans List.count_le_length

/-- A head ends within the bytes that complete it. -/
theorem length_lt_headEnd {buffer chunk : Bytes} {consumed : Nat} (hnone : headEnd buffer = none)
    (h : headEnd (buffer ++ chunk) = some consumed) : buffer.length < consumed := by
  unfold headEnd at hnone h
  cases hcrlf : Search.indexOf (crlf ++ crlf) buffer with
  | some i =>
    rw [hcrlf] at hnone
    cases hnone
  | none =>
    rw [hcrlf] at hnone
    have hlf : Search.indexOf [10, 10] buffer = none := by simpa using hnone
    cases hmore : Search.indexOf (crlf ++ crlf) (buffer ++ chunk) with
    | some i =>
      rw [hmore] at h
      obtain rfl := Option.some.inj h
      exact Search.length_lt_of_append hcrlf hmore
    | none =>
      rw [hmore] at h
      obtain ⟨i, hi, rfl⟩ := Option.map_eq_some_iff.1 h
      exact Search.length_lt_of_append hlf hi

theorem headEnd_of_parsed {requestMode : Bool} {buffer : Bytes} {head : HttpHead} {consumed : Nat}
    (h : parseHead requestMode buffer = .parsed head consumed) : headEnd buffer = some consumed := by
  cases hend : headEnd buffer with
  | none =>
    rw [incomplete_iff.2 hend] at h
    cases h
  | some n =>
    rcases parseHead_complete requestMode hend with ⟨-, head', hparse⟩ | ⟨-, e, -, hparse⟩
    · rw [hparse] at h
      cases h
      rfl
    · rw [hparse] at h
      cases h

namespace HttpClientTransport

/-- **What the SSE thread has to read with**: a head that is not complete or a parser without a line end, and the events of one
read. -/
structure Kept (s : State) : Prop where
  head : ∀ buffer, s.sse.reader = .head buffer → headEnd buffer = none
  clean : ∀ parser, s.sse.reader = .events parser → (10 : UInt8) ∉ parser.buffer
  few : s.sse.events.length ≤ 8192

/-! ## What is left to do -/

/-- How many sections of a `disconnect` are left. -/
def Pc.rank : Pc → Nat
  | .delete => 4
  | .signal => 3
  | .join => 2
  | .reset => 1

/-- How far the SSE thread has to go once `running_` is cleared; it may still read once and deliver the events. -/
def State.loopRank (s : State) : Nat :=
  match s.loop with
  | .absent | .finished => 0
  | .head | .resting | .closing => 1
  | .sleeping _ _ | .leaving => 2
  | .delaying _ | .erring => 3
  | .returned _ => 4
  | .checking => 5
  | .polling _ => 6
  | .entering _ => 7
  | .connecting => 8
  | .delivering => 8 + 2 * s.sse.events.length
  | .handling => 9 + 2 * s.sse.events.length
  | .reading => 9 + 2 * 8192

def rank (s : State) : Nat := s.loopRank + (s.stopping.map (·.2.rank)).getD 0

/-- A step of the SSE thread or of the `disconnect`, as the transport takes them itself. -/
def Label.works : Label → Bool
  | .loop | .connected _ | .readable | .timeout | .pollError | .read _ | .advance => true
  | _ => false

def Label.cost (l : Label) : Nat := if l.works then 1 else 0

/-- Another thread's `disconnect` is under way. -/
def State.stoppedFromOutside (s : State) : Bool := s.stopping.any (!·.1)

section Steps

variable {o : Options} {s t : State} {l : Label} {loop : Loop} {sse : Stream} {told : List Event}

theorem State.exists_pc (h : s.stoppedFromOutside = true) : ∃ pc, s.stopping = some (false, pc) := by
  obtain ⟨⟨own, pc⟩, hat, hother⟩ := (Option.any_eq_true _ _).1 h
  cases own with
  | false => exact ⟨pc, hat⟩
  | true => cases hother

theorem Kept.moves (h : Kept s) (hmove : Move o s loop sse told) : Kept (s.goes loop sse told) := by
  have hsame : ∀ {sse : Stream}, sse.reader = s.sse.reader → sse.events.length ≤ 8192 → Kept (s.goes loop sse told) := by
    intro sse hreader hfew
    refine ⟨fun buffer heq => h.head buffer ?_, fun parser heq => h.clean parser ?_, hfew⟩
    · exact hreader.symm.trans heq
    · exact hreader.symm.trans heq
  have htail : ∀ {e : SseEvent} {events : List SseEvent}, s.sse.events = e :: events → events.length ≤ 8192 := by
    intro e events heq
    have hfew := h.few
    rw [heq, List.length_cons] at hfew
    omega
  have hreads : ∀ {parser : SseParser} {events : List SseEvent}, (10 : UInt8) ∉ parser.buffer → events.length ≤ 8192 →
      Kept (s.goes loop { s.sse with reader := .events parser, events } told) := by
    intro parser events hclean hfew
    refine ⟨fun buffer heq => (by cases heq), fun parser' heq => ?_, hfew⟩
    cases heq
    exact hclean
  cases hmove with
  | request _ => exact ⟨fun buffer heq => (by cases heq; rfl), fun parser heq => (by cases heq), h.few⟩
  | more _ _ incomplete =>
    refine ⟨fun buffer heq => ?_, fun parser heq => (by cases heq), h.few⟩
    cases heq
    exact incomplete_iff.1 incomplete
  | streams _ reader hchunk parsed =>
    refine hreads (Search.not_mem_drain _ _) ?_
    have hlt := length_lt_headEnd (h.head _ reader) (headEnd_of_parsed parsed)
    refine (length_feed List.not_mem_nil _).trans ?_
    rw [List.length_drop, List.length_append]
    omega
  | feeds _ reader hchunk => exact hreads (Search.not_mem_drain _ _) ((length_feed (h.clean _ reader) _).trans hchunk)
  | passes _ events _ => exact hsame rfl (htail events)
  | hands _ events _ => exact hsame rfl (htail events)
  | _ => exact hsame rfl h.few

theorem Kept.step (h : Kept s) (hstep : HttpClientTransport.step o s l = some t) : Kept t := by
  cases (step_cases hstep).2 with
  | section_ own pc label at_ taken => cases taken <;> exact ⟨h.head, h.clean, h.few⟩
  | moves loop sse told move result =>
    rw [result]
    exact h.moves move
  | _ =>
    rename_i result
    rw [result]
    exact ⟨h.head, h.clean, h.few⟩

theorem kept_run {labels : List Label} (h : Lts.run (step o) (start o) labels = some s) : Kept s :=
  Lts.run_invariant (I := Kept) (fun _ _ _ hs hstep => hs.step hstep)
    ⟨fun buffer heq => (by cases heq; rfl), fun parser heq => (by cases heq), Nat.zero_le _⟩ h

/-- **A move of the SSE thread**, once `running_` is cleared. -/
theorem Move.rank (hmove : Move o s loop sse told) (hdown : s.running = false) (ht : Kept (s.goes loop sse told)) :
    (s.goes loop sse told).loopRank + 1 ≤ s.loopRank := by
  have hup : s.running ≠ true := by
    rw [hdown]
    decide
  have hfew := ht.few
  unfold State.loopRank
  cases hmove with
  | enter _ running => exact absurd running hup
  | check _ running => exact absurd running hup
  | rests _ running => exact absurd running hup
  | leave from_ _ => rcases from_ with from_ | from_ <;> rw [from_] <;> exact Nat.le_refl _
  | breaks from_ => rcases from_ with ⟨from_, -⟩ | from_ | ⟨wake, from_⟩ <;> rw [from_] <;> simp only [State.goes] <;> omega
  | streams from_ _ _ _ =>
    rw [from_]
    simp only [State.goes] at hfew ⊢
    omega
  | feeds from_ _ _ =>
    rw [from_]
    simp only [State.goes] at hfew ⊢
    omega
  | passes from_ events _ =>
    rw [from_, events]
    simp only [State.goes, Stream.take, List.length_cons]
    omega
  | hands from_ events _ =>
    rw [from_, events]
    simp only [State.goes, Stream.take, List.length_cons]
    omega
  | drained from_ events =>
    rw [from_, events]
    simp only [State.goes]
    omega
  | _ from_ =>
    rw [from_]
    simp only [State.goes]
    omega

/-- **One step** while another thread's `disconnect` is under way. -/
theorem rank_step (hs : Sound o s) (hkept : Kept s) (hstop : s.stoppedFromOutside = true) (hstep : step o s l = some t)
    (hend : t.end_ = none) : rank t + l.cost ≤ rank s := by
  obtain ⟨pc, hat⟩ := State.exists_pc hstop
  have hdown := hs.stopping (by rw [hat]; rfl)
  have hcost : l.cost ≤ 1 := by
    unfold Label.cost
    split <;> decide
  have houtside : ¬ ∀ pc, s.stopping ≠ some (false, pc) := fun hnone => hnone pc hat
  have hidle : l.works = false → t.loopRank = s.loopRank → t.stopping = s.stopping → rank t + l.cost ≤ rank s := by
    intro hrests hloop hstopping
    unfold rank Label.cost
    rw [hloop, hstopping, hrests]
    exact Nat.le_refl _
  cases (step_cases hstep).2 with
  | ignored label result =>
    subst result
    refine hidle ?_ rfl rfl
    rcases label with ⟨valid, rfl⟩ | ⟨own, rfl⟩ <;> rfl
  | refused label running outside result => exact absurd outside houtside
  | terminates label running loop result =>
    rw [result] at hend
    cases hend
  | unwatched label running outside closed result => exact absurd outside houtside
  | opens label running outside open_ loop result => exact absurd outside houtside
  | stops own label inside running result =>
    rw [hdown] at running
    cases running
  | section_ own pc' label at_ taken =>
    unfold rank
    rw [at_]
    cases taken with
    | join other loop =>
      unfold State.loopRank
      rw [loop]
      simp only [Option.map_some, Option.getD_some, Pc.rank]
      omega
    | reset =>
      have hsame : State.loopRank { s with stopping := none, wake := none, log := s.log ++ [.stopped own] } = s.loopRank := rfl
      rw [hsame]
      simp only [Option.map_none, Option.map_some, Option.getD_none, Option.getD_some, Pc.rank]
      omega
    | delete =>
      have hsame : ∀ log, State.loopRank { s with stopping := some (own, .signal), log } = s.loopRank := fun _ => rfl
      rw [hsame]
      simp only [Option.map_some, Option.getD_some, Pc.rank]
      omega
    | signal =>
      have hsame : ∀ signalled, State.loopRank { s with stopping := some (own, .join), signalled } = s.loopRank := fun _ => rfl
      rw [hsame]
      simp only [Option.map_some, Option.getD_some, Pc.rank]
      omega
    | pass free =>
      have hsame : State.loopRank { s with stopping := some (own, .reset) } = s.loopRank := rfl
      rw [hsame]
      simp only [Option.map_some, Option.getD_some, Pc.rank]
      omega
  | moves loop sse told move result =>
    subst result
    have hless := move.rank hdown (hkept.moves move)
    have hstopping : (s.goes loop sse told).stopping = s.stopping := rfl
    unfold rank
    rw [hstopping]
    omega
  | ends end_ ends result =>
    rw [result] at hend
    cases hend
  | posts label posts sessionId entering result =>
    subst result
    refine hidle ?_ rfl rfl
    rcases label with rfl | ⟨i, outcome, rfl⟩ <;> rfl
  | freed i body wake post gone posts result =>
    rw [result] at hend
    cases hend

theorem Kept.rank_le (h : Kept s) : rank s ≤ 16397 := by
  have hfew := h.few
  have hloop : s.loopRank ≤ 16393 := by
    unfold State.loopRank
    split <;> omega
  have hstop : (s.stopping.map (·.2.rank)).getD 0 ≤ 4 := by
    cases s.stopping with
    | none => exact Nat.zero_le _
    | some at_ =>
      obtain ⟨own, pc⟩ := at_
      cases pc <;> exact Nat.le_of_ble_eq_true rfl
  unfold rank
  omega

/-- **The SSE thread can go on** wherever it is, once the event that it polls is signalled. -/
theorem loop_goes_on (hend : s.end_ = none) (hself : s.stopsItself = false) (habsent : s.loop ≠ .absent)
    (hfinished : s.loop ≠ .finished) (hsignalled : ∀ wake, s.loop.polls = some wake → ∃ w, wake = some w ∧ w ∈ s.signalled) :
    ∃ l, l.works = true ∧ (step o s l).isSome = true := by
  have hup : s.end_.isSome ≠ true := by
    rw [hend]
    decide
  have hloops : (s.advanceLoop o).isSome = true → ∃ l, l.works = true ∧ (step o s l).isSome = true := by
    intro hadv
    refine ⟨.loop, rfl, ?_⟩
    simp only [step, if_neg hup]
    exact hadv
  cases hloop : s.loop with
  | absent => exact absurd hloop habsent
  | finished => exact absurd hloop hfinished
  | connecting =>
    refine ⟨.connected true, rfl, ?_⟩
    simp only [step, if_neg hup, hloop]
    rfl
  | reading =>
    refine ⟨.read [], rfl, ?_⟩
    simp only [step, if_neg hup, hloop]
    rfl
  | polling wake =>
    obtain ⟨w, rfl, hw⟩ := hsignalled wake (by rw [hloop]; rfl)
    refine hloops ?_
    have hany : (some w).any (· ∈ s.signalled) = true := by simpa using hw
    simp only [State.advanceLoop, hloop, hany]
    rfl
  | sleeping wake ms =>
    obtain ⟨w, hsame, hw⟩ := hsignalled (some wake) (by rw [hloop]; rfl)
    cases hsame
    refine hloops ?_
    simp only [State.advanceLoop, hloop, if_pos hw]
    rfl
  | entering wake =>
    refine hloops ?_
    simp only [State.advanceLoop, hloop]
    split <;> rfl
  | delivering =>
    refine hloops ?_
    simp only [State.advanceLoop, hloop]
    split
    · rfl
    · split <;> rfl
  | returned delivered =>
    refine hloops ?_
    cases delivered with
    | true =>
      simp only [State.advanceLoop, hloop]
      rfl
    | false =>
      simp only [State.advanceLoop, hloop]
      split
      · rfl
      · split <;> rfl
  | delaying ms =>
    refine hloops ?_
    simp only [State.advanceLoop, hloop]
    split <;> rfl
  | leaving =>
    refine hloops ?_
    simp only [State.advanceLoop, hloop]
    split <;> rfl
  | _ =>
    refine hloops ?_
    simp only [State.advanceLoop, hloop, hself]
    rfl

/-- **Something can always go on** while another thread's `disconnect` is under way: the SSE thread, or the thread that waits for
it. -/
theorem goes_on (hs : Sound o s) (hend : s.end_ = none) (hstop : s.stoppedFromOutside = true) :
    ∃ l, l.works = true ∧ (step o s l).isSome = true := by
  obtain ⟨pc, hat⟩ := State.exists_pc hstop
  have hadvances : s.advance.isSome = true → ∃ l, l.works = true ∧ (step o s l).isSome = true := by
    intro hadv
    refine ⟨.advance, rfl, ?_⟩
    simp only [step, hend]
    exact hadv
  cases pc with
  | join =>
    by_cases habsent : s.loop = .absent
    · refine hadvances ?_
      simp only [State.advance, hat, habsent]
      rfl
    by_cases hfinished : s.loop = .finished
    · refine hadvances ?_
      simp only [State.advance, hat, hfinished]
      rfl
    have hattached : s.Attached := .inr ⟨_, hat⟩
    have hself : s.stopsItself = false := by
      rw [State.stopsItself, hat]
      rfl
    -- the event that the SSE thread polls has been signalled
    refine loop_goes_on hend hself habsent hfinished fun wake hpolls => ?_
    obtain ⟨w, hw⟩ := Option.isSome_iff_exists.1 (hs.awake hattached)
    exact ⟨w, (hs.polled hattached wake hpolls).trans hw, hs.signalled hat w hw⟩
  | _ =>
    refine hadvances ?_
    simp only [State.advance, hat]
    rfl

end Steps

end HttpClientTransport
end Mcp
