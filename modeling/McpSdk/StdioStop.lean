import McpSdk.Lib.Rank
import McpSdk.StdioLines
import Mathlib.Data.List.Count
/-!
# StdioStop — `disconnect` never blocks on a quiet peer

Once a thread has called `disconnect`, what the reader thread and the calls of `disconnect` still have to do is bounded,
whatever the peer writes (`rank`), and one of them can always go on: the call returns (`stop_returns`).

The handlers return.
-/
namespace Mcp
namespace StdioTransport

/-- How many sections of a `disconnect` are left. -/
def Pc.rank : Pc → Nat
  | .check _ => 5
  | .signal => 4
  | .join => 3
  | .reset => 2
  | .closeFds => 1

def stopRank (pc : Option Pc) : Nat := (pc.map Pc.rank).getD 0

/-- How far the reader thread has to go once `running_` is cleared, by the line ends in its buffer; it may still read one
chunk and cut its lines. -/
def Reader.rank (lineEnds : Nat) : Reader → Nat
  | .absent | .finished => 0
  | .closing => 1
  | .leaving => 2
  | .erring | .head => 3
  | .readFailed | .woken => 4
  | .cutting => 4 + 2 * lineEnds
  | .handling => 5 + 2 * lineEnds
  | .reading => 5 + 2 * (lineEnds + 4096)
  | .polling _ => 6 + 2 * (lineEnds + 4096)

def State.readerRank (s : State) : Nat := s.reader.rank (s.buffer.count 10)

def rank (s : State) : Nat := s.readerRank + stopRank s.outside + stopRank s.own

/-- A step of the reader thread or of a `disconnect`, as the transport takes them itself. -/
def Label.works : Label → Bool
  | .reader | .read _ | .pollError | .readError | .advance | .advanceOwn => true
  | _ => false

/-- What a step takes off the rank; what a handler's `disconnect` puts on it. -/
def Label.cost (l : Label) : Nat := if l.works then 1 else 0

def Label.credit (l : Label) : Nat := if l = .disconnectOwn then 5 else 0

section Steps

variable {ownsFds : Bool} {s t : State} {l : Label}

/-- A section of a `disconnect` brings it nearer to its end. -/
theorem advance_rank {own : Bool} {pc : Pc} {u : State} {next : Option Pc} (hadv : s.advance ownsFds own pc = some (u, next)) :
    stopRank next + 1 ≤ pc.rank := by
  cases pc with
  | check wasRunning =>
    cases hadv
    split <;> exact Nat.le_of_ble_eq_true rfl
  | signal =>
    simp only [State.advance] at hadv
    split at hadv <;> cases hadv <;> decide
  | join =>
    simp only [State.advance] at hadv
    split at hadv
    · cases hadv
      decide
    · split at hadv
      · cases hadv
        decide
      · cases hadv
  | _ =>
    cases hadv
    decide

theorem advance_stopping {own : Bool} {pc : Pc} {u : State} {next : Option Pc} (hadv : s.advance ownsFds own pc = some (u, next))
    (other : Bool) : u.stopping other = s.stopping other := by
  cases pc with
  | signal =>
    simp only [State.advance] at hadv
    split at hadv <;> cases hadv <;> rfl
  | join =>
    simp only [State.advance] at hadv
    split at hadv
    · cases hadv
      rfl
    · split at hadv
      · cases hadv
        rfl
      · cases hadv
  | _ =>
    cases hadv
    rfl

/-- And leaves the reader thread where it is, or joins it. -/
theorem advance_readerRank {own : Bool} {pc : Pc} {u : State} {next : Option Pc} (hadv : s.advance ownsFds own pc = some (u, next)) :
    (u.stoppedAt own next).readerRank ≤ s.readerRank := by
  obtain ⟨-, -, -, hbuffer, -, hreader⟩ := advance_keeps hadv
  obtain ⟨-, -, -, hbuffer', hreader', -⟩ := stoppedAt_keeps u own next
  unfold State.readerRank
  rw [hreader', hbuffer', hbuffer]
  rcases hreader with heq | ⟨-, heq⟩
  · rw [heq]
  · rw [heq]
    exact Nat.zero_le _

theorem stoppedAt_rank (u : State) (own : Bool) (next : Option Pc) :
    stopRank (u.stoppedAt own next).outside + stopRank (u.stoppedAt own next).own =
      stopRank next + stopRank (u.stopping !own) := by
  cases own with
  | true => exact Nat.add_comm _ _
  | false =>
    unfold State.stoppedAt
    cases next <;> rfl

/-- A line end is cut off with its line. -/
theorem count_of_found {buffer : Bytes} {pos : Nat} (h : Search.indexOf [10] buffer = some pos) :
    buffer.count 10 = (buffer.drop (pos + 1)).count 10 + 1 := by
  obtain ⟨line, rest, rfl, hnone, rfl⟩ := Search.exists_split (List.cons_ne_nil _ _) h
  have hrest : (line ++ [10] ++ rest).drop (line.length + 1) = rest := List.drop_left' (by simp)
  rw [hrest, List.count_append, List.count_append, List.count_eq_zero.2 (Search.indexOf_singleton_eq_none.1 hnone),
    List.count_singleton_self]
  omega

/-- A move of the reader thread, once `running_` is cleared. -/
theorem Move.rank {reader : Reader} (hmove : Move s reader) (hrunning : s.running = false) (lineEnds : Nat) :
    reader.rank lineEnds + 1 ≤ s.reader.rank lineEnds := by
  cases hmove with
  | enter _ running =>
    rw [hrunning] at running
    cases running
  | again _ running =>
    rw [hrunning] at running
    cases running
  | leave from_ _ => rcases from_ with from_ | from_ <;> rw [from_] <;> simp only [Reader.rank] <;> omega
  | ready wake from_ _ =>
    rw [from_]
    simp only [Reader.rank]
    omega
  | woken wake from_ _ =>
    rw [from_]
    simp only [Reader.rank]
    omega
  | _ from_ =>
    rw [from_]
    simp only [Reader.rank]
    omega

/-- **One step** while a thread is in `disconnect`. -/
theorem rank_step (h : Sound s) (hstop : s.outside.isSome = true) (hstep : step ownsFds s l = some t) (hfault : t.fault = none) :
    rank t + l.cost ≤ rank s + l.credit := by
  have hrunning := h.stopping hstop
  have hcost : l.cost ≤ 1 := by
    unfold Label.cost
    split <;> decide
  -- the reader thread goes on alone
  have hreader : ∀ {t : State}, t.outside = s.outside → t.own = s.own → t.readerRank + 1 ≤ s.readerRank →
      rank t + l.cost ≤ rank s + l.credit := by
    intro t hout hown hless
    unfold rank
    rw [hout, hown]
    omega
  have hnone : s.outside ≠ none := by
    intro heq
    rw [heq] at hstop
    cases hstop
  cases (step_cases hstep).2 with
  | ignored running result =>
    rw [hrunning] at running
    cases running
  | refused running outside result => exact absurd outside hnone
  | terminates result =>
    rw [result] at hfault
    cases hfault
  | opens running outside reader result => exact absurd outside hnone
  | stops label outside result => exact absurd outside hnone
  | stopsOwn label own reader result =>
    rw [result, label]
    unfold rank
    rw [own]
    exact Nat.le_refl _
  | section_ own label pc at_ u next adv result =>
    rw [result]
    have hpc := advance_rank adv
    have hreaderRank := advance_readerRank adv
    have hsum := stoppedAt_rank u own next
    have hbefore : stopRank s.outside + stopRank s.own = pc.rank + stopRank (s.stopping !own) := by
      cases own with
      | true =>
        rw [show s.own = some pc from at_]
        exact Nat.add_comm _ _
      | false =>
        rw [show s.outside = some pc from at_]
        rfl
    rw [advance_stopping adv] at hsum
    unfold rank
    omega
  | moves reader move result =>
    rw [result]
    exact hreader rfl rfl (move.rank hrunning _)
  | faults fault faulty result =>
    rw [result] at hfault
    cases hfault
  | errs e reader result =>
    rw [result]
    refine hreader rfl rfl ?_
    unfold State.readerRank
    rcases reader with reader | ⟨wake, reader⟩ <;> rw [reader] <;> simp only [Reader.rank, State.log] <;> omega
  | cuts pos reader found result =>
    rw [result]
    refine hreader rfl rfl ?_
    have hcount := count_of_found found
    unfold State.readerRank
    rw [reader]
    simp only [Reader.rank, State.log]
    omega
  | closes reader result =>
    rw [result]
    refine hreader rfl rfl ?_
    unfold State.readerRank
    rw [reader]
    simp only [Reader.rank, State.log]
    omega
  | reads size reader chunk result =>
    rw [result]
    refine hreader rfl rfl ?_
    unfold State.readerRank
    have hcount : (s.incoming.take size).count 10 ≤ size := List.count_le_length.trans (List.length_take_le _ _)
    rw [reader]
    simp only [Reader.rank, List.count_append]
    omega
  | writes data label result =>
    rw [result, label]
    exact Nat.le_refl _
  | peerCloses label result =>
    rw [result, label]
    exact Nat.le_refl _

/-- A `disconnect` that is under way was so before, or has just been called. -/
theorem outside_of_step (hstep : step ownsFds s l = some t) (hstop : t.outside.isSome = true) :
    s.outside.isSome = true ∨ l = .disconnect := by
  cases (step_cases hstep).2 with
  | stops label outside result => exact .inr label
  | section_ own label pc at_ u next adv result =>
    have hsame : u.outside = s.outside := advance_stopping adv false
    rw [result] at hstop
    left
    cases own with
    | true => rwa [← hsame]
    | false => rw [show s.outside = some pc from at_]; rfl
  | _ =>
    rename_i result
    rw [result] at hstop
    exact .inl hstop

theorem fault_of_run {labels : List Label} (h : Lts.run (step ownsFds) s labels = some t) (hfault : t.fault = none) :
    s.fault = none := by
  cases labels with
  | nil =>
    obtain rfl : s = t := by simpa using h
    exact hfault
  | cons l labels =>
    obtain ⟨u, hu, -⟩ := Lts.run_cons_eq_some.1 h
    exact (step_cases hu).1

/-- **A run** while a thread is in `disconnect`. -/
theorem rank_run {labels : List Label} (hs : Sound s) (h : Lts.run (step ownsFds) s labels = some t) (hfault : t.fault = none)
    (hstill : t.outside.isSome = true) (hno : .disconnect ∉ labels) :
    rank t + (labels.map Label.cost).sum ≤ rank s + (labels.map Label.credit).sum :=
  (Lts.paid_run (I := fun s => s.fault = none → Sound s) (W := fun s => s.fault = none ∧ s.outside.isSome = true)
    (G := fun _ l => l ≠ Label.disconnect) (fun _ _ _ hs hstep hfault => (hs (step_cases hstep).1).step hstep hfault)
    (fun _ _ _ hl hstep ht => ⟨(step_cases hstep).1, (outside_of_step hstep ht.2).resolve_right hl⟩)
    (fun _ _ _ hs _ hWs hWt hstep => rank_step (hs hWs.1) hWs.2 hstep hWt.1) (fun _ => hs) h ⟨hfault, hstill⟩
    (Lts.meets_of_mem s fun _ hl heq => hno (by rwa [heq] at hl))).2

/-- The buffer holds no more than one chunk of line ends. -/
theorem count_step (hkept : Kept s) (hstep : step ownsFds s l = some t) (h : s.buffer.count 10 ≤ 4096) :
    t.buffer.count 10 ≤ 4096 := by
  cases (step_cases hstep).2 with
  | opens running outside reader result =>
    rw [result]
    exact Nat.zero_le _
  | section_ own label pc at_ u next adv result =>
    obtain ⟨-, -, -, hbuffer, -, -⟩ := advance_keeps adv
    obtain ⟨-, -, -, hbuffer', -, -⟩ := stoppedAt_keeps u own next
    rw [result, hbuffer', hbuffer]
    exact h
  | cuts pos reader found result =>
    rw [result]
    exact ((List.drop_sublist _ _).count_le _).trans h
  | reads size reader chunk result =>
    have hclean : (10 : UInt8) ∉ s.buffer := hkept.clean (by rw [reader]; rintro (heq | heq) <;> cases heq)
    have hcount : (s.incoming.take size).count 10 ≤ size := List.count_le_length.trans (List.length_take_le _ _)
    rw [result]
    dsimp only
    rw [List.count_append, List.count_eq_zero.2 hclean]
    omega
  | _ =>
    rename_i result
    rw [result]
    exact h

theorem count_run {labels : List Label} (h : Lts.run (step ownsFds) {} labels = some s) : s.buffer.count 10 ≤ 4096 :=
  (Lts.run_invariant (I := fun s => Kept s ∧ s.buffer.count 10 ≤ 4096)
    (fun _ _ _ hs hstep => ⟨hs.1.step hstep, count_step hs.1 hstep hs.2⟩) ⟨kept_start, Nat.zero_le _⟩ h).2

theorem stopRank_le (pc : Option Pc) : stopRank pc ≤ 5 := by
  cases pc with
  | none => exact Nat.zero_le _
  | some pc => cases pc <;> exact Nat.le_of_ble_eq_true rfl

theorem Kept.rank_le (h : Kept s) (hcount : s.buffer.count 10 ≤ 4096) : rank s ≤ 8208 := by
  have hclean : ¬ s.reader.cutsLines → s.buffer.count 10 = 0 := fun hcuts => List.count_eq_zero.2 (h.clean hcuts)
  have hreader : s.readerRank ≤ 8198 := by
    unfold State.readerRank
    cases hr : s.reader with
    | polling wake =>
      have hzero := hclean (by rw [hr]; rintro (heq | heq) <;> cases heq)
      simp only [Reader.rank]
      omega
    | reading =>
      have hzero := hclean (by rw [hr]; rintro (heq | heq) <;> cases heq)
      simp only [Reader.rank]
      omega
    | _ =>
      simp only [Reader.rank]
      omega
  have hout := stopRank_le s.outside
  have hown := stopRank_le s.own
  unfold rank
  omega

/-- **The reader thread can read** what is there, or the end of the input. -/
theorem read_goes_on (h : Sound s) (hfault : s.fault = none) (hreader : s.reader = .reading) :
    ∃ l, l.works = true ∧ (step ownsFds s l).isSome = true := by
  obtain ⟨hopen, hready⟩ := h.readable hreader
  have hread : ∀ size, (s.read size).isSome = true → ∃ l, l.works = true ∧ (step ownsFds s l).isSome = true := by
    intro size hsize
    refine ⟨.read size, rfl, ?_⟩
    simp only [step, hfault]
    exact hsize
  by_cases hincoming : s.incoming = []
  · refine hread 0 ?_
    unfold State.read
    rw [if_neg (not_not_intro hreader), hopen, if_neg (by decide), if_pos rfl,
      if_pos ⟨hincoming, hready.resolve_left (not_not_intro hincoming)⟩]
    rfl
  · refine hread 1 ?_
    unfold State.read
    rw [if_neg (not_not_intro hreader), hopen, if_neg (by decide), if_neg (by decide),
      if_pos ⟨by decide, List.length_pos_iff.2 hincoming⟩]
    rfl

/-- **Something can always go on** while a thread is in `disconnect`: a handler's own call, the reader thread, or the thread
that waits for it. -/
theorem goes_on (h : Sound s) (hfault : s.fault = none) (hstop : s.outside.isSome = true) :
    ∃ l, l.works = true ∧ (step ownsFds s l).isSome = true := by
  have hup : s.fault.isSome ≠ true := by
    rw [hfault]
    decide
  obtain ⟨pc, hpc⟩ := Option.isSome_iff_exists.1 hstop
  have hsection : (s.advance ownsFds false pc).isSome = true → ∃ l, l.works = true ∧ (step ownsFds s l).isSome = true := by
    intro hadv
    refine ⟨.advance, rfl, ?_⟩
    simp only [step, if_neg hup, hpc, Option.isSome_map]
    exact hadv
  have hreads : s.advanceReader.isSome = true → ∃ l, l.works = true ∧ (step ownsFds s l).isSome = true := by
    intro hadv
    refine ⟨.reader, rfl, ?_⟩
    simp only [step, if_neg hup]
    exact hadv
  cases hown : s.own with
  | some own =>
    refine ⟨.advanceOwn, rfl, ?_⟩
    simp only [step, if_neg hup, hown, Option.isSome_map]
    cases own with
    | signal =>
      simp only [State.advance]
      split <;> rfl
    | _ => rfl
  | none =>
    have hended : s.reader = .absent ∨ s.reader = .finished → ∃ l, l.works = true ∧ (step ownsFds s l).isSome = true := by
      intro hreader
      refine hsection ?_
      cases pc with
      | signal =>
        simp only [State.advance]
        split <;> rfl
      | join =>
        simp only [State.advance]
        rcases hreader with hreader | hreader <;> rw [hreader] <;> rfl
      | _ => rfl
    cases hreader : s.reader with
    | absent => exact hended (.inl hreader)
    | finished => exact hended (.inr hreader)
    | polling wake =>
      obtain ⟨w, rfl, hw, hwho⟩ := h.polled wake hreader
      rcases hwho with hrunning | hcheck | hsignal | ⟨-, hsignalled⟩
      · rw [h.stopping hstop] at hrunning
        cases hrunning
      · obtain rfl : pc = .check true := Option.some.inj (hpc.symm.trans hcheck)
        exact hsection rfl
      · obtain rfl : pc = .signal := Option.some.inj (hpc.symm.trans hsignal)
        refine hsection ?_
        simp only [State.advance, hw]
        rfl
      · refine hreads ?_
        have hpoll : s.poll (some w) = some false := by
          unfold State.poll
          rw [if_pos (by simpa using hsignalled)]
        have halive : ¬ ((some w).isSome && decide (some w ≠ s.wake)) = true := by
          rw [hw]
          simp
        simp only [State.advanceReader, hreader, if_neg halive, hpoll]
        rfl
    | reading => exact read_goes_on h hfault hreader
    | cutting =>
      refine hreads ?_
      simp only [State.advanceReader, hreader]
      split <;> rfl
    | _ =>
      refine hreads ?_
      simp only [State.advanceReader, hreader, hown]
      rfl

theorem sum_cost (labels : List Label) : (labels.map Label.cost).sum = (labels.filter Label.works).length :=
  Lts.sum_cost Label.works labels

theorem sum_credit : ∀ labels : List Label, (labels.map Label.credit).sum = 5 * labels.count .disconnectOwn
  | [] => rfl
  | l :: labels => by
    rw [List.map_cons, List.sum_cons, sum_credit labels, List.count_cons, Label.credit]
    simp only [beq_iff_eq]
    split <;> omega

/-- **`disconnect` returns**, whatever the peer does: from the call of another thread on, in any state of any run, the reader
thread and the calls of `disconnect` take at most 8208 steps of their own, and five more for every `disconnect` that a
handler calls meanwhile, before it has returned; and until then one of them can always go on. -/
theorem stop_returns {labels more : List Label} (h : Lts.run (step ownsFds) {} labels = some s)
    (hmore : Lts.run (step ownsFds) s more = some t) (hfault : t.fault = none) (hstill : t.outside.isSome = true)
    (hno : .disconnect ∉ more) :
    (more.filter Label.works).length ≤ 8208 + 5 * more.count .disconnectOwn ∧
      ∃ l, l.works = true ∧ (step ownsFds t l).isSome = true := by
  have hs := sound_run h (fault_of_run hmore hfault)
  have ht : Lts.run (step ownsFds) {} (labels ++ more) = some t := Lts.run_append_eq_some.2 ⟨s, h, hmore⟩
  have hrank := rank_run hs hmore hfault hstill hno
  have hbound := (kept_run h).rank_le (count_run h)
  rw [sum_cost, sum_credit] at hrank
  exact ⟨by omega, goes_on (sound_run ht hfault) hfault hstill⟩

end Steps

/-- The reader thread polls a quiet peer when another thread calls `disconnect`. -/
theorem stop_returns_quiet : ∃ s t, Lts.run (step true) {} [.connect true, .reader, .disconnect] = some s ∧
    Lts.run (step true) s [.advance, .advance, .peerWrites (bytes "ping\n"), .reader] = some t ∧ t.reader = .woken ∧
      ∃ l, l.works = true ∧ (step true t l).isSome = true := by
  have hrun : Lts.run (step true) {} [.connect true, .reader, .disconnect] = some _ := rfl
  obtain ⟨-, hgoes⟩ := @stop_returns true _ _ _ [.advance, .advance, .peerWrites (bytes "ping\n"), .reader] hrun rfl rfl rfl
    (by decide)
  exact ⟨_, _, hrun, rfl, rfl, hgoes⟩

end StdioTransport
end Mcp
