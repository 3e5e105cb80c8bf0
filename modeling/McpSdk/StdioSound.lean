import McpSdk.StdioTransport
/-!
# StdioSound — the wake event and the input of the reader thread

The reader thread polls no wake event that was destroyed and reads nothing that was closed.  A handler that calls
`disconnect` while another thread does can reset the event that the other is about to signal (`nullWake_torn`); apart from
that no null event is signalled (`used_in_time`).
-/
namespace Mcp
namespace StdioTransport

/-! ## The wake event and the input -/

/-- The event that the reader thread polls is there, and whoever has cleared `running_` signals it or has done so. -/
def State.WakesReader (s : State) (wake : Nat) : Prop :=
  s.wake = some wake ∧ (s.running = true ∨ s.outside = some (.check true) ∨ s.outside = some .signal ∨
    s.outside = some .join ∧ wake ∈ s.signalled)

/-- **What holds between the threads.** -/
structure Sound (s : State) : Prop where
  inside : s.own.isSome = true → s.reader.inHandler = true ∧ s.running = false
  stopping : s.outside.isSome = true → s.running = false
  joined : s.outside = some .reset ∨ s.outside = some .closeFds → s.reader = .absent
  idle : s.reader = .absent ∨ s.reader = .closing ∨ s.reader = .finished → s.running = false
  awake : s.running = true → s.wake.isSome = true
  polled : ∀ wake, s.reader = .polling wake → ∃ w, wake = some w ∧ s.WakesReader w
  readable : s.reader = .reading → s.inOpen = true ∧ (s.incoming ≠ [] ∨ s.ended = true)

/-- A handler calls `disconnect` outside the sections in which another thread's tests and signals the wake event. -/
def Apart (s : State) (l : Label) : Prop := l = .disconnectOwn → s.outside ≠ some (.check true) ∧ s.outside ≠ some .signal

instance (s : State) (l : Label) : Decidable (Apart s l) := inferInstanceAs (Decidable (_ → _))

/-- While another thread tests and signals the wake event, nobody resets it. -/
structure Alone (s : State) : Prop where
  own : s.outside = some (.check true) ∨ s.outside = some .signal → s.own = none
  signal : s.outside = some .signal ∨ s.own = some .signal → s.wake.isSome = true

section Steps

variable {ownsFds : Bool} {s t : State} {l : Label}

/-- A move of the reader thread starts outside of its handlers' calls of `disconnect`, and the thread is there. -/
theorem Sound.own_eq_none (h : Sound s) (hreader : s.reader.inHandler = false) : s.own = none := by
  cases hown : s.own with
  | none => rfl
  | some pc =>
    rw [(h.inside (by rw [hown]; rfl)).1] at hreader
    cases hreader

theorem Move.alone {reader : Reader} (hmove : Move s reader) (h : Sound s) : s.own = none ∧ s.reader ≠ .absent := by
  have hout : ∀ {r : Reader}, s.reader = r → r.inHandler = false → r ≠ .absent → s.own = none ∧ s.reader ≠ .absent := by
    intro r heq hr hne
    rw [heq]
    exact ⟨h.own_eq_none (by rw [heq]; exact hr), hne⟩
  have hin : ∀ {r : Reader}, s.reader = r → s.own = none → r ≠ .absent → s.own = none ∧ s.reader ≠ .absent := by
    intro r heq hown hne
    rw [heq]
    exact ⟨hown, hne⟩
  cases hmove with
  | enter reader _ => exact hout reader rfl (by decide)
  | leave reader _ =>
    rcases reader with reader | reader
    · exact hout reader rfl (by decide)
    · exact hout reader rfl (by decide)
  | recover reader own => exact hin reader own (by decide)
  | eof reader => exact hout reader rfl (by decide)
  | ready wake reader _ => exact hout reader rfl (fun heq => by cases heq)
  | woken wake reader _ => exact hout reader rfl (fun heq => by cases heq)
  | again reader _ => exact hout reader rfl (by decide)
  | silent reader _ => exact hout reader rfl (by decide)
  | drained reader _ => exact hout reader rfl (by decide)
  | handled reader own => exact hin reader own (by decide)
  | closed reader own => exact hin reader own (by decide)
  | fail reader => exact hout reader rfl (by decide)

/-- What the reader thread must find where it goes. -/
theorem Sound.goes (h : Sound s) {reader : Reader} (halone : s.own = none ∧ s.reader ≠ .absent)
    (hidle : reader = .absent ∨ reader = .closing ∨ reader = .finished → s.running = false)
    (hpolled : ∀ wake, reader = .polling wake → ∃ w, wake = some w ∧ s.WakesReader w)
    (hreadable : reader = .reading → s.inOpen = true ∧ (s.incoming ≠ [] ∨ s.ended = true)) : Sound { s with reader } where
  inside := fun hown => by
    dsimp only at hown
    rw [halone.1] at hown
    cases hown
  stopping := h.stopping
  joined := fun hjoined => absurd (h.joined hjoined) halone.2
  idle := hidle
  awake := h.awake
  polled := hpolled
  readable := hreadable

theorem State.poll_ready {wake : Option Nat} (h : s.poll wake = some true) : s.inOpen = true ∧ (s.incoming ≠ [] ∨ s.ended = true) := by
  unfold State.poll at h
  split at h
  · cases h
  · split at h
    · rename_i hready
      simpa using hready
    · cases h

theorem Sound.moves {reader : Reader} (h : Sound s) (hmove : Move s reader) : Sound { s with reader } := by
  have halone := hmove.alone h
  cases hmove with
  | enter _ running =>
    refine h.goes halone (fun hor => (by simp at hor)) (fun wake heq => ?_) fun heq => (by cases heq)
    obtain rfl := Reader.polling.inj heq
    obtain ⟨w, hw⟩ := Option.isSome_iff_exists.1 (h.awake running)
    exact ⟨w, hw, hw, .inl running⟩
  | ready wake _ poll => exact h.goes halone (fun hor => (by simp at hor)) (fun _ heq => (by cases heq)) fun _ => s.poll_ready poll
  | silent _ running => exact h.goes halone (fun _ => running) (fun _ heq => (by cases heq)) fun heq => (by cases heq)
  | closed reader _ =>
    exact h.goes halone (fun _ => h.idle (.inr (.inl reader))) (fun _ heq => (by cases heq)) fun heq => (by cases heq)
  | _ => exact h.goes halone (fun hor => (by simp at hor)) (fun _ heq => (by cases heq)) fun heq => (by cases heq)

/-- While the reader thread is in a handler, or gone, the wake event and the descriptors are nobody's. -/
theorem Sound.parked (h : Sound s) (hreader : s.reader.inHandler = true ∨ s.reader = .absent ∧ s.own = none)
    (hrunning : s.running = false) (wake : Option Nat) (signalled : List Nat) (inOpen : Bool) (own outside : Option Pc)
    (hown : s.reader = .absent → own = none) (hout : s.reader = .absent ∨ outside = s.outside) :
    Sound { s with wake, signalled, inOpen, own, outside } where
  inside := fun hsome => by
    refine ⟨hreader.resolve_right fun habsent => ?_, hrunning⟩
    dsimp only at hsome
    rw [hown habsent.1] at hsome
    cases hsome
  stopping := fun _ => hrunning
  joined := fun hjoined => by
    rcases hout with habsent | hsame
    · exact habsent
    · dsimp only at hjoined
      rw [hsame] at hjoined
      exact h.joined hjoined
  idle := fun _ => hrunning
  awake := fun hup => by
    dsimp only at hup
    rw [hrunning] at hup
    cases hup
  polled := fun w heq => by
    dsimp only at heq
    rw [heq] at hreader
    rcases hreader with hin | habsent
    · cases hin
    · cases habsent.1
  readable := fun heq => by
    dsimp only at heq
    rw [heq] at hreader
    rcases hreader with hin | habsent
    · cases hin
    · cases habsent.1

theorem Reader.ne_absent_of_inHandler {r : Reader} (h : r.inHandler = true) : r ≠ .absent := by
  intro heq
  rw [heq] at h
  cases h

/-- A section of a handler's `disconnect`. -/
theorem Sound.advanceOwn {pc : Pc} {u : State} {next : Option Pc} (h : Sound s) (hat : s.own = some pc)
    (hadv : s.advance ownsFds true pc = some (u, next)) (hfault : u.fault = none) : Sound (u.stoppedAt true next) := by
  obtain ⟨hin, hrunning⟩ := h.inside (by rw [hat]; rfl)
  have hown : ∀ {own : Option Pc}, s.reader = .absent → own = none := fun habsent => absurd habsent (Reader.ne_absent_of_inHandler hin)
  have hparked := fun wake signalled inOpen own =>
    h.parked (.inl hin) hrunning wake signalled inOpen own s.outside hown (.inr rfl)
  cases pc with
  | check wasRunning =>
    cases hadv
    exact hparked s.wake s.signalled s.inOpen _
  | signal =>
    simp only [State.advance] at hadv
    split at hadv
    · cases hadv
      exact hparked s.wake _ s.inOpen _
    · cases hadv
      cases hfault
  | join =>
    simp only [State.advance, Bool.true_or, if_true] at hadv
    cases hadv
    exact hparked s.wake s.signalled s.inOpen _
  | reset =>
    cases hadv
    exact hparked none s.signalled s.inOpen _
  | closeFds =>
    cases hadv
    exact hparked s.wake s.signalled _ none

/-- A section of another thread's `disconnect`. -/
theorem Sound.advance {pc : Pc} {u : State} {next : Option Pc} (h : Sound s) (hat : s.outside = some pc)
    (hadv : s.advance ownsFds false pc = some (u, next)) (hfault : u.fault = none) : Sound (u.stoppedAt false next) := by
  have hrunning := h.stopping (by rw [hat]; rfl)
  have hdown : s.running ≠ true := by
    rw [hrunning]
    decide
  cases pc with
  | check wasRunning =>
    cases hadv
    refine ⟨h.inside, fun _ => hrunning, fun hjoined => ?_, h.idle, h.awake, fun wake hpolling => ?_, h.readable⟩
    · exfalso
      unfold State.stoppedAt at hjoined
      simp only [reduceCtorEq, if_false, Bool.false_eq_true] at hjoined
      split at hjoined <;> simp at hjoined
    · obtain ⟨w, rfl, hw, hwho⟩ := h.polled wake hpolling
      obtain rfl : wasRunning = true := by
        rw [hat] at hwho
        simpa [hrunning] using hwho
      refine ⟨w, rfl, hw, .inr (.inr (.inl ?_))⟩
      simp [State.stoppedAt, hw]
  | signal =>
    simp only [State.advance] at hadv
    split at hadv
    · rename_i w' hw'
      cases hadv
      refine ⟨h.inside, fun _ => hrunning, fun hjoined => ?_, h.idle, h.awake, fun wake hpolling => ?_, h.readable⟩
      · simp [State.stoppedAt] at hjoined
      · obtain ⟨w, rfl, hw, -⟩ := h.polled wake hpolling
        obtain rfl : w = w' := Option.some.inj (hw.symm.trans hw')
        refine ⟨w, rfl, hw, .inr (.inr (.inr ⟨?_, ?_⟩))⟩
        · simp [State.stoppedAt]
        · simp [State.stoppedAt]
    · cases hadv
      cases hfault
  | join =>
    simp only [State.advance, Bool.false_or, decide_eq_true_eq] at hadv
    split at hadv
    · rename_i habsent
      cases hadv
      have hown := h.own_eq_none (by rw [habsent]; rfl)
      exact h.parked (.inr ⟨habsent, hown⟩) hrunning s.wake s.signalled s.inOpen s.own (some .reset) (fun _ => hown) (.inl habsent)
    · split at hadv
      · rename_i hfinished
        cases hadv
        have hown := h.own_eq_none (by rw [hfinished]; rfl)
        refine ⟨fun hsome => ?_, fun _ => hrunning, fun _ => rfl, fun _ => hrunning, h.awake, fun wake heq => (by cases heq),
          fun heq => (by cases heq)⟩
        have hnone : (some Pc.reset).isSome = true ∧ s.own.isSome = true := ⟨rfl, hsome⟩
        rw [hown] at hnone
        cases hnone.2
      · cases hadv
  | reset =>
    cases hadv
    have habsent := h.joined (.inl hat)
    have hown := h.own_eq_none (by rw [habsent]; rfl)
    exact h.parked (.inr ⟨habsent, hown⟩) hrunning none s.signalled s.inOpen s.own (some .closeFds) (fun _ => hown) (.inl habsent)
  | closeFds =>
    cases hadv
    have habsent := h.joined (.inr hat)
    have hown := h.own_eq_none (by rw [habsent]; rfl)
    have hparked := h.parked (.inr ⟨habsent, hown⟩) hrunning s.wake s.signalled (s.inOpen && !ownsFds) s.own none
      (fun _ => hown) (.inl habsent)
    exact ⟨hparked.inside, hparked.stopping, hparked.joined, hparked.idle, hparked.awake, hparked.polled, hparked.readable⟩

/-- **One step** keeps the threads in order, as long as it faults nothing. -/
theorem Sound.step (h : Sound s) (hstep : StdioTransport.step ownsFds s l = some t) (hfault : t.fault = none) : Sound t := by
  have hidle : ∀ {r : Reader}, s.reader = r → r.inHandler = false → s.own = none := by
    intro r heq hr
    exact h.own_eq_none (by rw [heq]; exact hr)
  have hhere : ∀ {r : Reader}, s.reader = r → r.inHandler = false → r ≠ .absent → s.own = none ∧ s.reader ≠ .absent := by
    intro r heq hr hne
    refine ⟨hidle heq hr, ?_⟩
    rw [heq]
    exact hne
  -- where the reader thread neither polls nor reads, and has not ended
  have hbusy : ∀ {r : Reader}, s.own = none ∧ s.reader ≠ .absent → r = .erring ∨ r = .handling ∨ r = .cutting →
      Sound { s with reader := r } := by
    intro r halone hr
    refine h.goes halone (fun hor => ?_) (fun wake heq => ?_) fun heq => ?_
    all_goals rcases hr with hr | hr | hr <;> simp_all
  cases (step_cases hstep).2 with
  | ignored running result =>
    rw [result]
    exact h
  | refused running outside result =>
    rw [result]
    refine ⟨h.inside, h.stopping, h.joined, h.idle, fun _ => rfl, fun wake hpolling => ?_, h.readable⟩
    obtain ⟨w, -, -, hwho⟩ := h.polled wake hpolling
    rw [outside, running] at hwho
    simp at hwho
  | terminates result =>
    rw [result] at hfault
    cases hfault
  | opens running outside reader result =>
    rw [result]
    have hown := hidle reader rfl
    refine ⟨fun hsome => ?_, fun hsome => ?_, fun hjoined => ?_, fun hor => ?_, fun _ => rfl, fun _ heq => ?_, fun heq => ?_⟩
    · exact absurd (hown ▸ hsome) (by decide)
    · exact absurd (outside ▸ hsome) (by decide)
    · exact absurd (outside ▸ hjoined) (by decide)
    · rcases hor with heq | heq | heq <;> cases heq
    · cases heq
    · cases heq
  | stops label outside result =>
    rw [result]
    refine ⟨fun hsome => ⟨(h.inside hsome).1, rfl⟩, fun _ => rfl, fun hjoined => (by simp at hjoined), fun _ => rfl,
      fun hup => (by cases hup), fun wake hpolling => ?_, h.readable⟩
    obtain ⟨w, rfl, hw, hwho⟩ := h.polled wake hpolling
    rw [outside] at hwho
    have hup : s.running = true := by simpa using hwho
    exact ⟨w, rfl, hw, .inr (.inl (by rw [hup]))⟩
  | stopsOwn label own reader result =>
    rw [result]
    refine ⟨fun _ => ⟨reader, rfl⟩, fun _ => rfl, h.joined, fun _ => rfl, fun hup => (by cases hup), fun wake hpolling => ?_,
      h.readable⟩
    dsimp only at hpolling
    rw [hpolling] at reader
    cases reader
  | section_ own label pc at_ u next adv result =>
    rw [result] at hfault ⊢
    cases own with
    | true => exact h.advanceOwn at_ adv hfault
    | false =>
      rw [State.stoppedAt_fault] at hfault
      exact h.advance at_ adv hfault
  | moves reader move result =>
    rw [result]
    exact h.moves move
  | faults fault faulty result =>
    rw [result] at hfault
    cases hfault
  | errs e reader result =>
    rw [result]
    have herring : Sound { s with reader := .erring } := by
      rcases reader with reader | ⟨wake, reader⟩
      · exact hbusy (hhere reader rfl (by decide)) (.inl rfl)
      · exact hbusy (hhere reader rfl fun heq => (by cases heq)) (.inl rfl)
    exact ⟨herring.inside, herring.stopping, herring.joined, herring.idle, herring.awake, herring.polled, herring.readable⟩
  | cuts pos reader found result =>
    rw [result]
    have hcut := hbusy (hhere reader rfl (by decide)) (.inr (.inl rfl))
    exact ⟨hcut.inside, hcut.stopping, hcut.joined, hcut.idle, hcut.awake, hcut.polled, hcut.readable⟩
  | closes reader result =>
    rw [result]
    have halone := hhere reader rfl (by decide)
    exact ⟨fun hsome => ⟨rfl, rfl⟩, fun _ => rfl, fun hjoined => absurd (h.joined hjoined) halone.2, fun _ => rfl,
      fun hup => (by cases hup), fun wake heq => (by cases heq), fun heq => (by cases heq)⟩
  | reads size reader chunk result =>
    rw [result]
    have hread := hbusy (hhere reader rfl (by decide)) (.inr (.inr rfl))
    exact ⟨hread.inside, hread.stopping, hread.joined, hread.idle, hread.awake, hread.polled, fun heq => (by cases heq)⟩
  | writes data label result =>
    rw [result]
    refine ⟨h.inside, h.stopping, h.joined, h.idle, h.awake, h.polled, fun hreading => ?_⟩
    obtain ⟨hopen, hready⟩ := h.readable hreading
    refine ⟨hopen, hready.imp_left fun hne heq => hne ?_⟩
    exact (List.append_eq_nil_iff.1 heq).1
  | peerCloses label result =>
    rw [result]
    exact ⟨h.inside, h.stopping, h.joined, h.idle, h.awake, h.polled, fun hreading => ⟨(h.readable hreading).1, .inr rfl⟩⟩

/-- The faults a step may end in. -/
theorem Sound.fault_cases (h : Sound s) (hstep : StdioTransport.step ownsFds s l = some t) :
    t.fault = none ∨ t.fault = some .terminate ∨ t.fault = some .escaped ∨
      t.fault = some .nullWake ∧ s.wake = none ∧ ∃ own, s.stopping own = some .signal := by
  obtain ⟨hfault, hcases⟩ := step_cases hstep
  cases hcases with
  | terminates result => exact .inr (.inl (by rw [result]))
  | section_ own label pc at_ u next adv result =>
    rw [result, State.stoppedAt_fault]
    cases pc with
    | signal =>
      simp only [State.advance] at adv
      split at adv
      · cases adv
        exact .inl hfault
      · rename_i hnone
        cases adv
        exact .inr (.inr (.inr ⟨rfl, hnone, own, at_⟩))
    | join =>
      simp only [State.advance] at adv
      split at adv
      · cases adv
        exact .inl hfault
      · split at adv
        · cases adv
          exact .inl hfault
        · cases adv
    | _ =>
      cases adv
      exact .inl hfault
  | faults fault faulty result =>
    rw [result]
    cases faulty with
    | freed wake reader freed =>
      obtain ⟨w, hw, hwake, -⟩ := h.polled _ reader
      rw [Option.some.inj hw] at freed
      exact absurd hwake freed
    | closed reader closed =>
      rw [(h.readable reader).1] at closed
      cases closed
    | escaped => exact .inr (.inr (.inl rfl))
  | _ =>
    rename_i result
    rw [result]
    exact .inl hfault

theorem Alone.sectionOwn {pc : Pc} {u : State} {next : Option Pc} (h : Alone s) (hat : s.own = some pc)
    (hadv : s.advance ownsFds true pc = some (u, next)) (hfault : u.fault = none) : Alone (u.stoppedAt true next) := by
  -- another thread is neither at its test nor at its signal
  have hout : ¬ (s.outside = some (.check true) ∨ s.outside = some .signal) := by
    intro hor
    rw [h.own hor] at hat
    cases hat
  have hkeeps : ∀ {u : State} {next : Option Pc}, u.outside = s.outside → (next = some .signal → u.wake.isSome = true) →
      Alone (u.stoppedAt true next) := by
    intro u next hsame hsignal
    refine ⟨fun hor => absurd (hsame ▸ hor) hout, fun hor => hor.elim (fun heq => absurd (.inr (hsame ▸ heq)) hout) hsignal⟩
  cases pc with
  | check wasRunning =>
    cases hadv
    refine hkeeps rfl fun heq => ?_
    split at heq
    · rename_i hboth
      exact (Bool.and_eq_true _ _ ▸ hboth).2
    · cases heq
  | signal =>
    simp only [State.advance] at hadv
    split at hadv
    · cases hadv
      exact hkeeps rfl fun heq => (by cases heq)
    · cases hadv
      cases hfault
  | join =>
    simp only [State.advance, Bool.true_or, if_true] at hadv
    cases hadv
    exact hkeeps rfl fun heq => (by cases heq)
  | _ =>
    cases hadv
    exact hkeeps rfl fun heq => (by cases heq)

theorem Alone.section_ {pc : Pc} {u : State} {next : Option Pc} (h : Alone s) (hs : Sound s) (hat : s.outside = some pc)
    (hadv : s.advance ownsFds false pc = some (u, next)) (hfault : u.fault = none) : Alone (u.stoppedAt false next) := by
  have hkeeps : ∀ {u : State} {next : Option Pc}, u.own = s.own → u.wake = s.wake ∨ s.own = none →
      next ≠ some (.check true) ∧ next ≠ some .signal → Alone (u.stoppedAt false next) := by
    intro u next hown hwake hnext
    have hsignal : u.own = some .signal → u.wake.isSome = true := by
      intro heq
      rw [hown] at heq
      rcases hwake with hwake | hnone
      · rw [hwake]
        exact h.signal (.inr heq)
      · rw [hnone] at heq
        cases heq
    cases next with
    | none => exact ⟨fun hor => hor.elim (fun heq => by cases heq) (fun heq => by cases heq),
        fun hor => hor.elim (fun heq => by cases heq) hsignal⟩
    | some pc => exact ⟨fun hor => (hor.elim hnext.1 hnext.2).elim, fun hor => hor.elim (fun heq => (hnext.2 heq).elim) hsignal⟩
  cases pc with
  | check wasRunning =>
    cases hadv
    cases hboth : wasRunning && s.wake.isSome with
    | false => exact hkeeps rfl (.inl rfl) ⟨fun heq => (by cases heq), fun heq => (by cases heq)⟩
    | true =>
      obtain ⟨rfl, hwake⟩ := Bool.and_eq_true_iff.1 hboth
      exact ⟨fun _ => h.own (.inl hat), fun _ => hwake⟩
  | signal =>
    simp only [State.advance] at hadv
    split at hadv
    · cases hadv
      exact hkeeps rfl (.inl rfl) ⟨fun heq => (by cases heq), fun heq => (by cases heq)⟩
    · cases hadv
      cases hfault
  | join =>
    simp only [State.advance] at hadv
    split at hadv
    · cases hadv
      exact hkeeps rfl (.inl rfl) ⟨fun heq => (by cases heq), fun heq => (by cases heq)⟩
    · split at hadv
      · cases hadv
        exact hkeeps rfl (.inl rfl) ⟨fun heq => (by cases heq), fun heq => (by cases heq)⟩
      · cases hadv
  | reset =>
    cases hadv
    have hnone : s.own = none := hs.own_eq_none (by rw [hs.joined (.inl hat)]; rfl)
    exact hkeeps rfl (.inr hnone) ⟨fun heq => (by cases heq), fun heq => (by cases heq)⟩
  | closeFds =>
    cases hadv
    exact hkeeps rfl (.inl rfl) ⟨fun heq => (by cases heq), fun heq => (by cases heq)⟩

/-- **One step** leaves a thread that tests and signals the wake event alone. -/
theorem Alone.step (h : Alone s) (hs : Sound s) (hstep : StdioTransport.step ownsFds s l = some t) (hapart : Apart s l)
    (hfault : t.fault = none) : Alone t := by
  cases (step_cases hstep).2 with
  | refused running outside result =>
    rw [result]
    exact ⟨h.own, fun _ => rfl⟩
  | terminates result =>
    rw [result] at hfault
    cases hfault
  | opens running outside reader result =>
    rw [result]
    exact ⟨h.own, fun _ => rfl⟩
  | stops label outside result =>
    rw [result]
    refine ⟨fun hor => ?_, fun hor => h.signal (.inr (hor.resolve_left fun heq => (by cases heq)))⟩
    have hup : s.running = true := by simpa using hor
    cases hown : s.own with
    | none => rfl
    | some pc =>
      rw [(hs.inside (by rw [hown]; rfl)).2] at hup
      cases hup
  | stopsOwn label own reader result =>
    rw [result]
    obtain ⟨hcheck, hsignal⟩ := hapart label
    exact ⟨fun hor => (hor.elim hcheck hsignal).elim, fun hor => h.signal (.inl (hor.resolve_right fun heq => (by cases heq)))⟩
  | section_ own label pc at_ u next adv result =>
    rw [result] at hfault ⊢
    rw [State.stoppedAt_fault] at hfault
    cases own with
    | true => exact h.sectionOwn at_ adv hfault
    | false => exact h.section_ hs at_ adv hfault
  | faults fault faulty result =>
    rw [result] at hfault
    cases hfault
  | _ =>
    rename_i result
    rw [result]
    exact ⟨h.own, h.signal⟩

theorem sound_start : Sound {} where
  inside := fun h => by cases h
  stopping := fun _ => rfl
  joined := fun _ => rfl
  idle := fun _ => rfl
  awake := fun h => by cases h
  polled := fun _ h => by cases h
  readable := fun h => by cases h

theorem sound_run {labels : List Label} (h : Lts.run (step ownsFds) {} labels = some s) (hfault : s.fault = none) : Sound s := by
  have hinv : s.fault = none → Sound s :=
    Lts.run_invariant (I := fun s => s.fault = none → Sound s)
      (fun s l t hs hstep hfault => (hs (step_cases hstep).1).step hstep hfault) (fun _ => sound_start) h
  exact hinv hfault

theorem alone_run {labels : List Label} (h : Lts.run (step ownsFds) {} labels = some s)
    (hapart : Lts.Meets (step ownsFds) Apart {} labels) (hfault : s.fault = none) : Sound s ∧ Alone s := by
  have hinv : s.fault = none → Sound s ∧ Alone s :=
    Lts.meets_invariant (I := fun s => s.fault = none → Sound s ∧ Alone s)
      (fun s l t hs hl hstep hfault =>
        have hbefore := hs (step_cases hstep).1
        ⟨hbefore.1.step hstep hfault, hbefore.2.step hbefore.1 hstep hl hfault⟩)
      (fun _ => ⟨sound_start, ⟨fun _ => rfl, fun hor => (by rcases hor with hor | hor <;> cases hor)⟩⟩) hapart h
  exact hinv hfault

/-- **Neither the wake event nor the input is used after its end**, in every run: the reader thread polls no event that
was destroyed and reads nothing that was closed; and no null event is signalled, as long as no handler calls `disconnect`
while another thread's tests and signals the event. -/
theorem used_in_time {labels : List Label} (h : Lts.run (step ownsFds) {} labels = some s) :
    s.fault ≠ some .freedWake ∧ s.fault ≠ some .closedRead ∧
      (Lts.Meets (step ownsFds) Apart {} labels → s.fault ≠ some .nullWake) := by
  rcases List.eq_nil_or_concat labels with hnil | ⟨before, last, hlabels⟩
  · subst hnil
    obtain rfl : ({} : State) = s := by simpa using h
    exact ⟨fun heq => (by cases heq), fun heq => (by cases heq), fun _ heq => (by cases heq)⟩
  · rw [List.concat_eq_append] at hlabels
    subst hlabels
    obtain ⟨u, hbefore, hlast⟩ := Lts.run_snoc.1 h
    have hfault := (step_cases hlast).1
    have hend := (sound_run hbefore hfault).fault_cases hlast
    refine ⟨?_, ?_, fun hapart heq => ?_⟩
    · rcases hend with heq | heq | heq | heq <;> simp [heq]
    · rcases hend with heq | heq | heq | heq <;> simp [heq]
    · rw [heq] at hend
      obtain ⟨hwake, own, hsignal⟩ : u.wake = none ∧ ∃ own, u.stopping own = some .signal := by simpa using hend
      have halone := (alone_run hbefore hapart.append_left hfault).2
      have hthere : u.wake.isSome = true := by
        cases own with
        | true => exact halone.signal (.inr hsignal)
        | false => exact halone.signal (.inl hsignal)
      rw [hwake] at hthere
      cases hthere

end Steps

/-- The peer writes a line and the beginning of another; a handler stops the transport while it has the line. -/
def stoppedInside : List Label :=
  [.connect true, .reader, .peerWrites (bytes "ping\nrest"), .reader, .read 9, .reader, .disconnectOwn, .advanceOwn,
    .advanceOwn, .advanceOwn, .advanceOwn, .advanceOwn, .disconnect, .advance, .reader, .reader, .reader, .reader, .reader,
    .advance, .advance, .advance]

theorem used_in_time_stoppedInside : ∃ s, Lts.run (step true) {} stoppedInside = some s ∧ s.fault ≠ some .freedWake ∧
    s.fault ≠ some .closedRead ∧ s.fault ≠ some .nullWake := by
  have hrun : (Lts.run (step true) {} stoppedInside).isSome = true := by decide +kernel
  obtain ⟨s, hs⟩ := Option.isSome_iff_exists.1 hrun
  obtain ⟨hfreed, hclosed, hnull⟩ := used_in_time hs
  exact ⟨s, hs, hfreed, hclosed, hnull (by decide +kernel)⟩

/-- A handler resets the wake event between the test and the signal of another thread. -/
theorem nullWake_torn : (Lts.run (step true) {} [.connect true, .reader, .peerWrites [10], .reader, .read 1, .reader,
    .disconnect, .advance, .disconnectOwn, .advanceOwn, .advanceOwn, .advanceOwn, .advance]).map (fun s => s.fault) =
      some (some .nullWake) := by
  decide +kernel

end StdioTransport
end Mcp
