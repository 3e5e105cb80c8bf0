import McpSdk.StdioSound
import McpSdk.RequestsRuns
import McpSdk.Lib.Simulation
/-!
# StdioSession — the stdio transport as the session sees it

`Requests` knows a stdio transport by `running_` and by whether its reader thread runs, is in the close handler or has
ended.  Every run of the transport is matched by a run of the session, whatever else the session is doing: the calls of
`disconnect` by threads that stop the transport and wait for the reader, the close handler by a thread in `handle_close`
(`simulates_session`, `session_of_run`).
-/
namespace Mcp
namespace StdioTransport

open Requests (Transport Runs close_runs spawn_run getElem?_append_of_some getElem?_set_of_ne)

/-- What the session sees of the reader thread; once joined it has ended. -/
def Reader.Seen : Reader → Requests.Reader → Prop
  | .absent, seen => seen = .none ∨ seen = .exited
  | .closing, seen => seen = .closing
  | .finished, seen => seen = .exited
  | _, seen => seen = .running

/-- Where the session's thread is while `disconnect` is at a section. -/
def Pc.seen : Pc → Requests.Pc
  | .check _ | .signal | .join => .transportJoin false false
  | .reset | .closeFds => .transportReturn false

/-- **A session over this transport.** -/
structure Matches (s : State) (p : Pool Requests.State Requests.Pc) : Prop where
  transport : ∃ seen, p.shared.transport = .stdio s.running seen ∧ s.reader.Seen seen
  outside : ∀ pc, s.outside = some pc → ∃ i : Nat, p.threads[i]? = some pc.seen
  closing : s.reader = .closing → ∃ j : Nat, p.threads[j]? = some (.closeState .reader)

section Session

variable {ownsFds : Bool} {s t : State} {l : Label} {p : Pool Requests.State Requests.Pc}

/-- What the session does not see. -/
theorem Matches.same (h : Matches s p) (hrunning : t.running = s.running) (hout : t.outside = s.outside)
    (hseen : ∀ seen, s.reader.Seen seen → t.reader.Seen seen) (hclosing : t.reader = .closing → s.reader = .closing) : Matches t p where
  transport := by
    obtain ⟨seen, htransport, hreader⟩ := h.transport
    exact ⟨seen, by rw [htransport, hrunning], hseen seen hreader⟩
  outside := by
    rw [hout]
    exact h.outside
  closing := fun heq => h.closing (hclosing heq)

/-- A move of the reader thread. -/
theorem Matches.moves {reader : Reader} (h : Matches s p) (hmove : Move s reader) :
    ∃ m q, Lts.run Requests.step p m = some q ∧ Matches { s with reader } q := by
  have hloops : ∀ {r : Reader}, s.reader = r → (∀ seen, r.Seen seen → reader.Seen seen) → (reader ≠ .closing) →
      ∃ m q, Lts.run Requests.step p m = some q ∧ Matches { s with reader } q := by
    intro r heq hseen hne
    exact ⟨[], p, rfl, h.same rfl rfl (fun seen hs => hseen seen (heq ▸ hs)) fun heq => absurd heq hne⟩
  obtain ⟨seen, htransport, hreader⟩ := h.transport
  cases hmove with
  | silent from_ running =>
    rw [from_] at hreader
    obtain rfl : seen = .running := hreader
    rw [running] at htransport
    refine ⟨[.readerReturns], { p with shared := { p.shared with transport := .stdio false .exited } },
      Lts.run_cons_eq_some.2 ⟨_, ?_, rfl⟩, ⟨.exited, by rw [running], rfl⟩, h.outside, fun heq => (by cases heq)⟩
    simp only [Requests.step, htransport, Transport.readerReturns]
    rfl
  | closed from_ own =>
    obtain ⟨j, hj⟩ := h.closing from_
    obtain ⟨shared, hruns, hended⟩ := close_runs p.shared
    obtain ⟨m, hm⟩ := hruns.pool hj
    refine ⟨m, _, hm, ⟨.exited, by rw [hended, htransport]; rfl, rfl⟩, fun pc hpc => ?_, fun heq => (by cases heq)⟩
    obtain ⟨i, hi⟩ := h.outside pc hpc
    refine ⟨i, getElem?_set_of_ne hi hj ?_⟩
    cases pc <;> exact fun heq => by cases heq
  | leave from_ _ =>
    rcases from_ with from_ | from_
    · exact hloops from_ (fun _ hs => hs) (by decide)
    · exact hloops from_ (fun _ hs => hs) (by decide)
  | ready wake from_ _ => exact hloops from_ (fun _ hs => hs) (by decide)
  | woken wake from_ _ => exact hloops from_ (fun _ hs => hs) (by decide)
  | enter from_ _ => exact hloops from_ (fun _ hs => hs) (fun heq => by cases heq)
  | _ from_ => exact hloops from_ (fun _ hs => hs) (by decide)

/-- A section of another thread's `disconnect`. -/
theorem Matches.advance {pc : Pc} {u : State} {next : Option Pc} (h : Matches s p) (hat : s.outside = some pc)
    (hadv : s.advance ownsFds false pc = some (u, next)) :
    ∃ m q, Lts.run Requests.step p m = some q ∧ Matches (u.stoppedAt false next) q := by
  obtain ⟨i, hi⟩ := h.outside pc hat
  have hstays : ∀ {u : State} {pc' : Pc}, u.running = s.running → u.reader = s.reader → pc'.seen = pc.seen →
      ∃ m q, Lts.run Requests.step p m = some q ∧ Matches (u.stoppedAt false (some pc')) q := by
    intro u pc' hrunning hreader hseen
    obtain ⟨seen, htransport, hs⟩ := h.transport
    refine ⟨[], p, rfl, ⟨seen, ?_, ?_⟩, fun pc'' heq => ?_, fun heq => h.closing ?_⟩
    · rw [htransport, ← hrunning]
      rfl
    · rw [← hreader] at hs
      exact hs
    · obtain rfl : pc' = pc'' := Option.some.inj heq
      exact ⟨i, by rw [hseen]; exact hi⟩
    · rw [← hreader]
      exact heq
  cases pc with
  | check wasRunning =>
    cases hadv
    refine hstays rfl rfl ?_
    split <;> rfl
  | signal =>
    simp only [State.advance] at hadv
    split at hadv <;> cases hadv <;> exact hstays rfl rfl rfl
  | join =>
    -- the reader thread has ended on both sides
    obtain ⟨seen, htransport, hs⟩ := h.transport
    have hjoins : seen = .none ∨ seen = .exited → ∃ m, Lts.run Requests.step p m =
        some ⟨p.shared, p.threads.set i (.transportReturn false)⟩ := by
      intro hended
      refine Runs.pool (a := (p.shared, .transportJoin false false)) (b := (p.shared, .transportReturn false)) (.single ?_) hi
      have hend : p.shared.transport.reader.ended = true := by
        rw [htransport]
        rcases hended with rfl | rfl <;> rfl
      show Requests.advance p.shared (.transportJoin false false) = _
      simp only [Requests.advance, hend]
      rfl
    have hjoined : (seen = .none ∨ seen = .exited) → u.running = s.running → u.reader = .absent → next = some .reset →
        ∃ m q, Lts.run Requests.step p m = some q ∧ Matches (u.stoppedAt false next) q := by
      rintro hended hrunning hreader rfl
      obtain ⟨m, hm⟩ := hjoins hended
      refine ⟨m, _, hm, ⟨seen, ?_, ?_⟩, fun pc'' heq => ?_, fun heq => ?_⟩
      · rw [htransport, ← hrunning]
        rfl
      · show u.reader.Seen seen
        rw [hreader]
        exact hended
      · cases heq
        exact ⟨i, List.getElem?_set_self (List.getElem?_eq_some_iff.1 hi).1⟩
      · have hclosing : u.reader = .closing := heq
        rw [hreader] at hclosing
        cases hclosing
    simp only [State.advance] at hadv
    split at hadv
    · rename_i habsent
      cases hadv
      have habsent : s.reader = .absent := by simpa using habsent
      rw [habsent] at hs
      exact hjoined hs rfl habsent rfl
    · split at hadv
      · rename_i hfinished
        cases hadv
        rw [hfinished] at hs
        exact hjoined (.inr hs) rfl rfl rfl
      · cases hadv
  | reset =>
    cases hadv
    exact hstays rfl rfl rfl
  | closeFds =>
    cases hadv
    obtain ⟨m, hm⟩ := Runs.pool (a := (p.shared, .transportReturn false)) (.single rfl) hi
    refine ⟨m, _, hm, h.transport, fun pc'' heq => (by cases heq), fun heq => ?_⟩
    obtain ⟨j, hj⟩ := h.closing heq
    exact ⟨j, getElem?_set_of_ne hj hi fun heq => by cases heq⟩

/-- The states of a run and of the session's run, as long as the transport has faulted nothing. -/
def Linked (s : State) (p : Pool Requests.State Requests.Pc) : Prop := s.fault = none → Matches s p

/-- **Every step of the transport is matched by the session's transport**, from any state of the session. -/
theorem simulates_session (ownsFds : Bool) : Lts.Simulates (step ownsFds) Requests.step Linked := by
  intro s t l p hlinked hstep
  obtain ⟨hfault, hcases⟩ := step_cases hstep
  have h := hlinked hfault
  have hfine : (∃ m q, Lts.run Requests.step p m = some q ∧ Matches t q) → ∃ m q, Lts.run Requests.step p m = some q ∧ Linked t q := by
    rintro ⟨m, q, hm, hq⟩
    exact ⟨m, q, hm, fun _ => hq⟩
  have hfaults : t.fault ≠ none → ∃ m q, Lts.run Requests.step p m = some q ∧ Linked t q :=
    fun hne => ⟨[], p, rfl, fun hnone => absurd hnone hne⟩
  obtain ⟨seen, htransport, hreader⟩ := h.transport
  cases hcases with
  | ignored running result =>
    rw [result] at hfine ⊢
    exact hfine ⟨[], p, rfl, h⟩
  | refused running outside result =>
    subst result
    exact hfine ⟨[], p, rfl, h.same rfl rfl (fun _ hs => hs) fun heq => heq⟩
  | terminates result =>
    subst result
    exact hfaults fun heq => by cases heq
  | opens running outside reader result =>
    subst result
    rw [running] at htransport
    refine hfine ⟨[.connect], _, Lts.run_cons_eq_some.2 ⟨_, rfl, rfl⟩, ⟨.running, ?_, rfl⟩, fun pc heq => ?_, fun heq => (by cases heq)⟩
    · rw [htransport]
      rfl
    · exact absurd (outside.symm.trans heq) fun hne => by cases hne
  | stops label outside result =>
    subst result
    have hstops : Requests.advance p.shared (.transportStop false false) =
        some ({ p.shared with transport := .stdio false seen }, .transportJoin false false) := by
      simp only [Requests.advance, htransport]
      rfl
    obtain ⟨m, hm⟩ := spawn_run (p := p) (.transportDisconnect false) (a := (p.shared, .transportStop false false)) rfl (.single hstops)
    refine hfine ⟨m, _, hm, ⟨seen, rfl, hreader⟩, fun pc heq => ?_, fun heq => ?_⟩
    · cases heq
      exact ⟨p.threads.length, List.getElem?_concat_length⟩
    · obtain ⟨j, hj⟩ := h.closing heq
      exact ⟨j, getElem?_append_of_some hj _⟩
  | stopsOwn label own reader result =>
    subst result
    have hstops : Requests.advance p.shared (.transportStop false true) =
        some ({ p.shared with transport := .stdio false seen }, .transportJoin false true) := by
      simp only [Requests.advance, htransport]
      rfl
    -- the handler's own call does not wait
    have hjoins : ∀ shared : Requests.State, Requests.advance shared (.transportJoin false true) =
        some (shared, .transportReturn false) := by
      intro shared
      simp only [Requests.advance, Bool.or_true, if_true]
    obtain ⟨m, hm⟩ := spawn_run (p := p) (.transportDisconnect true) (a := (p.shared, .transportStop false true)) rfl
      (.head hstops (.head (hjoins _) (.single rfl)))
    refine hfine ⟨m, _, hm, ⟨seen, rfl, hreader⟩, fun pc heq => ?_, fun heq => ?_⟩
    · obtain ⟨i, hi⟩ := h.outside pc heq
      exact ⟨i, getElem?_append_of_some hi _⟩
    · obtain ⟨j, hj⟩ := h.closing heq
      exact ⟨j, getElem?_append_of_some hj _⟩
  | section_ own label pc at_ u next adv result =>
    subst result
    cases own with
    | true =>
      have hsame : u.running = s.running ∧ u.outside = s.outside ∧ u.reader = s.reader := by
        cases pc with
        | signal =>
          simp only [State.advance] at adv
          split at adv <;> cases adv <;> exact ⟨rfl, rfl, rfl⟩
        | _ =>
          cases adv
          exact ⟨rfl, rfl, rfl⟩
      obtain ⟨hrunning, hout, hsame⟩ := hsame
      refine hfine ⟨[], p, rfl, h.same hrunning hout (fun seen hs => ?_) fun heq => ?_⟩
      · show u.reader.Seen seen
        rw [hsame]
        exact hs
      · exact hsame.symm.trans heq
    | false => exact hfine (h.advance at_ adv)
  | moves reader move result =>
    subst result
    exact hfine (h.moves move)
  | faults fault faulty result =>
    subst result
    exact hfaults fun heq => by cases heq
  | errs e reader result =>
    subst result
    refine hfine ⟨[], p, rfl, h.same rfl rfl (fun _ hs => ?_) fun heq => (by cases heq)⟩
    rcases reader with reader | ⟨wake, reader⟩ <;> rw [reader] at hs <;> exact hs
  | cuts pos reader found result =>
    subst result
    refine hfine ⟨[], p, rfl, h.same rfl rfl (fun _ hs => ?_) fun heq => (by cases heq)⟩
    rw [reader] at hs
    exact hs
  | closes reader result =>
    subst result
    rw [reader] at hreader
    obtain rfl : seen = .running := hreader
    refine hfine ⟨[.readerCloses], p.spawn { p.shared with transport := .stdio false .closing } (.closeState .reader),
      Lts.run_cons_eq_some.2 ⟨_, ?_, rfl⟩, ⟨.closing, rfl, rfl⟩, fun pc heq => ?_, fun _ =>
        ⟨p.threads.length, List.getElem?_concat_length⟩⟩
    · simp only [Requests.step, htransport, Transport.readerCloses]
      rfl
    · obtain ⟨i, hi⟩ := h.outside pc heq
      exact ⟨i, getElem?_append_of_some hi _⟩
  | reads size reader chunk result =>
    subst result
    refine hfine ⟨[], p, rfl, h.same rfl rfl (fun _ hs => ?_) fun heq => (by cases heq)⟩
    rw [reader] at hs
    exact hs
  | writes data label result =>
    subst result
    exact hfine ⟨[], p, rfl, h.same rfl rfl (fun _ hs => hs) fun heq => heq⟩
  | peerCloses label result =>
    subst result
    exact hfine ⟨[], p, rfl, h.same rfl rfl (fun _ hs => hs) fun heq => heq⟩

end Session

/-- **A run of the stdio transport is a run of the session's transport**: from a fresh transport and a fresh session on, the
session can always be where the transport is, with the same `running_`, the reader thread as far as it sees it, a thread in
`disconnect` wherever another thread is in it, and a thread in `handle_close` while the close handler runs. -/
theorem session_of_run {ownsFds : Bool} {labels : List Label} {s : State} (h : Lts.run (step ownsFds) {} labels = some s)
    (hfault : s.fault = none) :
    ∃ sessionLabels p, Lts.run Requests.step (Requests.init (.stdio false .none)) sessionLabels = some p ∧ Matches s p := by
  have hstart : Linked {} (Requests.init (.stdio false .none)) :=
    fun _ => ⟨⟨.none, rfl, .inl rfl⟩, fun pc hpc => (by cases hpc), fun hclosing => (by cases hclosing)⟩
  obtain ⟨sessionLabels, p, hp, hlinked⟩ := (simulates_session ownsFds).run hstart h
  exact ⟨sessionLabels, p, hp, hlinked hfault⟩

theorem session_stoppedInside : ∃ s p sessionLabels, Lts.run (step true) {} stoppedInside = some s ∧ s.reader = .absent ∧
    Lts.run Requests.step (Requests.init (.stdio false .none)) sessionLabels = some p ∧
      (p.shared.transport = .stdio false .none ∨ p.shared.transport = .stdio false .exited) := by
  have hrun : Lts.run (step true) {} stoppedInside = some _ := rfl
  obtain ⟨sessionLabels, p, hp, ⟨seen, htransport, hseen⟩, -, -⟩ := session_of_run hrun rfl
  refine ⟨_, p, sessionLabels, hrun, rfl, hp, ?_⟩
  rcases hseen with rfl | rfl
  · exact .inl htransport
  · exact .inr htransport

end StdioTransport
end Mcp
