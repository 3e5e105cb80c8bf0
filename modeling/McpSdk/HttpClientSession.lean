import McpSdk.HttpClientTransport
import McpSdk.RequestsRuns
import McpSdk.Lib.Simulation
/-!
# HttpClientSession — the HTTP client transport as the session sees it

`Requests` knows an HTTP client transport by `running_`, `close_emitted_` and by whether its SSE thread runs, is in the close
handler or has ended.  Every run of the transport is matched by a run of the session, whatever else the session is doing: the
calls of `disconnect` by threads that stop the transport and wait for the SSE thread, the close handler by a thread in
`handle_close` (`simulates_session`, `session_follows`).
-/
namespace Mcp
namespace HttpClientTransport

open Requests (Transport Runs close_runs spawn_run getElem?_append_of_some getElem?_set_of_ne)

/-- What the session sees of the SSE thread; once joined it has ended. -/
def Loop.Seen : Loop → Requests.Reader → Prop
  | .absent, seen => seen = .none ∨ seen = .exited
  | .closing, seen => seen = .closing
  | .finished, seen => seen = .exited
  | _, seen => seen = .running

/-- Where the session's thread is while `disconnect` is at a section. -/
def Pc.seen : Pc → Requests.Pc
  | .delete | .signal | .join => .transportJoin false false
  | .reset => .transportReturn false

/-- **A session over this transport.** -/
structure Matches (o : Options) (s : State) (p : Pool Requests.State Requests.Pc) : Prop where
  transport : ∃ seen, p.shared.transport = .httpClient o.openSseStream s.running s.sse.closeEmitted seen ∧ s.loop.Seen seen
  outside : ∀ pc, s.stopping = some (false, pc) → ∃ i : Nat, p.threads[i]? = some pc.seen
  closing : s.loop = .closing → ∃ j : Nat, p.threads[j]? = some (.closeState .reader)

section Session

variable {o : Options} {s t : State} {l : Label} {loop : Loop} {sse : Stream} {told : List Event}
  {p : Pool Requests.State Requests.Pc}

/-- What the session does not see. -/
theorem Matches.same (h : Matches o s p) (hrunning : t.running = s.running) (hemitted : t.sse.closeEmitted = s.sse.closeEmitted)
    (hstopping : ∀ pc, t.stopping = some (false, pc) → ∃ pc', s.stopping = some (false, pc') ∧ pc'.seen = pc.seen)
    (hseen : ∀ seen, s.loop.Seen seen → t.loop.Seen seen) (hclosing : t.loop = .closing → s.loop = .closing) :
    ∃ m q, Lts.run Requests.step p m = some q ∧ Matches o t q := by
  obtain ⟨seen, htransport, hloop⟩ := h.transport
  refine ⟨[], p, rfl, ⟨seen, by rw [htransport, hrunning, hemitted], hseen seen hloop⟩, fun pc hat => ?_, fun heq => h.closing (hclosing heq)⟩
  obtain ⟨pc', hat', hsame⟩ := hstopping pc hat
  rw [← hsame]
  exact h.outside pc' hat'

/-- A move of the SSE thread. -/
theorem Matches.moves (h : Matches o s p) (hmove : Move o s loop sse told) :
    ∃ m q, Lts.run Requests.step p m = some q ∧ Matches o (s.goes loop sse told) q := by
  have hloops : ∀ {r : Loop}, s.loop = r → (∀ seen, r.Seen seen → loop.Seen seen) → loop ≠ .closing →
      sse.closeEmitted = s.sse.closeEmitted → ∃ m q, Lts.run Requests.step p m = some q ∧ Matches o (s.goes loop sse told) q := by
    intro r heq hseen hne hemitted
    exact h.same rfl hemitted (fun pc hat => ⟨pc, hat, rfl⟩) (fun seen hs => hseen seen (heq ▸ hs)) fun heq => absurd heq hne
  obtain ⟨seen, htransport, hloop⟩ := h.transport
  have houtside : ∀ {z : Requests.Pc} {j : Nat}, p.threads[j]? = some (.closeState .reader) → ∀ pc, s.stopping = some (false, pc) →
      ∃ i : Nat, (p.threads.set j z)[i]? = some pc.seen := by
    intro z j hj pc hat
    obtain ⟨i, hi⟩ := h.outside pc hat
    refine ⟨i, getElem?_set_of_ne hi hj ?_⟩
    cases pc <;> exact fun heq => by cases heq
  cases hmove with
  | leave from_ running =>
    have hrunning : seen = .running := by
      rcases from_ with from_ | from_ <;> rw [from_] at hloop <;> exact hloop
    subst hrunning
    rw [running] at htransport
    have hdown : (s.goes .finished s.sse []).running = false := running
    refine ⟨[.readerReturns],
      { p with shared := { p.shared with transport := .httpClient o.openSseStream false s.sse.closeEmitted .exited } },
      Lts.run_cons_eq_some.2 ⟨_, ?_, rfl⟩, ⟨.exited, by rw [hdown]; rfl, rfl⟩, h.outside, fun heq => (by cases heq)⟩
    simp only [Requests.step, htransport, Transport.readerReturns]
    rfl
  | silent from_ emitted =>
    rw [from_] at hloop
    obtain rfl : seen = .running := hloop
    rw [emitted] at htransport
    refine ⟨[.readerCloses], p.spawn { p.shared with transport := .httpClient o.openSseStream s.running true .exited } .done,
      Lts.run_cons_eq_some.2 ⟨_, ?_, rfl⟩, ⟨.exited, ?_, rfl⟩, fun pc hat => ?_, fun heq => (by cases heq)⟩
    · simp only [Requests.step, htransport, Transport.readerCloses]
      rfl
    · have htold : (s.goes .finished s.sse []).sse.closeEmitted = true := emitted
      rw [htold]
      rfl
    · obtain ⟨i, hi⟩ := h.outside pc hat
      exact ⟨i, getElem?_append_of_some hi _⟩
  | closes from_ fresh =>
    rw [from_] at hloop
    obtain rfl : seen = .running := hloop
    rw [fresh] at htransport
    refine ⟨[.readerCloses], p.spawn { p.shared with transport := .httpClient o.openSseStream s.running true .closing }
      (.closeState .reader), Lts.run_cons_eq_some.2 ⟨_, ?_, rfl⟩, ⟨.closing, rfl, rfl⟩, fun pc hat => ?_,
      fun _ => ⟨p.threads.length, List.getElem?_concat_length⟩⟩
    · simp only [Requests.step, htransport, Transport.readerCloses]
      rfl
    · obtain ⟨i, hi⟩ := h.outside pc hat
      exact ⟨i, getElem?_append_of_some hi _⟩
  | closed from_ own =>
    obtain ⟨j, hj⟩ := h.closing from_
    obtain ⟨shared, hruns, hended⟩ := close_runs p.shared
    obtain ⟨m, hm⟩ := hruns.pool hj
    exact ⟨m, _, hm, ⟨.exited, by rw [hended, htransport]; rfl, rfl⟩, houtside hj, fun heq => (by cases heq)⟩
  | breaks from_ =>
    rcases from_ with ⟨from_, -⟩ | from_ | ⟨wake, from_⟩
    · exact hloops from_ (fun _ hs => hs) (fun heq => by cases heq) rfl
    · exact hloops from_ (fun _ hs => hs) (fun heq => by cases heq) rfl
    · exact hloops from_ (fun _ hs => hs) (fun heq => by cases heq) rfl
  | _ from_ => exact hloops from_ (fun _ hs => hs) (fun heq => by cases heq) rfl

/-- A section of another thread's `disconnect`. -/
theorem Matches.section_ {pc : Pc} (h : Matches o s p) (hat : s.stopping = some (false, pc)) (hsection : Section s false pc t) :
    ∃ m q, Lts.run Requests.step p m = some q ∧ Matches o t q := by
  obtain ⟨i, hi⟩ := h.outside pc hat
  have hlt := (List.getElem?_eq_some_iff.1 hi).1
  obtain ⟨seen, htransport, hloop⟩ := h.transport
  -- the SSE thread has ended on both sides
  have hjoins : ∀ {u : State}, pc = .join → seen = .none ∨ seen = .exited → u.running = s.running → u.sse = s.sse →
      u.loop = .absent → u.stopping = some (false, .reset) → ∃ m q, Lts.run Requests.step p m = some q ∧ Matches o u q := by
    rintro u rfl hended hrunning hsse habsent hreset
    have hend : p.shared.transport.reader.ended = true := by
      rw [htransport]
      rcases hended with rfl | rfl <;> rfl
    have hjoin : Requests.advance p.shared (.transportJoin false false) = some (p.shared, .transportReturn false) := by
      simp only [Requests.advance, hend]
      rfl
    obtain ⟨m, hm⟩ := Runs.pool (a := (p.shared, .transportJoin false false)) (b := (p.shared, .transportReturn false)) (.single hjoin) hi
    refine ⟨m, _, hm, ⟨seen, by rw [htransport, hrunning, hsse], ?_⟩, fun pc' heq => ?_, fun heq => ?_⟩
    · rw [habsent]
      exact hended
    · rw [hreset] at heq
      cases heq
      exact ⟨i, List.getElem?_set_self hlt⟩
    · rw [habsent] at heq
      cases heq
  have hstays : ∀ {u : State} {next : Pc}, u.running = s.running → u.sse = s.sse → u.loop = s.loop → u.stopping = some (false, next) →
      next.seen = pc.seen → ∃ m q, Lts.run Requests.step p m = some q ∧ Matches o u q := by
    intro u next hrunning hsse hsame hnext hseen
    refine h.same hrunning (by rw [hsse]) (fun pc' heq => ?_) (fun _ hs => by rw [hsame]; exact hs) fun heq => hsame.symm.trans heq
    rw [hnext] at heq
    cases heq
    exact ⟨pc, hat, hseen.symm⟩
  cases hsection with
  | delete => exact hstays rfl rfl rfl rfl rfl
  | signal => exact hstays rfl rfl rfl rfl rfl
  | pass free =>
    have habsent := free.resolve_left Bool.false_ne_true
    rw [habsent] at hloop
    exact hjoins rfl hloop rfl rfl habsent rfl
  | join other loop =>
    rw [loop] at hloop
    exact hjoins rfl (.inr hloop) rfl rfl rfl rfl
  | reset =>
    obtain ⟨m, hm⟩ := Runs.pool (a := (p.shared, .transportReturn false)) (.single rfl) hi
    refine ⟨m, _, hm, ⟨seen, htransport, hloop⟩, fun pc' heq => (by cases heq), fun heq => ?_⟩
    obtain ⟨j, hj⟩ := h.closing heq
    exact ⟨j, getElem?_set_of_ne hj hi fun heq => by cases heq⟩

/-- The states of a run and of the session's run, as long as nothing has ended the transport. -/
def Linked (o : Options) (s : State) (p : Pool Requests.State Requests.Pc) : Prop := s.end_ = none → Matches o s p

/-- **Every step of the transport is matched by the session's transport**, from any state of the session. -/
theorem simulates_session (o : Options) : Lts.Simulates (step o) Requests.step (Linked o) := by
  intro s t l p hlinked hstep
  obtain ⟨hend, hcases⟩ := step_cases hstep
  have h := hlinked hend
  have hgoes : (∃ m q, Lts.run Requests.step p m = some q ∧ Matches o t q) → ∃ m q, Lts.run Requests.step p m = some q ∧ Linked o t q := by
    rintro ⟨m, q, hm, hq⟩
    exact ⟨m, q, hm, fun _ => hq⟩
  have hends : t.end_ ≠ none → ∃ m q, Lts.run Requests.step p m = some q ∧ Linked o t q :=
    fun hne => ⟨[], p, rfl, fun hnone => absurd hnone hne⟩
  have hsame : t.running = s.running → t.sse = s.sse → t.loop = s.loop → t.stopping = s.stopping →
      ∃ m q, Lts.run Requests.step p m = some q ∧ Linked o t q := by
    intro hrunning hsse hloop hstopping
    exact hgoes (h.same hrunning (by rw [hsse]) (fun pc hat => ⟨pc, hstopping ▸ hat, rfl⟩) (fun _ hs => by rw [hloop]; exact hs)
      fun heq => hloop.symm.trans heq)
  obtain ⟨seen, htransport, hloop⟩ := h.transport
  cases hcases with
  | ignored label result => exact hsame (by rw [result]) (by rw [result]) (by rw [result]) (by rw [result])
  | refused label running outside result => exact hsame (by rw [result]) (by rw [result]) (by rw [result]) (by rw [result])
  | terminates label running loop result =>
    subst result
    exact hends fun heq => by cases heq
  | unwatched label running outside closed result =>
    subst result
    rw [running, closed] at htransport
    refine hgoes ⟨[.connect], _, Lts.run_cons_eq_some.2 ⟨_, rfl, rfl⟩, ⟨seen, ?_, hloop⟩, h.outside, h.closing⟩
    rw [htransport, closed]
    rfl
  | opens label running outside open_ loop result =>
    subst result
    rw [running, open_] at htransport
    refine hgoes ⟨[.connect], _, Lts.run_cons_eq_some.2 ⟨_, rfl, rfl⟩, ⟨.running, ?_, rfl⟩, h.outside, fun heq => (by cases heq)⟩
    rw [htransport, open_]
    rfl
  | stops own label inside running result =>
    subst result
    rw [running] at htransport
    have hstops : ∀ onReader : Bool, Requests.advance p.shared (.transportStop false onReader) = some
        ({ p.shared with transport := .httpClient o.openSseStream false s.sse.closeEmitted seen }, .transportJoin false onReader) := by
      intro onReader
      simp only [Requests.advance, htransport]
      rfl
    cases own with
    | false =>
      obtain ⟨m, hm⟩ := spawn_run (p := p) (.transportDisconnect false) (a := (p.shared, .transportStop false false)) rfl
        (.single (hstops false))
      refine hgoes ⟨m, _, hm, ⟨seen, rfl, hloop⟩, fun pc heq => ?_, fun heq => ?_⟩
      · cases heq
        exact ⟨p.threads.length, List.getElem?_concat_length⟩
      · obtain ⟨j, hj⟩ := h.closing heq
        exact ⟨j, getElem?_append_of_some hj _⟩
    | true =>
      -- the handler's own call does not wait
      have hjoins : ∀ shared : Requests.State, Requests.advance shared (.transportJoin false true) =
          some (shared, .transportReturn false) := by
        intro shared
        simp only [Requests.advance, Bool.or_true, if_true]
      obtain ⟨m, hm⟩ := spawn_run (p := p) (.transportDisconnect true) (a := (p.shared, .transportStop false true)) rfl
        (.head (hstops true) (.head (hjoins _) (.single rfl)))
      refine hgoes ⟨m, _, hm, ⟨seen, rfl, hloop⟩, fun pc heq => (by cases heq), fun heq => ?_⟩
      obtain ⟨j, hj⟩ := h.closing heq
      exact ⟨j, getElem?_append_of_some hj _⟩
  | section_ own pc label at_ taken =>
    cases own with
    | false => exact hgoes (h.section_ at_ taken)
    | true =>
      -- its sections are behind it already
      refine hgoes ?_
      cases taken with
      | join other _ => cases other
      | reset => exact h.same rfl rfl (fun pc heq => (by cases heq)) (fun _ hs => hs) fun heq => heq
      | _ => exact h.same rfl rfl (fun pc heq => (by cases heq)) (fun _ hs => hs) fun heq => heq
  | moves loop sse told move result =>
    rw [result]
    obtain ⟨m, q, hm, hq⟩ := h.moves move
    exact ⟨m, q, hm, fun _ => hq⟩
  | ends end_ ends result =>
    subst result
    exact hends fun heq => by cases heq
  | posts label posts sessionId entering result => exact hsame (by rw [result]) (by rw [result]) (by rw [result]) (by rw [result])
  | freed i body wake post gone posts result =>
    subst result
    exact hends fun heq => by cases heq

end Session

/-- **A run of the HTTP client transport is a run of the session's transport**: from a fresh transport and a fresh session on,
the session can always be where the transport is, with the same `running_` and `close_emitted_`, the SSE thread as far as it
sees it, a thread in `disconnect` wherever another thread is in it, and a thread in `handle_close` while the close handler
runs. -/
theorem session_follows {o : Options} {labels : List Label} {s : State} (h : Lts.run (step o) (start o) labels = some s)
    (hend : s.end_ = none) :
    ∃ m p, Lts.run Requests.step (Requests.init (.httpClient o.openSseStream false false .none)) m = some p ∧ Matches o s p := by
  have hstart : Linked o (start o) (Requests.init (.httpClient o.openSseStream false false .none)) :=
    fun _ => ⟨⟨.none, rfl, .inl rfl⟩, fun pc heq => (by cases heq), fun heq => (by cases heq)⟩
  obtain ⟨m, p, hm, hlinked⟩ := (simulates_session o).run hstart h
  exact ⟨m, p, hm, hlinked hend⟩

/-- The SSE thread polls, and another thread is about to join it. -/
theorem session_follows_quiet : ∃ s m p, Lts.run (step {}) (start {}) [.connect true, .loop, .connected true, .loop, .disconnect false] =
    some s ∧ Lts.run Requests.step (Requests.init (.httpClient true false false .none)) m = some p ∧
      p.shared.transport = .httpClient true false false .running ∧ ∃ i : Nat, p.threads[i]? = some (.transportJoin false false) := by
  have hrun : Lts.run (step {}) (start {}) [.connect true, .loop, .connected true, .loop, .disconnect false] = some _ := rfl
  obtain ⟨m, p, hm, ⟨seen, htransport, hseen⟩, houtside, -⟩ := session_follows hrun rfl
  obtain rfl : seen = .running := hseen
  exact ⟨_, m, p, hrun, hm, htransport, houtside .delete rfl⟩

end HttpClientTransport
end Mcp
