import McpSdk.StdioSound
/-!
# StdioLines — what the reader thread hands on, and when

The lines handed to `process_line` are those of what each connection has read, in order, and nothing else of the stream is
lost or read twice (`handed_of_run`).  Every call of a handler on the reader thread comes after the `connect` that started
it, before its close event and before another thread's `disconnect` returns (`handled_of_run`).
-/
namespace Mcp
namespace StdioTransport

/-! ## The lines -/

/-- The lines that went to `process_line`. -/
def handed (events : List Event) : List Bytes :=
  events.filterMap fun e =>
    match e with
    | .line text => some text
    | _ => none

/-- The complete lines of what a connection has read. -/
def linesOf (segment : Bytes) : List Bytes := (Search.drain 10 segment).1.map stripCr

theorem handed_log (s : State) (e : Event) : handed (s.log e).events = handed s.events ++ handed [e] := List.filterMap_append

/-- Where the buffer may hold a line end. -/
def Reader.cutsLines (r : Reader) : Prop := r = .cutting ∨ r = .handling

/-- **What was read and what was handed on.** -/
structure Kept (s : State) : Prop where
  written : s.written = s.taken.flatten ++ s.incoming
  connected : s.reader ≠ .absent → s.taken ≠ []
  cut : ∃ raw, Search.drain 10 (s.taken.getLastD []) = (raw ++ (Search.drain 10 s.buffer).1, (Search.drain 10 s.buffer).2) ∧
    handed s.events = s.taken.dropLast.flatMap linesOf ++ raw.map stripCr
  clean : ¬ s.reader.cutsLines → (10 : UInt8) ∉ s.buffer

theorem dropLast_append_getLastD {α : Type} {l : List (List α)} (h : l ≠ []) : l.dropLast ++ [l.getLastD []] = l := by
  rw [List.getLastD_eq_getLast?, List.getLast?_eq_some_getLast h, Option.getD_some]
  exact List.dropLast_append_getLast h

section Steps

variable {ownsFds : Bool} {s t : State} {l : Label}

/-- All that the connection has read is handed on, but the beginning of a line. -/
theorem Kept.handed_eq (h : Kept s) (hclean : (10 : UInt8) ∉ s.buffer) : handed s.events = s.taken.flatMap linesOf := by
  obtain ⟨raw, hdrain, hhanded⟩ := h.cut
  rw [Search.drain_of_not_mem hclean, List.append_nil] at hdrain
  rw [hhanded]
  by_cases htaken : s.taken = []
  · rw [htaken] at hdrain ⊢
    obtain rfl : [] = raw := congrArg Prod.fst hdrain
    rfl
  · have hlast : linesOf (s.taken.getLastD []) = raw.map stripCr := by
      unfold linesOf
      rw [hdrain]
    conv => rhs; rw [← dropLast_append_getLastD htaken]
    rw [List.flatMap_append, List.flatMap_singleton, hlast]

/-- What leaves the lines and the buffer as they are. -/
theorem Kept.same (h : Kept s) (hwritten : t.written = s.written) (hincoming : t.incoming = s.incoming) (htaken : t.taken = s.taken)
    (hbuffer : t.buffer = s.buffer) (hevents : handed t.events = handed s.events)
    (hreader : t.reader ≠ .absent → s.reader ≠ .absent) (hclean : ¬ t.reader.cutsLines → (10 : UInt8) ∉ s.buffer) : Kept t where
  written := by rw [hwritten, hincoming, htaken]; exact h.written
  connected := fun hpresent => by rw [htaken]; exact h.connected (hreader hpresent)
  cut := by rw [htaken, hbuffer, hevents]; exact h.cut
  clean := fun hcuts => by rw [hbuffer]; exact hclean hcuts

theorem Kept.moves {reader : Reader} (h : Kept s) (hmove : Move s reader) : Kept { s with reader } := by
  have hgoes : s.reader ≠ .absent → (¬ reader.cutsLines → (10 : UInt8) ∉ s.buffer) → Kept { s with reader } :=
    fun hpresent hclean => h.same rfl rfl rfl rfl rfl (fun _ => hpresent) hclean
  have hfrom : ∀ {r : Reader}, s.reader = r → r ≠ .absent → ¬ r.cutsLines → Kept { s with reader } := by
    intro r heq hpresent hcuts
    rw [← heq] at hpresent hcuts
    exact hgoes hpresent fun _ => h.clean hcuts
  cases hmove with
  | enter reader _ => exact hfrom reader (by decide) (by rintro (heq | heq) <;> cases heq)
  | leave reader _ =>
    rcases reader with reader | reader
    · exact hfrom reader (by decide) (by rintro (heq | heq) <;> cases heq)
    · exact hfrom reader (by decide) (by rintro (heq | heq) <;> cases heq)
  | recover reader _ => exact hfrom reader (by decide) (by rintro (heq | heq) <;> cases heq)
  | eof reader => exact hfrom reader (by decide) (by rintro (heq | heq) <;> cases heq)
  | ready wake reader _ => exact hfrom reader (fun heq => by cases heq) (by rintro (heq | heq) <;> cases heq)
  | woken wake reader _ => exact hfrom reader (fun heq => by cases heq) (by rintro (heq | heq) <;> cases heq)
  | again reader _ => exact hfrom reader (by decide) (by rintro (heq | heq) <;> cases heq)
  | silent reader _ => exact hfrom reader (by decide) (by rintro (heq | heq) <;> cases heq)
  | drained reader none_ =>
    exact hgoes (by rw [reader]; decide) fun _ => Search.indexOf_singleton_eq_none.1 none_
  | handled reader _ => exact hgoes (by rw [reader]; decide) fun hcuts => absurd (.inl rfl) hcuts
  | closed reader _ => exact hfrom reader (by decide) (by rintro (heq | heq) <;> cases heq)
  | fail reader => exact hfrom reader (by decide) (by rintro (heq | heq) <;> cases heq)

/-- What a section of `disconnect` leaves. -/
theorem advance_keeps {own : Bool} {pc : Pc} {u : State} {next : Option Pc} (hadv : s.advance ownsFds own pc = some (u, next)) :
    u.written = s.written ∧ u.incoming = s.incoming ∧ u.taken = s.taken ∧ u.buffer = s.buffer ∧ u.events = s.events ∧
      (u.reader = s.reader ∨ s.reader = .finished ∧ u.reader = .absent) := by
  cases pc with
  | signal =>
    simp only [State.advance] at hadv
    split at hadv <;> cases hadv <;> exact ⟨rfl, rfl, rfl, rfl, rfl, .inl rfl⟩
  | join =>
    simp only [State.advance] at hadv
    split at hadv
    · cases hadv
      exact ⟨rfl, rfl, rfl, rfl, rfl, .inl rfl⟩
    · split at hadv
      · rename_i hfinished
        cases hadv
        exact ⟨rfl, rfl, rfl, rfl, rfl, .inr ⟨hfinished, rfl⟩⟩
      · cases hadv
  | _ =>
    cases hadv
    exact ⟨rfl, rfl, rfl, rfl, rfl, .inl rfl⟩

/-- The place of a `disconnect` is not in what was read, and its return is no line. -/
theorem stoppedAt_keeps (s : State) (own : Bool) (pc : Option Pc) :
    (s.stoppedAt own pc).written = s.written ∧ (s.stoppedAt own pc).incoming = s.incoming ∧ (s.stoppedAt own pc).taken = s.taken ∧
      (s.stoppedAt own pc).buffer = s.buffer ∧ (s.stoppedAt own pc).reader = s.reader ∧
        ((s.stoppedAt own pc).events = s.events ∨ (s.stoppedAt own pc).events = s.events ++ [.stopped] ∧ own = false ∧ pc = none) := by
  unfold State.stoppedAt
  split
  · exact ⟨rfl, rfl, rfl, rfl, rfl, .inl rfl⟩
  · rename_i hown
    split
    · rename_i hpc
      exact ⟨rfl, rfl, rfl, rfl, rfl, .inr ⟨rfl, Bool.not_eq_true _ ▸ hown, hpc⟩⟩
    · exact ⟨rfl, rfl, rfl, rfl, rfl, .inl rfl⟩

/-- The next line is cut off the buffer. -/
theorem drain_of_found {buffer : Bytes} {pos : Nat} (h : Search.indexOf [10] buffer = some pos) :
    Search.drain 10 buffer =
      (buffer.take pos :: (Search.drain 10 (buffer.drop (pos + 1))).1, (Search.drain 10 (buffer.drop (pos + 1))).2) := by
  obtain ⟨line, rest, rfl, hnone, rfl⟩ := Search.exists_split (List.cons_ne_nil _ _) h
  rw [List.append_assoc, List.singleton_append, Search.drain_line (Search.indexOf_singleton_eq_none.1 hnone), List.take_left,
    ← List.drop_drop, List.drop_left]
  rfl

theorem Kept.cuts {pos : Nat} (h : Kept s) (hreader : s.reader = .cutting) (hfound : Search.indexOf [10] s.buffer = some pos) :
    Kept ({ s with reader := .handling, buffer := s.buffer.drop (pos + 1) }.log (.line (stripCr (s.buffer.take pos)))) where
  written := h.written
  connected := fun _ => h.connected (by rw [hreader]; decide)
  cut := by
    obtain ⟨raw, hdrain, hhanded⟩ := h.cut
    rw [drain_of_found hfound] at hdrain
    refine ⟨raw ++ [s.buffer.take pos], ?_, ?_⟩
    · show Search.drain 10 (s.taken.getLastD []) = _
      rw [hdrain]
      simp only [List.append_assoc, List.singleton_append, State.log]
    · rw [handed_log, List.map_append, ← List.append_assoc]
      exact congrArg (· ++ [stripCr (s.buffer.take pos)]) hhanded
  clean := fun hcuts => absurd (.inr rfl) hcuts

theorem Kept.reads (h : Kept s) (hreader : s.reader = .reading) (size : Nat) :
    Kept { s with
      reader := .cutting, buffer := s.buffer ++ s.incoming.take size, incoming := s.incoming.drop size
      taken := s.taken.dropLast ++ [s.taken.getLastD [] ++ s.incoming.take size] } := by
  have hclean : (10 : UInt8) ∉ s.buffer := h.clean (by rw [hreader]; rintro (heq | heq) <;> cases heq)
  have htaken : s.taken ≠ [] := h.connected (by rw [hreader]; decide)
  refine ⟨?_, fun _ => by simp, ?_, fun hcuts => absurd (.inl rfl) hcuts⟩
  · have hbefore : s.taken.flatten = s.taken.dropLast.flatten ++ s.taken.getLastD [] := by
      conv => lhs; rw [← dropLast_append_getLastD htaken]
      rw [List.flatten_append, List.flatten_singleton]
    dsimp only
    rw [h.written, hbefore, List.flatten_append, List.flatten_singleton]
    simp only [List.append_assoc, List.take_append_drop]
  · obtain ⟨raw, hdrain, hhanded⟩ := h.cut
    rw [Search.drain_of_not_mem hclean, List.append_nil] at hdrain
    refine ⟨raw, ?_, ?_⟩
    · dsimp only
      rw [List.getLastD_concat, Search.drain_append, hdrain]
    · dsimp only
      rw [List.dropLast_concat]
      exact hhanded

/-- **One step** loses nothing and hands nothing on twice. -/
theorem Kept.step (h : Kept s) (hstep : StdioTransport.step ownsFds s l = some t) : Kept t := by
  have hquiet : ∀ {r : Reader}, s.reader = r → ¬ r.cutsLines → (10 : UInt8) ∉ s.buffer := by
    intro r heq hcuts
    exact h.clean (by rw [heq]; exact hcuts)
  cases (step_cases hstep).2 with
  | refused running outside result =>
    rw [result]
    exact h.same rfl rfl rfl rfl ((handed_log _ _).trans (List.append_nil _)) (fun hpresent => hpresent) h.clean
  | opens running outside reader result =>
    rw [result]
    have hclean := hquiet reader (by rintro (heq | heq) <;> cases heq)
    refine ⟨?_, fun _ => by simp [State.log], ⟨[], ?_, ?_⟩, fun _ => List.not_mem_nil⟩
    · show s.written = (s.taken ++ [[]]).flatten ++ s.incoming
      rw [h.written]
      simp
    · show Search.drain 10 ((s.taken ++ [[]]).getLastD []) = _
      rw [List.getLastD_concat]
      rfl
    · rw [handed_log]
      show handed s.events ++ [] = (s.taken ++ [[]]).dropLast.flatMap linesOf ++ []
      rw [List.dropLast_concat, h.handed_eq hclean]
  | section_ own label pc at_ u next adv result =>
    rw [result]
    obtain ⟨hwritten, hincoming, htaken, hbuffer, hevents, hreader⟩ := advance_keeps adv
    obtain ⟨hwritten', hincoming', htaken', hbuffer', hreader', hevents'⟩ := stoppedAt_keeps u own next
    have hhanded : handed (u.stoppedAt own next).events = handed s.events := by
      rw [← hevents]
      rcases hevents' with heq | ⟨heq, -⟩
      · rw [heq]
      · rw [heq]
        exact (handed_log u .stopped).trans (List.append_nil _)
    refine h.same (hwritten'.trans hwritten) (hincoming'.trans hincoming) (htaken'.trans htaken) (hbuffer'.trans hbuffer) hhanded
      (fun hpresent => ?_) fun hcuts => ?_
    · rw [hreader'] at hpresent
      rcases hreader with heq | ⟨heq, -⟩
      · rwa [heq] at hpresent
      · rw [heq]
        decide
    · rw [hreader'] at hcuts
      rcases hreader with heq | ⟨heq, -⟩
      · rw [heq] at hcuts
        exact h.clean hcuts
      · exact hquiet heq (by rintro (heq | heq) <;> cases heq)
  | moves reader move result =>
    rw [result]
    exact h.moves move
  | errs e reader result =>
    rw [result]
    refine h.same rfl rfl rfl rfl ((handed_log _ _).trans (List.append_nil _)) (fun _ => ?_) fun _ => ?_
    · rcases reader with reader | ⟨wake, reader⟩ <;> rw [reader]
      · decide
      · exact fun heq => by cases heq
    · rcases reader with reader | ⟨wake, reader⟩
      · exact hquiet reader (by rintro (heq | heq) <;> cases heq)
      · exact hquiet reader (by rintro (heq | heq) <;> cases heq)
  | cuts pos reader found result =>
    rw [result]
    exact h.cuts reader found
  | closes reader result =>
    rw [result]
    refine h.same rfl rfl rfl rfl ((handed_log _ _).trans (List.append_nil _)) (fun _ => by rw [reader]; decide) fun _ => ?_
    exact hquiet reader (by rintro (heq | heq) <;> cases heq)
  | reads size reader chunk result =>
    rw [result]
    exact h.reads reader size
  | writes data label result =>
    rw [result]
    refine ⟨?_, h.connected, h.cut, h.clean⟩
    dsimp only
    rw [h.written, List.append_assoc]
  | _ =>
    rename_i result
    rw [result]
    exact ⟨h.written, h.connected, h.cut, h.clean⟩

theorem kept_start : Kept {} where
  written := rfl
  connected := fun h => absurd rfl h
  cut := ⟨[], rfl, rfl⟩
  clean := fun _ => List.not_mem_nil

theorem kept_run {labels : List Label} (h : Lts.run (step ownsFds) {} labels = some s) : Kept s :=
  Lts.run_invariant (fun _ _ _ hs hstep => Kept.step hs hstep) kept_start h

end Steps

/-- **Every line the peer writes is handed on once, in order**: in every state of every run the stream is what the connections
have read, one after the other, and what is still to come; the lines handed on are the first lines of what each has read, and
all of them unless the reader thread is still cutting.  What a connection leaves of a line is lost. -/
theorem handed_of_run {ownsFds : Bool} {labels : List Label} {s : State} (h : Lts.run (step ownsFds) {} labels = some s) :
    s.written = s.taken.flatten ++ s.incoming ∧ handed s.events <+: s.taken.flatMap linesOf ∧
      (s.reader ≠ .cutting → s.reader ≠ .handling → handed s.events = s.taken.flatMap linesOf) := by
  have hs := kept_run h
  refine ⟨hs.written, ?_, fun hcutting hhandling => ?_⟩
  · obtain ⟨raw, hdrain, hhanded⟩ := hs.cut
    rw [hhanded]
    by_cases htaken : s.taken = []
    · rw [htaken] at hdrain
      have hnil : raw = [] := (List.append_eq_nil_iff.1 (congrArg Prod.fst hdrain).symm).1
      rw [htaken, hnil]
      exact List.prefix_rfl
    · conv => rhs; rw [← dropLast_append_getLastD htaken]
      rw [List.flatMap_append, List.flatMap_singleton]
      unfold linesOf
      rw [hdrain, List.map_append]
      exact List.prefix_append_right_inj _ |>.2 (List.prefix_append _ _)
  · exact hs.handed_eq (hs.clean fun hcuts => hcuts.elim hcutting hhandling)

/-! ## The calls -/

/-- The calls made on the reader thread. -/
def Event.onReader : Event → Bool
  | .line _ | .error _ | .close => true
  | .opened | .refused _ | .stopped => false

/-- The beginning and the ends of a connection. -/
def Event.bounds : Event → Bool
  | .opened | .close | .stopped => true
  | .line _ | .error _ | .refused _ => false

/-- **A connection is open**: it has begun, it has had no close event, and no other thread's `disconnect` has returned. -/
def Open (past : List Event) : Prop := ∃ earlier since, past = earlier ++ .opened :: since ∧ ∀ e ∈ since, e.bounds = false

theorem Open.snoc {past : List Event} {e : Event} (h : Open past) (he : e.bounds = false) : Open (past ++ [e]) := by
  obtain ⟨earlier, since, rfl, hsince⟩ := h
  refine ⟨earlier, since ++ [e], by simp, fun x hx => ?_⟩
  rcases List.mem_append.1 hx with hx | hx
  · exact hsince x hx
  · rw [List.mem_singleton.1 hx]
    exact he

/-- The reader thread is in its loop. -/
def Reader.loops : Reader → Bool
  | .absent | .closing | .finished => false
  | _ => true

structure Logged (s : State) : Prop where
  calls : Lts.EachAfter (fun past e => e.onReader = true → Open past) [] s.events
  open_ : s.reader.loops = true → Open s.events

section Steps

variable {ownsFds : Bool} {s t : State} {l : Label}

theorem Logged.log (h : Logged s) {e : Event} (he : e.onReader = true → Open s.events) :
    Lts.EachAfter (fun past e => e.onReader = true → Open past) [] (s.log e).events :=
  Lts.eachAfter_append.2 ⟨h.calls, he, trivial⟩

theorem Move.loops {reader : Reader} (hmove : Move s reader) (hreader : reader.loops = true) : s.reader.loops = true := by
  cases hmove with
  | leave from_ _ => rcases from_ with from_ | from_ <;> rw [from_] <;> rfl
  | ready wake from_ _ => rw [from_]; rfl
  | woken wake from_ _ => rw [from_]; rfl
  | silent => cases hreader
  | closed => cases hreader
  | _ from_ => rw [from_]; rfl

theorem advance_ends {own : Bool} {pc : Pc} {u : State} (hadv : s.advance ownsFds own pc = some (u, none)) : pc = .closeFds := by
  cases pc with
  | closeFds => rfl
  | signal =>
    simp only [State.advance] at hadv
    split at hadv <;> cases hadv
  | join =>
    simp only [State.advance] at hadv
    split at hadv
    · cases hadv
    · split at hadv <;> cases hadv
  | _ => cases hadv

/-- **One step** calls no handler of a connection that is not open. -/
theorem Logged.step (h : Logged s) (hs : Sound s) (hstep : StdioTransport.step ownsFds s l = some t) : Logged t := by
  cases (step_cases hstep).2 with
  | refused running outside result =>
    rw [result]
    exact ⟨h.log fun he => (by cases he), fun hloops => (h.open_ hloops).snoc rfl⟩
  | opens running outside reader result =>
    rw [result]
    exact ⟨h.log fun he => (by cases he), fun _ => ⟨s.events, [], rfl, fun _ hx => (by cases hx)⟩⟩
  | section_ own label pc at_ u next adv result =>
    rw [result]
    obtain ⟨-, -, -, -, hevents, hreader⟩ := advance_keeps adv
    obtain ⟨-, -, -, -, hreader', hevents'⟩ := stoppedAt_keeps u own next
    have hloops : (u.stoppedAt own next).reader.loops = true → s.reader.loops = true := by
      intro hloops
      rw [hreader'] at hloops
      rcases hreader with heq | ⟨-, heq⟩
      · rwa [heq] at hloops
      · rw [heq] at hloops
        cases hloops
    rcases hevents' with heq | ⟨heq, rfl, rfl⟩
    · refine ⟨?_, fun hl => ?_⟩
      · rw [heq, hevents]
        exact h.calls
      · rw [heq, hevents]
        exact h.open_ (hloops hl)
    · -- the thread was joined
      have habsent := hs.joined (.inr ((advance_ends adv) ▸ at_))
      refine ⟨?_, fun hl => ?_⟩
      · rw [heq, hevents]
        exact h.log fun he => by cases he
      · have hl' := hloops hl
        rw [habsent] at hl'
        cases hl'
  | moves reader move result =>
    rw [result]
    exact ⟨h.calls, fun hloops => h.open_ (move.loops hloops)⟩
  | errs e reader result =>
    rw [result]
    have hopen : Open s.events := h.open_ (by rcases reader with reader | ⟨wake, reader⟩ <;> rw [reader] <;> rfl)
    exact ⟨h.log fun _ => hopen, fun _ => hopen.snoc rfl⟩
  | cuts pos reader found result =>
    rw [result]
    have hopen : Open s.events := h.open_ (by rw [reader]; rfl)
    exact ⟨h.log fun _ => hopen, fun _ => hopen.snoc rfl⟩
  | closes reader result =>
    rw [result]
    exact ⟨h.log fun _ => h.open_ (by rw [reader]; rfl), fun hloops => (by cases hloops)⟩
  | reads size reader chunk result =>
    rw [result]
    exact ⟨h.calls, fun _ => h.open_ (by rw [reader]; rfl)⟩
  | _ =>
    rename_i result
    rw [result]
    exact ⟨h.calls, h.open_⟩

end Steps

/-- **Every call of a handler on the reader thread belongs to an open connection**, in every run: it comes after the `connect`
that started the thread, not after the close event, of which there is one at most, and not after another thread's `disconnect`
has returned. -/
theorem handled_of_run {ownsFds : Bool} {labels : List Label} {s : State} (h : Lts.run (step ownsFds) {} labels = some s)
    {past : List Event} {e : Event} {later : List Event} (hsplit : s.events = past ++ e :: later) (he : e.onReader = true) :
    Open past := by
  have hinv : (s.fault = none → Sound s) ∧ Logged s :=
    Lts.run_invariant (I := fun s => (s.fault = none → Sound s) ∧ Logged s)
      (fun s l t hs hstep =>
        have hbefore := hs.1 (step_cases hstep).1
        ⟨hbefore.step hstep, hs.2.step hbefore hstep⟩)
      ⟨fun _ => sound_start, trivial, fun hloops => (by cases hloops)⟩ h
  have hcalls := hinv.2.calls
  rw [hsplit] at hcalls
  exact hcalls.split he

theorem handled_stoppedInside : ∃ s, Lts.run (step true) {} stoppedInside = some s ∧
    s.events = [.opened, .line (bytes "ping"), .close, .stopped] ∧ Open [.opened, .line (bytes "ping")] := by
  have hrun : Lts.run (step true) {} stoppedInside = some _ := rfl
  exact ⟨_, hrun, rfl, @handled_of_run true _ _ hrun [.opened, .line (bytes "ping")] .close _ rfl rfl⟩

theorem handed_stoppedInside : ∃ s, Lts.run (step true) {} stoppedInside = some s ∧
    s.written = s.taken.flatten ++ s.incoming ∧ handed s.events = s.taken.flatMap linesOf := by
  have hrun : Lts.run (step true) {} stoppedInside = some _ := rfl
  obtain ⟨hwritten, -, hhanded⟩ := handed_of_run hrun
  exact ⟨_, hrun, hwritten, hhanded (by decide) (by decide)⟩

end StdioTransport
end Mcp
