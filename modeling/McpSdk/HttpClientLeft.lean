import McpSdk.HttpClientWake
import McpSdk.Lib.Since
/-!
# HttpClientLeft — what becomes of the SSE thread

A `disconnect` by another thread joins the SSE thread, and after it nothing more is told before the next `connect`; the
close handler hears once in the transport's life that the loop has given up (`told_in_turn`).  A handler that disconnects
leaves its own thread behind: no later `disconnect` wakes it or joins it, and `connect` and the destructor then end the
process (`terminate_iff_left`).
-/
namespace Mcp
namespace HttpClientTransport

/-! ## The log -/

/-- A handler on the SSE thread has called `disconnect`, and no `connect` has started a thread since. -/
def Left (log : List Event) : Prop := Lts.Since (· = .stopping true) (· = .opened) log

/-- A `connect` has started a thread, and no `disconnect` by another thread has returned since. -/
def Open (log : List Event) : Prop := Lts.Since (· = .opened) (· = .stopped false) log

/-- What the SSE thread tells. -/
def Event.ofLoop : Event → Bool
  | .get _ | .frame _ | .error _ | .close => true
  | _ => false

/-- **What may come next**: the SSE thread tells something only while it is open to, and the close only once, right after it
has given up. -/
structure Fits (o : Options) (past : List Event) (e : Event) : Prop where
  open_ : e.ofLoop = true → Open past
  close : e = .close → .close ∉ past ∧ ∃ before failures, past.filter Event.ofLoop = before ++ [.error (giveUpError failures)] ∧
    0 < o.maxReconnectAttempts ∧ o.maxReconnectAttempts ≤ failures

theorem left_append {log more : List Event} (h : ∀ e ∈ more, e ≠ .stopping true ∧ e ≠ .opened) : Left (log ++ more) ↔ Left log :=
  Lts.since_append h

theorem left_concat {log : List Event} {e : Event} : Left (log ++ [e]) ↔ e = .stopping true ∨ e ≠ .opened ∧ Left log :=
  Lts.since_concat

theorem Event.ofLoop_eq {e : Event} (h : e.ofLoop = true) : e ≠ .stopping true ∧ e ≠ .opened ∧ e ≠ .stopped false := by
  refine ⟨?_, ?_, ?_⟩ <;> rintro rfl <;> cases h

section Steps

variable {o : Options} {s t : State} {l : Label} {loop : Loop} {sse : Stream} {told : List Event}

/-- The SSE thread tells one thing at a time. -/
theorem Move.told_of (h : Move o s loop sse told) : ∀ e ∈ told, e.ofLoop = true := by
  cases h with
  | request _ => simp [Event.ofLoop]
  | hands _ _ _ => simp [Event.ofLoop]
  | givesUp _ _ _ => simp [Event.ofLoop]
  | closes _ _ => simp [Event.ofLoop]
  | _ => exact fun e hmem => by cases hmem

/-! ## The thread that is left behind -/

/-- **The SSE thread is left behind exactly when its handler has disconnected.** -/
def Tied (s : State) : Prop := s.loop ≠ .absent ∧ ¬ s.Attached ↔ Left s.log

theorem Tied.section_ {own : Bool} {pc : Pc} (h : Tied s) (hs : Sound o s) (hat : s.stopping = some (own, pc))
    (hsection : Section s own pc t) : Tied t := by
  have hrunning := hs.stopping (by rw [hat]; rfl)
  -- the `disconnect` of another thread keeps the SSE thread attached until it has joined it
  have hother : own = false → ¬ Left s.log := by
    rintro rfl hleft
    exact (h.2 hleft).2 (.inr ⟨pc, hat⟩)
  have hkeeps : ∀ {next : Pc} {signalled : List Nat} {log : List Event}, (Left log ↔ Left s.log) →
      Tied { s with stopping := some (own, next), signalled, log } := by
    intro next signalled log hlog
    refine Iff.trans ?_ hlog.symm
    cases own with
    | false => exact iff_of_false (fun hoff => hoff.2 (.inr ⟨next, rfl⟩)) (hother rfl)
    | true =>
      refine Iff.trans (and_congr_right fun _ => not_congr ?_) h
      exact or_congr_right (exists_congr fun pc' => iff_of_false (fun heq => by cases heq) fun heq => by rw [hat] at heq; cases heq)
  cases hsection with
  | delete =>
    refine hkeeps ?_
    split
    · rw [List.append_nil]
    · exact left_append (by simp)
  | signal => exact hkeeps Iff.rfl
  | pass free => exact hkeeps Iff.rfl
  | join other loop => exact iff_of_false (fun hoff => hoff.1 rfl) (hother other)
  | reset =>
    have hlog : Left (s.log ++ [.stopped own]) ↔ Left s.log := left_append (by simp)
    refine Iff.trans ?_ hlog.symm
    cases own with
    | false => exact iff_of_false (fun hoff => hoff.1 (hs.joined hat)) (hother rfl)
    | true =>
      refine Iff.trans (and_congr_right fun _ => not_congr ?_) h
      exact or_congr_right (exists_congr fun pc' => iff_of_false (fun heq => by cases heq) fun heq => by rw [hat] at heq; cases heq)

theorem Tied.step (h : Tied s) (hs : Sound o s) (hstep : HttpClientTransport.step o s l = some t) (hend : t.end_ = none) : Tied t := by
  cases (step_cases hstep).2 with
  | ignored label result =>
    rw [result]
    exact h
  | refused label running outside result =>
    subst result
    exact h.trans (left_append (by simp)).symm
  | terminates label running loop result =>
    rw [result] at hend
    cases hend
  | unwatched label running outside closed result =>
    subst result
    refine iff_of_false (fun hoff => hoff.1 (hs.unwatched closed)) fun hleft => ?_
    exact (h.2 hleft).1 (hs.unwatched closed)
  | opens label running outside open_ loop result =>
    subst result
    refine iff_of_false (fun hoff => hoff.2 (.inl rfl)) ?_
    show ¬ Left (s.log ++ [.opened])
    rw [left_concat]
    rintro (heq | ⟨hne, -⟩)
    · cases heq
    · exact hne rfl
  | stops own label inside running result =>
    subst result
    cases own with
    | true =>
      have hin := inside rfl
      refine iff_of_true ⟨fun habsent => ?_, ?_⟩ (left_concat.2 (.inl rfl))
      · rw [show s.loop = .absent from habsent] at hin
        cases hin
      · exact State.not_attached rfl fun _ heq => by cases heq
    | false =>
      refine iff_of_false (fun hoff => hoff.2 (.inr ⟨_, rfl⟩)) ?_
      show ¬ Left (s.log ++ [.stopping false])
      rw [left_append (by simp)]
      exact fun hleft => (h.2 hleft).2 (.inl running)
  | section_ own pc label at_ taken => exact h.section_ hs at_ taken
  | moves loop sse told move result =>
    subst result
    have hlog : Left (s.log ++ told) ↔ Left s.log := left_append fun e he =>
      have hne := Event.ofLoop_eq (move.told_of e he)
      ⟨hne.1, hne.2.1⟩
    exact (and_congr_left fun _ => iff_of_true move.present.2 move.present.1).trans (h.trans hlog.symm)
  | ends end_ ends result =>
    rw [result] at hend
    cases hend
  | posts label posts sessionId entering result =>
    subst result
    exact h
  | freed i body wake post gone posts result =>
    rw [result] at hend
    cases hend

/-- **What the log and the state have to do with each other.** -/
structure Told (o : Options) (s : State) : Prop where
  open_ : s.loop ≠ .absent → Open s.log
  closed : .close ∈ s.log → s.sse.closeEmitted = true
  gaveUp : s.loop = .erring ∨ s.loop = .leaving → ∃ before failures,
    s.log.filter Event.ofLoop = before ++ [.error (giveUpError failures)] ∧
      0 < o.maxReconnectAttempts ∧ o.maxReconnectAttempts ≤ failures
  fits : Lts.EachAfter (Fits o) [] s.log

/-- Something else is told, while the SSE thread stays where it is. -/
theorem Told.adds (h : Told o s) (e : Event) (he : e.ofLoop = false) (hopen : s.loop ≠ .absent → e ≠ .stopped false)
    (hlog : t.log = s.log ++ [e]) (hloop : t.loop = s.loop) (hsse : t.sse = s.sse) : Told o t where
  open_ := fun hpresent => by
    rw [hloop] at hpresent
    rw [hlog]
    refine (h.open_ hpresent).append fun x hx => ?_
    rw [List.mem_singleton.1 hx]
    exact hopen hpresent
  closed := fun hmem => by
    rw [hlog] at hmem
    rw [hsse]
    rcases List.mem_append.1 hmem with hmem | hmem
    · exact h.closed hmem
    · rw [← List.mem_singleton.1 hmem] at he
      cases he
  gaveUp := fun hor => by
    rw [hloop] at hor
    have hsame : [e].filter Event.ofLoop = [] := by simp [he]
    rw [hlog, List.filter_append, hsame, List.append_nil]
    exact h.gaveUp hor
  fits := by
    rw [hlog]
    refine Lts.eachAfter_append.2 ⟨h.fits, ⟨fun htells => ?_, fun hclose => ?_⟩, trivial⟩
    · rw [he] at htells
      cases htells
    · rw [hclose] at he
      cases he

/-- The same log, and the SSE thread where it was or gone. -/
theorem Told.keeps (h : Told o s) (hlog : t.log = s.log) (hsse : t.sse = s.sse) (hloop : t.loop = s.loop ∨ t.loop = .absent) :
    Told o t where
  open_ := fun hpresent => by
    rcases hloop with hloop | habsent
    · rw [hlog]
      rw [hloop] at hpresent
      exact h.open_ hpresent
    · exact absurd habsent hpresent
  closed := fun hmem => by
    rw [hlog] at hmem
    rw [hsse]
    exact h.closed hmem
  gaveUp := fun hor => by
    rcases hloop with hloop | habsent
    · rw [hloop] at hor
      rw [hlog]
      exact h.gaveUp hor
    · rw [habsent] at hor
      rcases hor with heq | heq <;> cases heq
  fits := by
    rw [hlog]
    exact h.fits

theorem Told.moves (h : Told o s) (hmove : Move o s loop sse told) : Told o (s.goes loop sse told) where
  open_ := fun _ => (h.open_ hmove.present.1).append fun e he => (Event.ofLoop_eq (hmove.told_of e he)).2.2
  closed := fun hmem => by
    rcases List.mem_append.1 hmem with hbefore | hnew
    · cases hmove with
      | closes _ _ => rfl
      | _ => exact h.closed hbefore
    · cases hmove with
      | closes _ _ => rfl
      | request _ => simp at hnew
      | hands _ _ _ => simp at hnew
      | givesUp _ _ _ => simp at hnew
      | _ => cases hnew
  gaveUp := fun hor => by
    have hor : loop = .erring ∨ loop = .leaving := hor
    show ∃ before failures, (s.log ++ told).filter Event.ofLoop = _ ∧ _
    cases hmove with
    | givesUp _ _ reached => exact ⟨s.log.filter Event.ofLoop, _, by rw [List.filter_append]; rfl, reached⟩
    | told from_ _ =>
      rw [List.append_nil]
      exact h.gaveUp (.inl from_)
    | _ => rcases hor with heq | heq <;> cases heq
  fits := by
    refine Lts.eachAfter_append.2 ⟨h.fits, ?_⟩
    rw [List.nil_append]
    have hopen := h.open_ hmove.present.1
    cases hmove with
    | closes from_ fresh =>
      refine ⟨⟨fun _ => hopen, fun _ => ⟨fun hmem => ?_, h.gaveUp (.inr from_)⟩⟩, trivial⟩
      rw [h.closed hmem] at fresh
      cases fresh
    | request _ => exact ⟨⟨fun _ => hopen, fun heq => by cases heq⟩, trivial⟩
    | hands _ _ _ => exact ⟨⟨fun _ => hopen, fun heq => by cases heq⟩, trivial⟩
    | givesUp _ _ _ => exact ⟨⟨fun _ => hopen, fun heq => by cases heq⟩, trivial⟩
    | _ => trivial

theorem Told.step (h : Told o s) (hs : Sound o s) (hstep : HttpClientTransport.step o s l = some t) (hend : t.end_ = none) :
    Told o t := by
  cases (step_cases hstep).2 with
  | ignored label result =>
    rw [result]
    exact h
  | refused label running outside result =>
    exact h.adds (.refused wakeEventError) rfl (fun _ heq => by cases heq) (by rw [result]) (by rw [result]) (by rw [result])
  | terminates label running loop result =>
    rw [result] at hend
    cases hend
  | unwatched label running outside closed result => exact h.keeps (by rw [result]) (by rw [result]) (.inl (by rw [result]))
  | opens label running outside open_ loop result =>
    subst result
    have hadds : Told o { s with log := s.log ++ [.opened] } := h.adds .opened rfl (fun _ heq => by cases heq) rfl rfl rfl
    exact ⟨fun _ => Lts.since_concat.2 (.inl rfl), hadds.closed, fun hor => (by rcases hor with heq | heq <;> cases heq), hadds.fits⟩
  | stops own label inside running result =>
    exact h.adds (.stopping own) rfl (fun _ heq => by cases heq) (by rw [result]) (by rw [result]) (by rw [result])
  | section_ own pc label at_ taken =>
    cases taken with
    | delete =>
      by_cases hsession : s.sessionId = []
      · exact h.keeps (by simp [hsession]) rfl (.inl rfl)
      · exact h.adds (.delete s.sessionId) rfl (fun _ heq => by cases heq) (by simp [hsession]) rfl rfl
    | signal => exact h.keeps rfl rfl (.inl rfl)
    | pass free => exact h.keeps rfl rfl (.inl rfl)
    | join other loop => exact h.keeps rfl rfl (.inr rfl)
    | reset =>
      refine h.adds (.stopped own) rfl (fun hpresent heq => ?_) rfl rfl rfl
      cases heq
      exact hpresent (hs.joined at_)
  | moves loop sse told move result =>
    rw [result]
    exact h.moves move
  | ends end_ ends result =>
    rw [result] at hend
    cases hend
  | posts label posts sessionId entering result => exact h.keeps (by rw [result]) (by rw [result]) (.inl (by rw [result]))
  | freed i body wake post gone posts result =>
    rw [result] at hend
    cases hend

end Steps

end HttpClientTransport
end Mcp
