import McpSdk.HttpClientTransport
/-!
# HttpClientWake — the wake event of the SSE thread and of the senders

`wake_` is set and reset without a lock while the SSE thread and the senders poll with it.  The SSE thread finds it there
wherever it needs it, and never uses it after its end; a sender does so only when the event goes between its reading of
`wake_` and its call of `poll_readable` (`wake_in_time`).
-/
namespace Mcp
namespace HttpClientTransport

/-- The transport runs, or the thread that stops it will join the SSE thread. -/
def State.Attached (s : State) : Prop := s.running = true ∨ ∃ pc, s.stopping = some (false, pc)

/-- The wake event the SSE thread polls with. -/
def Loop.polls : Loop → Option (Option Nat)
  | .entering wake | .polling wake => some wake
  | .sleeping wake _ => some (some wake)
  | _ => none

/-- The SSE thread only comes to its end, once `running_` is cleared. -/
def State.late (s : State) : Bool :=
  match s.loop with
  | .delivering | .entering _ | .polling _ | .checking => s.sse.breaks
  | .returned delivered => delivered
  | .handling | .resting | .erring | .leaving | .closing | .finished => true
  | _ => false

/-- **What holds between the threads.** -/
structure Sound (o : Options) (s : State) : Prop where
  unwatched : o.openSseStream = false → s.loop = .absent
  inside : ∀ pc, s.stopping = some (true, pc) → s.loop.inHandler = true
  stopping : s.stopping.isSome = true → s.running = false
  joined : s.stopping = some (false, .reset) → s.loop = .absent
  awake : s.Attached → s.wake.isSome = true
  signalled : s.stopping = some (false, .join) → ∀ wake, s.wake = some wake → wake ∈ s.signalled
  polled : s.Attached → ∀ wake, s.loop.polls = some wake → wake = s.wake
  streams : s.loop = .delivering ∨ s.loop = .handling → s.sse.inHead = false
  delivers : s.loop = .handling → s.sse.delivered = true
  late : s.loop ≠ .absent → ¬ s.Attached → s.late = true

/-- The SSE thread polls no event but `wake_`, and has none once it is left behind. -/
structure Held (s : State) : Prop where
  entering : ∀ wake, s.loop = .entering (some wake) → s.wake = some wake
  gone : s.loop ≠ .absent → ¬ s.Attached → s.stopping = none → s.wake = none
  blind : s.loop ≠ .absent → ¬ s.Attached → ∀ wake, s.loop.polls = some wake → wake = none

def Post.isEntering : Post → Bool
  | .entering _ _ => true
  | _ => false

/-- The step replaces or resets the wake event. -/
def State.losesWake (s : State) : Label → Bool
  | .connect _ => !s.running
  | .advance => s.stopping.any (·.2 = .reset)
  | _ => false

/-- The wake event does not go while a sender is about to poll with it. -/
def Apart (s : State) (l : Label) : Prop := s.losesWake l = true → ∀ post ∈ s.posts, post.isEntering = false

instance (s : State) (l : Label) : Decidable (Apart s l) := inferInstanceAs (Decidable (_ → _))

/-- The senders about to poll have the event that `wake_` is. -/
def Together (s : State) : Prop := ∀ body wake, .entering body (some wake) ∈ s.posts → s.wake = some wake

section Steps

variable {o : Options} {s t : State} {l : Label} {loop : Loop} {sse : Stream} {told : List Event}

theorem Move.present (h : Move o s loop sse told) : s.loop ≠ .absent ∧ loop ≠ .absent := by
  cases h with
  | leave from_ _ => rcases from_ with from_ | from_ <;> rw [from_] <;> exact ⟨by decide, by decide⟩
  | breaks from_ =>
    rcases from_ with ⟨from_, -⟩ | from_ | ⟨wake, from_⟩ <;> rw [from_] <;>
      exact ⟨fun heq => (by cases heq), fun heq => (by cases heq)⟩
  | _ from_ => rw [from_]; exact ⟨fun heq => (by cases heq), fun heq => (by cases heq)⟩

/-- The SSE thread polls with the event that `wake_` is then. -/
theorem Move.polls_eq (h : Move o s loop sse told) {wake : Option Nat} (hpolls : loop.polls = some wake) :
    wake = s.wake ∨ s.loop.polls = some wake := by
  cases h with
  | request _ => exact .inl (Option.some.inj hpolls).symm
  | more _ _ _ => exact .inl (Option.some.inj hpolls).symm
  | drained _ _ => exact .inl (Option.some.inj hpolls).symm
  | sleeps _ there => exact .inl ((Option.some.inj hpolls).symm.trans there.symm)
  | polls from_ => exact .inr (by rw [from_]; exact hpolls)
  | _ => cases hpolls

theorem Move.entering_eq (h : Move o s loop sse told) {wake : Option Nat} (hloop : loop = .entering wake) : wake = s.wake := by
  cases h with
  | request _ => exact (Loop.entering.inj hloop).symm
  | more _ _ _ => exact (Loop.entering.inj hloop).symm
  | drained _ _ => exact (Loop.entering.inj hloop).symm
  | _ => cases hloop

/-- No handler of the SSE thread is in `disconnect`. -/
theorem Move.free (h : Move o s loop sse told) (hs : Sound o s) : s.stopsItself = false := by
  cases hown : s.stopsItself with
  | false => rfl
  | true =>
    obtain ⟨⟨own, pc⟩, hat, rfl⟩ := (Option.any_eq_true _ _).1 hown
    have hin := hs.inside pc hat
    cases h with
    | handled _ own => exact hown.symm.trans own
    | told _ own => exact hown.symm.trans own
    | closed _ own => exact hown.symm.trans own
    | leave from_ _ => rcases from_ with from_ | from_ <;> rw [from_] at hin <;> cases hin
    | breaks from_ => rcases from_ with ⟨from_, -⟩ | from_ | ⟨wake, from_⟩ <;> rw [from_] at hin <;> cases hin
    | _ from_ => rw [from_] at hin; cases hin

theorem Move.streams_of (h : Move o s loop sse told) (hs : Sound o s) (hloop : loop = .delivering ∨ loop = .handling) :
    sse.inHead = false := by
  cases h with
  | streams _ _ _ _ => rfl
  | feeds _ _ _ => rfl
  | passes from_ _ _ => exact hs.streams (.inl from_)
  | hands from_ _ _ => exact hs.streams (.inl from_)
  | handled from_ _ => exact hs.streams (.inr from_)
  | _ => rcases hloop with heq | heq <;> cases heq

theorem Move.delivers_of (h : Move o s loop sse told) (hloop : loop = .handling) : sse.delivered = true := by
  cases h with
  | hands _ _ _ => rfl
  | _ => cases hloop

/-- **A thread that comes to its end goes on to it.** -/
theorem Move.late_of (h : Move o s loop sse told) (hs : Sound o s) (hdown : s.running = false) (hlate : s.late = true) :
    (s.goes loop sse told).late = true := by
  have hup : s.running ≠ true := by
    rw [hdown]
    decide
  have hbreaks : ∀ {x : Stream}, x.inHead = false → x.delivered = true → x.breaks = true := by
    intro x hhead hdelivered
    unfold Stream.breaks
    rw [hhead, hdelivered]
    rfl
  unfold State.late at hlate
  cases h with
  | enter _ running => exact absurd running hup
  | check _ running => exact absurd running hup
  | rests _ running => exact absurd running hup
  | passes from_ _ _ => exact hbreaks (hs.streams (.inl from_)) rfl
  | handled from_ _ => exact hbreaks (hs.streams (.inr from_)) (hs.delivers from_)
  | breaks from_ =>
    rcases from_ with ⟨from_, -⟩ | from_ | ⟨wake, from_⟩ <;> rw [from_] at hlate
    · exact hlate
    · cases hlate
    · exact hlate
  | polls from_ => rw [from_] at hlate; exact hlate
  | ready from_ => rw [from_] at hlate; exact hlate
  | drained from_ _ => rw [from_] at hlate; exact hlate
  | request from_ => rw [from_] at hlate; cases hlate
  | unreached from_ => rw [from_] at hlate; cases hlate
  | more from_ _ _ => rw [from_] at hlate; cases hlate
  | rejects from_ => rw [from_] at hlate; cases hlate
  | streams from_ _ _ _ => rw [from_] at hlate; cases hlate
  | feeds from_ _ _ => rw [from_] at hlate; cases hlate
  | warms from_ _ => rw [from_] at hlate; cases hlate
  | sleeps from_ _ => rw [from_] at hlate; cases hlate
  | wakes from_ => rw [from_] at hlate; cases hlate
  | _ => rfl

theorem State.not_attached (hrunning : s.running = false) (hout : ∀ pc, s.stopping ≠ some (false, pc)) : ¬ s.Attached := by
  rintro (hup | ⟨pc, hat⟩)
  · rw [hrunning] at hup
    cases hup
  · exact hout pc hat

theorem Sound.stopping_eq_none (h : Sound o s) (habsent : s.loop = .absent) (hout : ∀ pc, s.stopping ≠ some (false, pc)) :
    s.stopping = none := by
  cases hat : s.stopping with
  | none => rfl
  | some at_ =>
    obtain ⟨own, pc⟩ := at_
    cases own with
    | false => exact absurd hat (hout pc)
    | true =>
      have hin := h.inside pc hat
      rw [habsent] at hin
      cases hin

theorem Sound.moves (h : Sound o s) (hmove : Move o s loop sse told) : Sound o (s.goes loop sse told) where
  unwatched := fun hclosed => absurd (h.unwatched hclosed) hmove.present.1
  inside := fun pc hat => by
    have hfree := hmove.free h
    rw [State.stopsItself, show s.stopping = some (true, pc) from hat] at hfree
    cases hfree
  stopping := h.stopping
  joined := fun hat => absurd (h.joined hat) hmove.present.1
  awake := h.awake
  signalled := h.signalled
  polled := fun hattached wake hpolls => (hmove.polls_eq hpolls).elim id (h.polled hattached wake)
  streams := hmove.streams_of h
  delivers := hmove.delivers_of
  late := fun _ hleft =>
    have hdown : s.running = false := by
      cases hrunning : s.running with
      | false => rfl
      | true => exact absurd (.inl hrunning) hleft
    hmove.late_of h hdown (h.late hmove.present.1 hleft)

/-- The next section of a `disconnect`, while the SSE thread stays where it is. -/
theorem Sound.proceeds {own : Bool} {pc : Pc} (h : Sound o s) (hat : s.stopping = some (own, pc)) (next : Pc) (signalled : List Nat)
    (log : List Event) (hjoin : next = .join → ∀ wake, s.wake = some wake → wake ∈ signalled)
    (hreset : own = false → next = .reset → s.loop = .absent) :
    Sound o { s with stopping := some (own, next), signalled, log } := by
  have hrunning := h.stopping (by rw [hat]; rfl)
  have hattached : State.Attached { s with stopping := some (own, next), signalled, log } → s.Attached := by
    rintro (hup | ⟨pc', heq⟩)
    · exact .inl hup
    · cases heq
      exact .inr ⟨pc, hat⟩
  have hleft : s.Attached → State.Attached { s with stopping := some (own, next), signalled, log } := by
    rintro (hup | ⟨pc', heq⟩)
    · exact .inl hup
    · rw [hat] at heq
      cases heq
      exact .inr ⟨next, rfl⟩
  exact {
    unwatched := h.unwatched
    inside := fun pc' heq => by
      cases heq
      exact h.inside pc hat
    stopping := fun _ => hrunning
    joined := fun heq => by
      cases heq
      exact hreset rfl rfl
    awake := fun hon => h.awake (hattached hon)
    signalled := fun heq => by
      cases heq
      exact hjoin rfl
    polled := fun hon => h.polled (hattached hon)
    streams := h.streams
    delivers := h.delivers
    late := fun hpresent hoff => h.late hpresent fun hon => hoff (hleft hon) }

/-- **A section of `disconnect`.** -/
theorem Sound.section_ {own : Bool} {pc : Pc} (h : Sound o s) (hat : s.stopping = some (own, pc)) (hsection : Section s own pc t) :
    Sound o t := by
  have hrunning := h.stopping (by rw [hat]; rfl)
  cases hsection with
  | delete => exact h.proceeds hat .signal s.signalled _ (fun heq => by cases heq) (fun _ heq => by cases heq)
  | signal =>
    refine h.proceeds hat .join _ s.log (fun _ wake hwake => ?_) (fun _ heq => by cases heq)
    rw [hwake]
    exact List.mem_append_right _ (List.mem_singleton_self wake)
  | pass free =>
    refine h.proceeds hat .reset s.signalled s.log (fun heq => by cases heq) fun hother _ => ?_
    rw [hother] at free
    exact free.resolve_left Bool.false_ne_true
  | join other loop =>
    subst other
    have hwake := h.awake (.inr ⟨_, hat⟩)
    exact {
      unwatched := fun _ => rfl
      inside := fun _ heq => by cases heq
      stopping := fun _ => hrunning
      joined := fun _ => rfl
      awake := fun _ => hwake
      signalled := fun heq => by cases heq
      polled := fun _ _ heq => by cases heq
      streams := fun hor => by rcases hor with heq | heq <;> cases heq
      delivers := fun heq => by cases heq
      late := fun hpresent => absurd rfl hpresent }
  | reset =>
    have hoff : ¬ State.Attached { s with stopping := none, wake := none, log := s.log ++ [.stopped own] } :=
      State.not_attached hrunning fun _ heq => by cases heq
    exact {
      unwatched := h.unwatched
      inside := fun _ heq => by cases heq
      stopping := fun heq => by cases heq
      joined := fun heq => by cases heq
      awake := fun hon => absurd hon hoff
      signalled := fun heq => by cases heq
      polled := fun hon => absurd hon hoff
      streams := h.streams
      delivers := h.delivers
      late := fun hpresent _ => by
        refine h.late hpresent (State.not_attached hrunning fun pc heq => ?_)
        rw [hat] at heq
        cases heq
        exact hpresent (h.joined hat) }

/-- **One step** keeps the threads in order, as long as it ends nothing. -/
theorem Sound.step (h : Sound o s) (hstep : HttpClientTransport.step o s l = some t) (hend : t.end_ = none) : Sound o t := by
  cases (step_cases hstep).2 with
  | ignored label result =>
    rw [result]
    exact h
  | refused label running outside result =>
    subst result
    have hoff := State.not_attached running outside
    exact {
      unwatched := h.unwatched
      inside := h.inside
      stopping := h.stopping
      joined := h.joined
      awake := fun _ => rfl
      signalled := fun heq => absurd heq (outside _)
      polled := fun hon => absurd hon hoff
      streams := h.streams
      delivers := h.delivers
      late := h.late }
  | terminates label running loop result =>
    rw [result] at hend
    cases hend
  | unwatched label running outside closed result =>
    subst result
    have habsent := h.unwatched closed
    have hfree := h.stopping_eq_none habsent outside
    exact {
      unwatched := h.unwatched
      inside := h.inside
      stopping := fun hsome => by
        rw [show s.stopping = none from hfree] at hsome
        cases hsome
      joined := h.joined
      awake := fun _ => rfl
      signalled := fun heq => absurd heq (outside _)
      polled := fun _ wake heq => by
        dsimp only at heq
        rw [habsent] at heq
        cases heq
      streams := h.streams
      delivers := h.delivers
      late := fun hpresent => absurd habsent hpresent }
  | opens label running outside open_ loop result =>
    subst result
    have hfree := h.stopping_eq_none loop outside
    exact {
      unwatched := fun hclosed => by
        rw [open_] at hclosed
        cases hclosed
      inside := fun pc hat => by
        rw [show s.stopping = some (true, pc) from hat] at hfree
        cases hfree
      stopping := fun hsome => by
        rw [show s.stopping = none from hfree] at hsome
        cases hsome
      joined := fun hat => absurd hat (outside _)
      awake := fun _ => rfl
      signalled := fun hat => absurd hat (outside _)
      polled := fun _ _ heq => by cases heq
      streams := fun hor => by rcases hor with heq | heq <;> cases heq
      delivers := fun heq => by cases heq
      late := fun _ hoff => absurd (.inl rfl) hoff }
  | stops own label inside running result =>
    subst result
    have hon : s.Attached := .inl running
    exact {
      unwatched := h.unwatched
      inside := fun pc heq => by
        cases heq
        exact inside rfl
      stopping := fun _ => rfl
      joined := fun heq => by cases heq
      awake := fun _ => h.awake hon
      signalled := fun heq => by cases heq
      polled := fun _ => h.polled hon
      streams := h.streams
      delivers := h.delivers
      late := fun _ hoff => by
        -- only a handler leaves its thread behind
        cases own with
        | false => exact absurd (.inr ⟨.delete, rfl⟩) hoff
        | true =>
          have hin := inside rfl
          unfold State.late
          dsimp only
          cases hloop : s.loop with
          | handling => rfl
          | erring => rfl
          | closing => rfl
          | resting => rfl
          | leaving => rfl
          | finished => rfl
          | _ => rw [hloop] at hin; cases hin }
  | section_ own pc label at_ taken => exact h.section_ at_ taken
  | moves loop sse told move result =>
    rw [result]
    exact h.moves move
  | ends end_ ends result =>
    rw [result] at hend
    cases hend
  | posts label posts sessionId entering result =>
    subst result
    exact ⟨h.unwatched, h.inside, h.stopping, h.joined, h.awake, h.signalled, h.polled, h.streams, h.delivers, h.late⟩
  | freed i body wake post gone posts result =>
    rw [result] at hend
    cases hend

theorem sound_start (o : Options) : Sound o (start o) where
  unwatched := fun _ => rfl
  inside := fun _ heq => by cases heq
  stopping := fun heq => by cases heq
  joined := fun heq => by cases heq
  awake := fun hon => absurd hon (State.not_attached rfl fun _ heq => by cases heq)
  signalled := fun heq => by cases heq
  polled := fun _ _ heq => by cases heq
  streams := fun hor => by rcases hor with heq | heq <;> cases heq
  delivers := fun heq => by cases heq
  late := fun hpresent => absurd rfl hpresent

theorem sound_run {labels : List Label} (h : Lts.run (step o) (start o) labels = some s) (hend : s.end_ = none) : Sound o s := by
  have hinv : s.end_ = none → Sound o s :=
    Lts.run_invariant (I := fun s => s.end_ = none → Sound o s)
      (fun s l t hs hstep hend => (hs (step_cases hstep).1).step hstep hend) (fun _ => sound_start o) h
  exact hinv hend

theorem Loop.polls_of_inHandler {loop : Loop} (h : loop.inHandler = true) : loop.polls = none := by
  cases loop with
  | handling => rfl
  | erring => rfl
  | closing => rfl
  | _ => cases h

/-- While a `disconnect` is under way, the SSE thread is attached or in a handler. -/
theorem Held.meanwhile (hs : Sound o s) (hstopping : s.stopping ≠ none)
    (hentering : ∀ wake, s.loop = .entering (some wake) → s.wake = some wake) : Held s where
  entering := hentering
  gone := fun _ _ hnone => absurd hnone hstopping
  blind := fun _ hoff wake hpolls => by
    obtain ⟨⟨own, pc⟩, hat⟩ := Option.ne_none_iff_exists'.1 hstopping
    cases own with
    | false => exact absurd (.inr ⟨pc, hat⟩) hoff
    | true =>
      rw [Loop.polls_of_inHandler (hs.inside pc hat)] at hpolls
      cases hpolls

theorem Held.step (h : Held s) (hs : Sound o s) (hstep : HttpClientTransport.step o s l = some t) (hl : l ≠ .connect false)
    (hend : t.end_ = none) : Held t := by
  have ht := hs.step hstep hend
  cases (step_cases hstep).2 with
  | ignored label result =>
    rw [result]
    exact h
  | refused label running outside result => exact absurd label hl
  | terminates label running loop result =>
    rw [result] at hend
    cases hend
  | unwatched label running outside closed result =>
    subst result
    refine ⟨fun wake heq => ?_, fun _ hoff => absurd (.inl rfl) hoff, fun _ hoff => absurd (.inl rfl) hoff⟩
    have habsent := hs.unwatched closed
    rw [show s.loop = .entering (some wake) from heq] at habsent
    cases habsent
  | opens label running outside open_ loop result =>
    subst result
    exact ⟨fun _ heq => (by cases heq), fun _ hoff => absurd (.inl rfl) hoff, fun _ hoff => absurd (.inl rfl) hoff⟩
  | stops own label inside running result =>
    subst result
    exact .meanwhile ht (fun heq => by cases heq) h.entering
  | section_ own pc label at_ taken =>
    cases taken with
    | delete => exact .meanwhile ht (fun heq => by cases heq) h.entering
    | signal => exact .meanwhile ht (fun heq => by cases heq) h.entering
    | pass free => exact .meanwhile ht (fun heq => by cases heq) h.entering
    | join other loop => exact .meanwhile ht (fun heq => by cases heq) fun _ heq => (by cases heq)
    | reset =>
      have hpolls : s.loop.polls = none := by
        cases own with
        | true => exact Loop.polls_of_inHandler (hs.inside _ at_)
        | false => rw [hs.joined at_]; rfl
      refine ⟨fun wake heq => ?_, fun _ _ _ => rfl, fun _ _ wake heq => ?_⟩
      · rw [show s.loop = .entering (some wake) from heq] at hpolls
        cases hpolls
      · rw [show s.loop.polls = some wake from heq] at hpolls
        cases hpolls
  | moves loop sse told move result =>
    subst result
    refine ⟨fun wake heq => (move.entering_eq heq).symm, fun _ => h.gone move.present.1, fun _ hoff wake hpolls => ?_⟩
    rcases move.polls_eq hpolls with hsame | hbefore
    · have hfree : s.stopping = none := by
        cases hat : s.stopping with
        | none => rfl
        | some at_ =>
          obtain ⟨own, pc⟩ := at_
          cases own with
          | false => exact absurd (.inr ⟨pc, hat⟩) hoff
          | true =>
            have hself := move.free hs
            rw [State.stopsItself, hat] at hself
            cases hself
      rw [hsame]
      exact h.gone move.present.1 hoff hfree
    · exact h.blind move.present.1 hoff wake hbefore
  | ends end_ ends result =>
    rw [result] at hend
    cases hend
  | posts label posts sessionId entering result =>
    subst result
    exact ⟨h.entering, h.gone, h.blind⟩
  | freed i body wake post gone posts result =>
    rw [result] at hend
    cases hend

theorem Together.step (h : Together s) (hstep : HttpClientTransport.step o s l = some t) (hl : Apart s l) (hend : t.end_ = none) :
    Together t := by
  -- where the wake event goes, no sender is about to poll
  have hlost : s.losesWake l = true → ∀ body wake, .entering body wake ∉ s.posts := by
    intro hloses body wake hmem
    cases hl hloses _ hmem
  cases (step_cases hstep).2 with
  | ignored label result =>
    rw [result]
    exact h
  | refused label running outside result =>
    subst result label
    exact fun body wake hmem => absurd hmem (hlost (by rw [State.losesWake, running]; rfl) body (some wake))
  | terminates label running loop result =>
    rw [result] at hend
    cases hend
  | unwatched label running outside closed result =>
    subst result label
    exact fun body wake hmem => absurd hmem (hlost (by rw [State.losesWake, running]; rfl) body (some wake))
  | opens label running outside open_ loop result =>
    subst result label
    exact fun body wake hmem => absurd hmem (hlost (by rw [State.losesWake, running]; rfl) body (some wake))
  | stops own label inside running result =>
    subst result
    exact h
  | section_ own pc label at_ taken =>
    cases taken with
    | reset =>
      subst label
      exact fun body wake hmem => absurd hmem (hlost (by rw [State.losesWake, at_]; rfl) body (some wake))
    | _ => exact h
  | moves loop sse told move result =>
    subst result
    exact h
  | ends end_ ends result =>
    rw [result] at hend
    cases hend
  | posts label posts sessionId entering result =>
    subst result
    exact fun body wake hmem => (entering body (some wake) hmem).elim (h body wake) Eq.symm
  | freed i body wake post gone posts result =>
    rw [result] at hend
    cases hend

end Steps

end HttpClientTransport
end Mcp
