import McpSdk.TimerLoop
import Mathlib.Logic.Relation
/-!
# TimerProgress — what the timer thread gets done

From every state of every run, the timer thread's own steps and the `notify_all` of the calls under way are enough: for a
deadline that has passed to expire (`overdue_expires`), and for `~Session` to join the thread (`stopped_ends`).

The callback of an expired request returns, as does the transport that takes its cancellation.
-/
namespace Mcp
namespace TimerLoop

open Requests (Pc Transport)

/-! ## A deadline that has passed -/

/-- A step of the timer thread, whatever it is doing, or the `notify_all` of a call that is under way. -/
def Own (s : State) : Label → Prop
  | .timer | .timeout | .notify _ | .stopNotify => True
  | .session (.step i) => s.timer = .expiring i
  | _ => False

def Moves (s t : State) : Prop := ∃ l, Own s l ∧ step s l = some t

section Progress

variable {s t u : State} {i : Nat} {id : RequestId}

theorem Inv.moves (h : Inv s) (hmoves : Relation.ReflTransGen Moves s t) : Inv t := by
  induction hmoves with
  | refl => exact h
  | tail _ hmove ih =>
    obtain ⟨l, -, hstep⟩ := hmove
    exact ih.step hstep

theorem moves_timer (h : s.advanceTimer = some t) : Relation.ReflTransGen Moves s t := .single ⟨.timer, trivial, h⟩

/-- The timer thread runs a section at the expired requests. -/
theorem moves_section {pc pc' : Pc} {shared : Requests.State} (htimer : s.timer = .expiring i) (hfree : i ∉ s.notifying)
    (hpc : s.pool.threads[i]? = some pc) (hisTimer : pc.isTimer = true)
    (hadv : Requests.advance s.pool.shared pc = some (shared, pc')) :
    Moves s { s with pool := ⟨shared, s.pool.threads.set i pc'⟩ } := by
  refine ⟨.session (.step i), htimer, ?_⟩
  have hstep : Requests.step s.pool (.step i) = some ⟨shared, s.pool.threads.set i pc'⟩ :=
    Pool.stepAt_eq_some.2 ⟨pc, shared, pc', hpc, hadv, rfl⟩
  have hquiet : notifiesAfter pc = false ∧ notifiesWithin pc = false := by
    cases pc <;> first | exact ⟨rfl, rfl⟩ | cases hisTimer
  simp only [step, if_neg hfree, hpc, hstep, Option.bind_some, Option.map_some, State.ran, hquiet.1, hquiet.2]
  rfl

def timeoutNote (id : RequestId) : Message := Requests.cancelNote id (some (bytes "request timed out"))

/-- **What the timer thread has done at the expired requests**: it has cancelled `ids` and taken `taken` out of the pending
table. -/
structure Worked (i : Nat) (ids taken : List RequestId) (s t : State) : Prop where
  moves : Relation.ReflTransGen Moves s t
  timer : t.timer = .expiring i
  done : t.pool.threads[i]? = some .done
  notifying : t.notifying = s.notifying
  stop : t.stop = s.stop
  timers : t.pool.shared.timers = s.pool.shared.timers
  now : t.pool.shared.now = s.pool.shared.now
  sent : ∃ sent, t.pool.shared.sent = s.pool.shared.sent ++ sent ∧ ∀ id ∈ ids, timeoutNote id ∈ sent
  pending : ∀ id ∈ t.pool.shared.pending, id ∈ s.pool.shared.pending ∧ id ∉ taken

/-- A section at the expired requests, and what comes after it. -/
theorem Worked.after {ids rest taken left : List RequestId} {pc pc' : Pc} {shared : Requests.State}
    (htimer : s.timer = .expiring i) (hfree : i ∉ s.notifying) (hpc : s.pool.threads[i]? = some pc)
    (hisTimer : pc.isTimer = true) (hadv : Requests.advance s.pool.shared pc = some (shared, pc'))
    (htimers : shared.timers = s.pool.shared.timers) (hnow : shared.now = s.pool.shared.now)
    (hsent : ∃ sent, shared.sent = s.pool.shared.sent ++ sent ∧ ∀ id ∈ ids, id ∈ rest ∨ timeoutNote id ∈ sent)
    (hpending : ∀ id ∈ shared.pending, id ∈ s.pool.shared.pending ∧ (id ∈ taken → id ∈ left))
    (h : Worked i rest left { s with pool := ⟨shared, s.pool.threads.set i pc'⟩ } t) : Worked i ids taken s t where
  moves := .head (moves_section htimer hfree hpc hisTimer hadv) h.moves
  timer := h.timer
  done := h.done
  notifying := h.notifying
  stop := h.stop
  timers := h.timers.trans htimers
  now := h.now.trans hnow
  sent := by
    obtain ⟨first, hfirst, hids⟩ := hsent
    obtain ⟨later, hlater, hrest⟩ := h.sent
    refine ⟨first ++ later, ?_, fun id hid => ?_⟩
    · rw [hlater, hfirst, List.append_assoc]
    · rcases hids id hid with hid | hid
      · exact List.mem_append_right _ (hrest id hid)
      · exact List.mem_append_left _ hid
  pending := fun id hid => by
    obtain ⟨hid, hrest⟩ := h.pending id hid
    obtain ⟨hid, htaken⟩ := hpending id hid
    exact ⟨hid, fun hmem => hrest (htaken hmem)⟩

/-- The thread of the expired requests stands at `pc`. -/
structure At (i : Nat) (pc : Pc) (s : State) : Prop where
  timer : s.timer = .expiring i
  free : i ∉ s.notifying
  pc : s.pool.threads[i]? = some pc

theorem At.next {pc pc' : Pc} (h : At i pc s) (shared : Requests.State) :
    At i pc' { s with pool := ⟨shared, s.pool.threads.set i pc'⟩ } where
  timer := h.timer
  free := h.free
  pc := List.getElem?_set_self (List.getElem?_eq_some_iff.1 h.pc).1

/-- After a callback. -/
theorem At.works_call {callback : Callback} {ids : List RequestId} (h : At i (.expireCall callback ids) s)
    (hrest : ∀ {s : State}, At i (.expired ids) s → ∃ t, Worked i ids ids s t) : ∃ t, Worked i ids ids s t := by
  obtain ⟨t, ht⟩ := hrest (h.next _)
  exact ⟨t, .after h.timer h.free h.pc rfl rfl rfl rfl ⟨[], (List.append_nil _).symm, fun _ hid => .inl hid⟩
    (fun _ hid => ⟨hid, fun hmem => hmem⟩) ht⟩

/-- After a cancellation. -/
theorem At.works_take {ids : List RequestId} (h : At i (.expireTake id ids) s)
    (hrest : ∀ {s : State}, At i (.expired ids) s → ∃ t, Worked i ids ids s t) : ∃ t, Worked i ids (id :: ids) s t := by
  have hpending : ∀ k ∈ s.pool.shared.pending.erase id, k ∈ s.pool.shared.pending ∧ (k ∈ id :: ids → k ∈ ids) := by
    intro k hk
    obtain ⟨hne, hk⟩ := AList.mem_erase.1 hk
    exact ⟨hk, fun hmem => (List.mem_cons.1 hmem).resolve_left hne⟩
  have hsent : ∃ sent, s.pool.shared.sent = s.pool.shared.sent ++ sent ∧ ∀ k ∈ ids, k ∈ ids ∨ timeoutNote k ∈ sent :=
    ⟨[], (List.append_nil _).symm, fun _ hk => .inl hk⟩
  cases hlookup : s.pool.shared.pending.lookup id with
  | none =>
    have hadv : Requests.advance s.pool.shared (.expireTake id ids) =
        some ({ s.pool.shared with pending := s.pool.shared.pending.erase id }, .expired ids) := by
      simp only [Requests.advance, takePending, hlookup]
    obtain ⟨t, ht⟩ := hrest (h.next { s.pool.shared with pending := s.pool.shared.pending.erase id })
    exact ⟨t, .after h.timer h.free h.pc rfl hadv rfl rfl hsent hpending ht⟩
  | some callback =>
    have hadv : Requests.advance s.pool.shared (.expireTake id ids) =
        some ({ s.pool.shared with pending := s.pool.shared.pending.erase id }, .expireCall callback ids) := by
      simp only [Requests.advance, takePending, hlookup]
    obtain ⟨t, ht⟩ := (h.next { s.pool.shared with pending := s.pool.shared.pending.erase id }).works_call hrest
    exact ⟨t, .after h.timer h.free h.pc rfl hadv rfl rfl hsent hpending ht⟩

/-- **The expired requests are worked off.** -/
theorem At.works : ∀ {ids : List RequestId} {s : State}, At i (.expired ids) s → ∃ t, Worked i ids ids s t
  | [], s, h => by
    have hdone : At i .done { s with pool := ⟨s.pool.shared, s.pool.threads.set i .done⟩ } := h.next s.pool.shared
    have hend : Worked i [] [] { s with pool := ⟨s.pool.shared, s.pool.threads.set i .done⟩ }
        { s with pool := ⟨s.pool.shared, s.pool.threads.set i .done⟩ } :=
      ⟨.refl, h.timer, hdone.pc, rfl, rfl, rfl, rfl,
        ⟨[], (List.append_nil _).symm, fun _ hid => by cases hid⟩, fun _ hid => ⟨hid, List.not_mem_nil⟩⟩
    exact ⟨_, .after h.timer h.free h.pc rfl rfl rfl rfl ⟨[], (List.append_nil _).symm, fun _ hid => .inl hid⟩
      (fun _ hid => ⟨hid, fun hmem => hmem⟩) hend⟩
  | id :: ids, s, h => by
    obtain ⟨t, ht⟩ := (h.next { s.pool.shared with sent := s.pool.shared.sent ++ [timeoutNote id] }).works_take
      fun hat => At.works hat
    refine ⟨t, .after h.timer h.free h.pc rfl rfl rfl rfl ⟨[timeoutNote id], rfl, fun k hk => ?_⟩
      (fun _ hid => ⟨hid, fun hmem => hmem⟩) ht⟩
    rcases List.mem_cons.1 hk with rfl | hk
    · exact .inr List.mem_cons_self
    · exact .inl hk

/-- From anywhere among them. -/
theorem Inv.works (h : Inv s) (htimer : s.timer = .expiring i) : ∃ t, Worked i [] [] s t := by
  have hless : ∀ {ids taken : List RequestId}, (∃ t, Worked i ids taken s t) → ∃ t, Worked i [] [] s t := by
    rintro ids taken ⟨t, ht⟩
    obtain ⟨sent, hsent, -⟩ := ht.sent
    exact ⟨t, ht.moves, ht.timer, ht.done, ht.notifying, ht.stop, ht.timers, ht.now,
      ⟨sent, hsent, fun _ hid => by cases hid⟩, fun id hid => ⟨(ht.pending id hid).1, List.not_mem_nil⟩⟩
  obtain ⟨hfree, pc, hpc, hplace⟩ := h.place i htimer
  rcases hplace with hplace | rfl
  · cases pc with
    | expired ids => exact hless (At.works ⟨htimer, hfree, hpc⟩)
    | expireTake id ids => exact hless (At.works_take ⟨htimer, hfree, hpc⟩ fun hat => At.works hat)
    | expireCall callback ids => exact hless (At.works_call ⟨htimer, hfree, hpc⟩ fun hat => At.works hat)
    | _ => cases hplace
  · exact ⟨s, .refl, htimer, hpc, rfl, rfl, rfl, rfl, ⟨[], (List.append_nil _).symm, fun _ hid => by cases hid⟩,
      fun _ hid => ⟨hid, List.not_mem_nil⟩⟩

/-- The request has expired. -/
def Expired (id : RequestId) (s t : State) : Prop :=
  Relation.ReflTransGen Moves s t ∧ id ∉ t.pool.shared.pending ∧
    ∃ sent, t.pool.shared.sent = s.pool.shared.sent ++ sent ∧ timeoutNote id ∈ sent

theorem Expired.head (h : Expired id t u) (hmoves : Relation.ReflTransGen Moves s t)
    (hsent : ∃ sent, t.pool.shared.sent = s.pool.shared.sent ++ sent) : Expired id s u := by
  obtain ⟨hmore, hpending, later, hlater, hmem⟩ := h
  obtain ⟨first, hfirst⟩ := hsent
  refine ⟨hmoves.trans hmore, hpending, first ++ later, ?_, List.mem_append_right _ hmem⟩
  rw [hlater, hfirst, List.append_assoc]

/-- A deadline that has passed. -/
def Overdue (id : RequestId) (s : State) : Prop :=
  ∃ d, s.pool.shared.timers.deadlines.lookup id = some d ∧ d.at_ ≤ s.pool.shared.now

/-- After a timed wait. -/
theorem Inv.expires_woken (h : Inv s) (hstop : s.stop = .no) (htimer : s.timer = .woken true) (hdue : Overdue id s) :
    ∃ t, Expired id s t := by
  have hidle : s.pool.threads.any Pc.isTimer = false := by
    refine List.any_eq_false.2 fun pc hpc hisTimer => ?_
    obtain ⟨j, hj⟩ := List.getElem?_of_mem hpc
    have hexpiring := htimer.symm.trans (h.own j pc hj hisTimer)
    cases hexpiring
  have hscan : s.advanceTimer = some { s with
      pool := s.pool.spawn { s.pool.shared with timers := (s.pool.shared.timers.expire s.pool.shared.now).2 }
        (.expired (s.pool.shared.timers.expire s.pool.shared.now).1)
      timer := .expiring s.pool.threads.length } := by
    simp only [State.advanceTimer, htimer, hstop, Requests.step, hidle]
    rfl
  have hat : At s.pool.threads.length (.expired (s.pool.shared.timers.expire s.pool.shared.now).1) { s with
      pool := s.pool.spawn { s.pool.shared with timers := (s.pool.shared.timers.expire s.pool.shared.now).2 }
        (.expired (s.pool.shared.timers.expire s.pool.shared.now).1)
      timer := .expiring s.pool.threads.length } :=
    ⟨rfl, fun hmem => Nat.lt_irrefl _ (h.bound _ hmem), List.getElem?_concat_length⟩
  obtain ⟨t, ht⟩ := hat.works
  have hid := Timers.mem_expire_keys.2 hdue
  obtain ⟨sent, hsent, hnotes⟩ := ht.sent
  exact ⟨t, .trans (moves_timer hscan) ht.moves, fun hmem => (ht.pending id hmem).2 hid, sent, hsent, hnotes id hid⟩

/-- A wait ends by itself. -/
theorem moves_timeout {until_ : TimePoint} (htimer : s.timer = .waiting (some until_)) (hle : until_ ≤ s.pool.shared.now) :
    Relation.ReflTransGen Moves s { s with timer := .woken true } := by
  refine .single ⟨.timeout, trivial, ?_⟩
  simp only [step, htimer, if_pos hle]

/-- At the head of the loop. -/
theorem Inv.expires_checking (h : Inv s) (hstop : s.stop = .no) (htimer : s.timer = .checking) (hdue : Overdue id s) :
    ∃ t, Expired id s t := by
  obtain ⟨d, hd, hle⟩ := hdue
  obtain ⟨until_, hnearest, huntil⟩ := covers_nearest s.pool.shared.timers id d hd
  have hsleep : Relation.ReflTransGen Moves s { s with timer := .waiting (some until_) } := by
    refine moves_timer ?_
    simp only [State.advanceTimer, htimer, hstop, hnearest]
    rfl
  have hmoves := hsleep.trans (moves_timeout rfl (Int.le_trans huntil hle))
  obtain ⟨t, ht⟩ := (h.moves hmoves).expires_woken hstop rfl ⟨d, hd, hle⟩
  exact ⟨t, ht.head hmoves ⟨[], (List.append_nil _).symm⟩⟩

/-- Past a wait, of either kind. -/
theorem Inv.expires_past (h : Inv s) (hstop : s.stop = .no) {timed : Bool} (htimer : s.timer = .woken timed)
    (hdue : Overdue id s) : ∃ t, Expired id s t := by
  cases timed with
  | true => exact h.expires_woken hstop htimer hdue
  | false =>
    have hagain : Relation.ReflTransGen Moves s { s with timer := .checking } := by
      refine moves_timer ?_
      simp only [State.advanceTimer, htimer]
    obtain ⟨t, ht⟩ := (h.moves hagain).expires_checking hstop rfl hdue
    exact ⟨t, ht.head hagain ⟨[], (List.append_nil _).symm⟩⟩

/-- The end of the expired requests. -/
theorem moves_expired (htimer : s.timer = .expiring i) (hdone : s.pool.threads[i]? = some .done) :
    Relation.ReflTransGen Moves s { s with timer := .checking } := by
  refine moves_timer ?_
  simp only [State.advanceTimer, htimer, hdone]

/-- A call that is under way notifies. -/
theorem moves_notify {i : Nat} (hmem : i ∈ s.notifying) :
    Relation.ReflTransGen Moves s { s with notifying := s.notifying.erase i, timer := s.timer.notified } := by
  refine .single ⟨.notify i, trivial, ?_⟩
  simp only [step, if_pos hmem]

end Progress

/-- **A deadline that has passed expires**: from every reachable state, the timer thread's own steps and the notifications
under way lead to one where the request was cancelled and is no longer pending. -/
theorem overdue_expires {transport : Transport} {labels : List Label} {s : State}
    (h : Lts.run step (init transport) labels = some s) (hstop : s.stop = .no) {id : RequestId} {d : Deadline}
    (hd : s.pool.shared.timers.deadlines.lookup id = some d) (hdue : d.at_ ≤ s.pool.shared.now) :
    ∃ t, Relation.ReflTransGen Moves s t ∧ id ∉ t.pool.shared.pending ∧
      ∃ sent, t.pool.shared.sent = s.pool.shared.sent ++ sent ∧
        Requests.cancelNote id (some (bytes "request timed out")) ∈ sent := by
  have hs := inv_of_run h
  have hoverdue : Overdue id s := ⟨d, hd, hdue⟩
  show ∃ t, Expired id s t
  cases htimer : s.timer with
  | checking => exact hs.expires_checking hstop htimer hoverdue
  | woken timed => exact hs.expires_past hstop htimer hoverdue
  | ended => exact absurd hstop (hs.ended htimer)
  | waiting until_ =>
    cases hnotifying : s.notifying with
    | nil =>
      obtain ⟨t, rfl, ht⟩ := hs.covered until_ htimer hnotifying id d hd
      have hmoves := moves_timeout htimer (Int.le_trans ht hdue)
      obtain ⟨u, hu⟩ := (hs.moves hmoves).expires_woken hstop rfl hoverdue
      exact ⟨u, hu.head hmoves ⟨[], (List.append_nil _).symm⟩⟩
    | cons i notifying =>
      have hmem : i ∈ s.notifying := by
        rw [hnotifying]
        exact List.mem_cons_self
      have hmoves := moves_notify hmem
      have hwoken : s.timer.notified = .woken until_.isSome := by
        rw [htimer]
        rfl
      obtain ⟨u, hu⟩ := (hs.moves hmoves).expires_past hstop hwoken hoverdue
      exact ⟨u, hu.head hmoves ⟨[], (List.append_nil _).symm⟩⟩
  | expiring i =>
    -- the requests that expired before are worked off first
    obtain ⟨t, ht⟩ := hs.works htimer
    have hmoves := ht.moves.trans (moves_expired ht.timer ht.done)
    have hlater : Overdue id { t with timer := .checking } := by
      refine ⟨d, ?_, ?_⟩
      · show t.pool.shared.timers.deadlines.lookup id = some d
        rw [ht.timers]
        exact hd
      · show d.at_ ≤ t.pool.shared.now
        rw [ht.now]
        exact hdue
    obtain ⟨u, hu⟩ := (hs.moves hmoves).expires_checking (ht.stop.trans hstop) rfl hlater
    obtain ⟨sent, hsent, -⟩ := ht.sent
    exact ⟨u, hu.head hmoves ⟨sent, hsent⟩⟩

theorem overdue_expires_unnotified : ∃ s t,
    Lts.run step (init (.stdio true .running)) (unnotified ++ [.session (.tick 60000000)]) = some s ∧
      s.timer = .waiting none ∧ Relation.ReflTransGen Moves s t ∧ RequestId.int 1 ∉ t.pool.shared.pending := by
  have hrun : Lts.run step (init (.stdio true .running)) (unnotified ++ [.session (.tick 60000000)]) = some _ := rfl
  have hdue : (50000000 : TimePoint) ≤ 60000000 := by decide
  obtain ⟨t, hmoves, hpending, -⟩ := @overdue_expires _ _ _ hrun rfl (.int 1) ⟨50000000, 50, none⟩ rfl hdue
  exact ⟨_, t, hrun, rfl, hmoves, hpending⟩

/-- **`~Session` gets to join the timer thread**: once it has stored `stop_timer_`, in any state of any run, the timer thread's
own steps and the notifications under way lead out of the loop. -/
theorem stopped_ends {transport : Transport} {labels : List Label} {s : State}
    (h : Lts.run step (init transport) labels = some s) (hstop : s.stop ≠ .no) :
    ∃ t, Relation.ReflTransGen Moves s t ∧ t.timer = .ended := by
  have hleave : ∀ {s : State}, s.stop ≠ .no → s.timer = .checking ∨ s.timer = .woken true →
      ∃ t, Relation.ReflTransGen Moves s t ∧ t.timer = .ended := by
    intro s hstop htimer
    refine ⟨{ s with timer := .ended }, moves_timer ?_, rfl⟩
    rcases htimer with htimer | htimer <;> simp only [State.advanceTimer, htimer, if_neg hstop]
  have hpast : ∀ {s : State} {timed : Bool}, s.stop ≠ .no → s.timer = .woken timed →
      ∃ t, Relation.ReflTransGen Moves s t ∧ t.timer = .ended := by
    intro s timed hstop htimer
    cases timed with
    | true => exact hleave hstop (.inr htimer)
    | false =>
      obtain ⟨t, hmoves, hended⟩ := hleave (s := { s with timer := .checking }) hstop (.inl rfl)
      refine ⟨t, .trans (moves_timer ?_) hmoves, hended⟩
      simp only [State.advanceTimer, htimer]
  have hs := inv_of_run h
  cases htimer : s.timer with
  | checking => exact hleave hstop (.inl htimer)
  | woken timed => exact hpast hstop htimer
  | ended => exact ⟨s, .refl, htimer⟩
  | waiting until_ =>
    have hstored : s.stop = .stored := by
      cases hcase : s.stop with
      | no => exact absurd hcase hstop
      | stored => rfl
      | notified => exact absurd hcase (hs.unstopped until_ htimer)
    have hnotify : Moves s { s with stop := .notified, timer := s.timer.notified } :=
      ⟨.stopNotify, trivial, by simp only [step, if_pos hstored]⟩
    have hwoken : s.timer.notified = .woken until_.isSome := by
      rw [htimer]
      rfl
    obtain ⟨t, hmoves, hended⟩ := hpast (s := { s with stop := .notified, timer := s.timer.notified })
      (fun heq => by cases heq) hwoken
    exact ⟨t, .head hnotify hmoves, hended⟩
  | expiring i =>
    obtain ⟨t, ht⟩ := hs.works htimer
    have hstill : t.stop ≠ .no := by
      rw [ht.stop]
      exact hstop
    obtain ⟨u, hmoves, hended⟩ := hleave (s := { t with timer := .checking }) hstill (.inl rfl)
    exact ⟨u, (ht.moves.trans (moves_expired ht.timer ht.done)).trans hmoves, hended⟩

theorem stopped_ends_unnotified : ∃ s t,
    Lts.run step (init (.stdio true .running)) (unnotified ++ [.stop]) = some s ∧
      s.timer = .waiting none ∧ Relation.ReflTransGen Moves s t ∧ t.timer = .ended := by
  have hrun : Lts.run step (init (.stdio true .running)) (unnotified ++ [.stop]) = some _ := rfl
  obtain ⟨t, hmoves, hended⟩ := stopped_ends hrun fun heq => by cases heq
  exact ⟨_, t, hrun, rfl, hmoves, hended⟩

end TimerLoop
end Mcp
