import McpSdk.ChildProcess
/-!
# ChildStatus — the exit status of the server process

What `exit_status()` returns is the status of the one child that was waited for (`supervised_of_run`).  `exited_` is never
reset: of a child that is spawned after it, `disconnect` closes the stdin and does no more.
-/
namespace Mcp
namespace ChildProcess

/-! ## The child that is waited for -/

/-- `disconnect` did nothing to the child but close its stdin. -/
def Child.Unattended (c : Child) : Prop := c.events = [] ∨ ∃ at_, c.events = [.closedStdin at_]

def Child.isReaped (c : Child) : Bool :=
  match c.proc with
  | .reaped _ => true
  | _ => false

/-- **One child was waited for**, with this status: none before it, and none after it was attended to. -/
def Attended (status : Int) (children : List Child) : Prop :=
  ∃ before c after, children = before ++ c :: after ∧ c.proc = .reaped status ∧ (∀ d ∈ before, d.isReaped = false) ∧
    ∀ d ∈ after, d.isReaped = false ∧ d.Unattended

theorem Attended.last {status : Int} {past : List Child} {c : Child} (hpast : ∀ d ∈ past, d.isReaped = false)
    (hc : c.proc = .reaped status) : Attended status (past ++ [c]) :=
  ⟨past, c, [], rfl, hc, hpast, fun d hd => by cases hd⟩

theorem Attended.snoc {status : Int} {past : List Child} {c : Child} (h : Attended status past)
    (hc : c.isReaped = false) (hunattended : c.Unattended) : Attended status (past ++ [c]) := by
  obtain ⟨before, r, after, rfl, hr, hbefore, hafter⟩ := h
  refine ⟨before, r, after ++ [c], by rw [List.append_assoc]; rfl, hr, hbefore, ?_⟩
  exact List.forall_mem_append.2 ⟨hafter, List.forall_mem_singleton.2 ⟨hc, hunattended⟩⟩

/-- The sections at which the status of the child is being stored. -/
def Pc.stores : Pc → Option Int
  | .storeStatus status => some status
  | _ => none

/-- **What holds of `exit_status()`**: as long as there is none, no child was waited for but the current one, whose status is
being stored; once there is one, it is the status of the one child that was waited for. -/
inductive Supervised (s : State) : Prop
  | unset (notExited : s.exited = false) (past : ∀ d ∈ s.past, d.isReaped = false)
      (child : ∀ c, s.child = some c → c.isReaped = false)
      (pc : ∀ caller pc, s.disconnecting = some (caller, pc) → (∀ status, pc ≠ .storeStatus status) ∧ pc ≠ .storeExited)
  | storing (notExited : s.exited = false) (past : ∀ d ∈ s.past, d.isReaped = false) (c : Child) (caller : Caller)
      (child : s.child = some c) (status : Int) (proc : c.proc = .reaped status)
      (pc : s.disconnecting = some (caller, .storeStatus status) ∨
        s.disconnecting = some (caller, .storeExited) ∧ s.exitStatus = status)
  | own (exited : s.exited = true) (past : ∀ d ∈ s.past, d.isReaped = false) (c : Child) (child : s.child = some c)
      (proc : c.proc = .reaped s.exitStatus)
      (pc : ∀ caller pc, s.disconnecting = some (caller, pc) → pc.early = false ∧ (∀ status, pc ≠ .storeStatus status) ∧
        pc ≠ .storeExited)
  | former (exited : s.exited = true) (past : Attended s.exitStatus s.past)
      (child : ∀ c, s.child = some c → c.isReaped = false ∧ c.Unattended)
      (pc : ∀ caller pc, s.disconnecting = some (caller, pc) → (pc.early = true → pc = .closeStdin) ∧
        (∀ status, pc ≠ .storeStatus status) ∧ pc ≠ .storeExited)

theorem Child.isReaped_iff (c : Child) : c.isReaped = true ↔ ∃ status, c.proc = .reaped status := by
  unfold Child.isReaped
  cases c.proc <;> simp

theorem Child.isReaped_eq_false {c : Child} {p : Proc} (h : c.proc = p) (hp : ∀ status, p ≠ .reaped status) :
    c.isReaped = false := by
  unfold Child.isReaped
  rw [h]
  cases p with
  | reaped status => exact absurd rfl (hp status)
  | _ => rfl

section Supervision

variable {grace : Nat} {s t : State} {c : Child} {caller : Caller} {pc : Pc}

/-- A connected child was not waited for. -/
theorem Orderly.not_reaped (h : Orderly grace s) (hup : s.running = true) (hc : s.child = some c) (status : Int) :
    c.proc ≠ .reaped status := by
  intro hproc
  obtain ⟨hstands, hmatched⟩ := h.child c hc
  have hidle : s.disconnecting = none := by
    cases hd : s.disconnecting with
    | none => rfl
    | some d =>
      rw [h.exclusive (by rw [hd]; rfl)] at hup
      cases hup
  unfold State.Stands at hstands
  rw [hidle] at hstands
  dsimp only at hstands
  rw [if_pos hup] at hstands
  have hmem := (hmatched status).1 hproc
  rw [hstands] at hmem
  cases hmem

/-- Only what `Supervised` speaks of counts. -/
theorem Supervised.congr (h : Supervised s) (hexited : t.exited = s.exited) (hstatus : t.exitStatus = s.exitStatus)
    (hpast : t.past = s.past) (hpc : t.disconnecting = s.disconnecting)
    (hchild : ∀ c, t.child = some c → ∃ c', s.child = some c' ∧ c.proc = c'.proc ∧ c.events = c'.events)
    (hkept : ∀ c', s.child = some c' → ∃ c, t.child = some c ∧ c.proc = c'.proc) : Supervised t := by
  have hreaped : ∀ {c c' : Child}, c.proc = c'.proc → c.isReaped = c'.isReaped := by
    intro c c' hproc
    unfold Child.isReaped
    rw [hproc]
  cases h with
  | unset notExited past child pc =>
    refine .unset (hexited.trans notExited) (hpast ▸ past) (fun c hc => ?_) (hpc ▸ pc)
    obtain ⟨c', hc', hproc, -⟩ := hchild c hc
    exact (hreaped hproc).trans (child c' hc')
  | storing notExited past c' caller child status proc pc =>
    obtain ⟨c, hc, hproc⟩ := hkept c' child
    refine .storing (hexited.trans notExited) (hpast ▸ past) c caller hc status (hproc.trans proc) ?_
    rw [hpc, hstatus]
    exact pc
  | own exited past c' child proc pc =>
    obtain ⟨c, hc, hproc⟩ := hkept c' child
    refine .own (hexited.trans exited) (hpast ▸ past) c hc ?_ (hpc ▸ pc)
    rw [hproc, hstatus]
    exact proc
  | former exited past child pc =>
    refine .former (hexited.trans exited) (by rw [hpast, hstatus]; exact past) (fun c hc => ?_) (hpc ▸ pc)
    obtain ⟨c', hc', hproc, hevents⟩ := hchild c hc
    obtain ⟨hnot, hunattended⟩ := child c' hc'
    refine ⟨(hreaped hproc).trans hnot, ?_⟩
    unfold Child.Unattended
    rw [hevents]
    exact hunattended

theorem Supervised.connect (h : Supervised s) (hidle : s.disconnecting = none) (spawned : Bool) :
    Supervised (s.connect spawned) := by
  have hnone : ∀ {P : Caller → Pc → Prop} caller pc, s.disconnecting = some (caller, pc) → P caller pc := by
    intro P caller pc hd
    rw [hidle] at hd
    cases hd
  have hfresh : ∀ d : Child, some ({} : Child) = some d → d.isReaped = false ∧ d.Unattended := by
    intro d hd
    cases hd
    exact ⟨rfl, .inl rfl⟩
  have hsame : ∀ crashed, Supervised { s with crashed } := fun crashed =>
    h.congr rfl rfl rfl rfl (fun c hc => ⟨c, hc, rfl, rfl⟩) fun c' hc' => ⟨c', hc', rfl⟩
  unfold State.connect
  by_cases hrunning : s.running = true
  · rw [if_pos hrunning]
    exact h
  rw [if_neg hrunning]
  by_cases hspawned : (!spawned) = true
  · rw [if_pos hspawned]
    exact h
  rw [if_neg hspawned]
  by_cases hjoinable : (s.stdoutThread.joinable || s.stderrThread.joinable) = true
  · rw [if_pos hjoinable]
    exact hsame true
  rw [if_neg hjoinable]
  cases h with
  | unset notExited past child pc =>
    refine .unset notExited ?_ (fun d hd => (hfresh d hd).1) hnone
    exact List.forall_mem_append.2 ⟨past, fun d hd => child d (Option.mem_toList.1 hd)⟩
  | storing notExited past c caller child status proc pc =>
    rw [hidle] at pc
    rcases pc with hpc | ⟨hpc, -⟩ <;> cases hpc
  | own exited past c child proc pc =>
    refine .former exited ?_ hfresh hnone
    rw [child]
    exact Attended.last past proc
  | former exited past child pc =>
    refine .former exited ?_ hfresh hnone
    dsimp only
    cases hc : s.child with
    | none =>
      rw [Option.toList_none, List.append_nil]
      exact past
    | some c => exact past.snoc (child c hc).1 (child c hc).2

/-- A section after the child was attended to. -/
theorem advance_late (hlate : pc.early = false) (hstore : (∀ status, pc ≠ .storeStatus status) ∧ pc ≠ .storeExited)
    (hc : s.child = some c) (h : s.advance grace caller c pc = some t) :
    t.exited = s.exited ∧ t.exitStatus = s.exitStatus ∧ t.past = s.past ∧
      (∀ caller pc, t.disconnecting = some (caller, pc) → pc.early = false ∧ (∀ status, pc ≠ .storeStatus status) ∧
        pc ≠ .storeExited) ∧
      ∃ c', t.child = some c' ∧ c'.proc = c.proc ∧ c'.events = c.events := by
  cases pc with
  | storeStatus status => exact absurd rfl (hstore.1 status)
  | storeExited => exact absurd rfl hstore.2
  | joinStdout =>
    obtain ⟨thread, -, rfl⟩ := Option.map_eq_some_iff.1 h
    refine ⟨rfl, rfl, rfl, fun _ _ hpc => ?_, c, hc, rfl, rfl⟩
    cases hpc
    exact ⟨rfl, fun _ heq => (by cases heq), fun heq => (by cases heq)⟩
  | joinStderr =>
    obtain ⟨thread, -, rfl⟩ := Option.map_eq_some_iff.1 h
    refine ⟨rfl, rfl, rfl, fun _ _ hpc => ?_, c, hc, rfl, rfl⟩
    cases hpc
    exact ⟨rfl, fun _ heq => (by cases heq), fun heq => (by cases heq)⟩
  | closeStdout =>
    cases h
    refine ⟨rfl, rfl, rfl, fun _ _ hpc => ?_, _, rfl, rfl, rfl⟩
    cases hpc
    exact ⟨rfl, fun _ heq => (by cases heq), fun heq => (by cases heq)⟩
  | closeStderr =>
    cases h
    exact ⟨rfl, rfl, rfl, fun _ _ hpc => (by cases hpc), _, rfl, rfl, rfl⟩
  | _ => cases hlate

/-- A section up to the last wait, while nothing was waited for. -/
theorem advance_early (hearly : pc.early = true) (hexited : s.exited = false) (hpast : ∀ d ∈ s.past, d.isReaped = false)
    (hc : s.child = some c) (hnot : c.isReaped = false) (h : s.advance grace caller c pc = some t) : Supervised t := by
  have hchild : ∀ {c' : Child} d, some c' = some d → c'.isReaped = false → d.isReaped = false := by
    intro c' d hd hreaped
    cases hd
    exact hreaped
  cases pc with
  | closeStdin =>
    cases h
    refine .unset hexited hpast (fun d hd => hchild d hd hnot) fun _ _ hpc => ?_
    dsimp only at hpc
    rw [if_neg (by rw [hexited]; exact Bool.false_ne_true)] at hpc
    cases hpc
    exact ⟨fun _ heq => (by cases heq), fun heq => (by cases heq)⟩
  | poll stage deadline =>
    simp only [State.advance] at h
    split at h
    · cases h
      refine .unset hexited hpast (fun d hd => hchild d (hc.symm.trans hd) hnot) fun _ _ hpc => ?_
      cases hpc
      exact ⟨fun _ heq => (by cases heq), fun heq => (by cases heq)⟩
    · rename_i status hproc
      cases h
      exact .storing hexited hpast _ caller rfl status rfl (.inl rfl)
    · rename_i status hproc
      rw [(c.isReaped_iff).2 ⟨status, hproc⟩] at hnot
      cases hnot
  | check stage deadline =>
    cases h
    refine .unset hexited hpast (fun d hd => hchild d (hc.symm.trans hd) hnot) fun _ _ hpc => ?_
    dsimp only at hpc
    split at hpc
    · cases stage <;> cases hpc <;> exact ⟨fun _ heq => (by cases heq), fun heq => (by cases heq)⟩
    · cases hpc
      exact ⟨fun _ heq => (by cases heq), fun heq => (by cases heq)⟩
  | terminate force =>
    cases h
    refine .unset hexited hpast (fun d hd => hchild d hd hnot) fun _ _ hpc => ?_
    cases hpc
    exact ⟨fun _ heq => (by cases heq), fun heq => (by cases heq)⟩
  | _ => cases hearly

theorem Supervised.advance (h : Supervised s) (hs : Orderly grace s) (hpc : s.disconnecting = some (caller, pc))
    (hc : s.child = some c) (hstep : s.advance grace caller c pc = some t) : Supervised t := by
  cases h with
  | unset notExited past child hstore =>
    cases hearly : pc.early with
    | true => exact advance_early hearly notExited past hc (child c hc) hstep
    | false =>
      obtain ⟨hexited, -, hpast, hnext, c', hc', hproc, -⟩ := advance_late hearly (hstore caller pc hpc) hc hstep
      refine .unset (hexited.trans notExited) (hpast ▸ past) (fun d hd => ?_) fun caller pc hd => (hnext caller pc hd).2
      rw [hc'] at hd
      cases hd
      unfold Child.isReaped
      rw [hproc]
      exact child c hc
  | storing notExited past c₀ caller₀ child status proc hstore =>
    rw [hc] at child
    cases child
    rw [hpc] at hstore
    rcases hstore with heq | ⟨heq, hstatus⟩
    · cases heq
      cases hstep
      exact .storing notExited past c caller hc status proc (.inr ⟨rfl, rfl⟩)
    · cases heq
      cases hstep
      refine .own rfl past c hc (by rw [hstatus]; exact proc) fun _ _ hd => ?_
      cases hd
      exact ⟨rfl, fun _ heq => (by cases heq), fun heq => (by cases heq)⟩
  | own exited past c₀ child proc hlate =>
    rw [hc] at child
    cases child
    obtain ⟨hearly, hstore⟩ := hlate caller pc hpc
    obtain ⟨hexited, hstatus, hpast, hnext, c', hc', hproc, -⟩ := advance_late hearly hstore hc hstep
    refine .own (hexited.trans exited) (hpast ▸ past) c' hc' ?_ hnext
    rw [hproc, hstatus]
    exact proc
  | former exited past child hlate =>
    obtain ⟨hfirst, hstore⟩ := hlate caller pc hpc
    obtain ⟨hnot, hunattended⟩ := child c hc
    cases hearly : pc.early with
    | true =>
      obtain rfl := hfirst hearly
      have hnil : c.events = [] := by
        obtain ⟨hstands, -⟩ := hs.child c hc
        unfold State.Stands at hstands
        rw [hpc] at hstands
        exact hstands
      cases hstep
      refine .former exited past (fun d hd => ?_) fun _ _ hd => ?_
      · cases hd
        refine ⟨hnot, .inr ⟨s.now, ?_⟩⟩
        unfold Child.add Child.close
        rw [hnil]
        rfl
      · dsimp only at hd
        rw [if_pos exited] at hd
        cases hd
        exact ⟨fun heq => (by cases heq), fun _ heq => (by cases heq), fun heq => (by cases heq)⟩
    | false =>
      obtain ⟨hexited, hstatus, hpast, hnext, c', hc', hproc, hevents⟩ := advance_late hearly hstore hc hstep
      refine .former (hexited.trans exited) (by rw [hpast, hstatus]; exact past) (fun d hd => ?_) fun caller pc hd => ?_
      · rw [hc'] at hd
        cases hd
        refine ⟨?_, ?_⟩
        · unfold Child.isReaped
          rw [hproc]
          exact hnot
        · unfold Child.Unattended
          rw [hevents]
          exact hunattended
      · obtain ⟨hnotEarly, hnotStore⟩ := hnext caller pc hd
        refine ⟨fun heq => ?_, hnotStore⟩
        rw [hnotEarly] at heq
        cases heq

/-- **One step** keeps the account of `exit_status()`. -/
theorem Supervised.step {l : Label} (h : Supervised s) (hs : Orderly grace s) (hstep : step grace s l = some t) :
    Supervised t := by
  cases (step_cases hstep).2 with
  | connect spawned label idle result =>
    rw [result]
    exact h.connect idle spawned
  | ignored caller label calls running result =>
    rw [result]
    exact h
  | stops caller label calls running result =>
    subst result
    cases h with
    | unset notExited past child pc =>
      refine .unset notExited past child fun _ _ hd => ?_
      cases hd
      exact ⟨fun _ heq => (by cases heq), fun heq => (by cases heq)⟩
    | storing notExited past c caller child status proc pc => exact absurd proc (hs.not_reaped running child status)
    | own exited past c child proc pc => exact absurd proc (hs.not_reaped running child _)
    | former exited past child pc =>
      refine .former exited past child fun _ _ hd => ?_
      cases hd
      exact ⟨fun _ => rfl, fun _ heq => (by cases heq), fun heq => (by cases heq)⟩
  | section_ caller pc c label at_ child taken => exact h.advance hs at_ child taken
  | exits status c label hc hproc result =>
    subst result
    have hnot : ({ c with proc := Proc.zombie status } : Child).isReaped = false := rfl
    cases h with
    | unset notExited past child pc =>
      refine .unset notExited past (fun d hd => ?_) pc
      cases hd
      exact hnot
    | storing notExited past c₀ caller child st proc pc =>
      rw [hc] at child
      cases child
      rw [proc] at hproc
      cases hproc
    | own exited past c₀ child proc pc =>
      rw [hc] at child
      cases child
      rw [proc] at hproc
      cases hproc
    | former exited past child pc =>
      refine .former exited past (fun d hd => ?_) pc
      cases hd
      exact ⟨hnot, (child c hc).2⟩
  | tick label result =>
    subst result
    exact h.congr rfl rfl rfl rfl (fun c hc => ⟨c, hc, rfl, rfl⟩) fun c' hc' => ⟨c', hc', rfl⟩
  | read fd label loops result =>
    subst result
    refine h.congr rfl rfl rfl rfl (fun c hc => ?_) fun c' hc' => ?_
    · obtain ⟨c₀, hc₀, rfl⟩ := Option.map_eq_some_iff.1 hc
      exact ⟨c₀, hc₀, (c₀.read_events fd).2, (c₀.read_events fd).1⟩
    · exact ⟨c'.read fd, by rw [hc']; rfl, (c'.read_events fd).2⟩
  | finish fd label loops result =>
    subst result
    cases fd <;> exact h.congr rfl rfl rfl rfl (fun c hc => ⟨c, hc, rfl, rfl⟩) fun c' hc' => ⟨c', hc', rfl⟩
  | destroy label running idle result =>
    subst result
    exact h.congr rfl rfl rfl rfl (fun c hc => ⟨c, hc, rfl, rfl⟩) fun c' hc' => ⟨c', hc', rfl⟩

end Supervision

end ChildProcess
end Mcp
