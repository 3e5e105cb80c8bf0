import McpSdk.ChildProcess
/-!
# ChildThreads — the reader threads and the pipes of the server process

A `disconnect` that is not called on one of the transport's own threads closes no descriptor that is still read, and leaves no
thread to be joined (`tidy_of_run`).
-/
namespace Mcp
namespace ChildProcess

/-! ## Descriptors and threads -/

/-- What is closed when `disconnect` is at a section. -/
def Pc.closed : Pc → List Fd
  | .closeStdin => []
  | .closeStderr => [.stdin, .stdout]
  | _ => [.stdin]

def Pc.stdoutJoined : Pc → Bool
  | .joinStderr | .closeStdout | .closeStderr => true
  | _ => false

def Pc.stderrJoined : Pc → Bool
  | .closeStdout | .closeStderr => true
  | _ => false

def allFds : List Fd := [.stdin, .stdout, .stderr]

/-- **No descriptor is read after its close, and no thread is left** to be joined. -/
structure Tidy (s : State) : Prop where
  crashed : s.crashed = false
  past : ∀ c ∈ s.past, c.strays = [] ∧ c.closed = allFds
  strays : ∀ c, s.child = some c → c.strays = []
  under : ∀ caller pc, s.disconnecting = some (caller, pc) → caller = .other ∧
    (∀ c, s.child = some c → c.closed = pc.closed) ∧ (pc.stdoutJoined = true → s.stdoutThread = .absent) ∧
    (pc.stderrJoined = true → s.stderrThread = .absent)
  up : s.disconnecting = none → s.running = true → ∀ c, s.child = some c → c.closed = []
  down : s.disconnecting = none → s.running = false →
    s.stdoutThread = .absent ∧ s.stderrThread = .absent ∧ ∀ c, s.child = some c → c.closed = allFds

section Tidiness

variable {grace : Nat} {s t : State} {c : Child} {caller : Caller} {pc : Pc}

/-- A thread is joined before `disconnect` goes on. -/
theorem joined_other {thread thread' : Thread} (h : joined false thread = some thread') : thread' = .absent := by
  cases thread <;> cases h <;> rfl

theorem Tidy.connect (h : Tidy s) (hidle : s.disconnecting = none) (spawned : Bool) : Tidy (s.connect spawned) := by
  unfold State.connect
  by_cases hrunning : s.running = true
  · rw [if_pos hrunning]
    exact h
  rw [if_neg hrunning]
  by_cases hspawned : (!spawned) = true
  · rw [if_pos hspawned]
    exact h
  obtain ⟨hout, herr, hclosed⟩ := h.down hidle (by simpa using hrunning)
  rw [if_neg hspawned, hout, herr, if_neg (by decide)]
  refine ⟨h.crashed, ?_, fun c hc => ?_, fun caller pc hd => ?_, fun _ _ c hc => ?_, fun _ hdown => ?_⟩
  · refine List.forall_mem_append.2 ⟨h.past, fun c hc => ?_⟩
    have hchild := Option.mem_toList.1 hc
    exact ⟨h.strays c hchild, hclosed c hchild⟩
  · cases hc
    rfl
  · have hnone := hidle.symm.trans hd
    cases hnone
  · cases hc
    rfl
  · cases hdown

theorem Tidy.advance (h : Tidy s) (hs : Orderly grace s) (hpc : s.disconnecting = some (caller, pc))
    (hc : s.child = some c) (hstep : s.advance grace caller c pc = some t) : Tidy t := by
  obtain ⟨rfl, hclosed, hout, herr⟩ := h.under caller pc hpc
  have hdown := hs.exclusive (by rw [hpc]; rfl)
  have hstrays := h.strays c hc
  have hown := hclosed c hc
  -- a section that leaves the pipes and the threads
  have hquiet : ∀ (c' : Child) (pc' : Pc) (exited : Bool) (exitStatus : Int), c'.strays = c.strays → c'.closed = pc'.closed →
      pc'.stdoutJoined = false → pc'.stderrJoined = false →
      Tidy { s with child := some c', disconnecting := some (.other, pc'), exited, exitStatus } := by
    intro c' pc' exited exitStatus hsame hnext hnotOut hnotErr
    refine ⟨h.crashed, h.past, fun d hd => ?_, fun _ _ hd => ?_, fun hd => (by cases hd), fun hd => (by cases hd)⟩
    · cases hd
      exact hsame.trans hstrays
    · cases hd
      refine ⟨rfl, fun d hd => ?_, fun hjoined => ?_, fun hjoined => ?_⟩
      · cases hd
        exact hnext
      · rw [hnotOut] at hjoined
        cases hjoined
      · rw [hnotErr] at hjoined
        cases hjoined
  have hkeep : ∀ {pc' : Pc} {exited : Bool} {exitStatus : Int}, c.closed = pc'.closed → pc'.stdoutJoined = false →
      pc'.stderrJoined = false → Tidy { s with disconnecting := some (.other, pc'), exited, exitStatus } := by
    intro pc' exited exitStatus hnext hnotOut hnotErr
    have hsame := hquiet c _ exited exitStatus rfl hnext hnotOut hnotErr
    rwa [← hc] at hsame
  cases pc with
  | closeStdin =>
    cases hstep
    have hstdin : ((c.close .stdin).add (.closedStdin s.now)).closed = [.stdin] := by
      unfold Child.add Child.close
      rw [hown]
      rfl
    split
    · exact hquiet _ _ _ _ rfl hstdin rfl rfl
    · exact hquiet _ _ _ _ rfl hstdin rfl rfl
  | poll stage deadline =>
    simp only [State.advance] at hstep
    split at hstep
    · cases hstep
      exact hkeep hown rfl rfl
    · cases hstep
      exact hquiet _ _ _ _ rfl hown rfl rfl
    · cases hstep
      exact hkeep hown rfl rfl
  | check stage deadline =>
    cases hstep
    split
    · cases stage <;> exact hkeep hown rfl rfl
    · exact hkeep hown rfl rfl
  | terminate force =>
    cases hstep
    exact hquiet _ _ _ _ rfl hown rfl rfl
  | storeStatus status =>
    cases hstep
    exact hkeep hown rfl rfl
  | storeExited =>
    cases hstep
    exact hkeep hown rfl rfl
  | joinStdout =>
    obtain ⟨thread, hjoin, rfl⟩ := Option.map_eq_some_iff.1 hstep
    obtain rfl := joined_other hjoin
    refine ⟨h.crashed, h.past, h.strays, fun _ _ hd => ?_, fun hd => (by cases hd), fun hd => (by cases hd)⟩
    cases hd
    exact ⟨rfl, hclosed, fun _ => rfl, fun hjoined => (by cases hjoined)⟩
  | joinStderr =>
    obtain ⟨thread, hjoin, rfl⟩ := Option.map_eq_some_iff.1 hstep
    obtain rfl := joined_other hjoin
    refine ⟨h.crashed, h.past, h.strays, fun _ _ hd => ?_, fun hd => (by cases hd), fun hd => (by cases hd)⟩
    cases hd
    exact ⟨rfl, hclosed, fun _ => hout rfl, fun _ => rfl⟩
  | closeStdout =>
    cases hstep
    refine ⟨h.crashed, h.past, fun d hd => ?_, fun _ _ hd => ?_, fun hd => (by cases hd), fun hd => (by cases hd)⟩
    · cases hd
      exact hstrays
    · cases hd
      refine ⟨rfl, fun d hd => ?_, fun _ => hout rfl, fun _ => herr rfl⟩
      cases hd
      unfold Child.close
      rw [hown]
      rfl
  | closeStderr =>
    cases hstep
    refine ⟨h.crashed, h.past, fun d hd => ?_, fun _ _ hd => (by cases hd), fun _ hup => ?_, fun _ _ => ?_⟩
    · cases hd
      exact hstrays
    · have hfalse := hdown.symm.trans hup
      cases hfalse
    · refine ⟨hout rfl, herr rfl, fun d hd => ?_⟩
      cases hd
      unfold Child.close
      rw [hown]
      rfl

/-- A thread that runs its loop reads a descriptor that is open. -/
theorem Tidy.read (h : Tidy s) {fd : Fd} (hloops : s.loops fd = true) (hc : s.child = some c) :
    fd ∉ c.closed := by
  have hthread : ∀ {P : Prop}, (fd = .stdout → s.stdoutThread = .running → P) →
      (fd = .stderr → s.stderrThread = .running → P) → P := by
    intro P hstdout hstderr
    cases fd with
    | stdin => cases hloops
    | stdout =>
      simp only [State.loops, Bool.and_eq_true, decide_eq_true_eq] at hloops
      exact hstdout rfl hloops.1
    | stderr =>
      simp only [State.loops, Bool.and_eq_true, decide_eq_true_eq] at hloops
      exact hstderr rfl hloops.1
  cases hd : s.disconnecting with
  | none =>
    cases hrunning : s.running with
    | true =>
      rw [h.up hd hrunning c hc]
      exact List.not_mem_nil
    | false =>
      obtain ⟨hout, herr, -⟩ := h.down hd hrunning
      refine hthread (fun _ heq => ?_) fun _ heq => ?_
      · rw [hout] at heq
        cases heq
      · rw [herr] at heq
        cases heq
  | some d =>
    obtain ⟨caller, pc⟩ := d
    obtain ⟨-, hclosed, hout, -⟩ := h.under caller pc hd
    rw [hclosed c hc]
    refine hthread (fun hfd heq => ?_) fun hfd _ => ?_
    · rw [hfd]
      cases pc with
      | closeStderr =>
        rw [hout rfl] at heq
        cases heq
      | closeStdin => exact List.not_mem_nil
      | _ => exact fun hmem => by cases List.mem_singleton.1 hmem
    · rw [hfd]
      cases pc with
      | closeStdin => exact List.not_mem_nil
      | closeStderr => exact fun hmem => by simp [Pc.closed] at hmem
      | _ => exact fun hmem => by cases List.mem_singleton.1 hmem

/-- A thread that is absent does not run its loop. -/
theorem State.not_absent {fd : Fd} (hloops : s.loops fd = true) :
    (fd = .stdout → s.stdoutThread ≠ .absent) ∧ (fd = .stderr → s.stderrThread ≠ .absent) := by
  refine ⟨?_, ?_⟩
  · rintro rfl habsent
    simp [State.loops, habsent] at hloops
  · rintro rfl habsent
    simp [State.loops, habsent] at hloops

/-- **One step** of a transport that is disconnected from outside. -/
theorem Tidy.step {l : Label} (h : Tidy s) (hs : Orderly grace s) (houtside : ∀ caller, l = .disconnect caller → caller = .other)
    (hstep : step grace s l = some t) : Tidy t := by
  cases (step_cases hstep).2 with
  | connect spawned label idle result =>
    rw [result]
    exact h.connect idle spawned
  | ignored caller label calls running result =>
    rw [result]
    exact h
  | stops caller label calls running result =>
    obtain rfl := houtside caller label
    subst result
    refine ⟨h.crashed, h.past, h.strays, fun _ _ hd => ?_, fun hd => (by cases hd), fun hd => (by cases hd)⟩
    cases hd
    exact ⟨rfl, h.up (hs.idle running) running, fun hjoined => (by cases hjoined), fun hjoined => (by cases hjoined)⟩
  | section_ caller pc c label at_ child taken => exact h.advance hs at_ child taken
  | exits status c label child proc result =>
    subst result
    refine ⟨h.crashed, h.past, fun d hd => ?_, fun caller pc hd => ?_, fun hidle hup d hd => ?_, fun hidle hdown => ?_⟩
    · cases hd
      exact h.strays c child
    · obtain ⟨hother, hclosed, hout, herr⟩ := h.under caller pc hd
      refine ⟨hother, fun d hd => ?_, hout, herr⟩
      cases hd
      exact hclosed c child
    · cases hd
      exact h.up hidle hup c child
    · obtain ⟨hout, herr, hclosed⟩ := h.down hidle hdown
      refine ⟨hout, herr, fun d hd => ?_⟩
      cases hd
      exact hclosed c child
  | tick label result =>
    subst result
    exact ⟨h.crashed, h.past, h.strays, h.under, h.up, h.down⟩
  | read fd label loops result =>
    have hsame : s.child.map (fun c => c.read fd) = s.child := by
      cases hc : s.child with
      | none => rfl
      | some c => exact congrArg some (if_neg (h.read loops hc))
    rw [result, hsame]
    exact h
  | finish fd label loops result =>
    subst result
    obtain ⟨hout, herr⟩ := State.not_absent loops
    cases fd with
    | stdin => exact h
    | stdout =>
      refine ⟨h.crashed, h.past, h.strays, fun caller pc hd => ?_, h.up, fun hidle hdown => ?_⟩
      · obtain ⟨hother, hclosed, hgone, hrest⟩ := h.under caller pc hd
        exact ⟨hother, hclosed, fun hjoined => absurd (hgone hjoined) (hout rfl), hrest⟩
      · exact absurd (h.down hidle hdown).1 (hout rfl)
    | stderr =>
      refine ⟨h.crashed, h.past, h.strays, fun caller pc hd => ?_, h.up, fun hidle hdown => ?_⟩
      · obtain ⟨hother, hclosed, hrest, hgone⟩ := h.under caller pc hd
        exact ⟨hother, hclosed, hrest, fun hjoined => absurd (hgone hjoined) (herr rfl)⟩
      · exact absurd (h.down hidle hdown).2.1 (herr rfl)
  | destroy label running idle result =>
    obtain ⟨hout, herr, -⟩ := h.down idle running
    subst result
    refine ⟨?_, h.past, h.strays, h.under, h.up, h.down⟩
    dsimp only
    rw [hout, herr]
    rfl

end Tidiness

end ChildProcess
end Mcp
