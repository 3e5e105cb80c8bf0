import McpSdk.Requests
import Mathlib.Logic.Relation
/-!
# RequestsRuns — threads of a session that run on

What one thread does on its own is a run of the session, whatever the others are at (`Runs.pool`): a thread that is started
runs on (`spawn_run`), and `handle_close` runs to its end (`close_runs`).
-/
namespace Mcp
namespace Requests

section Runs

variable {p : Pool State Pc}

/-- What one thread of the session does, section by section. -/
def Runs : State × Pc → State × Pc → Prop :=
  Relation.ReflTransGen fun a b => advance a.1 a.2 = some b

theorem Runs.pool {a b : State × Pc} (h : Runs a b) {threads : List Pc} {j : Nat}
    (hj : threads[j]? = some a.2) : ∃ m, Lts.run step ⟨a.1, threads⟩ m = some ⟨b.1, threads.set j b.2⟩ := by
  obtain ⟨hlt, hat⟩ := List.getElem?_eq_some_iff.1 hj
  induction h with
  | refl =>
    refine ⟨[], ?_⟩
    rw [← hat, List.set_getElem_self]
    rfl
  | tail _ hadv ih =>
    rename_i b c _
    obtain ⟨m, hm⟩ := ih
    have hb : (threads.set j b.2)[j]? = some b.2 := List.getElem?_set_self hlt
    have hstep : step ⟨b.1, threads.set j b.2⟩ (.step j) = some ⟨c.1, threads.set j c.2⟩ :=
      Pool.stepAt_eq_some.2 ⟨b.2, c.1, c.2, hb, hadv, by rw [List.set_set]⟩
    exact ⟨m ++ [.step j], Lts.run_snoc.2 ⟨_, hm, hstep⟩⟩

/-- The callbacks of a close event, and its end. -/
theorem closeCalls_runs : ∀ (callbacks : List Callback) (shared : State),
    ∃ shared', Runs (shared, .closeCalls .reader callbacks) (shared', .done) ∧
      shared'.transport = shared.transport.withReader .exited
  | [], _ => ⟨_, .single rfl, rfl⟩
  | callback :: callbacks, shared => by
    obtain ⟨shared', hruns, htransport⟩ := closeCalls_runs callbacks
      { shared with invoked := shared.invoked ++ [(callback, .error closedError)] }
    exact ⟨shared', .head rfl hruns, htransport⟩

/-- **`handle_close` runs to its end**, and the reader thread with it. -/
theorem close_runs (shared : State) :
    ∃ shared', Runs (shared, .closeState .reader) (shared', .done) ∧ shared'.transport = shared.transport.withReader .exited := by
  obtain ⟨shared', hruns, htransport⟩ := closeCalls_runs (takeAllPending shared.pending).1
    { shared with state := .shutdown, timers := {}, pending := (takeAllPending shared.pending).2, swept := true }
  exact ⟨shared', .head rfl (.head rfl (.head rfl hruns)), htransport⟩

/-- A thread starts and runs. -/
theorem spawn_run (label : Label) {a b : State × Pc}
    (hlabel : step p label = some (p.spawn a.1 a.2)) (h : Runs a b) :
    ∃ m, Lts.run step p m = some ⟨b.1, p.threads ++ [b.2]⟩ := by
  have hlast : (p.threads ++ [a.2])[p.threads.length]? = some a.2 := List.getElem?_concat_length
  obtain ⟨m, hm⟩ := h.pool hlast
  rw [List.set_append_right _ _ (Nat.le_refl _), Nat.sub_self] at hm
  exact ⟨label :: m, Lts.run_cons_eq_some.2 ⟨_, hlabel, hm⟩⟩

theorem getElem?_append_of_some {α : Type} {l : List α} {i : Nat} {x : α} (h : l[i]? = some x) (m : List α) :
    (l ++ m)[i]? = some x := by
  rw [List.getElem?_append_left (List.getElem?_eq_some_iff.1 h).1]
  exact h

theorem getElem?_set_of_ne {α : Type} {l : List α} {i j : Nat} {x y z : α} (hi : l[i]? = some x) (hj : l[j]? = some y)
    (hne : x ≠ y) : (l.set j z)[i]? = some x := by
  have hij : j ≠ i := by
    rintro rfl
    exact hne (Option.some.inj (hi.symm.trans hj))
  rw [List.getElem?_set_ne hij]
  exact hi

end Runs

end Requests
end Mcp
