import Mathlib.Data.List.Basic
/-!
# Since — what a log says about now

`Since p q log`: some entry of `log` meets `p`, and no entry after it meets `q`.  An entry that is added decides it, or leaves
it to the log before (`since_concat`).
-/
namespace Lts

variable {α : Type*} {p q : α → Prop}

/-- **An entry meets `p`, and none after it meets `q`.** -/
def Since (p q : α → Prop) (log : List α) : Prop := ∃ before x after, log = before ++ x :: after ∧ p x ∧ ∀ y ∈ after, ¬ q y

theorem since_concat {log : List α} {x : α} : Since p q (log ++ [x]) ↔ p x ∨ ¬ q x ∧ Since p q log := by
  constructor
  · rintro ⟨before, y, after, heq, hy, hafter⟩
    rcases List.eq_nil_or_concat after with rfl | ⟨after, z, rfl⟩
    · obtain ⟨-, hlast⟩ := List.append_inj' heq rfl
      cases hlast
      exact .inl hy
    · rw [List.concat_eq_append] at heq hafter
      rw [← List.cons_append, ← List.append_assoc] at heq
      obtain ⟨rfl, hlast⟩ := List.append_inj' heq rfl
      cases hlast
      exact .inr ⟨hafter x (List.mem_append_right _ (List.mem_singleton_self x)),
        before, y, after, rfl, hy, fun z hz => hafter z (List.mem_append_left _ hz)⟩
  · rintro (hx | ⟨hx, before, y, after, rfl, hy, hafter⟩)
    · exact ⟨log, x, [], rfl, hx, fun y hy => by cases hy⟩
    · refine ⟨before, y, after ++ [x], by simp, hy, fun z hz => ?_⟩
      rcases List.mem_append.1 hz with hz | hz
      · exact hafter z hz
      · rw [List.mem_singleton.1 hz]
        exact hx

/-- Entries that meet neither change nothing. -/
theorem since_append : ∀ {more log : List α}, (∀ x ∈ more, ¬ p x ∧ ¬ q x) → (Since p q (log ++ more) ↔ Since p q log)
  | [], log, _ => by rw [List.append_nil]
  | x :: more, log, h => by
    have hassoc : log ++ x :: more = log ++ [x] ++ more := by simp
    obtain ⟨hp, hq⟩ := h x List.mem_cons_self
    rw [hassoc, since_append fun y hy => h y (List.mem_cons_of_mem x hy), since_concat]
    exact ⟨fun hor => (hor.resolve_left hp).2, fun hlog => .inr ⟨hq, hlog⟩⟩

/-- Entries that do not meet `q` leave it to hold. -/
theorem Since.append {log more : List α} (h : Since p q log) (hmore : ∀ x ∈ more, ¬ q x) : Since p q (log ++ more) := by
  obtain ⟨before, x, after, rfl, hx, hafter⟩ := h
  exact ⟨before, x, after ++ more, by simp, hx, fun y hy => (List.mem_append.1 hy).elim (hafter y) (hmore y)⟩

end Lts
