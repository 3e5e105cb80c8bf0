import McpSdk.Lib.Run
/-!
# Simulation — one system's runs among another's

A relation between the states of two systems is a simulation when every step of the first, from related states, is matched
by a run of the second, possibly of no step, that ends in related states again.  Then every run of the first is matched so
(`Simulates.run`).
-/
namespace Lts

variable {σ ι τ κ : Type*} {step : σ → ι → Option σ} {step' : τ → κ → Option τ}

/-- **Every step of `step` is matched by a run of `step'`.** -/
def Simulates (step : σ → ι → Option σ) (step' : τ → κ → Option τ) (R : σ → τ → Prop) : Prop :=
  ∀ (s t : σ) (i : ι) (u : τ), R s u → step s i = some t → ∃ m v, run step' u m = some v ∧ R t v

theorem Simulates.run {R : σ → τ → Prop} (h : Simulates step step' R) : ∀ {l : List ι} {s t : σ} {u : τ}, R s u →
    Lts.run step s l = some t → ∃ m v, Lts.run step' u m = some v ∧ R t v
  | [], s, t, u, hR, hr => by
    obtain rfl : s = t := by simpa using hr
    exact ⟨[], u, rfl, hR⟩
  | i :: l, s, t, u, hR, hr => by
    obtain ⟨s', hs', hr⟩ := run_cons_eq_some.1 hr
    obtain ⟨m, v, hv, hR'⟩ := h _ _ _ _ hR hs'
    obtain ⟨n, w, hw, hR''⟩ := Simulates.run h hR' hr
    exact ⟨m ++ n, w, run_append_eq_some.2 ⟨v, hv, hw⟩, hR''⟩

/-- A step that is a step of the other system, or none of its steps. -/
theorem simulates_of_step {R : σ → τ → Prop}
    (h : ∀ (s t : σ) (i : ι) (u : τ), R s u → step s i = some t → R t u ∨ ∃ j v, step' u j = some v ∧ R t v) :
    Simulates step step' R := by
  intro s t i u hR hstep
  rcases h s t i u hR hstep with hsame | ⟨j, v, hv, hR'⟩
  · exact ⟨[], u, rfl, hsame⟩
  · exact ⟨[j], v, run_cons_eq_some.2 ⟨v, hv, rfl⟩, hR'⟩

end Lts
