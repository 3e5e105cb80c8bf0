import McpSdk.Lib.Run
import Mathlib.Algebra.BigOperators.Group.List.Basic
import Mathlib.Algebra.Ring.Nat
/-!
# Rank — what the steps of a run cost

A rank that every step of cost 1 takes something off bounds how many of them a run can hold (`paid_run`).  The steps need
meet a condition `G`, and the end of the run a condition `W` that no step can bring about.
-/
namespace Lts

variable {σ ι : Type*} {step : σ → ι → Option σ}

/-- **The rank pays for the steps**, up to what some of them put on it. -/
theorem paid_run {I W : σ → Prop} {G : σ → ι → Prop} {rank : σ → Nat} {cost credit : ι → Nat}
    (hI : ∀ s i t, I s → step s i = some t → I t) (hW : ∀ s i t, G s i → step s i = some t → W t → W s)
    (hpaid : ∀ s i t, I s → G s i → W s → W t → step s i = some t → rank t + cost i ≤ rank s + credit i) :
    ∀ {l : List ι} {s t : σ}, I s → run step s l = some t → W t → Meets step G s l →
      W s ∧ rank t + (l.map cost).sum ≤ rank s + (l.map credit).sum
  | [], s, t, _, hr, ht, _ => by
    obtain rfl : s = t := by simpa using hr
    exact ⟨ht, Nat.le_refl _⟩
  | i :: l, s, t, hs, hr, ht, hG => by
    obtain ⟨u, hu, hrest⟩ := run_cons_eq_some.1 hr
    obtain ⟨hWu, hle⟩ := paid_run hI hW hpaid (hI s i u hs hu) hrest ht (hG.2 u hu)
    have hWs := hW s i u hG.1 hu hWu
    have hone := hpaid s i u hs hG.1 hWs hWu hu
    refine ⟨hWs, ?_⟩
    rw [List.map_cons, List.map_cons, List.sum_cons, List.sum_cons]
    omega

/-- Steps of cost 1 or 0 cost as many as there are. -/
theorem sum_cost (works : ι → Bool) : ∀ l : List ι, (l.map fun i => if works i then 1 else 0).sum = (l.filter works).length
  | [] => rfl
  | i :: l => by
    rw [List.map_cons, List.sum_cons, sum_cost works l, List.filter_cons]
    by_cases hworks : works i = true
    · rw [if_pos hworks, if_pos hworks, List.length_cons, Nat.add_comm]
    · rw [if_neg hworks, if_neg hworks, Nat.zero_add]

end Lts
