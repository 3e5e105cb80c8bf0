import Mathlib.Logic.Basic
/-!
# Run — runs of a partial step function

A system is a step function `σ → ι → Option σ`: a label `ι` carries every choice of the step (which thread moves, what
it reads), and `none` means the label is not enabled.  `run` plays a list of labels, so a run is a value that can be
evaluated, and a theorem about every list of labels is a theorem about every interleaving.

`Meets step G` says every step of a run is taken from a state where `G` holds.  The rules below carry an invariant along
a run (`run_invariant`) and along a run whose steps meet a condition (`meets_invariant`).
-/
namespace Lts

variable {σ ι : Type*} {step : σ → ι → Option σ}

/-- The state a list of labels leads to, or `none` when one of them is not enabled. -/
def run (step : σ → ι → Option σ) : σ → List ι → Option σ
  | s, [] => some s
  | s, i :: l => (step s i).bind (fun t => run step t l)

/-- **Every step of the run is taken from a state where `G` holds of its label.** -/
def Meets (step : σ → ι → Option σ) (G : σ → ι → Prop) : σ → List ι → Prop
  | _, [] => True
  | s, i :: l => G s i ∧ ∀ t, step s i = some t → Meets step G t l

instance decidableMeets {G : σ → ι → Prop} [∀ s i, Decidable (G s i)] : ∀ (s : σ) (l : List ι), Decidable (Meets step G s l)
  | _, [] => isTrue trivial
  | s, i :: l =>
    match h : step s i with
    | none => decidable_of_iff (G s i) ⟨fun hg => ⟨hg, fun t ht => by rw [h] at ht; cases ht⟩, fun hm => hm.1⟩
    | some t =>
      have := decidableMeets (G := G) t l
      decidable_of_iff (G s i ∧ Meets step G t l)
        ⟨fun hg => ⟨hg.1, fun u hu => by rw [h] at hu; cases hu; exact hg.2⟩, fun hm => ⟨hm.1, hm.2 t h⟩⟩

/-- The states a system reaches from `s`. -/
def Reaches (step : σ → ι → Option σ) (s t : σ) : Prop := ∃ l, run step s l = some t

@[simp] theorem run_nil (s : σ) : run step s [] = some s := rfl

theorem run_cons (s : σ) (i : ι) (l : List ι) : run step s (i :: l) = (step s i).bind (fun t => run step t l) := rfl

theorem run_cons_eq_some {s u : σ} {i : ι} {l : List ι} :
    run step s (i :: l) = some u ↔ ∃ t, step s i = some t ∧ run step t l = some u := by
  rw [run_cons, Option.bind_eq_some_iff]

theorem run_append : ∀ (l m : List ι) (s : σ), run step s (l ++ m) = (run step s l).bind (fun t => run step t m)
  | [], _, _ => rfl
  | i :: l, m, s => by
    rw [List.cons_append, run_cons, run_cons]
    cases step s i with
    | none => rfl
    | some t => exact run_append l m t

theorem run_append_eq_some {s u : σ} {l m : List ι} :
    run step s (l ++ m) = some u ↔ ∃ t, run step s l = some t ∧ run step t m = some u := by
  rw [run_append, Option.bind_eq_some_iff]

theorem run_snoc {s u : σ} {l : List ι} {i : ι} :
    run step s (l ++ [i]) = some u ↔ ∃ t, run step s l = some t ∧ step t i = some u := by
  rw [run_append_eq_some]
  simp [run_cons]

theorem Meets.append_left {G : σ → ι → Prop} : ∀ {l m : List ι} {s : σ}, Meets step G s (l ++ m) → Meets step G s l
  | [], _, _, _ => trivial
  | _ :: _, _, _, h => ⟨h.1, fun t ht => Meets.append_left (h.2 t ht)⟩

theorem Meets.append_right {G : σ → ι → Prop} :
    ∀ {l m : List ι} {s t : σ}, Meets step G s (l ++ m) → run step s l = some t → Meets step G t m
  | [], _, s, t, h, hr => by
    obtain rfl : s = t := by simpa using hr
    exact h
  | i :: l, m, s, t, h, hr => by
    obtain ⟨u, hu, hr⟩ := run_cons_eq_some.1 hr
    exact Meets.append_right (h.2 u hu) hr

/-- A condition that always holds is met by every run. -/
theorem meets_of_forall {G : σ → ι → Prop} (h : ∀ s i, G s i) : ∀ (l : List ι) (s : σ), Meets step G s l
  | [], _ => trivial
  | i :: l, s => ⟨h s i, fun t _ => meets_of_forall h l t⟩

/-- A condition on the labels alone. -/
theorem meets_of_mem {P : ι → Prop} : ∀ {l : List ι} (s : σ), (∀ i ∈ l, P i) → Meets step (fun _ i => P i) s l
  | [], _, _ => trivial
  | _ :: _, _, h => ⟨h _ List.mem_cons_self, fun t _ => meets_of_mem t fun i hi => h i (List.mem_cons_of_mem _ hi)⟩

/-- **The invariant rule under a condition**: what every step meeting `G` keeps holds after a run meeting `G`. -/
theorem meets_invariant {I : σ → Prop} {G : σ → ι → Prop}
    (hI : ∀ s i t, I s → G s i → step s i = some t → I t) :
    ∀ {l : List ι} {s t : σ}, I s → Meets step G s l → run step s l = some t → I t
  | [], s, t, hs, _, hr => by
    obtain rfl : s = t := by simpa using hr
    exact hs
  | i :: l, s, t, hs, hg, hr => by
    obtain ⟨u, hu, hr⟩ := run_cons_eq_some.1 hr
    exact meets_invariant hI (hI s i u hs hg.1 hu) (hg.2 u hu) hr

/-- **Two conditions that agree where an invariant holds are met by the same runs.** -/
theorem meets_congr {I : σ → Prop} {G G' : σ → ι → Prop} (hI : ∀ s i t, I s → step s i = some t → I t)
    (hG : ∀ s i, I s → (G s i ↔ G' s i)) : ∀ {l : List ι} {s : σ}, I s → (Meets step G s l ↔ Meets step G' s l)
  | [], _, _ => Iff.rfl
  | i :: _, s, hs =>
    and_congr (hG s i hs) (forall_congr' fun t => forall_congr' fun ht => meets_congr hI hG (hI s i t hs ht))

/-- **The invariant rule**: what every step keeps holds after every run. -/
theorem run_invariant {I : σ → Prop} (hI : ∀ s i t, I s → step s i = some t → I t) {l : List ι} {s t : σ}
    (hs : I s) (hr : run step s l = some t) : I t :=
  meets_invariant (G := fun _ _ => True) (fun s i t h _ hst => hI s i t h hst) hs (meets_of_forall (fun _ _ => trivial) l s) hr

/-! ## Logs -/

variable {α : Type*}

/-- **Every entry of `log` relates to the entries before it**, those of `past` included. -/
def EachAfter (P : List α → α → Prop) : List α → List α → Prop
  | _, [] => True
  | past, x :: log => P past x ∧ EachAfter P (past ++ [x]) log

theorem EachAfter.split {P : List α → α → Prop} :
    ∀ {past pre : List α} {x : α} {post : List α}, EachAfter P past (pre ++ x :: post) → P (past ++ pre) x
  | past, [], x, post, h => by
    rw [List.append_nil]
    exact h.1
  | past, y :: pre, x, post, h => by
    have hpre : P (past ++ [y] ++ pre) x := EachAfter.split h.2
    rwa [List.append_assoc] at hpre

theorem eachAfter_append {P : List α → α → Prop} : ∀ {log more past : List α},
    EachAfter P past (log ++ more) ↔ EachAfter P past log ∧ EachAfter P (past ++ log) more
  | [], more, past => by
    rw [List.nil_append, List.append_nil]
    exact (iff_of_eq (true_and _)).symm
  | x :: log, more, past => by
    have hassoc : past ++ x :: log = past ++ [x] ++ log := by simp
    rw [List.cons_append, hassoc]
    exact (and_congr_right fun _ => eachAfter_append).trans and_assoc.symm

end Lts
