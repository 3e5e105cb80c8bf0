import McpSdk.Lib.Run
/-!
# Unwinding — two runs that differ in the labels an observer is not shown

`keep` selects the labels two runs share; the others may come anywhere, in either run.  `Unwinding` states what one step
has to keep of a relation between the two states: a dropped label on one side, and a kept label on both sides when what
`obs` reads there agrees.  `Unwinding.run` carries the relation through a pair of runs.
-/
namespace Lts

variable {σ ι ω : Type*} {step : σ → ι → Option σ} {keep : ι → Bool} {obs : σ → ι → ω} {R : σ → σ → Prop}

/-- What `obs` reads at the kept labels of a run, each at the state it is taken from. -/
def trace (step : σ → ι → Option σ) (keep : ι → Bool) (obs : σ → ι → ω) : σ → List ι → List ω
  | _, [] => []
  | s, i :: l =>
    let rest := (step s i).elim [] (fun t => trace step keep obs t l)
    if keep i then obs s i :: rest else rest

/-- **One step keeps the relation**: local respect on either side, and step consistency. -/
structure Unwinding (step : σ → ι → Option σ) (keep : ι → Bool) (obs : σ → ι → ω) (R : σ → σ → Prop) : Prop where
  left : ∀ {s t u i}, R s t → keep i = false → step s i = some u → R u t
  right : ∀ {s t v i}, R s t → keep i = false → step t i = some v → R s v
  both : ∀ {s t u v i}, R s t → keep i = true → obs s i = obs t i → step s i = some u → step t i = some v → R u v

theorem trace_dropped {s t : σ} {i : ι} (hi : keep i = false) (h : step s i = some t) (l : List ι) :
    trace step keep obs s (i :: l) = trace step keep obs t l := by
  simp [trace, hi, h]

theorem trace_kept {s t : σ} {i : ι} (hi : keep i = true) (h : step s i = some t) (l : List ι) :
    trace step keep obs s (i :: l) = obs s i :: trace step keep obs t l := by
  simp [trace, hi, h]

theorem length_trace : ∀ {l : List ι} {s t : σ}, run step s l = some t →
    (trace step keep obs s l).length = (l.filter keep).length
  | [], _, _, _ => rfl
  | i :: l, s, t, h => by
    obtain ⟨u, hu, h⟩ := run_cons_eq_some.1 h
    have ih := length_trace h
    cases hi : keep i with
    | true => rw [trace_kept hi hu, List.filter_cons_of_pos hi, List.length_cons, List.length_cons, ih]
    | false => rw [trace_dropped hi hu, List.filter_cons_of_neg (by simp [hi]), ih]

/-- A label that no kept label follows from is dropped. -/
theorem dropped_of_filter_nil {i : ι} {l : List ι} (h : [] = (i :: l).filter keep) : keep i = false := by
  simpa using List.filter_eq_nil_iff.1 h.symm i List.mem_cons_self

/-- **The two-run rule**: the relation holds after any two runs with equal kept labels and equal traces. -/
theorem Unwinding.run (h : Unwinding step keep obs R) : ∀ (l m : List ι) {s t u v : σ}, R s t →
    l.filter keep = m.filter keep → trace step keep obs s l = trace step keep obs t m →
    Lts.run step s l = some u → Lts.run step t m = some v → R u v
  | [], [], s, t, u, v, hR, _, _, hl, hm => by
    obtain rfl : s = u := by simpa using hl
    obtain rfl : t = v := by simpa using hm
    exact hR
  | [], j :: m, s, t, u, v, hR, hkeep, htrace, hl, hm => by
    obtain ⟨t', ht', hm⟩ := run_cons_eq_some.1 hm
    have hj : keep j = false := dropped_of_filter_nil hkeep
    rw [List.filter_cons_of_neg (by simp [hj])] at hkeep
    rw [trace_dropped hj ht'] at htrace
    exact Unwinding.run h [] m (h.right hR hj ht') hkeep htrace hl hm
  | i :: l, [], s, t, u, v, hR, hkeep, htrace, hl, hm => by
    obtain ⟨s', hs', hl⟩ := run_cons_eq_some.1 hl
    have hi : keep i = false := dropped_of_filter_nil hkeep.symm
    rw [List.filter_cons_of_neg (by simp [hi])] at hkeep
    rw [trace_dropped hi hs'] at htrace
    exact Unwinding.run h l [] (h.left hR hi hs') hkeep htrace hl hm
  | i :: l, j :: m, s, t, u, v, hR, hkeep, htrace, hl, hm => by
    obtain ⟨s', hs', hl'⟩ := run_cons_eq_some.1 hl
    obtain ⟨t', ht', hm'⟩ := run_cons_eq_some.1 hm
    cases hi : keep i with
    | false =>
      rw [List.filter_cons_of_neg (a := i) (by simp [hi])] at hkeep
      rw [trace_dropped hi hs'] at htrace
      exact Unwinding.run h l (j :: m) (h.left hR hi hs') hkeep htrace hl' hm
    | true =>
      cases hj : keep j with
      | false =>
        rw [List.filter_cons_of_neg (a := j) (by simp [hj])] at hkeep
        rw [trace_dropped hj ht'] at htrace
        exact Unwinding.run h (i :: l) m (h.right hR hj ht') hkeep htrace hl hm'
      | true =>
        -- both labels are kept, so they are the same one
        rw [List.filter_cons_of_pos hi, List.filter_cons_of_pos hj, List.cons.injEq] at hkeep
        obtain ⟨rfl, hkeep⟩ := hkeep
        rw [trace_kept hi hs', trace_kept hi ht', List.cons.injEq] at htrace
        exact Unwinding.run h l m (h.both hR hi htrace.1 hs' ht') hkeep htrace.2 hl' hm'
termination_by l m => l.length + m.length

/-- **The two-run rule with nothing observed.** -/
theorem Unwinding.run_blind (h : Unwinding step keep (fun _ _ => ()) R) {l m : List ι} {s t u v : σ} (hR : R s t)
    (hkeep : l.filter keep = m.filter keep) (hl : Lts.run step s l = some u) (hm : Lts.run step t m = some v) :
    R u v := by
  refine h.run l m hR hkeep (List.ext_getElem ?_ (fun _ _ _ => rfl)) hl hm
  rw [length_trace hl, length_trace hm, hkeep]

end Lts
