import Mathlib.Data.List.Perm.Basic
/-!
# Pool — threads over a shared state, one critical section a step

A pool is a shared state and a list of program counters.  `advance` runs the next section of one thread: the state after
it and where the thread stands then, or `none` when the thread is finished or blocked.  Threads only meet in the shared
state, so an invariant of the pool is checked section by section: what the section does to its own thread, and that it
leaves the facts about every other thread standing (`forall_set`).

What each thread has in hand can be added up (`held`): a section that moves items between its thread and the shared
state, and creates or drops none, keeps the total (`held_stepAt`).
-/

structure Pool (σ π : Type*) where
  shared : σ
  threads : List π

namespace Pool

open scoped List

variable {σ π τ : Type*} {advance : σ → π → Option (σ × π)}

/-- A new thread, with the state its first action leaves. -/
def spawn (p : Pool σ π) (s : σ) (pc : π) : Pool σ π := ⟨s, p.threads ++ [pc]⟩

/-- Thread `i` runs its next section. -/
def stepAt (advance : σ → π → Option (σ × π)) (p : Pool σ π) (i : Nat) : Option (Pool σ π) :=
  (p.threads[i]?).bind fun pc => (advance p.shared pc).map fun r => ⟨r.1, p.threads.set i r.2⟩

/-- **What a step of a thread is.** -/
theorem stepAt_eq_some {p q : Pool σ π} {i : Nat} :
    stepAt advance p i = some q ↔
      ∃ pc s' pc', p.threads[i]? = some pc ∧ advance p.shared pc = some (s', pc') ∧ q = ⟨s', p.threads.set i pc'⟩ := by
  unfold stepAt
  rw [Option.bind_eq_some_iff]
  constructor
  · rintro ⟨pc, hpc, h⟩
    obtain ⟨⟨s', pc'⟩, hadv, rfl⟩ := Option.map_eq_some_iff.1 h
    exact ⟨pc, s', pc', hpc, hadv, rfl⟩
  · rintro ⟨pc, s', pc', hpc, hadv, rfl⟩
    exact ⟨pc, hpc, Option.map_eq_some_iff.2 ⟨(s', pc'), hadv, rfl⟩⟩

/-- The state and the thread's place that a section leaves, read off it. -/
theorem section_inj {a b : σ × π} (h : some a = some b) : a.1 = b.1 ∧ a.2 = b.2 :=
  ⟨congrArg Prod.fst (Option.some.inj h), congrArg Prod.snd (Option.some.inj h)⟩

theorem forall_set {P : π → Prop} {l : List π} (h : ∀ x ∈ l, P x) (i : Nat) {y : π} (hy : P y) :
    ∀ x ∈ l.set i y, P x := by
  intro x hx
  rcases List.mem_or_eq_of_mem_set hx with hx | rfl
  · exact h x hx
  · exact hy

theorem forall_append_singleton {P : π → Prop} {l : List π} (h : ∀ x ∈ l, P x) {y : π} (hy : P y) :
    ∀ x ∈ l ++ [y], P x := by
  intro x hx
  rcases List.mem_append.1 hx with hx | hx
  · exact h x hx
  · rw [List.mem_singleton.1 hx]
    exact hy

/-- A fact about every thread survives a change of one from outside. -/
theorem forall_modify {P : π → Prop} {l : List π} (h : ∀ x ∈ l, P x) (i : Nat) {f : π → π} (hf : ∀ x, P x → P (f x)) :
    ∀ x ∈ l.modify i f, P x := by
  intro x hx
  obtain ⟨j, hj⟩ := List.getElem?_of_mem hx
  rw [List.getElem?_modify] at hj
  obtain ⟨y, hy, rfl⟩ := Option.map_eq_some_iff.1 hj
  by_cases hij : i = j
  · rw [if_pos hij]
    exact hf y (h y (List.mem_of_getElem? hy))
  · rw [if_neg hij]
    exact h y (List.mem_of_getElem? hy)

/-! ## Facts about each thread by its number -/

theorem getElem?_set_cases {l : List π} {i j : Nat} {x y : π} (h : (l.set i y)[j]? = some x) :
    j = i ∧ x = y ∨ j ≠ i ∧ l[j]? = some x := by
  by_cases hij : i = j
  · subst hij
    rw [List.getElem?_set_self'] at h
    obtain ⟨_, _, rfl⟩ := Option.map_eq_some_iff.1 h
    exact .inl ⟨rfl, rfl⟩
  · rw [List.getElem?_set_ne hij] at h
    exact .inr ⟨Ne.symm hij, h⟩

theorem getElem?_set_eq_some {l : List π} {i j : Nat} {x y : π} (hi : i < l.length) :
    (l.set i y)[j]? = some x ↔ j = i ∧ x = y ∨ j ≠ i ∧ l[j]? = some x := by
  constructor
  · exact getElem?_set_cases
  · rintro (⟨rfl, rfl⟩ | ⟨hne, hj⟩)
    · exact List.getElem?_set_self hi
    · rw [List.getElem?_set_ne hne.symm]
      exact hj

theorem getElem?_concat_eq_some {l : List π} {j : Nat} {x y : π} :
    (l ++ [y])[j]? = some x ↔ j = l.length ∧ x = y ∨ l[j]? = some x := by
  rcases Nat.lt_trichotomy j l.length with hj | rfl | hj
  · rw [List.getElem?_append_left hj]
    exact ⟨.inr, fun h => h.resolve_left fun hlast => Nat.ne_of_lt hj hlast.1⟩
  · rw [List.getElem?_concat_length, List.getElem?_eq_none (Nat.le_refl _)]
    simp [eq_comm]
  · have hold : l[j]? = none := List.getElem?_eq_none (Nat.le_of_lt hj)
    have hnew : (l ++ [y])[j]? = none := List.getElem?_eq_none (by rw [List.length_append, List.length_singleton]; omega)
    rw [hold, hnew]
    exact iff_of_false nofun (fun h => h.elim (fun hlast => Nat.ne_of_gt hj hlast.1) nofun)

/-- **A fact about every thread survives a step of one**: the others keep theirs, the one gets its own. -/
theorem forall_getElem?_set {P P' : Nat → π → Prop} {l : List π} {i : Nat} {y : π}
    (h : ∀ j x, l[j]? = some x → P j x) (hother : ∀ j x, j ≠ i → P j x → P' j x) (hy : P' i y) :
    ∀ j x, (l.set i y)[j]? = some x → P' j x := by
  intro j x hx
  rcases getElem?_set_cases hx with ⟨rfl, rfl⟩ | ⟨hj, hx⟩
  · exact hy
  · exact hother j x hj (h j x hx)

/-- And the start of a thread. -/
theorem forall_getElem?_append {P P' : Nat → π → Prop} {l : List π} {y : π} (h : ∀ j x, l[j]? = some x → P j x)
    (hother : ∀ j x, j < l.length → P j x → P' j x) (hy : P' l.length y) :
    ∀ j x, (l ++ [y])[j]? = some x → P' j x := by
  intro j x hx
  rcases Nat.lt_trichotomy j l.length with hj | rfl | hj
  · rw [List.getElem?_append_left hj] at hx
    exact hother j x hj (h j x hx)
  · rw [List.getElem?_append_right (Nat.le_refl _), Nat.sub_self] at hx
    rw [← Option.some.inj hx]
    exact hy
  · rw [List.getElem?_eq_none (by rw [List.length_append, List.length_singleton]; omega)] at hx
    cases hx

/-- The entries of a shared log that thread `i` made. -/
def madeBy (i : Nat) (log : List (Nat × τ)) : List τ := log.filterMap (fun e => if e.1 = i then some e.2 else none)

@[simp] theorem madeBy_nil (i : Nat) : madeBy i ([] : List (Nat × τ)) = [] := rfl

@[simp] theorem madeBy_append_self (i : Nat) (log : List (Nat × τ)) (x : τ) :
    madeBy i (log ++ [(i, x)]) = madeBy i log ++ [x] := by
  simp [madeBy]

theorem madeBy_append_of_ne {i j : Nat} (h : j ≠ i) (log : List (Nat × τ)) (x : τ) :
    madeBy j (log ++ [(i, x)]) = madeBy j log := by
  simp [madeBy, Ne.symm h]

theorem mem_madeBy {i : Nat} {log : List (Nat × τ)} {x : τ} : x ∈ madeBy i log ↔ (i, x) ∈ log := by
  unfold madeBy
  rw [List.mem_filterMap]
  constructor
  · rintro ⟨⟨j, y⟩, hmem, h⟩
    dsimp only at h
    split at h
    · rename_i hj
      rw [← Option.some.inj h, ← hj]
      exact hmem
    · cases h
  · intro h
    exact ⟨(i, x), h, if_pos rfl⟩

/-! ## What the threads have in hand -/

/-- What the threads have in hand together. -/
def held (f : π → List τ) (l : List π) : List τ := l.flatMap f

@[simp] theorem held_nil (f : π → List τ) : held f [] = [] := rfl

theorem held_append_singleton (f : π → List τ) (l : List π) (pc : π) : held f (l ++ [pc]) = held f l ++ f pc := by
  simp [held]

theorem held_perm_of_getElem? (f : π → List τ) {l : List π} {i : Nat} {pc : π} (h : l[i]? = some pc) :
    held f l ~ f pc ++ held f (l.eraseIdx i) := by
  obtain ⟨hi, rfl⟩ := List.getElem?_eq_some_iff.1 h
  exact (List.getElem_cons_eraseIdx_perm hi).symm.flatMap_right f

theorem held_set_perm (f : π → List τ) {l : List π} {i : Nat} (hi : i < l.length) (pc : π) :
    held f (l.set i pc) ~ f pc ++ held f (l.eraseIdx i) :=
  (List.set_perm_cons_eraseIdx hi pc).flatMap_right f

/-- One thread's hand replaced by another's. -/
theorem held_set_exchange (f : π → List τ) {l : List π} {i : Nat} {pc : π} (h : l[i]? = some pc) (pc' : π) :
    f pc ++ held f (l.set i pc') ~ f pc' ++ held f l := by
  obtain ⟨hi, -⟩ := List.getElem?_eq_some_iff.1 h
  calc f pc ++ held f (l.set i pc')
      ~ f pc ++ (f pc' ++ held f (l.eraseIdx i)) := (held_set_perm f hi pc').append_left _
    _ ~ f pc' ++ (f pc ++ held f (l.eraseIdx i)) := List.perm_append_comm_assoc _ _ _
    _ ~ f pc' ++ held f l := (held_perm_of_getElem? f h).symm.append_left _

theorem mem_held {f : π → List τ} {l : List π} {x : τ} : x ∈ held f l ↔ ∃ pc ∈ l, x ∈ f pc := List.mem_flatMap

/-- **A section that conserves what its thread and the shared state hold conserves the pool's total.** -/
theorem held_stepAt {f : π → List τ} {g : σ → List τ} {p q : Pool σ π} {i : Nat}
    (hadv : ∀ pc s' pc', p.threads[i]? = some pc → advance p.shared pc = some (s', pc') →
      f pc ++ g p.shared ~ f pc' ++ g s')
    (h : stepAt advance p i = some q) :
    held f p.threads ++ g p.shared ~ held f q.threads ++ g q.shared := by
  obtain ⟨pc, s', pc', hpc, hs, rfl⟩ := stepAt_eq_some.1 h
  obtain ⟨hi, -⟩ := List.getElem?_eq_some_iff.1 hpc
  calc held f p.threads ++ g p.shared
      ~ (f pc ++ held f (p.threads.eraseIdx i)) ++ g p.shared := (held_perm_of_getElem? f hpc).append_right _
    _ ~ held f (p.threads.eraseIdx i) ++ (f pc ++ g p.shared) := by
        rw [← List.append_assoc]
        exact List.perm_append_comm.append_right _
    _ ~ held f (p.threads.eraseIdx i) ++ (f pc' ++ g s') := (hadv pc s' pc' hpc hs).append_left _
    _ ~ (f pc' ++ held f (p.threads.eraseIdx i)) ++ g s' := by
        rw [← List.append_assoc]
        exact List.perm_append_comm.append_right _
    _ ~ held f (p.threads.set i pc') ++ g s' := (held_set_perm f hi pc').symm.append_right _

/-! ## Counting threads -/

/-- One thread's place replaced by another's, counted. -/
theorem countP_set_exchange (f : π → Bool) {l : List π} {i : Nat} {pc : π} (h : l[i]? = some pc) (pc' : π) :
    (l.set i pc').countP f + (f pc).toNat = l.countP f + (f pc').toNat := by
  obtain ⟨hi, rfl⟩ := List.getElem?_eq_some_iff.1 h
  have hset : (l.set i pc').countP f = (f pc').toNat + (l.eraseIdx i).countP f := by
    rw [(List.set_perm_cons_eraseIdx hi pc').countP_eq, List.countP_cons, Nat.add_comm]
    cases f pc' <;> rfl
  have hold : l.countP f = (f l[i]).toNat + (l.eraseIdx i).countP f := by
    rw [← (List.getElem_cons_eraseIdx_perm hi).countP_eq, List.countP_cons, Nat.add_comm]
    cases f l[i] <;> rfl
  omega

/-- **Where at most one thread stands, two that stand there are one.** -/
theorem eq_of_countP_le_one {f : π → Bool} {l : List π} (h : l.countP f ≤ 1) {i j : Nat} {x y : π} (hi : l[i]? = some x)
    (hj : l[j]? = some y) (hx : f x = true) (hy : f y = true) : i = j := by
  by_contra hne
  obtain ⟨hlt, rfl⟩ := List.getElem?_eq_some_iff.1 hi
  have hmem : y ∈ l.eraseIdx i := List.mem_eraseIdx_iff_getElem?.2 ⟨j, fun he => hne he.symm, hj⟩
  have hpos : 0 < (l.eraseIdx i).countP f := List.countP_pos_iff.2 ⟨y, hmem, hy⟩
  rw [← (List.getElem_cons_eraseIdx_perm hlt).countP_eq, List.countP_cons_of_pos hx] at h
  omega

end Pool
