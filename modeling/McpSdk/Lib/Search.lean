import Mathlib.Data.List.Basic
import Mathlib.Data.List.Infix
/-!
# Search — the first occurrence of a pattern, and lines cut off a growing buffer

A reader that looks for a delimiter in what has arrived so far must not depend on where the arrivals were cut.
`indexOf_append` says a found occurrence stays the first one; `drain_append` says the complete lines of a stream are the
lines of its first part, then those of its remainder and the rest.
-/
namespace Search

variable {α : Type*} [DecidableEq α]

/-! ## First occurrence -/

/-- The position of the first occurrence of `p`. -/
def indexOf (p : List α) : List α → Option Nat
  | [] => if p.isEmpty then some 0 else none
  | x :: s => if p.isPrefixOf (x :: s) then some 0 else (indexOf p s).map (· + 1)

theorem indexOf_le {p : List α} : ∀ {s : List α} {i : Nat}, indexOf p s = some i → i + p.length ≤ s.length
  | [], i, h => by
    unfold indexOf at h
    split at h
    · rename_i hp
      rw [List.isEmpty_iff.1 hp, ← Option.some.inj h]
      exact Nat.le_refl _
    · cases h
  | x :: s, i, h => by
    unfold indexOf at h
    split at h
    · rename_i hp
      rw [← Option.some.inj h, Nat.zero_add]
      exact (List.isPrefixOf_iff_prefix.1 hp).length_le
    · obtain ⟨j, hj, rfl⟩ := Option.map_eq_some_iff.1 h
      have := indexOf_le hj
      simp only [List.length_cons]
      omega

/-- **A found occurrence stays the first one** when more arrives. -/
theorem indexOf_append {p : List α} : ∀ {s : List α} {i : Nat}, indexOf p s = some i → ∀ t, indexOf p (s ++ t) = some i
  | [], i, h, t => by
    unfold indexOf at h
    split at h
    · rename_i hp
      rw [List.isEmpty_iff.1 hp]
      cases t <;> simpa [indexOf] using h
    · cases h
  | x :: s, i, h, t => by
    rw [List.cons_append]
    unfold indexOf at h ⊢
    by_cases hp : p.isPrefixOf (x :: s) = true
    · have hpt : p.isPrefixOf (x :: (s ++ t)) = true :=
        List.isPrefixOf_iff_prefix.2 ((List.isPrefixOf_iff_prefix.1 hp).trans (List.prefix_append (x :: s) t))
      rw [if_pos hp] at h
      rw [if_pos hpt, h]
    · rw [if_neg hp] at h
      obtain ⟨j, hj, rfl⟩ := Option.map_eq_some_iff.1 h
      -- the later occurrence leaves room for `p` before `t`, so `p` cannot begin here across the cut
      have hlen : p.length ≤ (x :: s).length := by
        have := indexOf_le hj
        simp only [List.length_cons]
        omega
      have hpt : ¬ p.isPrefixOf (x :: (s ++ t)) = true := fun hpt =>
        hp (List.isPrefixOf_iff_prefix.2
          (List.prefix_of_prefix_length_le (List.isPrefixOf_iff_prefix.1 hpt) (List.prefix_append (x :: s) t) hlen))
      rw [if_neg hpt, indexOf_append hj t]
      rfl

/-- **What is found is there.** -/
theorem indexOf_eq_some {p : List α} : ∀ {s : List α} {i : Nat}, indexOf p s = some i → s = s.take i ++ (p ++ s.drop (i + p.length))
  | [], i, h => by
    unfold indexOf at h
    split at h
    · rename_i hp
      rw [List.isEmpty_iff.1 hp]
      simp
    · cases h
  | x :: s, i, h => by
    unfold indexOf at h
    split at h
    · rename_i hp
      rw [← Option.some.inj h, Nat.zero_add, List.take_zero, List.nil_append]
      exact (List.prefix_iff_eq_append.1 (List.isPrefixOf_iff_prefix.1 hp)).symm
    · obtain ⟨j, hj, rfl⟩ := Option.map_eq_some_iff.1 h
      have ih := indexOf_eq_some hj
      rw [List.take_succ_cons, Nat.add_right_comm, List.drop_succ_cons, List.cons_append, ← ih]

theorem indexOf_singleton {x : α} : ∀ {l : List α}, x ∉ l → ∀ t, indexOf [x] (l ++ x :: t) = some l.length
  | [], _, t => by simp [indexOf]
  | y :: l, h, t => by
    have hxy : x ≠ y := fun he => h (he ▸ List.mem_cons_self)
    rw [List.cons_append, indexOf, if_neg (by simp [hxy]), indexOf_singleton (fun hx => h (List.mem_cons_of_mem y hx)) t]
    rfl

theorem indexOf_cons_of_ne {a x : α} {p s : List α} (h : x ≠ a) :
    indexOf (a :: p) (x :: s) = (indexOf (a :: p) s).map (· + 1) := by
  have hprefix : ¬ (a :: p).isPrefixOf (x :: s) = true := by simp [List.isPrefixOf, Ne.symm h]
  rw [indexOf, if_neg hprefix]

/-- **A part without the pattern's first element is skipped.** -/
theorem indexOf_skip {a : α} {p : List α} : ∀ {l : List α}, a ∉ l → ∀ s : List α,
    indexOf (a :: p) (l ++ s) = (indexOf (a :: p) s).map (· + l.length)
  | [], _, s => by simp
  | x :: l, h, s => by
    have hx : x ≠ a := fun he => h (he ▸ List.mem_cons_self)
    have ih := indexOf_skip (p := p) (fun hl => h (List.mem_cons_of_mem x hl)) s
    rw [List.cons_append, indexOf_cons_of_ne hx, ih, Option.map_map]
    rfl

/-- What is not found in a stream is not found in its beginning. -/
theorem indexOf_eq_none_of_append {p s t : List α} (h : indexOf p (s ++ t) = none) : indexOf p s = none := by
  cases hs : indexOf p s with
  | none => rfl
  | some i =>
    rw [indexOf_append hs t] at h
    cases h

/-- And a pattern is not found before it has all arrived. -/
theorem indexOf_eq_none_of_short {p s t : List α} {i : Nat} (h : indexOf p (s ++ t) = some i)
    (hshort : s.length < i + p.length) : indexOf p s = none := by
  cases hs : indexOf p s with
  | none => rfl
  | some j =>
    have hle := indexOf_le hs
    rw [indexOf_append hs t] at h
    have hsame := Option.some.inj h
    omega

/-- The part in front of an occurrence. -/
theorem exists_split {p s : List α} {i : Nat} (hp : p ≠ []) (h : indexOf p s = some i) :
    ∃ l t, s = l ++ p ++ t ∧ indexOf p l = none ∧ l.length = i := by
  have hle := indexOf_le h
  have hlen : (s.take i).length = i := List.length_take_of_le (Nat.le_of_add_right_le hle)
  refine ⟨s.take i, s.drop (i + p.length), ?_, ?_, hlen⟩
  · rw [List.append_assoc]
    exact indexOf_eq_some h
  · refine indexOf_eq_none_of_short (t := s.drop i) (by rwa [List.take_append_drop]) ?_
    rw [hlen]
    exact Nat.lt_add_of_pos_right (List.length_pos_iff.2 hp)

/-- **What is there is found.** -/
theorem exists_indexOf {p : List α} : ∀ {s : List α}, p <:+: s → ∃ i, indexOf p s = some i
  | [], h => ⟨0, by simp [indexOf, List.eq_nil_of_infix_nil h]⟩
  | x :: s, h => by
    by_cases hp : p.isPrefixOf (x :: s) = true
    · exact ⟨0, by rw [indexOf, if_pos hp]⟩
    · rcases List.infix_cons_iff.1 h with hprefix | hinfix
      · exact absurd (List.isPrefixOf_iff_prefix.2 hprefix) hp
      · obtain ⟨i, hi⟩ := exists_indexOf hinfix
        exact ⟨i + 1, by rw [indexOf, if_neg hp, hi]; rfl⟩

theorem infix_of_indexOf {p s : List α} {i : Nat} (h : indexOf p s = some i) : p <:+: s := by
  have hfound := indexOf_eq_some h
  rw [← List.append_assoc] at hfound
  exact ⟨_, _, hfound.symm⟩

theorem indexOf_eq_none_iff {p s : List α} : indexOf p s = none ↔ ¬ p <:+: s := by
  constructor
  · intro h hinfix
    obtain ⟨i, hi⟩ := exists_indexOf hinfix
    rw [h] at hi
    cases hi
  · intro h
    cases hs : indexOf p s with
    | none => rfl
    | some i => exact absurd (infix_of_indexOf hs) h

theorem indexOf_singleton_eq_none {x : α} {l : List α} : indexOf [x] l = none ↔ x ∉ l := by
  rw [indexOf_eq_none_iff, List.singleton_infix_iff]

/-- What arrives with more of the stream ends in it. -/
theorem length_lt_of_append {p s t : List α} {i : Nat} (hnone : indexOf p s = none) (h : indexOf p (s ++ t) = some i) :
    s.length < i + p.length := by
  refine Nat.lt_of_not_le (fun hle => indexOf_eq_none_iff.1 hnone ?_)
  have hfound := indexOf_eq_some h
  rw [← List.append_assoc] at hfound
  have hlen : ((s ++ t).take i ++ p).length ≤ s.length := by
    rw [List.length_append]
    exact Nat.le_trans (Nat.add_le_add_right (List.length_take_le i _) _) hle
  have hprefix : (s ++ t).take i ++ p <+: s :=
    List.prefix_of_prefix_length_le ⟨_, hfound.symm⟩ (List.prefix_append s t) hlen
  exact (List.suffix_append _ p).isInfix.trans hprefix.isInfix

/-- An occurrence that has arrived is found in what has arrived. -/
theorem indexOf_of_append {p s t : List α} {i : Nat} (h : indexOf p (s ++ t) = some i) (hle : i + p.length ≤ s.length) :
    indexOf p s = some i := by
  cases hs : indexOf p s with
  | none => exact absurd (length_lt_of_append hs h) (Nat.not_lt.2 hle)
  | some j => rw [← indexOf_append hs t, h]

/-! ## Lines -/

/-- The complete lines of a buffer, without their ends, and what is left after the last one. -/
def drain (sep : α) : List α → List (List α) × List α
  | [] => ([], [])
  | x :: s =>
    match drain sep s with
    | (lines, rest) =>
      if x = sep then ([] :: lines, rest)
      else
        match lines with
        | [] => ([], x :: rest)
        | l :: lines => ((x :: l) :: lines, rest)

theorem drain_of_not_mem {sep : α} : ∀ {s : List α}, sep ∉ s → drain sep s = ([], s)
  | [], _ => rfl
  | x :: s, h => by
    have hx : x ≠ sep := fun he => h (he ▸ List.mem_cons_self)
    rw [drain, drain_of_not_mem (fun hs => h (List.mem_cons_of_mem x hs))]
    simp only [if_neg hx]

theorem drain_line {sep : α} : ∀ {l : List α}, sep ∉ l → ∀ t, drain sep (l ++ sep :: t) = (l :: (drain sep t).1, (drain sep t).2)
  | [], _, t => by simp only [List.nil_append, drain, if_true]
  | x :: l, h, t => by
    have hx : x ≠ sep := fun he => h (he ▸ List.mem_cons_self)
    rw [List.cons_append, drain, drain_line (fun hs => h (List.mem_cons_of_mem x hs)) t]
    simp only [if_neg hx]

/-- **Lines come out the same however the stream was cut.** -/
theorem drain_append {sep : α} : ∀ s t : List α,
    drain sep (s ++ t) = ((drain sep s).1 ++ (drain sep ((drain sep s).2 ++ t)).1, (drain sep ((drain sep s).2 ++ t)).2)
  | [], t => rfl
  | x :: s, t => by
    rw [List.cons_append, drain, drain_append s t]
    conv => rhs; rw [drain]
    by_cases hx : x = sep
    · simp only [if_pos hx, List.cons_append]
    · simp only [if_neg hx]
      cases hs : (drain sep s).1 with
      | nil =>
        simp only [List.nil_append, List.cons_append]
        rw [drain]
        simp only [if_neg hx]
      | cons l lines => rfl

/-- No line has the end within. -/
theorem not_mem_line {sep : α} : ∀ {s l : List α}, l ∈ (drain sep s).1 → sep ∉ l
  | [], l, h => absurd h List.not_mem_nil
  | x :: s, l, h => by
    have ih : ∀ {l}, l ∈ (drain sep s).1 → sep ∉ l := not_mem_line
    rw [drain] at h
    cases hs : (drain sep s).1 with
    | nil =>
      rw [hs] at ih
      by_cases hx : x = sep
      · simp only [if_pos hx, hs, List.mem_singleton] at h
        rw [h]
        exact List.not_mem_nil
      · simp only [if_neg hx, hs] at h
        exact absurd h List.not_mem_nil
    | cons first lines =>
      rw [hs] at ih
      by_cases hx : x = sep
      · simp only [if_pos hx, hs] at h
        rcases List.mem_cons.1 h with rfl | h
        · exact List.not_mem_nil
        · exact ih h
      · simp only [if_neg hx, hs] at h
        rcases List.mem_cons.1 h with rfl | h
        · exact List.not_mem_cons_of_ne_of_not_mem (Ne.symm hx) (ih List.mem_cons_self)
        · exact ih (List.mem_cons_of_mem first h)

/-- What is left after the last line end has none. -/
theorem not_mem_drain (sep : α) : ∀ s : List α, sep ∉ (drain sep s).2
  | [] => List.not_mem_nil
  | x :: s => by
    have ih := not_mem_drain sep s
    rw [drain]
    by_cases hx : x = sep
    · simp only [if_pos hx]
      exact ih
    · simp only [if_neg hx]
      cases hs : (drain sep s).1 with
      | nil =>
        intro hmem
        rcases List.mem_cons.1 hmem with rfl | hmem
        · exact hx rfl
        · exact ih hmem
      | cons l lines => exact ih

/-- As many lines as line ends. -/
theorem length_drain (sep : α) : ∀ s : List α, (drain sep s).1.length = s.count sep
  | [] => rfl
  | x :: s => by
    have ih := length_drain sep s
    rw [drain, List.count_cons]
    by_cases hx : x = sep
    · simp only [List.length_cons, ih, hx, beq_self_eq_true, if_true]
    · have hne : (x == sep) = false := beq_eq_false_iff_ne.2 hx
      simp only [if_neg hx, hne, Bool.false_eq_true, if_false, Nat.add_zero]
      rw [← ih]
      cases (drain sep s).1 <;> rfl

/-- The lines with their ends and what is left make up the stream. -/
theorem flatMap_drain (sep : α) : ∀ s : List α, (drain sep s).1.flatMap (· ++ [sep]) ++ (drain sep s).2 = s
  | [] => rfl
  | x :: s => by
    have ih := flatMap_drain sep s
    rw [drain]
    by_cases hx : x = sep
    · simp only [if_pos hx]
      rw [hx]
      exact congrArg (sep :: ·) ih
    · simp only [if_neg hx]
      cases hs : (drain sep s).1 with
      | nil =>
        rw [hs] at ih
        exact congrArg (x :: ·) ih
      | cons l lines =>
        rw [hs] at ih
        exact congrArg (x :: ·) ih

/-- **Nothing is left exactly when the stream ends with a line end**, or is empty. -/
theorem drain_rest_eq_nil {sep : α} {s : List α} : (drain sep s).2 = [] ↔ s = [] ∨ s.getLast? = some sep := by
  have hall := flatMap_drain sep s
  have hrest := not_mem_drain sep s
  constructor
  · intro hnil
    rw [hnil, List.append_nil] at hall
    rcases List.eq_nil_or_concat (drain sep s).1 with hlines | ⟨lines, last, hlines⟩
    · exact Or.inl (by rw [← hall, hlines]; rfl)
    · exact Or.inr (by rw [← hall, hlines]; simp)
  · rintro (rfl | hlast)
    · rfl
    · by_contra hne
      obtain ⟨x, hx⟩ := Option.ne_none_iff_exists'.1 (mt List.getLast?_eq_none_iff.1 hne)
      rw [← hall, List.getLast?_append, hx, Option.some_or] at hlast
      rw [Option.some.inj hlast] at hx
      exact hrest (List.mem_of_getLast? hx)

end Search
