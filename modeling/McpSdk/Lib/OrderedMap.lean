import McpSdk.Lib.Run
import Mathlib.Data.List.Induction
import Mathlib.Data.List.Nodup
/-!
# OrderedMap — insertion-ordered finite maps

Items in the order they were added, no two under one key.  Adding fails on a key that is there and removing on one that is
not, so a history of what succeeded says what is there: the items added and not removed since, in the order they were
added (`items_run`), each the last one added under its key (`lastAdded_run`).
-/

/-- An insertion-ordered finite map of items that carry their key. -/
structure OrderedMap {κ ι : Type*} (key : ι → κ) where
  items : List ι
  nodup : (items.map key).Nodup

namespace OrderedMap

variable {κ ι : Type*} {key : ι → κ}

instance : EmptyCollection (OrderedMap key) := ⟨⟨[], List.nodup_nil⟩⟩

@[simp] theorem items_empty : (∅ : OrderedMap key).items = [] := rfl

theorem eq_of_items {m n : OrderedMap key} (h : m.items = n.items) : m = n := by
  cases m
  cases n
  congr

def keys (m : OrderedMap key) : List κ := m.items.map key

/-- Two items under one key are one. -/
theorem eq_of_key {m : OrderedMap key} {x y : ι} (hx : x ∈ m.items) (hy : y ∈ m.items) (h : key x = key y) : x = y :=
  List.inj_on_of_nodup_map m.nodup hx hy h

variable [DecidableEq κ]

/-! ## Operations -/

/-- The item goes to the end, unless its key is there. -/
def add (m : OrderedMap key) (x : ι) : Option (OrderedMap key) :=
  if h : key x ∈ m.keys then none
  else some ⟨m.items ++ [x], by
    rw [List.map_append, List.nodup_append]
    refine ⟨m.nodup, List.nodup_singleton _, fun a ha b hb hab => ?_⟩
    rw [hab, List.mem_singleton.1 hb] at ha
    exact h ha⟩

/-- The item under the key goes, if there is one. -/
def remove (m : OrderedMap key) (k : κ) : Option (OrderedMap key) :=
  if k ∈ m.keys then some ⟨m.items.filter (fun x => !decide (key x = k)), m.nodup.sublist (List.filter_sublist.map key)⟩
  else none

def find (m : OrderedMap key) (k : κ) : Option ι := m.items.find? (fun x => decide (key x = k))

theorem add_eq_some {m n : OrderedMap key} {x : ι} : m.add x = some n ↔ key x ∉ m.keys ∧ n.items = m.items ++ [x] := by
  unfold add
  by_cases h : key x ∈ m.keys
  · rw [dif_pos h]
    simp [h]
  · rw [dif_neg h, Option.some.injEq]
    constructor
    · rintro rfl
      exact ⟨h, rfl⟩
    · rintro ⟨-, hitems⟩
      exact eq_of_items hitems.symm

theorem add_eq_none {m : OrderedMap key} {x : ι} : m.add x = none ↔ key x ∈ m.keys := by
  unfold add
  split <;> simp_all

theorem remove_eq_some {m n : OrderedMap key} {k : κ} :
    m.remove k = some n ↔ k ∈ m.keys ∧ n.items = m.items.filter (fun x => !decide (key x = k)) := by
  unfold remove
  by_cases h : k ∈ m.keys
  · rw [if_pos h, Option.some.injEq]
    constructor
    · rintro rfl
      exact ⟨h, rfl⟩
    · rintro ⟨-, hitems⟩
      exact eq_of_items hitems.symm
  · rw [if_neg h]
    simp [h]

theorem remove_eq_none {m : OrderedMap key} {k : κ} : m.remove k = none ↔ k ∉ m.keys := by
  unfold remove
  split <;> simp_all

/-- **What is found under a key** is the item that has it. -/
theorem find_eq_some {m : OrderedMap key} {k : κ} {x : ι} : m.find k = some x ↔ x ∈ m.items ∧ key x = k := by
  unfold find
  constructor
  · intro h
    exact ⟨List.mem_of_find?_eq_some h, by simpa using List.find?_some h⟩
  · rintro ⟨hx, rfl⟩
    have hfound : (m.items.find? (fun y => decide (key y = key x))).isSome = true := List.find?_isSome.2 ⟨x, hx, by simp⟩
    obtain ⟨y, hy⟩ := Option.isSome_iff_exists.1 hfound
    have hkey : key y = key x := by simpa using List.find?_some hy
    rw [hy, eq_of_key (List.mem_of_find?_eq_some hy) hx hkey]

/-- A list without repeated keys, less what comes first under a key, is the list less what has the key. -/
theorem eraseP_eq_filter {k : κ} : ∀ {l : List ι}, (l.map key).Nodup →
    l.eraseP (fun x => decide (key x = k)) = l.filter (fun x => !decide (key x = k))
  | [], _ => rfl
  | x :: l, h => by
    obtain ⟨hx, hl⟩ := List.nodup_cons.1 h
    by_cases hk : key x = k
    · have hrest : l.filter (fun y => !decide (key y = k)) = l := by
        refine List.filter_eq_self.2 (fun y hy => ?_)
        have hne : key y ≠ k := fun heq => hx (by rw [hk, ← heq]; exact List.mem_map_of_mem hy)
        simpa using hne
      rw [List.eraseP_cons_of_pos (by simpa using hk), List.filter_cons_of_neg (by simpa using hk), hrest]
    · rw [List.eraseP_cons_of_neg (by simpa using hk), List.filter_cons_of_pos (by simpa using hk), eraseP_eq_filter hl]

/-! ## Histories -/

/-- An operation that succeeded. -/
inductive Event (κ ι : Type*)
  | added (x : ι)
  | removed (k : κ)

def apply (m : OrderedMap key) : Event κ ι → Option (OrderedMap key)
  | .added x => m.add x
  | .removed k => m.remove k

/-- The event removes what is under the key. -/
def Event.removes (k : κ) : Event κ ι → Bool
  | .added _ => false
  | .removed k' => decide (k' = k)

/-- **The items added and not removed since**, in the order they were added. -/
def live (key : ι → κ) : List (Event κ ι) → List ι
  | [] => []
  | .added x :: log => if log.any (Event.removes (key x)) then live key log else x :: live key log
  | .removed _ :: log => live key log

/-- The item last added under a key. -/
def lastAdded (key : ι → κ) (k : κ) (log : List (Event κ ι)) : Option ι :=
  log.foldl (fun found e => match e with
    | .added x => if key x = k then some x else found
    | .removed _ => found) none

/-- **A history played** leaves what it did not remove, and then what it added and did not remove since. -/
theorem items_run : ∀ {log : List (Event κ ι)} {m n : OrderedMap key}, Lts.run apply m log = some n →
    n.items = m.items.filter (fun x => !log.any (Event.removes (key x))) ++ live key log
  | [], m, n, h => by
    obtain rfl : m = n := by simpa using h
    simp [live]
  | e :: log, m, n, h => by
    obtain ⟨o, ho, h⟩ := Lts.run_cons_eq_some.1 h
    rw [items_run h]
    cases e with
    | added x =>
      rw [(add_eq_some.1 ho).2, List.filter_append, live, List.append_assoc]
      by_cases hx : log.any (Event.removes (key x)) = true
      · simp [hx, Event.removes]
      · simp [Bool.not_eq_true _ ▸ hx, Event.removes]
    | removed k =>
      rw [(remove_eq_some.1 ho).2, List.filter_filter, live]
      congr 1
      refine List.filter_congr (fun x _ => ?_)
      rw [List.any_cons, Bool.not_or, Event.removes, Bool.and_comm]
      simp only [eq_comm]

theorem lastAdded_snoc (k : κ) (log : List (Event κ ι)) (e : Event κ ι) :
    lastAdded key k (log ++ [e]) = match e with
      | .added x => if key x = k then some x else lastAdded key k log
      | .removed _ => lastAdded key k log := by
  unfold lastAdded
  rw [List.foldl_append]
  rfl

/-- **Every item is the last one added under its key.** -/
theorem lastAdded_run {log : List (Event κ ι)} {m : OrderedMap key} (h : Lts.run apply ∅ log = some m) :
    ∀ x ∈ m.items, lastAdded key (key x) log = some x := by
  induction log using List.reverseRecOn generalizing m with
  | nil =>
    obtain rfl : ∅ = m := by simpa using h
    exact fun x hx => by cases hx
  | append_singleton log e ih =>
    obtain ⟨n, hn, he⟩ := Lts.run_snoc.1 h
    intro x hx
    rw [lastAdded_snoc]
    cases e with
    | added y =>
      obtain ⟨hfresh, hitems⟩ := add_eq_some.1 he
      rw [hitems] at hx
      rcases List.mem_append.1 hx with hx | hx
      · have hne : key y ≠ key x := fun heq => hfresh (by rw [heq]; exact List.mem_map_of_mem hx)
        simp only [if_neg hne]
        exact ih hn x hx
      · simp only [List.mem_singleton.1 hx, if_true]
    | removed k =>
      rw [(remove_eq_some.1 he).2] at hx
      exact ih hn x (List.mem_filter.1 hx).1

end OrderedMap
