import Mathlib.Data.List.AList
/-!
# Dict — finite maps with one value type, and the values they hold

`AList` with a constant value family.  `values` lists the values held; erasing a key takes exactly its value out
(`values_perm_of_lookup`) and inserting a fresh key puts exactly its value in (`values_insert`).
-/

/-- A finite map from `κ` to `α`. -/
abbrev Dict (κ : Type*) (α : Type*) := AList (fun _ : κ => α)

namespace Dict

variable {κ α : Type*}

/-- The values held, in the order of the entries. -/
def values (m : Dict κ α) : List α := m.entries.map Sigma.snd

@[simp] theorem values_empty : values (∅ : Dict κ α) = [] := rfl

theorem values_eq_nil {m : Dict κ α} : values m = [] ↔ m = ∅ := by
  constructor
  · intro h
    exact AList.ext (List.map_eq_nil_iff.1 h)
  · rintro rfl
    rfl

/-- The entries matching `p`. -/
def filter (p : κ → α → Bool) (m : Dict κ α) : Dict κ α :=
  ⟨m.entries.filter (fun e => p e.1 e.2), m.nodupKeys.sublist List.filter_sublist⟩

theorem mem_of_mem_filter {p : κ → α → Bool} {m : Dict κ α} {k : κ} (h : k ∈ filter p m) : k ∈ m := by
  obtain ⟨e, he, rfl⟩ := List.mem_map.1 h
  exact List.mem_map_of_mem (List.mem_of_mem_filter he)

/-- Every value through `f`. -/
def mapValues (f : κ → α → α) (m : Dict κ α) : Dict κ α :=
  ⟨m.entries.map (fun e => ⟨e.1, f e.1 e.2⟩), m.nodupKeys.map₂ f⟩

variable [DecidableEq κ]

theorem values_insert {k : κ} {v : α} {m : Dict κ α} (h : k ∉ m) : values (m.insert k v) = v :: values m := by
  unfold values
  rw [AList.entries_insert_of_notMem h]
  rfl

theorem entries_perm_of_lookup {k : κ} {v : α} {m : Dict κ α} (h : m.lookup k = some v) :
    m.entries.Perm (⟨k, v⟩ :: (m.erase k).entries) := by
  have hk : k ∈ m.entries.keys := List.dlookup_isSome.1 (by
    show (m.lookup k).isSome = true
    rw [h]; rfl)
  obtain ⟨v', l₁, l₂, -, he, hke⟩ := List.exists_of_kerase hk
  have hv : v' = v := by
    have := List.mem_dlookup m.nodupKeys (a := k) (b := v') (by rw [he]; simp)
    exact Option.some.inj ((Option.mem_def.1 this).symm.trans h)
  subst hv
  show m.entries.Perm (⟨k, v'⟩ :: List.kerase k m.entries)
  rw [hke, he]
  exact List.perm_middle

/-- **Erasing a key takes exactly its value out.** -/
theorem values_perm_of_lookup {k : κ} {v : α} {m : Dict κ α} (h : m.lookup k = some v) :
    (values m).Perm (v :: values (m.erase k)) :=
  List.Perm.map (fun e : (_ : κ) × α => e.2) (entries_perm_of_lookup h)

theorem erase_of_lookup_none {k : κ} {m : Dict κ α} (h : m.lookup k = none) : m.erase k = m :=
  AList.ext (List.kerase_of_notMem_keys (List.dlookup_eq_none.1 h))

theorem lookup_insert_ite (m : Dict κ α) (k key : κ) (v : α) :
    (m.insert k v).lookup key = if key = k then some v else m.lookup key := by
  by_cases h : key = k
  · rw [h, AList.lookup_insert, if_pos rfl]
  · rw [AList.lookup_insert_ne h, if_neg h]

/-- **What is found after an insertion** is the value inserted or was there before. -/
theorem lookup_insert_eq_some {m : Dict κ α} {k key : κ} {v w : α} :
    (m.insert k v).lookup key = some w ↔ key = k ∧ v = w ∨ key ≠ k ∧ m.lookup key = some w := by
  rw [lookup_insert_ite]
  by_cases h : key = k
  · rw [if_pos h]
    simp [h]
  · rw [if_neg h]
    simp [h]

/-- **What is found after entries of different keys** is in one of them or was there before. -/
theorem lookup_insertAll : ∀ {entries : List (κ × α)} (m : Dict κ α), (entries.map Prod.fst).Nodup → ∀ {key : κ} {w : α},
    ((entries.foldl (fun m e => m.insert e.1 e.2) m).lookup key = some w ↔
      (key, w) ∈ entries ∨ key ∉ entries.map Prod.fst ∧ m.lookup key = some w)
  | [], m, _, key, w => by simp
  | (k, v) :: entries, m, hnodup, key, w => by
    obtain ⟨hfresh, hnodup⟩ := List.nodup_cons.1 hnodup
    rw [List.foldl_cons, lookup_insertAll (m.insert k v) hnodup, lookup_insert_eq_some, List.map_cons, List.mem_cons, List.mem_cons,
      Prod.mk.injEq, not_or]
    constructor
    · rintro (hin | ⟨hkey, ⟨rfl, rfl⟩ | ⟨hne, hlookup⟩⟩)
      · exact Or.inl (Or.inr hin)
      · exact Or.inl (Or.inl ⟨rfl, rfl⟩)
      · exact Or.inr ⟨⟨hne, hkey⟩, hlookup⟩
    · rintro ((⟨rfl, rfl⟩ | hin) | ⟨⟨hne, hkey⟩, hlookup⟩)
      · exact Or.inr ⟨hfresh, Or.inl ⟨rfl, rfl⟩⟩
      · exact Or.inl hin
      · exact Or.inr ⟨hkey, Or.inr ⟨hne, hlookup⟩⟩

/-- And after an erasure. -/
theorem lookup_erase_eq_some {m : Dict κ α} {k key : κ} {w : α} :
    (m.erase k).lookup key = some w ↔ key ≠ k ∧ m.lookup key = some w := by
  by_cases h : key = k
  · rw [h, AList.lookup_erase]
    simp
  · rw [AList.lookup_erase_ne h]
    exact (and_iff_right h).symm

/-- **A filtered map finds what it found and keeps.** -/
theorem lookup_filter (p : κ → α → Bool) (m : Dict κ α) (k : κ) : (filter p m).lookup k = (m.lookup k).filter (p k) := by
  apply Option.ext
  intro v
  rw [Option.filter_eq_some_iff, ← Option.mem_def, ← Option.mem_def, AList.mem_lookup_iff, AList.mem_lookup_iff]
  exact List.mem_filter

theorem lookup_mapValues (f : κ → α → α) (m : Dict κ α) (k : κ) : (mapValues f m).lookup k = (m.lookup k).map (f k) :=
  List.dlookup_map₂ (l := m.entries) (f := f) k

/-- An insertion puts one value in; it may push one out. -/
theorem values_insert_sublist (m : Dict κ α) (k : κ) (v : α) : (values (m.insert k v)).Sublist (v :: values m) := by
  unfold values
  rw [AList.entries_insert, List.map_cons]
  exact ((List.kerase_sublist k m.entries).map Sigma.snd).cons_cons v

end Dict
