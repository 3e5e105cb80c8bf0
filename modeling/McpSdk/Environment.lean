import McpSdk.CommandLine
import McpSdk.HttpHead
import McpSdk.Lib.Search
import Mathlib.Data.List.Find
/-!
# Environment — the variables of a spawned process

`spawn` gives a child its own environment with `spec.env` laid over it: on posix an array of strings, on win32 one block of
strings that end in NUL, with names that differ in case standing for the same variable.  The child finds what `spec.env`
sets and, for every other name, what its parent found (`getenv_child`, `variable_child`); the block holds the strings that
were put into it (`entries_buildEnvBlock`).
-/
namespace Mcp
namespace Environment

def equals : UInt8 := ch '='

/-- `spec.env`, in key order. -/
abbrev EnvMap := List (Bytes × Bytes)

/-- `key + "=" + value`. -/
def assignment (o : Bytes × Bytes) : Bytes := o.1 ++ equals :: o.2

/-! ## An environment laid over another -/

/-- **What is laid over hides what it names**, and is found instead. -/
theorem find?_overlay {α : Type} (p hidden : α → Bool) (inherited added : List α)
    (h : ∀ e ∈ inherited, p e = true → hidden e = added.any p) :
    (inherited.filter (fun e => !hidden e) ++ added).find? p = (added.find? p).or (inherited.find? p) := by
  rw [List.find?_append, List.find?_filter]
  cases hadded : added.find? p with
  | some x =>
    have hany : added.any p = true := List.any_eq_true.2 ⟨x, List.mem_of_find?_eq_some hadded, List.find?_some hadded⟩
    have hnone : inherited.find? (fun e => decide ((!hidden e) = true ∧ p e = true)) = none := by
      refine List.find?_eq_none.2 fun e he hboth => ?_
      obtain ⟨hshown, hp⟩ := of_decide_eq_true hboth
      rw [h e he hp, hany] at hshown
      cases hshown
    rw [hnone]
    rfl
  | none =>
    have hany : added.any p = false := List.any_eq_false.2 (List.find?_eq_none.1 hadded)
    have hsame : inherited.find? (fun e => decide ((!hidden e) = true ∧ p e = true)) = inherited.find? p := by
      refine List.find?_congr fun e he => ?_
      cases hp : p e with
      | false => simp
      | true =>
        rw [h e he hp, hany]
        rfl
    rw [hsame, Option.or_none]
    rfl

/-! ## posix -/

/-- `entry.substr(0, entry.find('='))`. -/
def keyOf (entry : Bytes) : Bytes :=
  match Search.indexOf [equals] entry with
  | some pos => entry.take pos
  | none => entry

/-- `env_storage`. -/
def envStorage (environ : List Bytes) (env : EnvMap) : List Bytes :=
  environ.filter (fun entry => !env.any fun o => o.1 == keyOf entry) ++ env.map assignment

/-- `environ` in the child, which sees C strings. -/
def childEnviron (environ : List Bytes) (env : EnvMap) : List Bytes := (envStorage environ env).map CommandLine.cString

/-- An entry for a name. -/
def names (name entry : Bytes) : Bool := (name ++ [equals]).isPrefixOf entry

/-- `getenv`: the first entry for the name. -/
def getenv (name : Bytes) (environ : List Bytes) : Option Bytes :=
  (environ.find? (names name)).map (·.drop (name.length + 1))

theorem names_iff {name entry : Bytes} : names name entry = true ↔ ∃ value, entry = name ++ equals :: value := by
  unfold names
  rw [List.isPrefixOf_iff_prefix]
  constructor
  · rintro ⟨value, rfl⟩
    exact ⟨value, by simp⟩
  · rintro ⟨value, rfl⟩
    exact ⟨value, by simp⟩

/-- The key of an entry for a name without `=` is the name. -/
theorem keyOf_of_names {name entry : Bytes} (hname : equals ∉ name) (h : names name entry = true) : keyOf entry = name := by
  obtain ⟨value, rfl⟩ := names_iff.1 h
  unfold keyOf
  rw [Search.indexOf_singleton hname]
  exact List.take_left

theorem names_assignment {name : Bytes} {o : Bytes × Bytes} (hname : equals ∉ name) (ho : equals ∉ o.1) :
    names name (assignment o) = (o.1 == name) := by
  by_cases heq : o.1 = name
  · subst heq
    rw [beq_self_eq_true]
    exact names_iff.2 ⟨o.2, rfl⟩
  · rw [beq_eq_false_iff_ne.2 heq, ← Bool.not_eq_true]
    intro hnames
    have hown : keyOf (assignment o) = o.1 := keyOf_of_names ho (names_iff.2 ⟨o.2, rfl⟩)
    exact heq (hown.symm.trans (keyOf_of_names hname hnames))

/-- A search among assignments is one among what they assign. -/
theorem find?_assignments {p : Bytes → Bool} {q : Bytes × Bytes → Bool} {env : EnvMap}
    (h : ∀ o ∈ env, p (assignment o) = q o) : (env.map assignment).find? p = (env.find? q).map assignment := by
  rw [List.find?_map]
  exact congrArg _ (List.find?_congr h)

theorem any_assignments {p : Bytes → Bool} {q : Bytes × Bytes → Bool} : ∀ {env : EnvMap},
    (∀ o ∈ env, p (assignment o) = q o) → (env.map assignment).any p = env.any q
  | [], _ => rfl
  | o :: env, h => by
    rw [List.map_cons, List.any_cons, List.any_cons, h o List.mem_cons_self,
      any_assignments fun x hx => h x (List.mem_cons_of_mem o hx)]

/-- What `spec.env` sets a name to. -/
def setting (name : Bytes) (env : EnvMap) : Option Bytes := (env.find? fun o => o.1 == name).map Prod.snd

/-- The value in an assignment. -/
theorem drop_assignment (o : Bytes × Bytes) : (assignment o).drop (o.1.length + 1) = o.2 := by
  unfold assignment
  rw [← List.drop_drop, List.drop_left]
  rfl

theorem getenv_envStorage {name : Bytes} {environ : List Bytes} {env : EnvMap} (hname : equals ∉ name)
    (hnames : ∀ o ∈ env, equals ∉ o.1) : getenv name (envStorage environ env) = (setting name env).or (getenv name environ) := by
  have hp : ∀ o ∈ env, names name (assignment o) = (o.1 == name) := fun o ho => names_assignment hname (hnames o ho)
  have hoverlay := find?_overlay (names name) (fun entry => env.any fun o => o.1 == keyOf entry) environ (env.map assignment)
    fun e _ he => by rw [any_assignments hp, keyOf_of_names hname he]
  unfold getenv envStorage setting
  rw [hoverlay, find?_assignments hp]
  cases hfound : env.find? fun o => o.1 == name with
  | none => rfl
  | some o =>
    have heq : o.1 = name := by simpa using List.find?_some hfound
    simp only [Option.map_some, Option.some_or]
    rw [← heq, drop_assignment]

theorem mem_assignment {o : Bytes × Bytes} {c : UInt8} : c ∈ assignment o ↔ c ∈ o.1 ∨ c = equals ∨ c ∈ o.2 := by
  unfold assignment
  rw [List.mem_append, List.mem_cons]

/-- **What the child finds**: a variable of `spec.env` as it is set there, any other one as its parent finds it.  Names hold no
`=`, and strings no NUL. -/
theorem getenv_child {name : Bytes} {environ : List Bytes} {env : EnvMap} (hname : equals ∉ name)
    (hnames : ∀ o ∈ env, equals ∉ o.1) (henviron : ∀ e ∈ environ, ∀ c ∈ e, c ≠ 0)
    (henv : ∀ o ∈ env, (∀ c ∈ o.1, c ≠ 0) ∧ ∀ c ∈ o.2, c ≠ 0) :
    getenv name (childEnviron environ env) = (setting name env).or (getenv name environ) := by
  have hwhole : childEnviron environ env = envStorage environ env := by
    refine List.map_congr_left (fun e he => CommandLine.cString_eq fun c hc => ?_) |>.trans (List.map_id _)
    rcases List.mem_append.1 he with he | he
    · exact henviron e (List.mem_filter.1 he).1 c hc
    · obtain ⟨o, ho, rfl⟩ := List.mem_map.1 he
      rcases mem_assignment.1 hc with hc | rfl | hc
      · exact (henv o ho).1 c hc
      · decide
      · exact (henv o ho).2 c hc
  rw [hwhole, getenv_envStorage hname hnames]

theorem getenv_child_home : getenv (bytes "HOME") (childEnviron [bytes "HOME=/", bytes "LANG=C"] [(bytes "HOME", bytes "/srv")]) =
    some (bytes "/srv") ∧ (setting (bytes "HOME") [(bytes "HOME", bytes "/srv")]).or
      (getenv (bytes "HOME") [bytes "HOME=/", bytes "LANG=C"]) = some (bytes "/srv") := by
  have h := @getenv_child (bytes "HOME") [bytes "HOME=/", bytes "LANG=C"] [(bytes "HOME", bytes "/srv")] (by decide +kernel)
    (by decide +kernel) (by decide +kernel) (by decide +kernel)
  have hset : (setting (bytes "HOME") [(bytes "HOME", bytes "/srv")]).or
      (getenv (bytes "HOME") [bytes "HOME=/", bytes "LANG=C"]) = some (bytes "/srv") := by decide +kernel
  exact ⟨h.trans hset, hset⟩

/-! ## win32 -/

/-- The strings of a block, up to the empty one. -/
def entries (block : Bytes) : List Bytes := (Search.drain 0 block).1.takeWhile fun e => !e.isEmpty

/-- The name in an entry; an `=` in front belongs to it, as in the drives' `=C:=...`. -/
def nameOf (text : Bytes) : Bytes :=
  match Search.indexOf [equals] (text.drop 1) with
  | some pos => text.take (pos + 1)
  | none => text

/-- `_stricmp(a, b) == 0`, in the C locale. -/
def sameName (a b : Bytes) : Bool := toLower (CommandLine.cString a) == toLower (CommandLine.cString b)

/-- `build_env_block`, on the block of the parent. -/
def buildEnvBlock (strings : Bytes) (overrides : EnvMap) : Bytes :=
  ((entries strings).filter fun text => !overrides.any fun o => sameName o.1 (nameOf text)).flatMap (· ++ [0]) ++
    (overrides.map assignment).flatMap (· ++ [0]) ++ [0]

/-- What a process finds under a name. -/
def getVariable (name : Bytes) (block : Bytes) : Option Bytes :=
  ((entries block).find? fun text => sameName (nameOf text) name).map fun text => text.drop ((nameOf text).length + 1)

theorem drain_block : ∀ {strings : List Bytes}, (∀ e ∈ strings, (0 : UInt8) ∉ e) →
    (Search.drain 0 (strings.flatMap (· ++ [0]) ++ [0])).1 = strings ++ [[]]
  | [], _ => rfl
  | e :: strings, h => by
    have ih := drain_block fun x hx => h x (List.mem_cons_of_mem e hx)
    rw [List.flatMap_cons, List.append_assoc, List.append_assoc, List.singleton_append,
      Search.drain_line (h e List.mem_cons_self), List.cons_append, ih]

/-- **A block gives back the strings that are written into it.** -/
theorem entries_block {strings : List Bytes} (h : ∀ e ∈ strings, e ≠ [] ∧ (0 : UInt8) ∉ e) :
    entries (strings.flatMap (· ++ [0]) ++ [0]) = strings := by
  unfold entries
  rw [drain_block fun e he => (h e he).2, List.takeWhile_append_of_pos]
  · simp
  · intro e he
    simpa using (h e he).1

theorem mem_entries {block e : Bytes} (h : e ∈ entries block) : e ≠ [] ∧ (0 : UInt8) ∉ e := by
  refine ⟨?_, Search.not_mem_line (List.takeWhile_subset _ h)⟩
  have hne := List.mem_takeWhile_imp h
  simpa using hne

/-- **The block of the child holds** the strings of the parent's that no override names, and then the overrides. -/
theorem entries_buildEnvBlock {strings : Bytes} {overrides : EnvMap} (h : ∀ o ∈ overrides, (0 : UInt8) ∉ o.1 ∧ (0 : UInt8) ∉ o.2) :
    entries (buildEnvBlock strings overrides) =
      ((entries strings).filter fun text => !overrides.any fun o => sameName o.1 (nameOf text)) ++ overrides.map assignment := by
  unfold buildEnvBlock
  rw [← List.flatMap_append]
  refine entries_block fun e he => ?_
  rcases List.mem_append.1 he with he | he
  · exact mem_entries (List.mem_filter.1 he).1
  · obtain ⟨o, ho, rfl⟩ := List.mem_map.1 he
    refine ⟨?_, fun hc => ?_⟩
    · unfold assignment
      simp
    · rcases mem_assignment.1 hc with hc | hc | hc
      · exact (h o ho).1 hc
      · exact absurd hc (by decide)
      · exact (h o ho).2 hc

/-- What the overrides set a name to: among names that differ in case the first one. -/
def override (name : Bytes) (overrides : EnvMap) : Option Bytes := (overrides.find? fun o => sameName o.1 name).map Prod.snd

theorem nameOf_assignment {o : Bytes × Bytes} (hne : o.1 ≠ []) (hname : equals ∉ o.1.drop 1) : nameOf (assignment o) = o.1 := by
  obtain ⟨name, value⟩ := o
  cases name with
  | nil => exact absurd rfl hne
  | cons c name =>
    have hname : equals ∉ name := hname
    have hrest : (assignment (c :: name, value)).drop 1 = name ++ equals :: value := rfl
    unfold nameOf
    rw [hrest, Search.indexOf_singleton hname]
    exact @List.take_left _ (c :: name) _

theorem sameName_congr (a : Bytes) {b c : Bytes} (h : sameName b c = true) : sameName a b = sameName a c := by
  unfold sameName at *
  rw [beq_iff_eq.1 h]

/-- **What the child finds on win32**: a variable that an override names, in any case, as it is set there, and any other one
as its parent finds it. -/
theorem variable_child {name strings : Bytes} {overrides : EnvMap}
    (hnul : ∀ o ∈ overrides, (0 : UInt8) ∉ o.1 ∧ (0 : UInt8) ∉ o.2)
    (hnames : ∀ o ∈ overrides, o.1 ≠ [] ∧ equals ∉ o.1.drop 1) :
    getVariable name (buildEnvBlock strings overrides) = (override name overrides).or (getVariable name strings) := by
  have hp : ∀ o ∈ overrides, sameName (nameOf (assignment o)) name = sameName o.1 name := by
    intro o ho
    rw [nameOf_assignment (hnames o ho).1 (hnames o ho).2]
  have hhidden : ∀ e ∈ entries strings, sameName (nameOf e) name = true →
      (overrides.any fun o => sameName o.1 (nameOf e)) = (overrides.map assignment).any fun text => sameName (nameOf text) name := by
    intro e _ he
    rw [any_assignments hp]
    exact congrArg _ (funext fun o => sameName_congr o.1 he)
  have hoverlay := find?_overlay _ (fun text => overrides.any fun o => sameName o.1 (nameOf text)) _ _ hhidden
  unfold getVariable override
  rw [entries_buildEnvBlock hnul, hoverlay, find?_assignments hp]
  cases hfound : overrides.find? fun o => sameName o.1 name with
  | none => rfl
  | some o =>
    have hmem := List.mem_of_find?_eq_some hfound
    simp only [Option.map_some, Option.some_or]
    rw [nameOf_assignment (hnames o hmem).1 (hnames o hmem).2, drop_assignment]

theorem variable_child_path :
    getVariable (bytes "PATH") (buildEnvBlock (bytes "=C:=C:\\" ++ 0 :: bytes "Path=C:\\bin" ++ [0, 0]) [(bytes "path", bytes "D:")]) =
      some (bytes "D:") := by
  have h := @variable_child (bytes "PATH") (bytes "=C:=C:\\" ++ 0 :: bytes "Path=C:\\bin" ++ [0, 0]) [(bytes "path", bytes "D:")]
    (by decide +kernel) (by decide +kernel)
  exact h.trans (by decide +kernel)

end Environment
end Mcp
