import McpSdk.Lib.OrderedMap
import McpSdk.ResourceProvider
import McpSdk.RootsProvider
/-!
# Registries — the four registries refine an insertion-ordered map

`ToolRegistry`, `PromptProvider`, `ResourceProvider` and `RootsProvider` share one pattern: an admission check, a scan for
the key, the insertion or the removal under the mutex, and the changed callback after it is released.  `Registry` is the
pattern and `Lawful` what each instance is checked for; everything else is proved once.
-/
namespace Mcp

open OrderedMap (Event live lastAdded)

/-- What the registries have in common: `χ` is what is passed to the adding operation, `ι` what is kept of it. -/
structure Registry (R ι χ : Type) where
  items : R → List ι
  key : ι → Bytes
  /-- The admission check, and what is kept of an input that passes it. -/
  accepts : χ → Option ι
  add : R → χ → Result R
  remove : R → Bytes → Option R

namespace Registry

inductive Op (χ : Type)
  | add (x : χ)
  | remove (k : Bytes)

variable {R ι χ ω : Type}

/-- The section of an operation under the mutex: the registry after it, or `none` when the operation fails. -/
def locked (reg : Registry R ι χ) (r : R) : Op χ → Option R
  | .add x => (reg.add r x).toOption
  | .remove k => reg.remove r k

/-- An operation: its section, and when that succeeds the changed callback it copied there, run on what is visible then. -/
def perform (reg : Registry R ι χ) (changed : Option (R → ω → ω)) (s : R × ω) (op : Op χ) : Bool × R × ω :=
  match reg.locked s.1 op with
  | none => (false, s)
  | some r => (true, r, match changed with | some f => f r s.2 | none => s.2)

/-- The registry after a sequence of operations. -/
def after (reg : Registry R ι χ) : R → List (Op χ) → R
  | r, [] => r
  | r, op :: ops => after reg ((reg.locked r op).getD r) ops

/-- What an operation adds or removes, should it succeed. -/
def event (reg : Registry R ι χ) : Op χ → Option (Event Bytes ι)
  | .add x => (reg.accepts x).map .added
  | .remove k => some (.removed k)

/-- What the operations that succeeded added and removed. -/
def history (reg : Registry R ι χ) : R → List (Op χ) → List (Event Bytes ι)
  | _, [] => []
  | r, op :: ops =>
    match reg.locked r op with
    | none => history reg r ops
    | some r' => (reg.event op).toList ++ history reg r' ops

def keys (reg : Registry R ι χ) (r : R) : List Bytes := (reg.items r).map reg.key

/-- **What is checked of an instance**: adding puts an admitted item with a new key at the end, removing takes out the first
item with the key, and neither does anything else to the list. -/
structure Lawful (reg : Registry R ι χ) : Prop where
  refuses : ∀ r x, reg.accepts x = none → ∃ e, reg.add r x = .error e
  duplicate : ∀ r x i, reg.accepts x = some i → reg.key i ∈ reg.keys r → ∃ e, reg.add r x = .error e
  adds : ∀ r x i, reg.accepts x = some i → reg.key i ∉ reg.keys r → ∃ r', reg.add r x = .ok r' ∧ reg.items r' = reg.items r ++ [i]
  missing : ∀ r k, k ∉ reg.keys r → reg.remove r k = none
  removes : ∀ r k, k ∈ reg.keys r →
    ∃ r', reg.remove r k = some r' ∧ reg.items r' = (reg.items r).eraseP (fun i => decide (reg.key i = k))

/-- **The refinement**, of every registry reached from an empty one. -/
structure Refines (reg : Registry R ι χ) : Prop where
  /-- The successful operations are operations of the map, and its items are the list. -/
  simulates : ∀ r ops, reg.items r = [] →
    ∃ m : OrderedMap reg.key, Lts.run OrderedMap.apply ∅ (reg.history r ops) = some m ∧ reg.items (reg.after r ops) = m.items
  listed : ∀ r ops, reg.items r = [] → reg.items (reg.after r ops) = live reg.key (reg.history r ops)
  distinct : ∀ r ops, reg.items r = [] → (reg.keys (reg.after r ops)).Nodup
  admitted : ∀ r ops, reg.items r = [] → ∀ i ∈ reg.items (reg.after r ops), ∃ x, reg.accepts x = some i
  latest : ∀ r ops, reg.items r = [] → ∀ i ∈ reg.items (reg.after r ops),
    lastAdded reg.key (reg.key i) (reg.history r ops) = some i
  accepts_add : ∀ r ops, reg.items r = [] → ∀ {ω : Type} (changed : Option (R → ω → ω)) (w : ω) x,
    (reg.perform changed (reg.after r ops, w) (.add x)).1 = true ↔
      ∃ i, reg.accepts x = some i ∧ reg.key i ∉ reg.keys (reg.after r ops)
  accepts_remove : ∀ r ops, reg.items r = [] → ∀ {ω : Type} (changed : Option (R → ω → ω)) (w : ω) k,
    (reg.perform changed (reg.after r ops, w) (.remove k)).1 = true ↔ k ∈ reg.keys (reg.after r ops)
  /-- A failed operation changes nothing and calls nothing. -/
  fails : ∀ r ops op, reg.items r = [] → ∀ {ω : Type} (changed : Option (R → ω → ω)) (w : ω),
    (reg.perform changed (reg.after r ops, w) op).1 = false →
      (reg.perform changed (reg.after r ops, w) op).2 = (reg.after r ops, w) ∧ reg.history r (ops ++ [op]) = reg.history r ops
  /-- A successful one calls the callback once, on the registry it leaves. -/
  succeeds : ∀ r ops op, reg.items r = [] → ∀ {ω : Type} (changed : R → ω → ω) (w : ω),
    (reg.perform (some changed) (reg.after r ops, w) op).1 = true →
      (reg.perform (some changed) (reg.after r ops, w) op).2 =
        (reg.after r (ops ++ [op]), changed (reg.after r (ops ++ [op])) w) ∧
      ∃ e, reg.event op = some e ∧ reg.history r (ops ++ [op]) = reg.history r ops ++ [e]

/-! ## The refinement, once for all instances -/

theorem locked_add {reg : Registry R ι χ} {r r' : R} {x : χ} : reg.locked r (.add x) = some r' ↔ reg.add r x = .ok r' := by
  cases h : reg.add r x <;> simp [locked, h, Except.toOption]

theorem after_append (reg : Registry R ι χ) : ∀ (ops more : List (Op χ)) (r : R),
    reg.after r (ops ++ more) = reg.after (reg.after r ops) more
  | [], _, _ => rfl
  | _ :: ops, more, _ => after_append reg ops more _

theorem history_append (reg : Registry R ι χ) : ∀ (ops more : List (Op χ)) (r : R),
    reg.history r (ops ++ more) = reg.history r ops ++ reg.history (reg.after r ops) more
  | [], _, _ => rfl
  | op :: ops, more, r => by
    rw [List.cons_append, history, history, after]
    cases hop : reg.locked r op with
    | none => exact history_append reg ops more r
    | some r' =>
      simp only [Option.getD_some]
      rw [history_append reg ops more r', List.append_assoc]

variable {reg : Registry R ι χ}

/-- **One section is one operation of the map**, or fails where the map's does. -/
theorem Lawful.locked (hreg : reg.Lawful) {r : R} {m : OrderedMap reg.key} (hm : reg.items r = m.items) (op : Op χ) :
    (reg.locked r op = none ∧ ∀ e, reg.event op = some e → m.apply e = none) ∨
      ∃ r' e n, reg.locked r op = some r' ∧ reg.event op = some e ∧ m.apply e = some n ∧ reg.items r' = n.items := by
  have hkeys : reg.keys r = m.keys := congrArg (List.map reg.key) hm
  cases op with
  | add x =>
    have hfail : (∃ e, reg.add r x = .error e) → reg.locked r (.add x) = none := by
      rintro ⟨e, he⟩
      simp only [Registry.locked, he, Except.toOption]
    cases hx : reg.accepts x with
    | none =>
      refine .inl ⟨hfail (hreg.refuses r x hx), fun e he => ?_⟩
      rw [event, hx] at he
      cases he
    | some i =>
      by_cases hi : reg.key i ∈ reg.keys r
      · refine .inl ⟨hfail (hreg.duplicate r x i hx hi), fun e he => ?_⟩
        rw [event, hx] at he
        rw [← Option.some.inj he]
        exact OrderedMap.add_eq_none.2 (hkeys ▸ hi)
      · obtain ⟨r', hr', hitems⟩ := hreg.adds r x i hx hi
        cases hn : m.add i with
        | none => exact absurd (OrderedMap.add_eq_none.1 hn) (hkeys ▸ hi)
        | some n =>
          refine .inr ⟨r', .added i, n, locked_add.2 hr', by rw [event, hx]; rfl, hn, ?_⟩
          rw [hitems, (OrderedMap.add_eq_some.1 hn).2, hm]
  | remove k =>
    by_cases hk : k ∈ reg.keys r
    · obtain ⟨r', hr', hitems⟩ := hreg.removes r k hk
      cases hn : m.remove k with
      | none => exact absurd (hkeys ▸ hk) (OrderedMap.remove_eq_none.1 hn)
      | some n =>
        refine .inr ⟨r', .removed k, n, hr', rfl, hn, ?_⟩
        rw [hitems, (OrderedMap.remove_eq_some.1 hn).2, hm, OrderedMap.eraseP_eq_filter m.nodup]
    · refine .inl ⟨hreg.missing r k hk, fun e he => ?_⟩
      rw [← Option.some.inj he]
      exact OrderedMap.remove_eq_none.2 (hkeys ▸ hk)

/-- **A sequence of operations is a run of the map.** -/
theorem Lawful.run (hreg : reg.Lawful) : ∀ (ops : List (Op χ)) {r : R} {m : OrderedMap reg.key}, reg.items r = m.items →
    ∃ n, Lts.run OrderedMap.apply m (reg.history r ops) = some n ∧ reg.items (reg.after r ops) = n.items
  | [], r, m, hm => ⟨m, rfl, hm⟩
  | op :: ops, r, m, hm => by
    rcases hreg.locked hm op with ⟨hnone, -⟩ | ⟨r', e, n, hsome, he, hn, hitems⟩
    · rw [history, after, hnone]
      exact hreg.run ops hm
    · obtain ⟨o, ho, hafter⟩ := hreg.run ops hitems
      rw [history, after, hsome]
      simp only [he]
      exact ⟨o, Lts.run_cons_eq_some.2 ⟨n, hn, ho⟩, hafter⟩

theorem perform_fst (changed : Option (R → ω → ω)) (s : R × ω) (op : Op χ) :
    (reg.perform changed s op).1 = (reg.locked s.1 op).isSome := by
  unfold perform
  cases reg.locked s.1 op <;> rfl

/-- What is listed passed the admission check when it was added. -/
theorem Lawful.admitted (hreg : reg.Lawful) : ∀ (ops : List (Op χ)) {r : R}, (∀ i ∈ reg.items r, ∃ x, reg.accepts x = some i) →
    ∀ i ∈ reg.items (reg.after r ops), ∃ x, reg.accepts x = some i
  | [], _, h => h
  | op :: ops, r, h => by
    refine hreg.admitted ops ?_
    cases hop : reg.locked r op with
    | none => exact h
    | some r' =>
      intro i hi
      rw [Option.getD_some] at hi
      cases op with
      | add x =>
        have hok := locked_add.1 hop
        cases hx : reg.accepts x with
        | none =>
          obtain ⟨e, he⟩ := hreg.refuses r x hx
          rw [he] at hok
          cases hok
        | some j =>
          by_cases hj : reg.key j ∈ reg.keys r
          · obtain ⟨e, he⟩ := hreg.duplicate r x j hx hj
            rw [he] at hok
            cases hok
          · obtain ⟨r'', hr'', hitems⟩ := hreg.adds r x j hx hj
            obtain rfl : r'' = r' := Except.ok.inj (hr''.symm.trans hok)
            rw [hitems] at hi
            rcases List.mem_append.1 hi with hi | hi
            · exact h i hi
            · exact ⟨x, by rw [hx, List.mem_singleton.1 hi]⟩
      | remove k =>
        by_cases hk : k ∈ reg.keys r
        · obtain ⟨r'', hr'', hitems⟩ := hreg.removes r k hk
          obtain rfl : r'' = r' := Option.some.inj (hr''.symm.trans hop)
          rw [hitems] at hi
          exact h i (List.mem_of_mem_eraseP hi)
        · have hnone := hreg.missing r k hk
          rw [Registry.locked, hnone] at hop
          cases hop

/-- **A lawful registry refines the map.** -/
theorem Lawful.refines (hreg : reg.Lawful) : reg.Refines := by
  -- an empty registry is the empty map, so a run from it is a run of the map
  have hsim : ∀ r ops, reg.items r = [] →
      ∃ m : OrderedMap reg.key, Lts.run OrderedMap.apply ∅ (reg.history r ops) = some m ∧ reg.items (reg.after r ops) = m.items :=
    fun r ops h => hreg.run ops (h.trans OrderedMap.items_empty.symm)
  refine {
    simulates := hsim
    listed := fun r ops h => ?_
    distinct := fun r ops h => ?_
    admitted := fun r ops h => hreg.admitted ops (by rw [h]; exact fun i hi => by cases hi)
    latest := fun r ops h i hi => ?_
    accepts_add := fun r ops h _ changed w x => ?_
    accepts_remove := fun r ops h _ changed w k => ?_
    fails := fun r ops op _ _ changed w hfail => ?_
    succeeds := fun r ops op h _ changed w hsucc => ?_ }
  · obtain ⟨m, hm, hitems⟩ := hsim r ops h
    have hall := OrderedMap.items_run hm
    rw [OrderedMap.items_empty, List.filter_nil, List.nil_append] at hall
    exact hitems.trans hall
  · obtain ⟨m, -, hitems⟩ := hsim r ops h
    rw [keys, hitems]
    exact m.nodup
  · obtain ⟨m, hm, hitems⟩ := hsim r ops h
    exact OrderedMap.lastAdded_run hm i (hitems ▸ hi)
  · obtain ⟨m, -, hitems⟩ := hsim r ops h
    have hkeys : reg.keys (reg.after r ops) = m.keys := congrArg (List.map reg.key) hitems
    rw [perform_fst, hkeys]
    rcases hreg.locked hitems (.add x) with ⟨hnone, hrefused⟩ | ⟨r', e, n, hsome, he, hn, -⟩
    · rw [hnone]
      refine iff_of_false (fun h => by cases h) (fun ⟨i, hi, hfresh⟩ => hfresh ?_)
      exact OrderedMap.add_eq_none.1 (hrefused (.added i) (by rw [event, hi]; rfl))
    · rw [hsome]
      obtain ⟨i, hi, rfl⟩ := Option.map_eq_some_iff.1 he
      exact iff_of_true rfl ⟨i, hi, (OrderedMap.add_eq_some.1 hn).1⟩
  · obtain ⟨m, -, hitems⟩ := hsim r ops h
    have hkeys : reg.keys (reg.after r ops) = m.keys := congrArg (List.map reg.key) hitems
    rw [perform_fst, hkeys]
    rcases hreg.locked hitems (.remove k) with ⟨hnone, hrefused⟩ | ⟨r', e, n, hsome, he, hn, -⟩
    · rw [hnone]
      exact iff_of_false (fun h => by cases h) (OrderedMap.remove_eq_none.1 (hrefused (.removed k) rfl))
    · rw [hsome]
      obtain rfl := Option.some.inj he
      exact iff_of_true rfl (OrderedMap.remove_eq_some.1 hn).1
  · rw [perform_fst] at hfail
    have hnone : reg.locked (reg.after r ops) op = none := by simpa using hfail
    rw [history_append, history, hnone]
    exact ⟨by rw [perform, hnone], List.append_nil _⟩
  · rw [perform_fst] at hsucc
    obtain ⟨m, -, hitems⟩ := hsim r ops h
    rcases hreg.locked hitems op with ⟨hnone, -⟩ | ⟨r', e, n, hsome, he, -, -⟩
    · rw [hnone] at hsucc
      cases hsucc
    · have hafter : reg.after r (ops ++ [op]) = r' := by
        rw [after_append, after, hsome]
        rfl
      rw [hafter, perform, hsome, history_append, history, hsome]
      simp only [he]
      exact ⟨trivial, e, rfl, rfl⟩

end Registry

/-! ## The registries -/

theorem any_key {ι : Type} {l : List ι} {key : ι → Bytes} {k : Bytes} : l.any (fun i => key i == k) = true ↔ k ∈ l.map key := by
  simp [List.any_eq_true]

/-- A scan that finds the key decides both operations. -/
theorem eraseP_key {ι : Type} (l : List ι) (key : ι → Bytes) (k : Bytes) :
    l.eraseP (fun i => key i == k) = l.eraseP (fun i => decide (key i = k)) := by
  congr 1
  funext i
  exact beq_eq_decide (key i) k

theorem find_key {ι : Type} {l : List ι} {key : ι → Bytes} (h : (l.map key).Nodup) {i : ι} (hi : i ∈ l) :
    l.find? (fun j => key j == key i) = some i := by
  have hfind : l.find? (fun j => decide (key j = key i)) = some i :=
    (OrderedMap.find_eq_some (m := ⟨l, h⟩)).2 ⟨hi, rfl⟩
  rw [← hfind]
  congr 1
  funext j
  exact beq_eq_decide (key j) (key i)

namespace ToolRegistry

variable {α : Type}

def registry : Registry (ToolRegistry α) (Tool × ToolHandler α) (Tool × Option (ToolHandler α)) where
  items := tools
  key := fun entry => entry.1.name
  accepts := fun x => if isValidToolName x.1.name then x.2.map (x.1, ·) else none
  add := fun r x => r.registerTool x.1 x.2
  remove := removeTool

theorem lawful : (registry (α := α)).Lawful where
  refuses := by
    rintro r ⟨tool, handler⟩ h
    simp only [registry, registerTool] at h ⊢
    by_cases hname : isValidToolName tool.name = true
    · rw [if_pos hname, Option.map_eq_none_iff] at h
      simp [hname, h]
    · simp [hname]
  duplicate := by
    rintro r ⟨tool, handler⟩ i h hdup
    simp only [registry, registerTool] at h ⊢
    by_cases hname : isValidToolName tool.name = true
    · rw [if_pos hname] at h
      obtain ⟨run, rfl, rfl⟩ := Option.map_eq_some_iff.1 h
      have hany := any_key.2 hdup
      simp only [registry] at hany
      simp [hname, hany]
    · rw [if_neg hname] at h
      cases h
  adds := by
    rintro r ⟨tool, handler⟩ i h hfresh
    simp only [registry, registerTool] at h ⊢
    by_cases hname : isValidToolName tool.name = true
    · rw [if_pos hname] at h
      obtain ⟨run, rfl, rfl⟩ := Option.map_eq_some_iff.1 h
      have hany := mt any_key.1 hfresh
      simp only [registry] at hany
      simp [hname, hany]
    · rw [if_neg hname] at h
      cases h
  missing := fun r k hk => if_neg (mt any_key.1 hk)
  removes := fun r k hk => ⟨_, if_pos (any_key.2 hk), eraseP_key _ _ k⟩

/-- `call_tool` once the entry is found. -/
def callEntry (text : JsonText Bytes) (entry : Tool × ToolHandler α) (arguments : Json) (app : α) :
    Except Exn (Result CallToolResult) × α :=
  match validateSchema text arguments entry.1.inputSchema with
  | .error e => (.error (.json e), app)
  | .ok (.error e) =>
    (.ok (.error (Error.of .invalidParams
      (bytes "invalid arguments for tool '" ++ entry.1.name ++ bytes "': " ++ e.message))), app)
  | .ok (.ok ()) =>
    match entry.2 arguments app with
    | (.ok result, app) => (.ok (.ok result), app)
    | (.error e, app) => (.ok (.ok { content := [textContent e.what], isError := true }), app)

theorem callTool_listed (text : JsonText Bytes) {r : ToolRegistry α} (h : (registry.keys r).Nodup) {entry : Tool × ToolHandler α}
    (hentry : entry ∈ r.tools) (arguments : Json) (app : α) :
    r.callTool text entry.1.name arguments app = callEntry text entry arguments app := by
  have hfind : r.tools.find? (fun e => e.1.name == entry.1.name) = some entry := find_key h hentry
  unfold callTool
  rw [hfind]
  rfl

end ToolRegistry

namespace PromptProvider

variable {α : Type}

def registry : Registry (PromptProvider α) (Prompt × PromptHandler α) (Prompt × Option (PromptHandler α)) where
  items := prompts
  key := fun entry => entry.1.name
  accepts := fun x => if x.1.name.isEmpty then none else x.2.map (x.1, ·)
  add := fun p x => p.addPrompt x.1 x.2
  remove := removePrompt

theorem lawful : (registry (α := α)).Lawful where
  refuses := by
    rintro p ⟨prompt, handler⟩ h
    simp only [registry, addPrompt] at h ⊢
    by_cases hname : prompt.name.isEmpty = true
    · simp [hname]
    · rw [if_neg hname, Option.map_eq_none_iff] at h
      simp [hname, h]
  duplicate := by
    rintro p ⟨prompt, handler⟩ i h hdup
    simp only [registry, addPrompt] at h ⊢
    by_cases hname : prompt.name.isEmpty = true
    · rw [if_pos hname] at h
      cases h
    · rw [if_neg hname] at h
      obtain ⟨run, rfl, rfl⟩ := Option.map_eq_some_iff.1 h
      have hany := any_key.2 hdup
      simp only [registry] at hany
      simp [hname, hany]
  adds := by
    rintro p ⟨prompt, handler⟩ i h hfresh
    simp only [registry, addPrompt] at h ⊢
    by_cases hname : prompt.name.isEmpty = true
    · rw [if_pos hname] at h
      cases h
    · rw [if_neg hname] at h
      obtain ⟨run, rfl, rfl⟩ := Option.map_eq_some_iff.1 h
      have hany := mt any_key.1 hfresh
      simp only [registry] at hany
      simp [hname, hany]
  missing := fun p k hk => if_neg (mt any_key.1 hk)
  removes := fun p k hk => ⟨_, if_pos (any_key.2 hk), eraseP_key _ _ k⟩

/-- `get_prompt` once the entry is found. -/
def getEntry (entry : Prompt × PromptHandler α) (arguments : Json) (app : α) : Result GetPromptResult × α :=
  match missingArgument entry.1 arguments with
  | some argument =>
    (.error (Error.of .invalidParams
      (bytes "prompt '" ++ entry.1.name ++ bytes "' is missing required argument '" ++ argument.name ++ bytes "'")), app)
  | none => (caught (entry.2 arguments app).1, (entry.2 arguments app).2)

theorem getPrompt_listed {p : PromptProvider α} (h : (registry.keys p).Nodup) {entry : Prompt × PromptHandler α}
    (hentry : entry ∈ p.prompts) (arguments : Json) (app : α) :
    p.getPrompt entry.1.name arguments app = getEntry entry arguments app := by
  have hfind : p.prompts.find? (fun e => e.1.name == entry.1.name) = some entry := find_key h hentry
  unfold getPrompt
  rw [hfind]
  rfl

end PromptProvider

namespace ResourceProvider

variable {α : Type}

def registry : Registry (ResourceProvider α) (Resource × Option (ReadHandler α)) (Resource × Option (ReadHandler α)) where
  items := resources
  key := fun entry => entry.1.uri
  accepts := fun x => if looksLikeUri x.1.uri then some x else none
  add := fun p x => p.addResource x.1 x.2
  remove := removeResource

theorem lawful : (registry (α := α)).Lawful where
  refuses := by
    rintro p ⟨resource, handler⟩ h
    simp only [registry, addResource] at h ⊢
    by_cases huri : looksLikeUri resource.uri = true
    · rw [if_pos huri] at h
      cases h
    · simp [huri]
  duplicate := by
    rintro p ⟨resource, handler⟩ i h hdup
    simp only [registry, addResource] at h ⊢
    by_cases huri : looksLikeUri resource.uri = true
    · rw [if_pos huri] at h
      obtain rfl := Option.some.inj h
      have hany := any_key.2 hdup
      simp only [registry] at hany
      simp [huri, hany]
    · rw [if_neg huri] at h
      cases h
  adds := by
    rintro p ⟨resource, handler⟩ i h hfresh
    simp only [registry, addResource] at h ⊢
    by_cases huri : looksLikeUri resource.uri = true
    · rw [if_pos huri] at h
      obtain rfl := Option.some.inj h
      have hany := mt any_key.1 hfresh
      simp only [registry] at hany
      simp [huri, hany]
    · rw [if_neg huri] at h
      cases h
  missing := fun p k hk => if_neg (mt any_key.1 hk)
  removes := fun p k hk => ⟨_, if_pos (any_key.2 hk), eraseP_key _ _ k⟩

/-- `read_resource` once the entry is found: its own handler, else the provider's. -/
def readEntry (p : ResourceProvider α) (entry : Resource × Option (ReadHandler α)) (app : α) : Result ReadResourceResult × α :=
  match entry.2.orElse fun _ => p.fallbackRead with
  | none => (.error (Error.of .internalError (bytes "no read handler for resource: " ++ entry.1.uri)), app)
  | some handler => (caught (handler entry.1.uri app).1, (handler entry.1.uri app).2)

theorem readResource_listed {p : ResourceProvider α} (h : (registry.keys p).Nodup)
    {entry : Resource × Option (ReadHandler α)} (hentry : entry ∈ p.resources) (huri : looksLikeUri entry.1.uri = true) (app : α) :
    p.readResource entry.1.uri app = readEntry p entry app := by
  have hfind : p.resources.find? (fun e => e.1.uri == entry.1.uri) = some entry := find_key h hentry
  unfold readResource resolve
  rw [hfind, huri]
  simp only [Bool.not_true, Bool.false_eq_true, if_false]
  unfold readEntry
  cases entry.2.orElse fun _ => p.fallbackRead <;> rfl

end ResourceProvider

namespace RootsProvider

def registry : Registry RootsProvider Root Root where
  items := listRoots
  key := Root.uri
  accepts := fun root => if startsWith root.uri (bytes "file://") then some root else none
  add := addRoot
  remove := removeRoot

theorem lawful : registry.Lawful where
  refuses := by
    intro p root h
    simp only [registry, addRoot] at h ⊢
    by_cases huri : startsWith root.uri (bytes "file://") = true
    · rw [if_pos huri] at h
      cases h
    · simp [huri]
  duplicate := by
    intro p root i h hdup
    simp only [registry, addRoot] at h ⊢
    by_cases huri : startsWith root.uri (bytes "file://") = true
    · rw [if_pos huri] at h
      obtain rfl := Option.some.inj h
      have hany := any_key.2 hdup
      simp only [registry, listRoots] at hany
      simp [huri, hany]
    · rw [if_neg huri] at h
      cases h
  adds := by
    intro p root i h hfresh
    simp only [registry, addRoot] at h ⊢
    by_cases huri : startsWith root.uri (bytes "file://") = true
    · rw [if_pos huri] at h
      obtain rfl := Option.some.inj h
      have hany := mt any_key.1 hfresh
      simp only [registry, listRoots] at hany
      simp [huri, hany, listRoots]
    · rw [if_neg huri] at h
      cases h
  missing := fun p k hk => if_neg (mt any_key.1 hk)
  removes := fun p k hk => ⟨_, if_pos (any_key.2 hk), eraseP_key _ _ k⟩

end RootsProvider

/-! ## Dispatch -/

namespace Registry

variable {R ι χ β : Type} {reg : Registry R ι χ}

/-- **What is served under a listed key is what was last accepted under it.** -/
def ServesLatest (reg : Registry R ι χ) (run : R → Bytes → β) (serve : R → ι → β) : Prop :=
  ∀ r ops, reg.items r = [] → ∀ k ∈ reg.keys (reg.after r ops),
    ∃ i, lastAdded reg.key k (reg.history r ops) = some i ∧ run (reg.after r ops) k = serve (reg.after r ops) i

theorem Refines.servesLatest (hreg : reg.Refines) {run : R → Bytes → β} {serve : R → ι → β}
    (h : ∀ r i x, (reg.keys r).Nodup → i ∈ reg.items r → reg.accepts x = some i → run r (reg.key i) = serve r i) :
    reg.ServesLatest run serve := by
  intro r ops hr k hk
  obtain ⟨i, hi, rfl⟩ := List.mem_map.1 hk
  obtain ⟨x, hx⟩ := hreg.admitted r ops hr i hi
  exact ⟨i, hreg.latest r ops hr i hi, h _ i x (hreg.distinct r ops hr) hi hx⟩

end Registry

/-- **The four registries refine an insertion-ordered map**, and serve what was last accepted under a key. -/
theorem registries_refine (α : Type) (text : JsonText Bytes) :
    ((ToolRegistry.registry (α := α)).Refines ∧
      ToolRegistry.registry.ServesLatest (ToolRegistry.callTool text (α := α)) (fun _ => ToolRegistry.callEntry text)) ∧
    ((PromptProvider.registry (α := α)).Refines ∧
      PromptProvider.registry.ServesLatest (PromptProvider.getPrompt (α := α)) (fun _ => PromptProvider.getEntry)) ∧
    ((ResourceProvider.registry (α := α)).Refines ∧
      ResourceProvider.registry.ServesLatest (ResourceProvider.readResource (α := α)) ResourceProvider.readEntry) ∧
    RootsProvider.registry.Refines := by
  have htools := (ToolRegistry.lawful (α := α)).refines
  have hprompts := (PromptProvider.lawful (α := α)).refines
  have hresources := (ResourceProvider.lawful (α := α)).refines
  refine ⟨⟨htools, htools.servesLatest fun r i _ hnodup hi _ => ?_⟩, ⟨hprompts, hprompts.servesLatest fun p i _ hnodup hi _ => ?_⟩,
    ⟨hresources, hresources.servesLatest fun p i x hnodup hi hx => ?_⟩, RootsProvider.lawful.refines⟩
  · funext arguments app
    exact ToolRegistry.callTool_listed text hnodup hi arguments app
  · funext arguments app
    exact PromptProvider.getPrompt_listed hnodup hi arguments app
  · funext app
    refine ResourceProvider.readResource_listed hnodup hi ?_ app
    by_cases huri : looksLikeUri x.1.uri = true
    · simp only [ResourceProvider.registry, if_pos huri, Option.some.injEq] at hx
      rw [← hx]
      exact huri
    · simp only [ResourceProvider.registry, if_neg huri] at hx
      cases hx

end Mcp
