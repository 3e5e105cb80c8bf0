import McpSdk.SchemaValid
/-!
# SchemaChecks — what the validator checks

The validator walks the same pairs of subvalue and subschema, and succeeds when every one of them passes.
-/
namespace Mcp
namespace SchemaValid

/-- What the validator checks of a pair; a schema that is no object is not enforced. -/
def passes (value schema : Json) : Bool := !schema.isObject || keywordsHold typeAllows Json.equal value schema

/-- The check neither fails nor throws. -/
def Passes (check : Check) : Prop := check.run = .ok (.ok ())

theorem passes_pure : Passes (pure ()) := rfl

theorem passes_bind {check next : Check} : Passes (do check; next) ↔ Passes check ∧ Passes next := by
  unfold Passes
  constructor
  · intro h
    cases hcheck : check.run with
    | error e =>
      have herr : (do check; next : Check).run = .error e := by
        show (check.run >>= _) = _
        rw [hcheck]
        rfl
      rw [herr] at h
      cases h
    | ok result =>
      cases result with
      | error e =>
        have herr : (do check; next : Check).run = .ok (.error e) := by
          show (check.run >>= _) = _
          rw [hcheck]
          rfl
        rw [herr] at h
        cases h
      | ok _ =>
        refine ⟨rfl, ?_⟩
        have hnext : (do check; next : Check).run = next.run := by
          show (check.run >>= _) = _
          rw [hcheck]
          rfl
        rwa [hnext] at h
  · rintro ⟨hcheck, hnext⟩
    show (check.run >>= _) = _
    rw [hcheck]
    exact hnext

theorem not_passes_throw (e : Error) : ¬ Passes (throw e) := fun h => by cases h

theorem passes_ite {c : Bool} {e : Error} : Passes (if c = true then pure () else throw e) ↔ c = true := by
  by_cases h : c = true
  · rw [if_pos h]
    exact iff_of_true passes_pure h
  · rw [if_neg h]
    exact iff_of_false (not_passes_throw e) h

variable {text : JsonText Bytes} {value schema : Json} {path : Bytes}

theorem checkType_passes : Passes (checkType text value schema path) ↔ typeCheck typeAllows value schema = true := by
  unfold checkType typeCheck
  cases schema.find (bytes "type") with
  | none => exact iff_of_true passes_pure rfl
  | some type =>
    simp only [Option.all_some]
    by_cases hallows : typeAllows value type = true
    · rw [if_pos hallows]
      exact iff_of_true passes_pure hallows
    · rw [if_neg hallows]
      refine iff_of_false (fun h => ?_) hallows
      unfold Passes at h
      cases hshown : text.dump type <;> simp [hshown, ExceptT.lift] at h <;> cases h

theorem checkEnum_passes : Passes (checkEnum value schema path) ↔ enumCheck Json.equal value schema = true := by
  unfold checkEnum enumCheck
  cases schema.find (bytes "enum") with
  | none => exact iff_of_true passes_pure rfl
  | some candidates =>
    cases candidates with
    | array candidates => exact passes_ite
    | _ => exact iff_of_true passes_pure rfl

theorem find_all {α : Type} {l : List α} {p : α → Bool} : l.find? (fun a => !p a) = none ↔ l.all p = true := by
  rw [List.find?_eq_none, List.all_eq_true]
  simp

theorem checkRequired_passes (hvalue : value.isObject = true) :
    Passes (checkRequired value schema path) ↔ requiredCheck value schema = true := by
  unfold checkRequired requiredCheck
  rw [hvalue]
  cases schema.find (bytes "required") with
  | none => exact iff_of_true passes_pure rfl
  | some names =>
    cases names with
    | array names =>
      show Passes _ ↔ (names.filterMap stringItem).all (fun name => value.contains name) = true
      rw [← find_all]
      dsimp only
      cases (names.filterMap stringItem).find? (fun name => !value.contains name) with
      | none => exact iff_of_true passes_pure rfl
      | some name => exact iff_of_false (not_passes_throw _) (by simp)
    | _ => exact iff_of_true passes_pure rfl

theorem checkAdditional_passes {members : List (Bytes × Json)} :
    Passes (checkAdditional members schema path) ↔ additionalCheck (.object members) schema = true := by
  unfold checkAdditional additionalCheck
  generalize schema.find (bytes "additionalProperties") = found
  by_cases hfalse : found = some (.boolean false)
  · subst hfalse
    show Passes _ ↔ members.all (fun member => ((schema.find (bytes "properties")).getD .null).contains member.1) = true
    dsimp only
    rw [← find_all]
    cases members.find? (fun member => !((schema.find (bytes "properties")).getD .null).contains member.1) with
    | none => exact iff_of_true passes_pure rfl
    | some member => exact iff_of_false (not_passes_throw _) (by simp)
  · cases found with
    | none => exact iff_of_true passes_pure rfl
    | some additional =>
      cases additional with
      | boolean b =>
        cases b with
        | false => exact absurd rfl hfalse
        | true => exact iff_of_true passes_pure rfl
      | _ => exact iff_of_true passes_pure rfl

/-- The loop over `properties` checks every listed key that the value has. -/
theorem checkProperties_passes (check : Bytes → Option (Json → Bytes → Check)) : ∀ properties : List (Bytes × Json),
    Passes (checkProperties check path properties) ↔
      ∀ key subschema, (key, subschema) ∈ properties → ∀ validate, check key = some validate →
        Passes (validate subschema (path ++ bytes "/" ++ key))
  | [] => iff_of_true passes_pure fun _ _ h => by cases h
  | (k, s) :: properties => by
    have hrest := checkProperties_passes check properties
    unfold checkProperties
    cases hvalidate : check k with
    | none =>
      refine hrest.trans (forall_congr' fun key => forall_congr' fun subschema => ?_)
      refine ⟨fun h hmem validate hkey => ?_, fun h hmem => h (List.mem_cons_of_mem _ hmem)⟩
      rcases List.mem_cons.1 hmem with heq | hmem
      · obtain ⟨rfl, rfl⟩ := Prod.mk.inj heq
        rw [hvalidate] at hkey
        cases hkey
      · exact h hmem validate hkey
    | some validate =>
      refine passes_bind.trans ?_
      rw [hrest]
      constructor
      · rintro ⟨hfirst, hrest⟩ key subschema hmem validate' hkey
        rcases List.mem_cons.1 hmem with heq | hmem
        · obtain ⟨rfl, rfl⟩ := Prod.mk.inj heq
          rw [hvalidate] at hkey
          obtain rfl := Option.some.inj hkey
          exact hfirst
        · exact hrest key subschema hmem validate' hkey
      · intro h
        exact ⟨h k s List.mem_cons_self validate hvalidate,
          fun key subschema hmem => h key subschema (List.mem_cons_of_mem _ hmem)⟩

theorem lookup_memberChecks (text : JsonText Bytes) (key : Bytes) : ∀ members : List (Bytes × Json),
    (memberChecks text members).lookup key =
      (members.lookup key).map (fun member => fun schema path => validateAt text member schema path)
  | [] => rfl
  | (k, member) :: members => by
    rw [memberChecks, List.lookup_cons, List.lookup_cons, lookup_memberChecks text key members]
    by_cases hk : key = k
    · simp [hk]
    · simp [beq_eq_false_iff_ne.2 hk]

/-- The schema of the items is checked of each item, when it is an object. -/
theorem validateItems_passes : ∀ {items : List Json} {index : Nat},
    (∀ item ∈ items, ∀ p, Passes (validateAt text item schema p) ↔ ∀ v s, Visits item schema v s → passes v s = true) →
      (Passes (validateItems text items schema path index) ↔
        ∀ item ∈ items, ∀ v s, Visits item schema v s → passes v s = true)
  | [], _, _ => iff_of_true passes_pure fun _ h => by cases h
  | item :: items, index, h => by
    rw [validateItems, passes_bind, h item List.mem_cons_self,
      validateItems_passes (fun x hx => h x (List.mem_cons_of_mem item hx)), List.forall_mem_cons]

theorem find_of_not_object {j : Json} (h : j.isObject = false) (key : Bytes) : j.find key = none := by
  cases j with
  | object members => cases h
  | _ => rfl

/-- A schema that is no object leads nowhere. -/
theorem visits_plain (hschema : schema.isObject = false) :
    (∀ v s, Visits value schema v s → passes v s = true) := by
  rw [forall_visits]
  refine ⟨by simp [passes, hschema], fun _ h => ?_, fun _ h => ?_⟩ <;> (rw [find_of_not_object hschema] at h; cases h)

theorem passes_iff (hschema : schema.isObject = true) :
    passes value schema = true ↔ typeCheck typeAllows value schema = true ∧ enumCheck Json.equal value schema = true ∧
      requiredCheck value schema = true ∧ additionalCheck value schema = true := by
  simp [passes, keywordsHold, hschema, and_assoc]

/-- The keywords for objects hold of everything else. -/
theorem objectChecks_of_not_object (hvalue : value.isObject = false) :
    requiredCheck value schema = true ∧ additionalCheck value schema = true := by
  constructor
  · unfold requiredCheck
    split
    · rw [hvalue]
      rfl
    · rfl
  · unfold additionalCheck
    split
    · cases hvalue
    · rfl

theorem typeAndEnum_passes (hschema : schema.isObject = true) (hvalue : value.isObject = false) :
    (Passes (checkType text value schema path) ∧ Passes (checkEnum value schema path)) ↔ passes value schema = true := by
  obtain ⟨hrequired, hadditional⟩ := @objectChecks_of_not_object value schema hvalue
  rw [checkType_passes, checkEnum_passes, passes_iff hschema]
  simp [hrequired, hadditional]

/-- A value that is neither an object nor an array leads nowhere. -/
theorem leaf_passes (hobject : value.isObject = false) (harray : value.isArray = false) :
    Passes (if (!schema.isObject) = true then pure () else do
        checkType text value schema path
        checkEnum value schema path) ↔ ∀ v s, Visits value schema v s → passes v s = true := by
  cases hschema : schema.isObject with
  | false => exact iff_of_true passes_pure (visits_plain hschema)
  | true =>
    rw [forall_visits, if_neg (by simp), passes_bind, typeAndEnum_passes hschema hobject]
    refine ⟨fun h => ⟨h, ?_, ?_⟩, fun h => h.1⟩
    · intro properties hfound key subschema hlisted member hpresent
      rw [find_of_not_object hobject] at hpresent
      cases hpresent
    · rintro subschema hfound items rfl
      cases harray

/-- The members are checked in the order of `properties`. -/
theorem memberProperties_passes {members : List (Bytes × Json)} {properties : List (Bytes × Json)}
    (hmembers : ∀ {key : Bytes} {member : Json}, members.lookup key = some member → ∀ schema p,
      (Passes (validateAt text member schema p) ↔ ∀ v s, Visits member schema v s → passes v s = true)) :
    Passes (checkProperties (fun key => (memberChecks text members).lookup key) path properties) ↔
      ∀ key subschema, (key, subschema) ∈ properties → ∀ member, (Json.object members).find key = some member →
        ∀ v s, Visits member subschema v s → passes v s = true := by
  rw [checkProperties_passes]
  simp only [lookup_memberChecks]
  constructor
  · intro h key subschema hlisted member hpresent
    have hcheck := h key subschema hlisted _ (Option.map_eq_some_iff.2 ⟨member, hpresent, rfl⟩)
    exact (hmembers hpresent subschema _).1 hcheck
  · intro h key subschema hlisted validate hvalidate
    obtain ⟨member, hpresent, rfl⟩ := Option.map_eq_some_iff.1 hvalidate
    exact (hmembers hpresent subschema _).2 (h key subschema hlisted member hpresent)

/-- What comes last for an object: its members, then the keys that are not listed. -/
theorem objectKeywords_passes {members : List (Bytes × Json)} {check : Bytes → Option (Json → Bytes → Check)} :
    Passes (match schema.find (bytes "properties") with
      | some (.object properties) => do
        checkProperties check path properties
        checkAdditional members schema path
      | _ => checkAdditional members schema path) ↔
      (∀ properties, schema.find (bytes "properties") = some (.object properties) →
        Passes (checkProperties check path properties)) ∧ additionalCheck (.object members) schema = true := by
  rw [← @checkAdditional_passes schema path]
  generalize schema.find (bytes "properties") = found
  split
  · rw [passes_bind]
    simp
  · rename_i hnot
    exact ⟨fun h => ⟨fun properties heq => absurd heq (hnot properties), h⟩, fun h => h.2⟩

theorem object_passes {members : List (Bytes × Json)}
    (hmembers : ∀ {key : Bytes} {member : Json}, members.lookup key = some member → ∀ schema p,
      (Passes (validateAt text member schema p) ↔ ∀ v s, Visits member schema v s → passes v s = true)) :
    Passes (validateAt text (.object members) schema path) ↔
      ∀ v s, Visits (.object members) schema v s → passes v s = true := by
  cases hschema : schema.isObject with
  | false =>
    rw [validateAt, hschema]
    exact iff_of_true passes_pure (visits_plain hschema)
  | true =>
    have hitems : ∀ subschema, schema.find (bytes "items") = some subschema → ∀ items, Json.object members = .array items →
        ∀ item ∈ items, ∀ v s, Visits item subschema v s → passes v s = true := fun _ _ _ h => by cases h
    rw [forall_visits, validateAt, hschema, if_neg (by simp), passes_bind, passes_bind, passes_bind, checkType_passes,
      checkEnum_passes, checkRequired_passes rfl, passes_iff hschema]
    refine Iff.trans (and_congr_right fun _ => and_congr_right fun _ => and_congr_right fun _ => objectKeywords_passes) ?_
    simp only [memberProperties_passes hmembers]
    tauto

/-- A schema of the items that is no object is not enforced. -/
theorem arrayItems_passes {items : List Json} (hitems : ∀ item ∈ items, ∀ schema p,
    (Passes (validateAt text item schema p) ↔ ∀ v s, Visits item schema v s → passes v s = true)) :
    Passes (match schema.find (bytes "items") with
      | some (.object itemSchema) => validateItems text items (.object itemSchema) path 0
      | _ => pure ()) ↔
      ∀ subschema, schema.find (bytes "items") = some subschema → ∀ xs, Json.array items = .array xs → ∀ item ∈ xs,
        ∀ v s, Visits item subschema v s → passes v s = true := by
  generalize schema.find (bytes "items") = found
  split
  · rename_i itemSchema
    rw [validateItems_passes fun item hitem => hitems item hitem _]
    simp
  · rename_i hnot
    refine iff_of_true passes_pure ?_
    rintro subschema rfl xs - item -
    refine visits_plain ?_
    cases subschema <;> first | rfl | exact absurd rfl (hnot _)

theorem array_passes {items : List Json} (hitems : ∀ item ∈ items, ∀ schema p,
    (Passes (validateAt text item schema p) ↔ ∀ v s, Visits item schema v s → passes v s = true)) :
    Passes (validateAt text (.array items) schema path) ↔
      ∀ v s, Visits (.array items) schema v s → passes v s = true := by
  cases hschema : schema.isObject with
  | false =>
    rw [validateAt, hschema]
    exact iff_of_true passes_pure (visits_plain hschema)
  | true =>
    have hpasses := @typeAndEnum_passes text (.array items) schema path hschema rfl
    rw [forall_visits, validateAt, hschema, if_neg (by simp), passes_bind, passes_bind, ← and_assoc]
    refine Iff.trans (and_congr hpasses (arrayItems_passes hitems)) ?_
    refine and_congr_right fun _ => ⟨fun h => ⟨?_, h⟩, fun h => h.2⟩
    intro properties hfound key subschema hlisted member hpresent
    cases hpresent

mutual

/-- **The validator accepts what passes at every pair visited.** -/
theorem validateAt_passes (text : JsonText Bytes) : ∀ (value schema : Json) (path : Bytes),
    Passes (validateAt text value schema path) ↔ ∀ v s, Visits value schema v s → passes v s = true
  | .object members, schema, path => object_passes fun {_ _} hpresent => memberChecks_pass text members hpresent
  | .array items, schema, path => array_passes (items_pass text items)
  | .null, schema, path => by
    unfold validateAt
    exact leaf_passes rfl rfl
  | .boolean b, schema, path => by
    unfold validateAt
    exact leaf_passes rfl rfl
  | .numberInteger n, schema, path => by
    unfold validateAt
    exact leaf_passes rfl rfl
  | .numberUnsigned n, schema, path => by
    unfold validateAt
    exact leaf_passes rfl rfl
  | .numberFloat x, schema, path => by
    unfold validateAt
    exact leaf_passes rfl rfl
  | .string t, schema, path => by
    unfold validateAt
    exact leaf_passes rfl rfl

theorem memberChecks_pass (text : JsonText Bytes) : ∀ (members : List (Bytes × Json)) {key : Bytes} {member : Json},
    members.lookup key = some member → ∀ schema path,
      (Passes (validateAt text member schema path) ↔ ∀ v s, Visits member schema v s → passes v s = true)
  | [], key, member, h => by cases h
  | (k, m) :: members, key, member, h => by
    intro schema path
    rw [List.lookup_cons] at h
    by_cases hk : key = k
    · rw [hk, beq_self_eq_true] at h
      obtain rfl := Option.some.inj h
      exact validateAt_passes text m schema path
    · rw [beq_eq_false_iff_ne.2 hk] at h
      exact memberChecks_pass text members h schema path

theorem items_pass (text : JsonText Bytes) : ∀ (items : List Json), ∀ item ∈ items, ∀ schema path,
    (Passes (validateAt text item schema path) ↔ ∀ v s, Visits item schema v s → passes v s = true)
  | [], item, h => by cases h
  | x :: items, item, h => by
    intro schema path
    rcases List.mem_cons.1 h with heq | h
    · rw [heq]
      exact validateAt_passes text x schema path
    · exact items_pass text items item h schema path

end

theorem validateSchema_ok :
    validateSchema text value schema = .ok (.ok ()) ↔ ∀ v s, Visits value schema v s → passes v s = true :=
  validateAt_passes text value schema []

end SchemaValid
end Mcp
