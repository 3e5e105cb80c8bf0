import McpSdk.JsonDump
import McpSdk.Schema
/-!
# SchemaValid — what a schema means

`Valid` says which values a schema allows under the 2020-12 semantics of the keywords the validator documents; numbers are
their exact values there.  It comes down to checks of one subvalue against one subschema, at the pairs `Visits` names.
-/
namespace Mcp
namespace SchemaValid

/-! ## What a schema means -/

/-- The exact value of a number. -/
def number : Json → Option Double
  | .numberInteger n => some ⟨n.toInt, 0⟩
  | .numberUnsigned n => some ⟨n.toNat, 0⟩
  | .numberFloat x => some x
  | _ => none

/-- The fractional part is zero. -/
def isWhole (x : Double) : Bool := decide (0 ≤ x.exponent) || decide (x.mantissa % 2 ^ (-x.exponent).toNat = 0)

mutual

/-- Equality of JSON values: numbers by value, objects by their members. -/
def same : Json → Json → Bool
  | .null, .null => true
  | .boolean a, .boolean b => a == b
  | .string a, .string b => a == b
  | .array a, .array b => sameItems a b
  | .object a, .object b => sameMembers a b
  | a, b =>
    match number a, number b with
    | some x, some y => x.equal y
    | _, _ => false

def sameItems : List Json → List Json → Bool
  | [], [] => true
  | a :: as, b :: bs => same a b && sameItems as bs
  | _, _ => false

def sameMembers : List (Bytes × Json) → List (Bytes × Json) → Bool
  | [], [] => true
  | (k, a) :: as, (l, b) :: bs => k == l && same a b && sameMembers as bs
  | _, _ => false

end

/-- The type names of JSON Schema and what they stand for. -/
def knownTypes : List (Bytes × (Json → Bool)) :=
  [(bytes "object", Json.isObject), (bytes "array", Json.isArray), (bytes "string", Json.isString),
    (bytes "number", fun v => (number v).isSome), (bytes "integer", fun v => (number v).any isWhole),
    (bytes "boolean", Json.isBoolean), (bytes "null", Json.isNull)]

def hasType (value : Json) (name : Bytes) : Bool := (knownTypes.lookup name).any (fun holds => holds value)

/-- What `type` says: one name, or one of several. -/
def typeHolds (value : Json) : Json → Bool
  | .string name => hasType value name
  | .array names => names.any (fun name => (stringItem name).any (hasType value))
  | _ => false

/-- **The values a schema allows.** -/
inductive Valid : Json → Json → Prop
  | anything (value : Json) : Valid value (.boolean true)
  | keywords (value schema : Json) (isObject : schema.isObject = true)
      (type : ∀ type, schema.find (bytes "type") = some type → typeHolds value type = true)
      (enum : ∀ candidates, schema.find (bytes "enum") = some (.array candidates) →
        ∃ candidate ∈ candidates, same candidate value = true)
      (required : ∀ names, schema.find (bytes "required") = some (.array names) → value.isObject = true →
        ∀ name, .string name ∈ names → value.contains name = true)
      (properties : ∀ properties, schema.find (bytes "properties") = some (.object properties) →
        ∀ key subschema, (key, subschema) ∈ properties → ∀ member, value.find key = some member → Valid member subschema)
      (additional : schema.find (bytes "additionalProperties") = some (.boolean false) → ∀ members, value = .object members →
        ∀ member ∈ members,
          ∃ properties, schema.find (bytes "properties") = some properties ∧ properties.contains member.1 = true)
      (items : ∀ subschema, schema.find (bytes "items") = some subschema → ∀ items, value = .array items →
        ∀ item ∈ items, Valid item subschema) : Valid value schema

/-! ## Documented schemas -/

def knownType (name : Json) : Bool := (stringItem name).any (fun name => (knownTypes.lookup name).isSome)

/-- The values of the keywords that hold no subschema. -/
def plainKeyword (key : Bytes) (value : Json) : Bool :=
  if key = bytes "type" then
    match value with
    | .array names => names.all knownType
    | name => knownType name
  else if key = bytes "enum" then value.isArray
  else if key = bytes "required" then
    match value with
    | .array names => names.all Json.isString
    | _ => false
  else if key = bytes "additionalProperties" then value.isBoolean
  else true

mutual

/-- **A schema of the documented subset**, down to every subschema. -/
def documented : Json → Bool
  | .boolean _ => true
  | .object keywords => documentedKeywords keywords
  | _ => false

def documentedKeywords : List (Bytes × Json) → Bool
  | [] => true
  | (key, value) :: keywords =>
    (if key = bytes "properties" then documentedProperties value
      else if key = bytes "items" then documented value
      else plainKeyword key value) && documentedKeywords keywords

def documentedProperties : Json → Bool
  | .object properties => documentedAll properties
  | _ => false

def documentedAll : List (Bytes × Json) → Bool
  | [] => true
  | (_, subschema) :: properties => documented subschema && documentedAll properties

end

theorem documented_find {keywords : List (Bytes × Json)} {key : Bytes} {value : Json}
    (h : documentedKeywords keywords = true) (hfind : keywords.lookup key = some value) :
    (if key = bytes "properties" then documentedProperties value
      else if key = bytes "items" then documented value
      else plainKeyword key value) = true := by
  induction keywords with
  | nil => cases hfind
  | cons entry keywords ih =>
    obtain ⟨k, v⟩ := entry
    rw [documentedKeywords, Bool.and_eq_true] at h
    by_cases hk : key = k
    · subst hk
      rw [List.lookup_cons_self] at hfind
      obtain rfl := Option.some.inj hfind
      exact h.1
    · rw [List.lookup_cons, beq_eq_false_iff_ne.2 hk] at hfind
      exact ih h.2 hfind

theorem documented_of_mem : ∀ {properties : List (Bytes × Json)}, documentedAll properties = true →
    ∀ {key : Bytes} {subschema : Json}, (key, subschema) ∈ properties → documented subschema = true
  | (k, s) :: properties, h, key, subschema, hmem => by
    rw [documentedAll, Bool.and_eq_true] at h
    rcases List.mem_cons.1 hmem with heq | hmem
    · obtain ⟨-, rfl⟩ := Prod.mk.inj heq
      exact h.1
    · exact documented_of_mem h.2 hmem

/-! ## The pairs that are checked -/

/-- **The pairs of a subvalue and a subschema that a value and its schema lead to.** -/
inductive Visits : Json → Json → Json → Json → Prop
  | here (value schema : Json) : Visits value schema value schema
  | property {value schema : Json} {properties : List (Bytes × Json)} {key : Bytes} {subschema member v s : Json}
      (found : schema.find (bytes "properties") = some (.object properties)) (listed : (key, subschema) ∈ properties)
      (present : value.find key = some member) (rest : Visits member subschema v s) : Visits value schema v s
  | item {items : List Json} {schema subschema item v s : Json} (found : schema.find (bytes "items") = some subschema)
      (listed : item ∈ items) (rest : Visits item subschema v s) : Visits (.array items) schema v s

/-- What holds of every pair visited holds here, at the properties and at the items. -/
theorem forall_visits {P : Json → Json → Prop} {value schema : Json} :
    (∀ v s, Visits value schema v s → P v s) ↔
      P value schema ∧
      (∀ properties, schema.find (bytes "properties") = some (.object properties) → ∀ key subschema,
        (key, subschema) ∈ properties → ∀ member, value.find key = some member → ∀ v s, Visits member subschema v s → P v s) ∧
      (∀ subschema, schema.find (bytes "items") = some subschema → ∀ items, value = .array items → ∀ item ∈ items,
        ∀ v s, Visits item subschema v s → P v s) := by
  constructor
  · intro h
    refine ⟨h _ _ (.here value schema), ?_, ?_⟩
    · intro properties hfound key subschema hlisted member hpresent v s hrest
      exact h v s (.property hfound hlisted hpresent hrest)
    · rintro subschema hfound items rfl item hlisted v s hrest
      exact h v s (.item hfound hlisted hrest)
  · rintro ⟨hhere, hproperties, hitems⟩ v s hvisits
    cases hvisits with
    | here => exact hhere
    | property found listed present rest => exact hproperties _ found _ _ listed _ present v s rest
    | item found listed rest => exact hitems _ found _ rfl _ listed v s rest

/-! ## The checks of one pair -/

def typeCheck (holds : Json → Json → Bool) (value schema : Json) : Bool := (schema.find (bytes "type")).all (holds value)

def enumCheck (equals : Json → Json → Bool) (value schema : Json) : Bool :=
  match schema.find (bytes "enum") with
  | some (.array candidates) => candidates.any (fun candidate => equals candidate value)
  | _ => true

def requiredCheck (value schema : Json) : Bool :=
  match schema.find (bytes "required") with
  | some (.array names) => !value.isObject || (names.filterMap stringItem).all (fun name => value.contains name)
  | _ => true

def additionalCheck (value schema : Json) : Bool :=
  match value, schema.find (bytes "additionalProperties") with
  | .object members, some (.boolean false) =>
    members.all (fun member => ((schema.find (bytes "properties")).getD .null).contains member.1)
  | _, _ => true

/-- The keywords of one pair, for what `type` means and for what is equal. -/
def keywordsHold (holds equals : Json → Json → Bool) (value schema : Json) : Bool :=
  typeCheck holds value schema && enumCheck equals value schema && requiredCheck value schema && additionalCheck value schema

/-- What a schema asks of a pair. -/
def allowed (value : Json) : Json → Bool
  | .boolean b => b
  | .object keywords => keywordsHold typeHolds same value (.object keywords)
  | _ => false

variable {value schema : Json}

/-! ## Pair by pair -/

theorem documented_keyword (h : documented schema = true) {key : Bytes} {held : Json} (hfind : schema.find key = some held) :
    (if key = bytes "properties" then documentedProperties held
      else if key = bytes "items" then documented held
      else plainKeyword key held) = true := by
  cases schema with
  | object keywords => exact documented_find h hfind
  | _ => cases hfind

theorem documented_property (h : documented schema = true) {properties : List (Bytes × Json)} {key : Bytes}
    {subschema : Json} (found : schema.find (bytes "properties") = some (.object properties))
    (listed : (key, subschema) ∈ properties) :
    documented subschema = true := by
  have hproperties := documented_keyword h found
  rw [if_pos rfl] at hproperties
  exact documented_of_mem hproperties listed

theorem documented_items (h : documented schema = true) {subschema : Json}
    (found : schema.find (bytes "items") = some subschema) : documented subschema = true := by
  have hitems := documented_keyword h found
  rwa [if_neg (by decide), if_pos rfl] at hitems

theorem documented_visits {v s : Json} (h : documented schema = true) (hvisits : Visits value schema v s) :
    documented s = true := by
  induction hvisits with
  | here => exact h
  | property found listed present rest ih => exact ih (documented_property h found listed)
  | item found listed rest ih => exact ih (documented_items h found)

theorem isObject_of_documented (h : documented schema = true) : schema.isObject = true ∨ ∃ b, schema = .boolean b := by
  cases schema with
  | object keywords => exact .inl rfl
  | boolean b => exact .inr ⟨b, rfl⟩
  | _ => cases h

theorem allowed_object (hschema : schema.isObject = true) :
    allowed value schema = true ↔ typeCheck typeHolds value schema = true ∧ enumCheck same value schema = true ∧
      requiredCheck value schema = true ∧ additionalCheck value schema = true := by
  cases schema with
  | object keywords => simp [allowed, keywordsHold, and_assoc]
  | _ => cases hschema

theorem typeCheck_iff {holds : Json → Json → Bool} :
    typeCheck holds value schema = true ↔ ∀ type, schema.find (bytes "type") = some type → holds value type = true :=
  Option.all_eq_true _ _

theorem enumCheck_iff {equals : Json → Json → Bool} :
    enumCheck equals value schema = true ↔ ∀ candidates, schema.find (bytes "enum") = some (.array candidates) →
      ∃ candidate ∈ candidates, equals candidate value = true := by
  unfold enumCheck
  split
  · rename_i candidates heq
    rw [heq, List.any_eq_true]
    simp
  · rename_i hnot
    exact iff_of_true rfl fun candidates heq => absurd heq (hnot candidates)

theorem mem_stringItems {names : List Json} {name : Bytes} : name ∈ names.filterMap stringItem ↔ .string name ∈ names := by
  rw [List.mem_filterMap]
  constructor
  · rintro ⟨j, hmem, hj⟩
    cases j with
    | string t =>
      obtain rfl := Option.some.inj hj
      exact hmem
    | _ => cases hj
  · exact fun hmem => ⟨.string name, hmem, rfl⟩

theorem requiredCheck_iff :
    requiredCheck value schema = true ↔ ∀ names, schema.find (bytes "required") = some (.array names) →
      value.isObject = true → ∀ name, .string name ∈ names → value.contains name = true := by
  unfold requiredCheck
  split
  · rename_i names heq
    rw [heq, Bool.or_eq_true, List.all_eq_true]
    simp only [mem_stringItems]
    cases value.isObject with
    | false => simp
    | true => simp
  · rename_i hnot
    exact iff_of_true rfl fun names heq => absurd heq (hnot names)

theorem additionalCheck_iff :
    additionalCheck value schema = true ↔ (schema.find (bytes "additionalProperties") = some (.boolean false) →
      ∀ members, value = .object members → ∀ member ∈ members,
        ∃ properties, schema.find (bytes "properties") = some properties ∧ properties.contains member.1 = true) := by
  unfold additionalCheck
  split
  · rename_i members heq
    rw [heq, List.all_eq_true]
    simp only [forall_const, Json.object.injEq, forall_eq']
    refine forall₂_congr fun member _ => ?_
    cases schema.find (bytes "properties") with
    | none => simp [Json.contains, Json.find]
    | some properties => simp
  · rename_i hnot
    refine iff_of_true rfl ?_
    rintro heq members rfl
    exact absurd heq (hnot members rfl)

theorem allowed_iff (hschema : schema.isObject = true) :
    allowed value schema = true ↔
      (∀ type, schema.find (bytes "type") = some type → typeHolds value type = true) ∧
      (∀ candidates, schema.find (bytes "enum") = some (.array candidates) →
        ∃ candidate ∈ candidates, same candidate value = true) ∧
      (∀ names, schema.find (bytes "required") = some (.array names) → value.isObject = true →
        ∀ name, .string name ∈ names → value.contains name = true) ∧
      (schema.find (bytes "additionalProperties") = some (.boolean false) → ∀ members, value = .object members →
        ∀ member ∈ members,
          ∃ properties, schema.find (bytes "properties") = some properties ∧ properties.contains member.1 = true) := by
  rw [allowed_object hschema, typeCheck_iff, enumCheck_iff, requiredCheck_iff, additionalCheck_iff]

theorem sizeOf_of_find {key : Bytes} {member : Json} (h : value.find key = some member) : sizeOf member < sizeOf value := by
  cases value with
  | object members =>
    obtain ⟨before, after, rfl, -⟩ := List.lookup_eq_some_iff.1 h
    have hmem := List.sizeOf_lt_of_mem (List.mem_append_right before (List.mem_cons_self (a := (key, member)) (l := after)))
    simp only [Json.object.sizeOf_spec, Prod.mk.sizeOf_spec] at hmem ⊢
    omega
  | _ => cases h

theorem allowed_of_valid (h : Valid value schema) : ∀ v s, Visits value schema v s → allowed v s = true := by
  induction h with
  | anything value =>
    rw [forall_visits]
    refine ⟨rfl, fun properties found => ?_, fun subschema found => ?_⟩ <;> cases found
  | keywords value schema isObject type enum required properties additional items ihproperties ihitems =>
    rw [forall_visits, allowed_iff isObject]
    exact ⟨⟨type, enum, required, additional⟩, ihproperties, ihitems⟩

theorem valid_of_allowed : ∀ value schema : Json, documented schema = true →
    (∀ v s, Visits value schema v s → allowed v s = true) → Valid value schema
  | value, schema, hdocumented, h => by
    rw [forall_visits] at h
    obtain ⟨hhere, hproperties, hitems⟩ := h
    rcases isObject_of_documented hdocumented with hschema | ⟨b, rfl⟩
    · obtain ⟨htype, henum, hrequired, hadditional⟩ := (allowed_iff hschema).1 hhere
      refine .keywords value schema hschema htype henum hrequired ?_ hadditional ?_
      · intro properties found key subschema listed member present
        have hsmaller := sizeOf_of_find present
        exact valid_of_allowed member subschema (documented_property hdocumented found listed)
          (hproperties properties found key subschema listed member present)
      · intro subschema found items heq item listed
        have hitem := List.sizeOf_lt_of_mem listed
        have hsmaller : sizeOf item < sizeOf value := by
          rw [heq, Json.array.sizeOf_spec]
          omega
        exact valid_of_allowed item subschema (documented_items hdocumented found)
          (hitems subschema found items heq item listed)
    · cases b with
      | false => cases hhere
      | true => exact .anything value
termination_by value => sizeOf value
decreasing_by all_goals omega

/-- **A schema allows what every pair visited allows.** -/
theorem valid_iff (h : documented schema = true) :
    Valid value schema ↔ ∀ v s, Visits value schema v s → allowed v s = true :=
  ⟨allowed_of_valid, valid_of_allowed value schema h⟩

end SchemaValid
end Mcp
