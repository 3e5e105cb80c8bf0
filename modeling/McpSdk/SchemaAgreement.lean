import McpSdk.SchemaChecks
/-!
# SchemaAgreement — where the validator and the schema part

Validator and schema visit the same pairs, so they can differ only where a single pair makes them differ: one of them
refuses there and the other does not.
-/
namespace Mcp
namespace SchemaValid

variable {text : JsonText Bytes} {value schema : Json}

/-! ## Where the two part -/

/-- The names a `type` lists. -/
def typeNames : Json → List Bytes
  | .string name => [name]
  | .array names => names.filterMap stringItem
  | _ => []

/-- A float without a fraction, where `type` lists `integer` and not `number`. -/
def wholeFloat : Json → Json → Bool
  | .numberFloat x, type =>
    isWhole x && (typeNames type).contains (bytes "integer") && !(typeNames type).contains (bytes "number")
  | _, _ => false

/-- Equal to the library or by value. -/
def alike (candidate value : Json) : Bool := candidate.equal value || same candidate value

/-- Some keyword refuses a pair either way. -/
def Refused (value schema : Json) : Prop :=
  ∃ v s, Visits value schema v s ∧ s.isObject = true ∧ keywordsHold typeHolds alike v s = false

/-- The schema `false`, or a candidate that only the library's `==` takes for the value. -/
def lenient (value schema : Json) : Bool :=
  match schema with
  | .boolean b => !b
  | schema => enumCheck Json.equal value schema && !enumCheck same value schema

/-- A float that is whole next to `integer`, or a candidate that the library's `==` misses. -/
def strict (value schema : Json) : Bool :=
  (schema.find (bytes "type")).any (wholeFloat value) || enumCheck same value schema && !enumCheck Json.equal value schema

def Lenient (value schema : Json) : Prop := ∃ v s, Visits value schema v s ∧ lenient v s = true

def Strict (value schema : Json) : Prop := ∃ v s, Visits value schema v s ∧ strict v s = true

theorem mem_knownTypes {name : Bytes} {holds : Json → Bool} (h : knownTypes.lookup name = some holds) :
    (name, holds) ∈ knownTypes := by
  obtain ⟨before, after, heq, -⟩ := List.lookup_eq_some_iff.1 h
  rw [heq]
  exact List.mem_append_right _ List.mem_cons_self

/-- The numbers that are no floats are whole. -/
theorem isWhole_int (n : Int) : isWhole ⟨n, 0⟩ = true := by simp [isWhole]

/-- A known name means more than the validator matches for whole floats, at `integer`. -/
theorem hasType_iff {name : Bytes} (h : (knownTypes.lookup name).isSome = true) :
    hasType value name = true ↔
      matchesType value name = true ∨ (name = bytes "integer" ∧ ∃ x, value = .numberFloat x ∧ isWhole x = true) := by
  obtain ⟨holds, hlookup⟩ := Option.isSome_iff_exists.1 h
  have hmem := mem_knownTypes hlookup
  rw [hasType, hlookup, Option.any_some]
  simp only [knownTypes, List.mem_cons, List.not_mem_nil, or_false, Prod.mk.injEq] at hmem
  rcases hmem with ⟨rfl, rfl⟩ | ⟨rfl, rfl⟩ | ⟨rfl, rfl⟩ | ⟨rfl, rfl⟩ | ⟨rfl, rfl⟩ | ⟨rfl, rfl⟩ | ⟨rfl, rfl⟩ <;>
    cases value <;> simp +decide [matchesType, number, isWhole_int, Json.isNumber, Json.isNumberInteger]

theorem any_stringItem {names : List Json} {p : Bytes → Bool} :
    names.any (fun name => (stringItem name).any p) = true ↔ ∃ name ∈ names.filterMap stringItem, p name = true := by
  rw [List.any_eq_true]
  simp only [mem_stringItems, Option.any_eq_true]
  constructor
  · rintro ⟨j, hmem, name, hj, hp⟩
    exact ⟨name, mem_stringItems.1 (List.mem_filterMap.2 ⟨j, hmem, hj⟩), hp⟩
  · rintro ⟨name, hmem, hp⟩
    exact ⟨.string name, hmem, name, rfl, hp⟩

variable {type : Json}

theorem typeHolds_names : typeHolds value type = true ↔ ∃ name ∈ typeNames type, hasType value name = true := by
  cases type with
  | string name => simp [typeHolds, typeNames]
  | array names => exact any_stringItem
  | _ => simp [typeHolds, typeNames]

theorem known_of_plain (h : plainKeyword (bytes "type") type = true) :
    ∀ name ∈ typeNames type, (knownTypes.lookup name).isSome = true := by
  intro name hname
  cases type with
  | string t =>
    obtain rfl := List.mem_singleton.1 hname
    simpa [plainKeyword, knownType, stringItem] using h
  | array names =>
    have hall : names.all knownType = true := by simpa [plainKeyword] using h
    exact List.all_eq_true.1 hall _ (mem_stringItems.1 hname)
  | _ => cases hname

theorem typeAllows_names (h : plainKeyword (bytes "type") type = true) :
    typeAllows value type = true ↔ ∃ name ∈ typeNames type, matchesType value name = true := by
  cases type with
  | string name => simp [typeAllows, typeNames]
  | array names => exact any_stringItem
  | _ => simp [plainKeyword, knownType, stringItem] at h

/-- A documented `type` means what the validator matches, and the whole floats at `integer`. -/
theorem typeHolds_iff (h : plainKeyword (bytes "type") type = true) :
    typeHolds value type = true ↔
      typeAllows value type = true ∨
        (bytes "integer" ∈ typeNames type ∧ ∃ x, value = .numberFloat x ∧ isWhole x = true) := by
  rw [typeHolds_names, typeAllows_names h]
  constructor
  · rintro ⟨name, hname, hholds⟩
    rcases (hasType_iff (known_of_plain h name hname)).1 hholds with hmatches | ⟨rfl, hfloat⟩
    · exact .inl ⟨name, hname, hmatches⟩
    · exact .inr ⟨hname, hfloat⟩
  · rintro (⟨name, hname, hmatches⟩ | ⟨hname, hfloat⟩)
    · exact ⟨name, hname, (hasType_iff (known_of_plain h name hname)).2 (.inl hmatches)⟩
    · exact ⟨_, hname, (hasType_iff (known_of_plain h _ hname)).2 (.inr ⟨rfl, hfloat⟩)⟩

/-- The validator takes a float for a `number` only. -/
theorem typeAllows_float (h : plainKeyword (bytes "type") type = true) {x : Double} :
    typeAllows (.numberFloat x) type = true ↔ bytes "number" ∈ typeNames type := by
  rw [typeAllows_names h]
  constructor
  · rintro ⟨name, hname, hmatches⟩
    obtain ⟨holds, hlookup⟩ := Option.isSome_iff_exists.1 (known_of_plain h name hname)
    have hmem := List.mem_map_of_mem (f := Prod.fst) (mem_knownTypes hlookup)
    simp only [knownTypes, List.map_cons, List.map_nil, List.mem_cons, List.not_mem_nil, or_false] at hmem
    rcases hmem with rfl | rfl | rfl | rfl | rfl | rfl | rfl
    case inr.inr.inr.inl => exact hname
    all_goals exact absurd hmatches (by simp +decide [matchesType, Json.isNumberInteger, Json.isObject, Json.isArray,
      Json.isString, Json.isBoolean, Json.isNull])
  · exact fun hname => ⟨_, hname, by simp +decide [matchesType, Json.isNumber]⟩

/-- `wholeFloat` is where a `type` holds that the validator does not match. -/
theorem wholeFloat_iff (h : plainKeyword (bytes "type") type = true) :
    wholeFloat value type = true ↔ typeHolds value type = true ∧ typeAllows value type = false := by
  rw [typeHolds_iff h, ← Bool.not_eq_true]
  constructor
  · intro hwhole
    unfold wholeFloat at hwhole
    split at hwhole
    · rename_i x
      simp only [Bool.and_eq_true, Bool.not_eq_true', List.contains_eq_mem, decide_eq_false_iff_not,
        decide_eq_true_eq] at hwhole
      rw [typeAllows_float h]
      exact ⟨.inr ⟨hwhole.1.2, x, rfl, hwhole.1.1⟩, hwhole.2⟩
    · cases hwhole
  · rintro ⟨hallows | ⟨hinteger, x, rfl, hwhole⟩, hnot⟩
    · exact absurd hallows hnot
    · rw [typeAllows_float h] at hnot
      simp [wholeFloat, hwhole, hinteger, hnot]

/-! ## Exactly where the two agree -/

theorem plain_type (h : documented schema = true) (found : schema.find (bytes "type") = some type) :
    plainKeyword (bytes "type") type = true := by
  have htype := documented_keyword h found
  rwa [if_neg (by decide), if_neg (by decide)] at htype

theorem typeCheck_of_allows (h : documented schema = true) (hallows : typeCheck typeAllows value schema = true) :
    typeCheck typeHolds value schema = true :=
  typeCheck_iff.2 fun type found => (typeHolds_iff (plain_type h found)).2 (.inl (typeCheck_iff.1 hallows type found))

theorem any_wholeFloat (h : documented schema = true) :
    (schema.find (bytes "type")).any (wholeFloat value) =
      (typeCheck typeHolds value schema && !typeCheck typeAllows value schema) := by
  unfold typeCheck
  cases found : schema.find (bytes "type") with
  | none => rfl
  | some type =>
    rw [Bool.eq_iff_iff]
    simpa using @wholeFloat_iff value type (plain_type h found)

theorem enumCheck_alike :
    enumCheck alike value schema = (enumCheck Json.equal value schema || enumCheck same value schema) := by
  unfold enumCheck
  generalize schema.find (bytes "enum") = found
  split
  · rename_i candidates
    induction candidates with
    | nil => rfl
    | cons candidate candidates ih =>
      rw [List.any_cons, List.any_cons, List.any_cons, ih, alike]
      ac_rfl
  · rfl

/-- What the validator refuses at a pair. -/
theorem passes_eq_false (h : documented schema = true) :
    passes value schema = false ↔
      (schema.isObject = true ∧ keywordsHold typeHolds alike value schema = false) ∨ strict value schema = true := by
  have htype := @typeCheck_of_allows value schema h
  rcases isObject_of_documented h with hschema | ⟨b, rfl⟩
  · unfold passes strict keywordsHold
    rw [any_wholeFloat h, enumCheck_alike, hschema]
    generalize typeCheck typeHolds value schema = holds at htype ⊢
    generalize typeCheck typeAllows value schema = allows at htype ⊢
    generalize enumCheck Json.equal value schema = equal
    generalize enumCheck same value schema = same
    generalize requiredCheck value schema = required
    generalize additionalCheck value schema = additional
    revert holds allows equal same required additional
    decide
  · simp [passes, strict, Json.isObject, Json.find, enumCheck]

/-- What the schema refuses at a pair. -/
theorem allowed_eq_false (h : documented schema = true) :
    allowed value schema = false ↔
      (schema.isObject = true ∧ keywordsHold typeHolds alike value schema = false) ∨ lenient value schema = true := by
  cases schema with
  | object keywords =>
    simp only [allowed, lenient, keywordsHold, enumCheck_alike, Json.isObject, true_and]
    generalize typeCheck typeHolds value (.object keywords) = holds
    generalize enumCheck Json.equal value (.object keywords) = equal
    generalize enumCheck same value (.object keywords) = same
    generalize requiredCheck value (.object keywords) = required
    generalize additionalCheck value (.object keywords) = additional
    revert holds equal same required additional
    decide
  | boolean b => simp [allowed, lenient, Json.isObject]
  | _ => cases h

theorem not_passes_iff (h : documented schema = true) :
    ¬ (validateSchema text value schema = .ok (.ok ())) ↔ Refused value schema ∨ Strict value schema := by
  rw [validateSchema_ok]
  push Not
  constructor
  · rintro ⟨v, s, hvisits, hpasses⟩
    rcases (passes_eq_false (documented_visits h hvisits)).1 (Bool.eq_false_iff.2 hpasses) with ⟨hobject, hrefused⟩ | hstrict
    · exact .inl ⟨v, s, hvisits, hobject, hrefused⟩
    · exact .inr ⟨v, s, hvisits, hstrict⟩
  · rintro (⟨v, s, hvisits, hobject, hrefused⟩ | ⟨v, s, hvisits, hstrict⟩)
    · have hpasses := (passes_eq_false (documented_visits h hvisits)).2 (.inl ⟨hobject, hrefused⟩)
      exact ⟨v, s, hvisits, Bool.eq_false_iff.1 hpasses⟩
    · have hpasses := (passes_eq_false (documented_visits h hvisits)).2 (.inr hstrict)
      exact ⟨v, s, hvisits, Bool.eq_false_iff.1 hpasses⟩

theorem not_valid_iff (h : documented schema = true) :
    ¬ Valid value schema ↔ Refused value schema ∨ Lenient value schema := by
  rw [valid_iff h]
  push Not
  constructor
  · rintro ⟨v, s, hvisits, hallowed⟩
    have hrefuses := (allowed_eq_false (documented_visits h hvisits)).1 (Bool.eq_false_iff.2 hallowed)
    rcases hrefuses with ⟨hobject, hrefused⟩ | hlenient
    · exact .inl ⟨v, s, hvisits, hobject, hrefused⟩
    · exact .inr ⟨v, s, hvisits, hlenient⟩
  · rintro (⟨v, s, hvisits, hobject, hrefused⟩ | ⟨v, s, hvisits, hlenient⟩)
    · have hallowed := (allowed_eq_false (documented_visits h hvisits)).2 (.inl ⟨hobject, hrefused⟩)
      exact ⟨v, s, hvisits, Bool.eq_false_iff.1 hallowed⟩
    · have hallowed := (allowed_eq_false (documented_visits h hvisits)).2 (.inr hlenient)
      exact ⟨v, s, hvisits, Bool.eq_false_iff.1 hallowed⟩

/-- **The validator agrees with the schema exactly when some keyword refuses the value either way, or a lenient pair and a
strict one come together.** -/
theorem validateSchema_iff (text : JsonText Bytes) (value schema : Json) (h : documented schema = true) :
    (validateSchema text value schema = .ok (.ok ()) ↔ Valid value schema) ↔
      Refused value schema ∨ (Lenient value schema ↔ Strict value schema) := by
  have hcode := @not_passes_iff text value schema h
  have hmeaning := @not_valid_iff value schema h
  tauto

def integerSchema : Json := .object [(bytes "type", .string (bytes "integer"))]

/-- An object with an integer `count`. -/
def countSchema : Json :=
  .object [(bytes "properties", .object [(bytes "count", integerSchema)]), (bytes "type", .string (bytes "object"))]

def plainText : JsonText Bytes := tableText (fun _ => bytes "3.0") []

theorem validateSchema_iff_count :
    (validateSchema plainText (.object [(bytes "count", .numberUnsigned 2)]) countSchema = .ok (.ok ()) ↔
      Valid (.object [(bytes "count", .numberUnsigned 2)]) countSchema) ↔
      Refused (.object [(bytes "count", .numberUnsigned 2)]) countSchema ∨
        (Lenient (.object [(bytes "count", .numberUnsigned 2)]) countSchema ↔
          Strict (.object [(bytes "count", .numberUnsigned 2)]) countSchema) :=
  validateSchema_iff plainText (.object [(bytes "count", .numberUnsigned 2)]) countSchema (by decide)

/-- The schema `false` accepts `null`, and `3.0` is refused where an integer is asked for. -/
theorem falseSchema_accepts :
    documented (.boolean false) = true ∧ validateSchema plainText .null (.boolean false) = .ok (.ok ()) ∧
    ¬ Valid .null (.boolean false) ∧
    documented integerSchema = true ∧ ¬ (validateSchema plainText (.numberFloat ⟨3, 0⟩) integerSchema = .ok (.ok ())) ∧
    Valid (.numberFloat ⟨3, 0⟩) integerSchema := by
  have hinteger : documented integerSchema = true := by decide
  refine ⟨rfl, rfl, ?_, hinteger, ?_, ?_⟩
  · intro h
    exact absurd (allowed_of_valid h _ _ (.here _ _)) (by decide)
  · rw [validateSchema_ok]
    intro h
    exact absurd (h _ _ (.here _ _)) (by decide)
  · rw [valid_iff hinteger, forall_visits]
    refine ⟨by decide, fun properties found => ?_, fun subschema found => ?_⟩ <;> cases found

end SchemaValid
end Mcp
