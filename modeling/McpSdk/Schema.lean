import McpSdk.Message
/-!
# Schema — `detail::validate_schema`

The subset of JSON Schema the SDK checks: `type`, `enum`, `required`, `properties`, `additionalProperties` and `items`.
A check returns the first violation as an `Error`; `dump()` of the expected type may throw.
-/
namespace Mcp

/-! ## Equality of values -/

/-- `==` of two doubles. -/
def Double.equal (x y : Double) : Bool :=
  let k := min x.exponent y.exponent
  decide (x.mantissa * 2 ^ (x.exponent - k).toNat = y.mantissa * 2 ^ (y.exponent - k).toNat)

mutual

/-- `==` of two values: numbers compare across their types, an unsigned one cast to `int64_t` next to a signed one. -/
def Json.equal : Json → Json → Bool
  | .null, .null => true
  | .boolean a, .boolean b => a == b
  | .string a, .string b => a == b
  | .numberInteger a, .numberInteger b => a == b
  | .numberInteger a, .numberUnsigned b => a == b.toInt64
  | .numberInteger a, .numberFloat b => (Double.ofInt a.toInt).equal b
  | .numberUnsigned a, .numberInteger b => a.toInt64 == b
  | .numberUnsigned a, .numberUnsigned b => a == b
  | .numberUnsigned a, .numberFloat b => (Double.ofInt a.toNat).equal b
  | .numberFloat a, .numberInteger b => a.equal (Double.ofInt b.toInt)
  | .numberFloat a, .numberUnsigned b => a.equal (Double.ofInt b.toNat)
  | .numberFloat a, .numberFloat b => a.equal b
  | .array a, .array b => equalItems a b
  | .object a, .object b => equalMembers a b
  | _, _ => false

def equalItems : List Json → List Json → Bool
  | [], [] => true
  | a :: as, b :: bs => a.equal b && equalItems as bs
  | _, _ => false

def equalMembers : List (Bytes × Json) → List (Bytes × Json) → Bool
  | [], [] => true
  | (k, a) :: as, (l, b) :: bs => k == l && a.equal b && equalMembers as bs
  | _, _ => false

end

/-! ## Checks -/

/-- A check passes, fails with an `Error`, or throws. -/
abbrev Check := ExceptT Error (Except JsonException) Unit

/-- `matches_type`; unknown type names are not enforced. -/
def matchesType (value : Json) (type : Bytes) : Bool :=
  if type = bytes "object" then value.isObject
  else if type = bytes "array" then value.isArray
  else if type = bytes "string" then value.isString
  else if type = bytes "number" then value.isNumber
  else if type = bytes "integer" then value.isNumberInteger
  else if type = bytes "boolean" then value.isBoolean
  else if type = bytes "null" then value.isNull
  else true

def invalid (path what : Bytes) : Error :=
  Error.of .invalidParams ((if path = [] then bytes "value" else path) ++ bytes " " ++ what)

def stringItem : Json → Option Bytes
  | .string s => some s
  | _ => none

/-- What `type` allows: one name, or any of an array of names. -/
def typeAllows (value : Json) : Json → Bool
  | .string type => matchesType value type
  | .array types => types.any (fun t => (stringItem t).any (matchesType value))
  | _ => true

def checkType (text : JsonText Bytes) (value schema : Json) (path : Bytes) : Check :=
  match schema.find (bytes "type") with
  | none => pure ()
  | some type =>
    if typeAllows value type then pure ()
    else do
      let shown ← ExceptT.lift (text.dump type)
      throw (invalid path (bytes "has wrong type (expected " ++ shown ++ bytes ")"))

def checkEnum (value schema : Json) (path : Bytes) : Check :=
  match schema.find (bytes "enum") with
  | some (.array candidates) =>
    if candidates.any (fun candidate => candidate.equal value) then pure ()
    else throw (invalid path (bytes "is not one of the allowed values"))
  | _ => pure ()

def checkRequired (value schema : Json) (path : Bytes) : Check :=
  match schema.find (bytes "required") with
  | some (.array names) =>
    match (names.filterMap stringItem).find? (fun name => !value.contains name) with
    | some name => throw (invalid path (bytes "is missing required property '" ++ name ++ bytes "'"))
    | none => pure ()
  | _ => pure ()

/-- `additionalProperties: false`; without a `properties` object no key is allowed. -/
def checkAdditional (members : List (Bytes × Json)) (schema : Json) (path : Bytes) : Check :=
  match schema.find (bytes "additionalProperties") with
  | some (.boolean false) =>
    let allowed (key : Bytes) : Bool := ((schema.find (bytes "properties")).getD .null).contains key
    match members.find? (fun member => !allowed member.1) with
    | some member => throw (invalid path (bytes "has unexpected property '" ++ member.1 ++ bytes "'"))
    | none => pure ()
  | _ => pure ()

/-- The loop over `properties`, in key order; `check` validates a member of the value, if it has the key. -/
def checkProperties (check : Bytes → Option (Json → Bytes → Check)) (path : Bytes) : List (Bytes × Json) → Check
  | [] => pure ()
  | (key, schema) :: properties => do
    match check key with
    | some validate => validate schema (path ++ bytes "/" ++ key)
    | none => pure ()
    checkProperties check path properties

mutual

def validateAt (text : JsonText Bytes) : Json → Json → Bytes → Check
  | .object members, schema, path =>
    if !schema.isObject then pure ()
    else do
      checkType text (.object members) schema path
      checkEnum (.object members) schema path
      checkRequired (.object members) schema path
      match schema.find (bytes "properties") with
      | some (.object properties) =>
        checkProperties (fun key => (memberChecks text members).lookup key) path properties
      | _ => pure ()
      checkAdditional members schema path
  | .array items, schema, path =>
    if !schema.isObject then pure ()
    else do
      checkType text (.array items) schema path
      checkEnum (.array items) schema path
      match schema.find (bytes "items") with
      | some (.object itemSchema) => validateItems text items (.object itemSchema) path 0
      | _ => pure ()
  | value, schema, path =>
    if !schema.isObject then pure ()
    else do
      checkType text value schema path
      checkEnum value schema path

/-- The check of each member of an object. -/
def memberChecks (text : JsonText Bytes) : List (Bytes × Json) → List (Bytes × (Json → Bytes → Check))
  | [] => []
  | (key, value) :: members => (key, fun schema path => validateAt text value schema path) :: memberChecks text members

def validateItems (text : JsonText Bytes) : List Json → Json → Bytes → Nat → Check
  | [], _, _, _ => pure ()
  | element :: items, schema, path, index => do
    validateAt text element schema (path ++ bytes "/" ++ decimal index)
    validateItems text items schema path (index + 1)

end

def validateSchema (text : JsonText Bytes) (value schema : Json) : Except JsonException (Result Unit) :=
  (validateAt text value schema []).run

end Mcp
