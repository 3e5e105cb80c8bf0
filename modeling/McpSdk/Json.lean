import McpSdk.Bytes
import McpSdk.Lib.Utf8
/-!
# Json — `nlohmann::json` as the SDK uses it

A value keeps the library's number types apart: a non-negative literal of the wire is `number_unsigned`, a C++ integer
and a negative literal are `number_integer`, and `get<int64_t>()` of the former is a `static_cast`.  Accesses that throw
return `Except JsonException`; their texts are the library's.
-/
namespace Mcp

/-- A finite `double`: `mantissa · 2 ^ exponent`. -/
structure Double where
  mantissa : Int
  exponent : Int
  deriving DecidableEq, Repr

/-- The nearest double of an integer, ties to even. -/
def Double.ofInt (n : Int) : Double :=
  let a := n.natAbs
  let k := a.log2 - 52
  let q := a / 2 ^ k
  let r := a % 2 ^ k
  let q' := if 2 ^ k < 2 * r ∨ (k ≠ 0 ∧ 2 ^ k = 2 * r ∧ q % 2 = 1) then q + 1 else q
  ⟨n.sign * q', k⟩

/-- Truncation towards zero. -/
def Double.trunc (x : Double) : Int :=
  if 0 ≤ x.exponent then x.mantissa * 2 ^ x.exponent.toNat else x.mantissa.tdiv (2 ^ (-x.exponent).toNat)

/-- `nlohmann::json`.  The members of an object are in key order, as `std::map` keeps them. -/
inductive Json where
  | null
  | boolean (b : Bool)
  | numberInteger (n : Int64)
  | numberUnsigned (n : UInt64)
  | numberFloat (x : Double)
  | string (s : Bytes)
  | array (items : List Json)
  | object (members : List (Bytes × Json))

instance : Inhabited Json := ⟨.null⟩

/-- `json::exception`: the id of the library and what follows the bracket in `what()`. -/
structure JsonException where
  name : Bytes
  id : Nat
  text : Bytes
  deriving DecidableEq, Repr

def JsonException.what (e : JsonException) : Bytes :=
  bytes "[json.exception." ++ e.name ++ bytes "." ++ decimal e.id ++ bytes "] " ++ e.text

def typeError (id : Nat) (text : Bytes) : JsonException := ⟨bytes "type_error", id, text⟩

def outOfRange (id : Nat) (text : Bytes) : JsonException := ⟨bytes "out_of_range", id, text⟩

namespace Json

def isNull : Json → Bool
  | null => true
  | _ => false

def isObject : Json → Bool
  | object _ => true
  | _ => false

def isArray : Json → Bool
  | array _ => true
  | _ => false

def isString : Json → Bool
  | string _ => true
  | _ => false

def isBoolean : Json → Bool
  | boolean _ => true
  | _ => false

def isNumberInteger : Json → Bool
  | numberInteger _ => true
  | numberUnsigned _ => true
  | _ => false

def isNumber : Json → Bool
  | numberInteger _ => true
  | numberUnsigned _ => true
  | numberFloat _ => true
  | _ => false

def typeName : Json → Bytes
  | null => bytes "null"
  | boolean _ => bytes "boolean"
  | numberInteger _ => bytes "number"
  | numberUnsigned _ => bytes "number"
  | numberFloat _ => bytes "number"
  | string _ => bytes "string"
  | array _ => bytes "array"
  | object _ => bytes "object"

/-- `j.find(key)`; `none` is `j.end()`, also for a value that is no object. -/
def find : Json → Bytes → Option Json
  | object members, key => members.lookup key
  | _, _ => none

/-- `j.contains(key)`. -/
def contains (j : Json) (key : Bytes) : Bool := (j.find key).isSome

/-- The `type_error` 302 of a `get<T>()` on a value of the wrong type. -/
def wrongType (expected : Bytes) (j : Json) : JsonException :=
  typeError 302 (bytes "type must be " ++ expected ++ bytes ", but is " ++ j.typeName)

/-- `j.at(key)`. -/
def at_ (j : Json) (key : Bytes) : Except JsonException Json :=
  if j.isObject then
    match j.find key with
    | some v => .ok v
    | none => .error (outOfRange 403 (bytes "key '" ++ key ++ bytes "' not found"))
  else .error (typeError 304 (bytes "cannot use at() with " ++ j.typeName))

/-- `j.value(key, fallback)` with a JSON fallback. -/
def value (j : Json) (key : Bytes) (fallback : Json) : Except JsonException Json :=
  if j.isObject then .ok ((j.find key).getD fallback)
  else .error (typeError 306 (bytes "cannot use value() with " ++ j.typeName))

/-- `get<std::string>()`. -/
def getString : Json → Except JsonException Bytes
  | string s => .ok s
  | j => .error (wrongType (bytes "string") j)

/-- `get<bool>()`. -/
def getBool : Json → Except JsonException Bool
  | boolean b => .ok b
  | j => .error (wrongType (bytes "boolean") j)

/-- `get<double>()`. -/
def getDouble : Json → Except JsonException Double
  | numberUnsigned n => .ok (Double.ofInt n.toNat)
  | numberInteger n => .ok (Double.ofInt n.toInt)
  | numberFloat x => .ok x
  | j => .error (wrongType (bytes "number") j)

/-- `get<std::int64_t>()`. -/
def getInt64 : Json → Except JsonException Int64
  | numberUnsigned n => .ok n.toInt64
  | numberInteger n => .ok n
  | numberFloat x => .ok (Int64.ofInt x.trunc)
  | j => .error (wrongType (bytes "number") j)

/-- `get<int>()`; unlike the 64-bit types, `int` also takes a boolean. -/
def getInt32 : Json → Except JsonException Int32
  | numberUnsigned n => .ok n.toInt64.toInt32
  | numberInteger n => .ok n.toInt32
  | numberFloat x => .ok (Int32.ofInt x.trunc)
  | boolean b => .ok (if b then 1 else 0)
  | j => .error (wrongType (bytes "number") j)

/-- `get<std::vector<T>>()`. -/
def getArray {α : Type} (get : Json → Except JsonException α) : Json → Except JsonException (List α)
  | array items => items.mapM get
  | j => .error (wrongType (bytes "array") j)

/-- `j.value(key, fallback)` with a fallback of the type that is read. -/
def valueAs {α : Type} (j : Json) (key : Bytes) (get : Json → Except JsonException α) (fallback : α) :
    Except JsonException α :=
  if j.isObject then
    match j.find key with
    | some v => get v
    | none => .ok fallback
  else .error (typeError 306 (bytes "cannot use value() with " ++ j.typeName))

end Json

/-! ## Building objects -/

/-- The members of an object under construction. -/
abbrev Members := List (Bytes × Json)

/-- `j[key] = v` on an object: replaces, or inserts at the key's place. -/
def Members.set (key : Bytes) (v : Json) : Members → Members
  | [] => [(key, v)]
  | (k, w) :: ms =>
    if key < k then (key, v) :: (k, w) :: ms
    else if key = k then (key, v) :: ms
    else (k, w) :: Members.set key v ms

/-- `detail::set_optional`: an absent value is left out. -/
def setOptional {α : Type} (key : Bytes) (toJson : α → Json) (value : Option α) (ms : Members) : Members :=
  match value with
  | some v => Members.set key (toJson v) ms
  | none => ms

/-- `detail::get_optional`: a missing or null key leaves the optional empty, any other value is read with `get<T>()`. -/
def getOptional {α : Type} (j : Json) (key : Bytes) (get : Json → Except JsonException α) :
    Except JsonException (Option α) :=
  match j.find key with
  | none => .ok none
  | some v => if v.isNull then .ok none else (get v).map some

theorem lookup_set (key k : Bytes) (v : Json) : ∀ ms : Members,
    (Members.set key v ms).lookup k = if k = key then some v else ms.lookup k
  | [] => by
    by_cases h : k = key
    · simp [Members.set, h]
    · simp [Members.set, h, List.lookup_cons, beq_eq_false_iff_ne.2 h]
  | (k', w) :: ms => by
    unfold Members.set
    split
    · by_cases h : k = key
      · simp [h]
      · simp [h, List.lookup_cons, beq_eq_false_iff_ne.2 h]
    · split
      · rename_i _ hk
        subst hk
        by_cases h : k = key
        · simp [h]
        · simp [h, List.lookup_cons, beq_eq_false_iff_ne.2 h]
      · rename_i _ hk
        rw [List.lookup_cons, List.lookup_cons, lookup_set key k v ms]
        by_cases h : k = key
        · subst h
          simp [beq_eq_false_iff_ne.2 hk]
        · simp [h]

@[simp] theorem find_set (key k : Bytes) (v : Json) (ms : Members) :
    (Json.object (Members.set key v ms)).find k = if k = key then some v else (Json.object ms).find k :=
  lookup_set key k v ms

/-! ## Strings that `dump()` accepts -/

mutual

/-- Every string of the value, its keys included, is well-formed UTF-8. -/
def Json.validUtf8 : Json → Bool
  | .string s => Utf8.valid s
  | .array items => validUtf8Items items
  | .object members => validUtf8Members members
  | _ => true

def validUtf8Items : List Json → Bool
  | [] => true
  | j :: items => j.validUtf8 && validUtf8Items items

def validUtf8Members : List (Bytes × Json) → Bool
  | [] => true
  | (k, j) :: members => Utf8.valid k && j.validUtf8 && validUtf8Members members

end

end Mcp
